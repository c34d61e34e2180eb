import Toolshed.Session
import Toolshed.Text.Json

namespace Toolshed

/-!
# Options

What users can choose about a compilation.
-/

structure Options where
  profile : Profile
  level : Level
  target : Target
  deriving Repr, DecidableEq

namespace Options

def standard : Options :=
  ⟨.default, .none, .browser⟩

def compiler (options : Options) : Compiler :=
  ⟨options.profile, options.level, options.target.linkage⟩

/--
The name that a JSON value stands for: a text, or an object whose only field has
it as its key and nothing as its value.
-/
def jsonName? : Json → Option String
  | .string name => some name
  | .object [(name, .null)] => some name
  | _ => none

def choice? (choices : List α) (text : α → String) (json : Json) : Option α := do
  let name ← jsonName? json
  choices.find? fun choice => text choice = name

def withProfile (options : Options) : Option Json → Option Options
  | none => some options
  | some json => do
    let profile ← choice? Profile.all Profile.text json
    return { options with profile := profile }

def withLevel (options : Options) : Option Json → Option Options
  | none => some options
  | some json => do
    let level ← choice? Level.all Level.text json
    return { options with level := level }

def withTarget (options : Options) : Option Json → Option Options
  | none => some options
  | some json => do
    let target ← choice? Target.all Target.text json
    return { options with target := target }

def ofParts? (profile level target : Option Json) : Option Options := do
  let options ← standard.withProfile profile
  let options ← options.withLevel level
  options.withTarget target

/--
Options from JSON: the fields of an object, or the first entries of a list. What
is missing has its standard value, and fields of other names do not count.
-/
def ofJson? : Json → Option Options
  | .object fields =>
    ofParts? (fields.lookup "profile") (fields.lookup "optimisation-level")
      (fields.lookup "target")
  | .array entries =>
    if entries.length ≤ 3 then ofParts? entries[0]? entries[1]? entries[2]? else none
  | _ => none

def toJson (options : Options) : Json :=
  .object [("profile", .string options.profile.text),
    ("optimisation-level", .string options.level.text), ("target", .string options.target.text)]

end Options

end Toolshed
