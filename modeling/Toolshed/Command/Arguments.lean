import Toolshed.Options

namespace Toolshed

/-!
# Arguments of the command

An option takes one value: the next argument, the rest of the argument after its
letter, or what follows an equals sign. After `--` there are no options.
-/

inductive Emission where
  | javascript
  | json
  deriving Repr, DecidableEq

namespace Emission

def text : Emission → String
  | .javascript => "js"
  | .json => "json"

def ofText? (word : String) : Option Emission :=
  [javascript, json].find? fun emission => emission.text = word

end Emission

inductive Flag where
  | module
  | root
  | level
  | profile
  | target
  | emission
  | output
  deriving Repr, DecidableEq

namespace Flag

def all : List Flag :=
  [.module, .root, .level, .profile, .target, .emission, .output]

def long : Flag → String
  | .module => "module"
  | .root => "root"
  | .level => "optimisation-level"
  | .profile => "profile"
  | .target => "target"
  | .emission => "emit"
  | .output => "output"

def short : Flag → Char
  | .module => 'm'
  | .root => 'r'
  | .level => 'O'
  | .profile => 'p'
  | .target => 't'
  | .emission => 'e'
  | .output => 'o'

def ofLong? (name : String) : Option Flag :=
  all.find? fun flag => flag.long = name

def ofShort? (letter : Char) : Option Flag :=
  all.find? fun flag => flag.short = letter

end Flag

inductive Argument where
  | positional (value : String)
  | complete (flag : Flag) (value : String)
  | awaiting (flag : Flag)
  | unknown
  deriving Repr, DecidableEq

namespace Argument

def ofLong (characters : List Char) : Argument :=
  let name := String.ofList (characters.takeWhile fun character => character ≠ '=')
  match Flag.ofLong? name, characters.dropWhile fun character => character ≠ '=' with
  | none, _ => .unknown
  | some flag, [] => .awaiting flag
  | some flag, _ :: value => .complete flag (String.ofList value)

def ofShort (letter : Char) (rest : List Char) : Argument :=
  match Flag.ofShort? letter, rest with
  | none, _ => .unknown
  | some flag, [] => .awaiting flag
  | some flag, '=' :: value => .complete flag (String.ofList value)
  | some flag, value => .complete flag (String.ofList value)

def ofText (argument : String) : Argument :=
  match argument.toList with
  | '-' :: '-' :: characters => ofLong characters
  | '-' :: letter :: rest => ofShort letter rest
  | _ => .positional argument

def isValue (argument : String) : Bool :=
  match argument.toList with
  | '-' :: _ :: _ => false
  | _ => true

end Argument

structure ArgumentList where
  flags : List (Flag × String)
  positionals : List String
  deriving Repr, DecidableEq

namespace ArgumentList

def read : List String → Option ArgumentList
  | [] => some ⟨[], []⟩
  | argument :: rest =>
    if argument = "--" then
      some ⟨[], rest⟩
    else
      match Argument.ofText argument with
      | .unknown => none
      | .positional value => do
        let others ← read rest
        return { others with positionals := value :: others.positionals }
      | .complete flag value => do
        let others ← read rest
        return { others with flags := (flag, value) :: others.flags }
      | .awaiting flag =>
        match rest with
        | [] => none
        | value :: rest =>
          if Argument.isValue value then do
            let others ← read rest
            return { others with flags := (flag, value) :: others.flags }
          else
            none

def values (arguments : ArgumentList) (flag : Flag) : List String :=
  arguments.flags.filterMap fun (other, value) => if other = flag then some value else none

def value? (arguments : ArgumentList) (flag : Flag) : Option (Option String) :=
  match arguments.values flag with
  | [] => some none
  | [only] => some (some only)
  | _ => none

def choice?
    (arguments : ArgumentList)
    (flag : Flag)
    (standard : α)
    (read : String → Option α) :
    Option α := do
  match ← arguments.value? flag with
  | none => return standard
  | some word => read word

end ArgumentList

inductive Entry where
  | file (path : String)
  | module (path : ModulePath)
  deriving Repr, DecidableEq

structure Arguments where
  entry : Entry
  roots : List String
  options : Options
  emission : Emission
  output : Option String
  deriving Repr, DecidableEq

namespace Arguments

def isPath (path : String) : Bool :=
  !path.isEmpty

def entry? (positionals : List String) (moduleName : Option String) : Option Entry :=
  match positionals, moduleName with
  | [path], none => if isPath path then some (.file path) else none
  | [], some name => some (.module (ModulePath.parse name))
  | _, _ => none

def read? (arguments : List String) : Option Arguments := do
  let found ← ArgumentList.read arguments
  let moduleName ← found.value? .module
  let entry ← entry? found.positionals moduleName
  let level ← found.choice? .level Options.standard.level Level.ofText?
  let profile ← found.choice? .profile Options.standard.profile Profile.ofText?
  let target ← found.choice? .target Options.standard.target Target.ofText?
  let emission ← found.choice? .emission .javascript Emission.ofText?
  let output ← found.value? .output
  let roots := found.values .root
  if roots.all isPath && output.all isPath then
    return ⟨entry, roots, ⟨profile, level, target⟩, emission, output⟩
  else
    none

end Arguments

end Toolshed
