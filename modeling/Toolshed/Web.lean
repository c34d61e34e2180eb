import Toolshed.Options

namespace Toolshed

/-!
# Answers to web pages

A page sends a text and gets back its tokens, what is wrong with it, and its
script.
-/

namespace Web

def token (token : Token) : Json :=
  .object [("position", token.range.start.json), ("value", .string (token.value.getD "")),
    ("rawText", .string token.raw), ("kind", .string token.kind.category)]

def report (report : Report) : Json :=
  .object [("module", .string report.modulePath.text), ("description", .string report.description),
    ("start", report.range.start.json), ("end", report.range.stop.json)]

def response (compilation : Compilation) : Json :=
  .object ([("tokens", .array (compilation.tokens.map token)),
    ("errors", .array (compilation.reports.map report))] ++
    (compilation.javascript.toList.map fun script => ("javascript", .string script)) ++
    [("success", .boolean compilation.success)])

def refusal (message : String) : Json :=
  .object [("error", .string message)]

def compiler (level : Level) : Compiler :=
  Options.compiler ⟨.browser, level, .browser⟩

def answerAt (source : String) (level : Level) : Json :=
  match (compiler level).compileSource source with
  | .ok compilation => response compilation
  | .error breakdown => refusal breakdown.message

/--
The answer to a text at a level by its name; without a name no work is done on
the script.
-/
def answer (source : String) : (levelName : Option String) → Json
  | none => answerAt source .none
  | some name =>
    match Level.ofText? name with
    | some level => answerAt source level
    | none => refusal (Level.refusal name)

def answerText (source : String) (levelName : Option String) : String :=
  (answer source levelName).compact

end Web

end Toolshed
