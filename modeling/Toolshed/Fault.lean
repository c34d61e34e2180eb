import Toolshed.ModulePath
import Toolshed.Syntax.Operator
import Toolshed.Text.Escaped
import Toolshed.Token.Basic

namespace Toolshed

/-!
# Faults

A fault is the cause of a diagnostic. The kind of a fault says which stage of a
compilation found it, and `Fault.message` has the words that users read. Types
appear in faults as they are displayed.
-/

inductive FaultKind where
  | lexical
  | grammatical
  | name
  | type
  | moduleResolution
  | internal
  deriving Repr, DecidableEq

namespace FaultKind

def all : List FaultKind :=
  [.lexical, .grammatical, .name, .type, .moduleResolution, .internal]

def text : FaultKind → String
  | .lexical => "lexical"
  | .grammatical => "syntax"
  | .name => "name"
  | .type => "type"
  | .moduleResolution => "module resolution"
  | .internal => "internal"

def capitalised : FaultKind → String
  | .lexical => "Lexical"
  | .grammatical => "Syntax"
  | .name => "Name"
  | .type => "Type"
  | .moduleResolution => "Module resolution"
  | .internal => "Internal"

def tag : FaultKind → String
  | .lexical => "lexical"
  | .grammatical => "syntax"
  | .name => "name"
  | .type => "type"
  | .moduleResolution => "module-resolution"
  | .internal => "internal"

def ofTag? (word : String) : Option FaultKind :=
  all.find? fun kind => kind.tag = word

end FaultKind

def maxNesting : Nat :=
  200

inductive Fault where
  | unrecognisedCharacter (character : Char)
  | invalidEscape (character : Char)
  | openComment
  | openString
  | expectedTopLevel (found : TokenKind)
  | lateImport
  | expectedMember (found : TokenKind)
  | duplicateParameter (name : String)
  | expectedExpression (found : TokenKind)
  | expectedLambdaBody (found : TokenKind)
  | invalidNumber (digits : String)
  | invalidTarget
  | expectedType (found : TokenKind)
  | expectedToken (wanted found : TokenKind)
  | expectedIdentifier (found : TokenKind)
  | expectedTerminator (found : TokenKind)
  | tooDeep
  | duplicateName (name : String)
  | duplicateMember (name owner : String)
  | undefinedName (name : String)
  | undefinedType (name : String)
  | immutableTarget (name : String)
  | pendingType (name : String)
  | usedEarly (name : String)
  | usedEarlyThrough (name through : String)
  | missingReturn (result : String)
  | strayReturn
  | wrongReturn (expected found : String)
  | wrongCondition (keyword : Keyword) (found : String)
  | wrongAssignment (value name target : String)
  | wrongInitialiser (name declared found : String)
  | incomparable (left right : String)
  | wrongOperands (operator : BinaryOp) (left right : String)
  | wrongOperand (operator : UnaryOp) (operand : String)
  | wrongArgumentCount (expected found : Nat)
  | wrongArgument (index : Nat) (expected found : String)
  | notCallable (type : String)
  | unknownMember (type name : String)
  | notAType (name : String)
  | missingModule (path : ModulePath)
  /--
  Modules that import each other in a circle; the last one repeats the first.
  -/
  | importCycle (chain : List ModulePath)
  | unreadableModule (reason : String)
  | stated (kind : FaultKind) (message : String)
  deriving Repr, DecidableEq

namespace Fault

def kind : Fault → FaultKind
  | .unrecognisedCharacter _ | .invalidEscape _ | .openComment | .openString => .lexical
  | .expectedTopLevel _ | .lateImport | .expectedMember _ | .duplicateParameter _
  | .expectedExpression _ | .expectedLambdaBody _ | .invalidNumber _ | .invalidTarget
  | .expectedType _ | .expectedToken _ _ | .expectedIdentifier _ | .expectedTerminator _
  | .tooDeep => .grammatical
  | .duplicateName _ | .duplicateMember _ _ | .undefinedName _ | .undefinedType _
  | .immutableTarget _ | .pendingType _ | .usedEarly _ | .usedEarlyThrough _ _ => .name
  | .missingReturn _ | .strayReturn | .wrongReturn _ _ | .wrongCondition _ _
  | .wrongAssignment _ _ _ | .wrongInitialiser _ _ _ | .incomparable _ _ | .wrongOperands _ _ _
  | .wrongOperand _ _ | .wrongArgumentCount _ _ | .wrongArgument _ _ _ | .notCallable _
  | .unknownMember _ _ | .notAType _ => .type
  | .missingModule _ | .importCycle _ | .unreadableModule _ => .moduleResolution
  | .stated kind _ => kind

def quoted (text : String) : String :=
  "'" ++ text ++ "'"

def message : Fault → String
  | .unrecognisedCharacter character =>
    "unrecognised character " ++ quoted (Escaped.character character)
  | .invalidEscape character =>
    "invalid escape sequence " ++ quoted ("\\" ++ Escaped.character character)
  | .openComment => "unterminated comment"
  | .openString => "unterminated string literal"
  | .expectedTopLevel found =>
    "expected 'import', 'let', 'var', 'fun' or 'class', got " ++ quoted found.text
  | .lateImport => "imports must precede declarations"
  | .expectedMember found =>
    "expected 'let', 'var' or 'fun' in class body, got " ++ quoted found.text
  | .duplicateParameter name => "duplicate parameter " ++ quoted name
  | .expectedExpression found => "expected expression, got " ++ quoted found.text
  | .expectedLambdaBody found =>
    "expected '=>' or '\x7b' after lambda parameters, got " ++ quoted found.text
  | .invalidNumber digits => "invalid number literal " ++ quoted digits
  | .invalidTarget => "invalid assignment target"
  | .expectedType found => "expected type, got " ++ quoted found.text
  | .expectedToken wanted found =>
    "expected " ++ quoted wanted.text ++ ", got " ++ quoted found.text
  | .expectedIdentifier found => "expected identifier, got " ++ quoted found.text
  | .expectedTerminator found => "expected ';' or a line break, got " ++ quoted found.text
  | .tooDeep => "nesting is too deep (more than " ++ toString maxNesting ++ " levels)"
  | .duplicateName name => "duplicate name " ++ quoted name
  | .duplicateMember name owner =>
    "duplicate member " ++ quoted name ++ " in class " ++ quoted owner
  | .undefinedName name => "undefined name " ++ quoted name
  | .undefinedType name => "undefined type " ++ quoted name
  | .immutableTarget name =>
    "cannot assign to " ++ quoted name ++ ": only 'var' bindings can be assigned"
  | .pendingType name => quoted name ++ " is used before its type is known"
  | .usedEarly name => quoted name ++ " is used before it is initialised"
  | .usedEarlyThrough name through =>
    quoted name ++ " is used before it is initialised, through " ++ quoted through
  | .missingReturn result => "missing return: function must return " ++ result
  | .strayReturn => "'return' outside of a function"
  | .wrongReturn expected found => "expected return type " ++ expected ++ ", got " ++ found
  | .wrongCondition keyword found =>
    quoted keyword.text ++ " condition must be Boolean, got " ++ found
  | .wrongAssignment value name target =>
    "cannot assign " ++ value ++ " to " ++ quoted name ++ " of type " ++ target
  | .wrongInitialiser name declared found =>
    quoted name ++ " is declared " ++ declared ++ " but initialised with " ++ found
  | .incomparable left right => "cannot compare " ++ left ++ " and " ++ right
  | .wrongOperands operator left right =>
    "cannot apply " ++ quoted operator.symbol ++ " to " ++ left ++ " and " ++ right
  | .wrongOperand operator operand =>
    "cannot apply " ++ quoted operator.symbol ++ " to " ++ operand
  | .wrongArgumentCount expected found =>
    "expected " ++ toString expected ++ " arguments, got " ++ toString found
  | .wrongArgument index expected found =>
    "argument " ++ toString index ++ ": expected " ++ expected ++ ", got " ++ found
  | .notCallable type => "cannot call a value of type " ++ type
  | .unknownMember type name => "type " ++ type ++ " has no member " ++ quoted name
  | .notAType name => quoted name ++ " is not a type"
  | .missingModule path => "cannot find module " ++ quoted path.text
  | .importCycle chain => "import cycle: " ++ " -> ".intercalate (chain.map ModulePath.text)
  | .unreadableModule reason => reason
  | .stated _ message => message

def description (fault : Fault) : String :=
  fault.kind.capitalised ++ " error: " ++ fault.message

def text (fault : Fault) : String :=
  fault.kind.text ++ " error: " ++ fault.message

end Fault

end Toolshed
