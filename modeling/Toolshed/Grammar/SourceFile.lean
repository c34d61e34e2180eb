import Toolshed.Grammar.Statement

namespace Toolshed

/-!
# Source files

A source file is a sequence of imports and then a sequence of declarations.
Reading one always gives a tree, and the tree stands for the text if there are
no diagnostics.
-/

namespace Grammar

open Parse

def pathSegmentsUpTo : (fuel : Nat) → Parse (List String)
  | 0 => return []
  | fuel + 1 => do
    if ← eat (.symbol .dot) then
      let segment ← name
      let others ← pathSegmentsUpTo fuel
      return segment :: others
    else
      return []

def importDeclaration : Parse NodeId := do
  let start ← here
  let _ ← next
  let first ← name
  let left ← ask (·.rest.length)
  let others ← pathSegmentsUpTo left
  let chosenName ←
    if ← eat (.keyword .asWord) then
      let chosen ← name
      pure (some chosen)
    else
      pure none
  let range ← ask (·.rangeFrom start)
  terminator
  make (.importDecl ⟨first :: others⟩ chosenName) range

def classMember (inner : Phrases) : Parse NodeId := do
  match ← ask (·.kind) with
  | .keyword .letWord | .keyword .varWord | .keyword .funWord => inner.declaration
  | _ => refuse .expectedMember

def classDeclaration (inner : Phrases) : Parse NodeId := do
  let start ← here
  let _ ← next
  let declared ← name
  let found ← parameters inner
  let members ←
    if ← eat (.symbol .leftBrace) then
      enter
      let members ← statements (classMember inner)
      leave
      expect (.symbol .rightBrace)
      pure members
    else
      pure []
  makeFrom start (.classDecl declared found members)

structure Contents where
  imports : List NodeId
  declarations : List NodeId
  deriving Repr, DecidableEq

/--
One import or declaration, added to what was found before it. An import after a
declaration is noted and left out.
-/
def topLevel (inner : Phrases) (before : Contents) : Parse Contents := do
  match ← ask (·.kind) with
  | .keyword .importWord =>
    let node ← importDeclaration
    if before.declarations.isEmpty then
      return { before with imports := before.imports ++ [node] }
    else
      note .lateImport node
      return before
  | .keyword .letWord | .keyword .varWord | .keyword .funWord =>
    let node ← declaration inner
    return { before with declarations := before.declarations ++ [node] }
  | .keyword .classWord =>
    let node ← classDeclaration inner
    return { before with declarations := before.declarations ++ [node] }
  | _ => refuse .expectedTopLevel

/--
Take up reading after a failure at the top level, where a closing brace closes
nothing.
-/
def recover (before : Nat) : Parse Unit := do
  synchronise before
  let _ ← eat (.symbol .rightBrace)

def contentsUpTo (inner : Phrases) : (fuel : Nat) → (before : Contents) → Parse Contents
  | 0, before => return before
  | fuel + 1, before => do
    if ← ask (·.atFinish) then
      return before
    else
      let left ← ask (·.rest.length)
      match ← attempt (topLevel inner before) with
      | some after => contentsUpTo inner fuel after
      | none =>
        recover left
        contentsUpTo inner fuel before

/--
A whole file. A file in which nothing was found has the empty range at its end.
-/
def sourceFile (inner : Phrases) : Parse NodeId := do
  let start ← here
  let left ← ask (·.rest.length)
  let contents ← contentsUpTo inner left ⟨[], []⟩
  let range ←
    if contents.imports.isEmpty && contents.declarations.isEmpty then
      here
    else
      ask (·.rangeFrom start)
  make (.sourceFile contents.imports contents.declarations) range

end Grammar

structure Parsed where
  tree : SyntaxTree
  diagnostics : List Diagnostic
  deriving Repr, DecidableEq

def Parsed.success (parsed : Parsed) : Bool :=
  parsed.diagnostics.isEmpty

/--
Read a file from its tokens. Any tokens will do: what follows the first `finish`
is ignored.
-/
def SyntaxTree.parse (tokens : List Token) : Parsed :=
  let (root, state) := Grammar.sourceFile (.upTo maxNesting) (.start tokens)
  ⟨⟨state.arena, root.getD 0⟩, state.diagnostics⟩

end Toolshed
