namespace Toolshed

/-!
# Names in scripts

A declared name keeps its spelling in the script unless the script language or
generated code needs that spelling for itself. Declared names have no `$`, so a
name with one added is never taken.
-/

namespace Script

def reservedWords : List String :=
  ["arguments", "await", "break", "case", "catch", "const", "continue", "debugger", "default",
    "delete", "do", "enum", "eval", "export", "extends", "finally", "for", "function",
    "implements", "in", "instanceof", "interface", "new", "null", "package", "private",
    "protected", "public", "static", "super", "switch", "this", "throw", "try", "typeof", "void",
    "with", "yield"]

def hostNames : List String :=
  ["Infinity", "NaN", "String", "SHED", "console", "exports", "module", "require", "undefined",
    "window"]

def nameOf (declared : String) : String :=
  if reservedWords.contains declared || hostNames.contains declared then
    declared ++ "$"
  else
    declared

end Script

end Toolshed
