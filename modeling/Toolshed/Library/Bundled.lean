import Toolshed.Library.Basic

namespace Toolshed

/-!
# The bundled library

The modules that every program can import.
-/

namespace Library

def ofLines (lines : List String) : String :=
  String.join (lines.map fun line => line ++ "\n")

def numbers : String :=
  ofLines [
    "// Numeric helpers.",
    "",
    "fun max(a: Number, b: Number): Number \x7b",
    "    if a > b \x7b",
    "        return a",
    "    \x7d",
    "    return b",
    "\x7d",
    "",
    "fun min(a: Number, b: Number): Number \x7b",
    "    if a < b \x7b",
    "        return a",
    "    \x7d",
    "    return b",
    "\x7d",
    "",
    "fun abs(n: Number): Number \x7b",
    "    if n < 0 \x7b",
    "        return -n",
    "    \x7d",
    "    return n",
    "\x7d",
    "",
    "fun clamp(n: Number, low: Number, high: Number): Number \x7b",
    "    return min(max(n, low), high)",
    "\x7d",
    "",
    "fun isEven(n: Number): Boolean \x7b",
    "    return n % 2 == 0",
    "\x7d"]

def strings : String :=
  ofLines [
    "// String helpers.",
    "",
    "import shed.core.numbers",
    "",
    "fun concat(a: String, b: String): String \x7b",
    "    return a + b",
    "\x7d",
    "",
    "fun isEmpty(text: String): Boolean \x7b",
    "    return text == \"\"",
    "\x7d",
    "",
    "fun repeat(text: String, times: Number): String \x7b",
    "    var result = \"\"",
    "    var i = 0",
    "    while i < times \x7b",
    "        result = result + text",
    "        i = i + 1",
    "    \x7d",
    "    return result",
    "\x7d",
    "",
    "fun padLeft(text: String, fill: String, width: Number): String \x7b",
    "    return repeat(fill, numbers.max(width, 0)) + text",
    "\x7d",
    "",
    "fun fromNumber(n: Number): String \x7b",
    "    return numberToString(n)",
    "\x7d"]

def bundledTexts : List (ModulePath × String) :=
  [(ModulePath.parse "shed.core.numbers", numbers),
    (ModulePath.parse "shed.core.strings", strings)]

def bundledNames : List ModulePath :=
  bundledTexts.map Prod.fst

def bundled : Library :=
  ofTexts bundledTexts

end Library

end Toolshed
