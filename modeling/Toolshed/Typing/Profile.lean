import Toolshed.Text.Blank
import Toolshed.Typing.Scope

namespace Toolshed

/-!
# What the host has

A profile names the things that every module can use without declaring or
importing them.
-/

inductive Profile where
  | default
  | browser
  deriving Repr, DecidableEq

namespace Profile

def all : List Profile :=
  [.default, .browser]

def text : Profile → String
  | .default => "default"
  | .browser => "browser"

def ofText? (word : String) : Option Profile :=
  all.find? fun profile => profile.text = Blank.folded word

def refusal (word : String) : String :=
  "unknown builtin profile '" ++ word ++ "' (expected default or browser)"

def bind (context : Context) (name : String) (type : TypeId) (hostPath : String) : Context :=
  (context.define name ⟨some type, .builtin hostPath, none⟩).2

def bindTypes : List (String × TypeId) → Registry × Context → Registry × Context
  | [], state => state
  | (name, type) :: rest, (registry, context) =>
    let (nameType, registry) := registry.typeNameOf type
    bindTypes rest (registry, bind context name nameType name)

def seed (profile : Profile) (registry : Registry) : Registry × Context :=
  let (registry, context) :=
    bindTypes
      [("Number", .number), ("String", .string), ("Boolean", .boolean), ("Unit", .unit)]
      (registry, .empty)
  let (print, registry) := registry.function [.string] .unit
  let context := bind context "print" print "console.log"
  let (numberToString, registry) := registry.function [.number] .string
  let context := bind context "numberToString" numberToString "String"
  match profile with
  | .default => (registry, context)
  | .browser =>
    let context := bind context "alert" print "window.alert"
    let (console, registry) := registry.declareObject "Console" .host
    let (_, registry) := registry.addMember console ⟨"log", some print, false⟩
    (registry, bind context "console" console "console")

end Profile

end Toolshed
