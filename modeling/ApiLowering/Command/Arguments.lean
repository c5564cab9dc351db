import ApiLowering.Command.Basic
import ApiLowering.Entries
import ApiLowering.Text.Basic

/-!
Commands from the arguments of a call. An option is given once, by its long name or its letter, with
its value behind it or in the same argument.
-/

set_option autoImplicit false

namespace ApiLowering

structure Switch where
  name : String
  letter : Option Char
  isFlag : Bool
deriving DecidableEq, Repr

namespace Switch

def input : Switch := ⟨"input", some 'i', false⟩
def output : Switch := ⟨"output", some 'o', false⟩
def format : Switch := ⟨"format", none, false⟩
def snippet : Switch := ⟨"snippet", none, false⟩
def force : Switch := ⟨"force", none, true⟩

-- An option as it is written: the value in the same argument, or none there.
structure Mention where
  switch : Switch
  value : Option (List Char)

def mention? (switches : List Switch) (argument : List Char) : Option Mention :=
  match argument with
  | '-' :: '-' :: rest =>
    let name := String.ofList (rest.takeWhile fun c => c != '=')
    let value :=
      match rest.dropWhile fun c => c != '=' with
      | _ :: value => some value
      | [] => none
    (switches.find? fun s => s.name = name).map fun s => ⟨s, value⟩
  | '-' :: letter :: rest =>
    let value :=
      match rest with
      | [] => none
      | '=' :: value => some value
      | value => some value
    (switches.find? fun s => s.letter = some letter).map fun s => ⟨s, value⟩
  | _ => none

def standsAlone (argument : String) : Bool :=
  argument = "-" || !Text.startsWith ['-'] argument.toList

def addUnique (name value : String) (given : Option (Entries String)) : Option (Entries String) :=
  given.bind fun given =>
    if Entries.contains name given then none else some ((name, value) :: given)

-- The given options with their values, empty ones for flags. An option may await its value.
def values? (switches : List Switch) : (awaiting : Option Switch) → List String →
    Option (Entries String)
  | none, [] => some []
  | some _, [] => none
  | some s, value :: rest =>
    if value.isEmpty || !standsAlone value then none
    else addUnique s.name value (values? switches none rest)
  | none, argument :: rest =>
    if argument = "--" then (if rest.isEmpty then some [] else none)
    else
      match mention? switches argument.toList with
      | none => none
      | some ⟨s, value⟩ =>
        match s.isFlag, value with
        | true, none => addUnique s.name "" (values? switches none rest)
        | false, none => values? switches (some s) rest
        | false, some (c :: cs) =>
          addUnique s.name (String.ofList (c :: cs)) (values? switches none rest)
        | _, _ => none

def given? (switches : List Switch) (arguments : List String) : Option (Entries String) :=
  values? switches none arguments

end Switch

def OverviewFormat.ofName? : String → Option OverviewFormat
  | "yaml" => some .yaml
  | "json" => some .json
  | _ => none

namespace Command

open Switch

def ofArguments? : List String → Option Command
  | "generate" :: rest => do
    let given ← given? [input, output] rest
    return .generate (Entries.get? "input" given) (Entries.get? "output" given)
  | "validate" :: rest => do
    return .validate (← Entries.get? "input" (← given? [input] rest))
  | "inspect" :: rest => do
    let given ← given? [input, format] rest
    let format ← OverviewFormat.ofName? ((Entries.get? "format" given).getD "yaml")
    return .inspect (← Entries.get? "input" given) format
  | "references" :: rest => do
    return .references (← Entries.get? "input" (← given? [input] rest))
  | "plan" :: rest => do
    return .plan (Entries.get? "snippet" (← given? [snippet] rest))
  | "init" :: rest => do
    return .init (Entries.contains "force" (← given? [force] rest))
  | _ => none

end Command

end ApiLowering
