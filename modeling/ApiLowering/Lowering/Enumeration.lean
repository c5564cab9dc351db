import ApiLowering.Document.Schema.Basic
import ApiLowering.Ir.Schema.Basic
import ApiLowering.Lowering.Extension

/-!
Enumerations. Every value becomes a member, makes the enumeration nullable, or is dropped with one
finding; of values whose names collide the first one stays.
-/

set_option autoImplicit false

namespace ApiLowering.Enumeration

def wireText? : Json → Option String
  | .text s => some s
  | .number n => some n.render
  | .bool b => some (if b then "true" else "false")
  | _ => none

-- The members made of the values, and whether null is among the values. `taken` holds the names of
-- the members so far, in screaming snake case.
def members (overrides : Entries Extension.EnumOverride) :
    List String → List Json → Report (Bool × List Ir.EnumValue)
  | _, [] => .ok (false, [])
  | taken, .null :: rest => do
    let more ← members overrides taken rest
    return (true, more.2)
  | taken, value :: rest =>
    match wireText? value with
    | none => do
      Report.find .malformedNode ("enum value is " ++ value.kind)
      members overrides taken rest
    | some wire =>
      let replaced := Entries.get? wire overrides
      match NameVariants.derive? ((replaced.bind fun o => o.name).getD wire) (some wire) with
      | none => do
        Report.find .invalidIdentifier "enum value is empty"
        members overrides taken rest
      | some name =>
        if taken.contains name.screamingSnakeCase then do
          Report.find .duplicateEnumValue
            ("enum value " ++ Text.quoted wire ++ " collides with an earlier value as "
              ++ name.screamingSnakeCase)
          members overrides taken rest
        else do
          let more ← members overrides (name.screamingSnakeCase :: taken) rest
          return (more.1, ⟨name, wire, replaced.bind fun o => o.description⟩ :: more.2)

def lower (s : Schema) (values : List Json) (info : Ir.Meta) : Report Ir.Schema := do
  let overrides ← Extension.enumOverrides s.extensions
  let (nullable, members) ← members overrides [] values
  return .enumeration ⟨none, { info with nullable := info.nullable || nullable }, members⟩

end ApiLowering.Enumeration
