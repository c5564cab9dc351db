import ApiLowering.Proofs.EnumValues
import ApiLowering.Proofs.Fused
import ApiLowering.Proofs.Naming
import ApiLowering.Proofs.WellFormed

/-!
The names of the members of an enumeration. They all differ in screaming snake case; those of ASCII names
then differ in snake case as well, but two of them are the same in camel case and in Pascal case if their
words differ only in where numerals are divided.
-/

set_option autoImplicit false

namespace ApiLowering

def Ir.Schema.enumeration? : Ir.Schema → Option Ir.EnumSchema
  | .enumeration e => some e
  | _ => none

namespace NameVariants

open Text Name

variable {a b : NameVariants} {text : String}

-- The words of a name in lower case, where numerals that follow one another are fused.
def fused (name : NameVariants) : List (List Char) := fuse ((wordsOf name.originalValue).map lowercase)

def IsAscii (name : NameVariants) : Prop := Ascii name.originalValue.toList

structure Cased (name : NameVariants) : Prop where
  camel : name.camelCase = Name.camelCase (joined name.originalValue)
  pascal : name.pascalCase = Name.pascalCase (joined name.originalValue)
  snake : name.snakeCase = Name.snakeCase (joined name.originalValue)
  screaming : name.screamingSnakeCase = Name.screamingSnakeCase (joined name.originalValue)

theorem Stands.cased (stands : a.Stands text) : a.Cased := by
  unfold Stands derive? at stands
  split at stands
  · cases stands
  · have same := Option.some.inj stands
    constructor
    all_goals rw [← same]

theorem screaming_of_snake (first : a.Cased) (second : b.Cased) (ascii : a.IsAscii) (too : b.IsAscii)
    (same : a.snakeCase = b.snakeCase) : a.screamingSnakeCase = b.screamingSnakeCase := by
  rw [first.snake, second.snake, snakeCase_ascii ascii, snakeCase_ascii too, String.ofList_inj] at same
  rw [first.screaming, second.screaming, screamingSnakeCase_ascii ascii, screamingSnakeCase_ascii too,
    uppercase_of_joined (wordsOf_word ascii) (wordsOf_word too) same]

theorem pascal_iff (first : a.Cased) (second : b.Cased) (ascii : a.IsAscii) (too : b.IsAscii) :
    a.pascalCase = b.pascalCase ↔ a.fused = b.fused := by
  rw [first.pascal, second.pascal, pascalCase_ascii ascii, pascalCase_ascii too, String.ofList_inj]
  exact capitalized_iff (wordsOf_word ascii) (wordsOf_word too)

theorem camel_iff (first : a.Cased) (second : b.Cased) (ascii : a.IsAscii) (too : b.IsAscii) :
    a.camelCase = b.camelCase ↔ a.fused = b.fused := by
  rw [← pascal_iff first second ascii too, first.camel, second.camel, first.pascal, second.pascal]
  obtain ⟨c, rest, small, camel, pascal⟩ := camelCase_ascii ascii
  obtain ⟨d, more, little, camel', pascal'⟩ := camelCase_ascii too
  rw [camel, camel', pascal, pascal', String.ofList_inj, String.ofList_inj, List.cons.injEq,
    List.cons.injEq]
  refine and_congr_left fun _ => ⟨fun lower => ?_, fun upper => ?_⟩
  · rw [← (ascii_cases small).upper, lower, (ascii_cases little).upper]
  · rw [← (ascii_cases small).lower.1, upper, (ascii_cases little).lower.1]

end NameVariants

namespace Enumeration

/-- How far the names of two members are told apart. -/
structure Apart (a b : NameVariants) : Prop where
  screaming : a.screamingSnakeCase ≠ b.screamingSnakeCase
  snake : a.IsAscii → b.IsAscii → a.snakeCase ≠ b.snakeCase
  camel : a.IsAscii → b.IsAscii → (a.camelCase = b.camelCase ↔ a.fused = b.fused)
  pascal : a.IsAscii → b.IsAscii → (a.pascalCase = b.pascalCase ↔ a.fused = b.fused)

/-- The members of an enumeration have different names in screaming snake case, and those with ASCII names
in snake case; these have the same name in camel case, and in Pascal case, just if they have the same words
once the numerals are fused that follow one another. -/
theorem names_apart (s : Schema) (values : List Json) (info : Ir.Meta) :
    ∃ e, (lower s values info).outcome = .ok (.enumeration e) ∧
      e.values.Pairwise fun a b => Apart a.name b.name := by
  obtain ⟨overrides, fates, -, -, run, lowered⟩ := lower_accounted s values info
  have distinct := ((members_distinct overrides [] values).outcome _ (congrArg Report.outcome run)).1
  have named := (members_named overrides [] values).outcome _ (congrArg Report.outcome run)
  refine ⟨_, congrArg Report.outcome lowered, ?_⟩
  refine (List.pairwise_map.mp distinct).imp_of_mem fun {a b} here there differ => ?_
  have first := (named a here).cased
  have second := (named b there).cased
  exact ⟨differ, fun ascii too same => differ (NameVariants.screaming_of_snake first second ascii too same),
    NameVariants.camel_iff first second, NameVariants.pascal_iff first second⟩

-- Versions whose words differ only in where the numerals are divided.
def versions : List Json := [.text "1.0", .text "10"]

theorem versions_collide :
    ∃ e a b, (lower Keywords.empty versions Ir.Meta.blank).outcome = .ok (.enumeration e) ∧
      e.values = [a, b] ∧ a.name.originalValue = "1.0" ∧ b.name.originalValue = "10" ∧
      a.name.snakeCase ≠ b.name.snakeCase ∧ a.name.camelCase = b.name.camelCase ∧
      a.name.pascalCase = b.name.pascalCase := by
  have kept : ((lower Keywords.empty versions Ir.Meta.blank).outcome.toOption.any fun schema =>
      schema.enumeration?.any fun e =>
        e.values.map (fun v => v.name.originalValue) == ["1.0", "10"]) = true := by decide +kernel
  obtain ⟨e, done, apart⟩ := names_apart Keywords.empty versions Ir.Meta.blank
  rw [done] at kept
  have names : e.values.map (fun v => v.name.originalValue) = ["1.0", "10"] := eq_of_beq kept
  obtain ⟨a, rest, values, first, names⟩ := List.map_eq_cons_iff.mp names
  obtain ⟨b, last, behind, second, names⟩ := List.map_eq_cons_iff.mp names
  rw [values, behind, List.map_eq_nil_iff.mp names] at apart
  have pair := List.rel_of_pairwise_cons apart (List.mem_singleton_self b)
  have plain : a.name.IsAscii ∧ b.name.IsAscii := by
    rw [NameVariants.IsAscii, NameVariants.IsAscii, first, second]
    decide
  have same : a.name.fused = b.name.fused := by
    rw [NameVariants.fused, NameVariants.fused, first, second]
    decide +kernel
  refine ⟨e, a, b, done, ?_, first, second, pair.snake plain.1 plain.2,
    (pair.camel plain.1 plain.2).mpr same, (pair.pascal plain.1 plain.2).mpr same⟩
  rw [values, behind, List.map_eq_nil_iff.mp names]

end Enumeration

end ApiLowering
