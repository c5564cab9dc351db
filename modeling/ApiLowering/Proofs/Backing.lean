import ApiLowering.Proofs.Throughout

/-!
Outcomes backed by what a report notes. Whatever a lowered schema refers to, as a reference or as a
parent and at any depth, was noted while the schema was lowered.
-/

set_option autoImplicit false

namespace ApiLowering

namespace Report

variable {α β : Type} {noted : String → Prop} {good : α → Prop} {better : β → Prop}

-- A report with a good outcome, if every reference that it notes is among the noted ones.
def Backed (noted : String → Prop) (good : α → Prop) (r : Report α) : Prop :=
  (∀ id ∈ r.marks, noted id) → ∀ a, r.outcome = .ok a → good a

theorem backed_any (r : Report α) : Backed noted (fun _ => True) r := fun _ _ _ => trivial

theorem backed_pure {a : α} (is : good a) : Backed noted good (pure a : Report α) :=
  fun _ _ done => pure_ok done ▸ is

theorem backed_fail (e : LoweringError) : Backed noted good (fail e : Report α) :=
  fun _ _ done => nomatch done

theorem backed_mark (id : String) : Backed noted (fun _ => noted id) (mark id) :=
  fun marked _ _ => marked id (List.mem_singleton.mpr rfl)

theorem backed_under {r : Report α} (keys : List String) (backed : Backed noted good r) :
    Backed noted good (r.under keys) := backed

theorem backed_bind {r : Report α} {f : α → Report β} (first : Backed noted good r)
    (next : ∀ a, good a → Backed noted better (f a)) : Backed noted better (r >>= f) := by
  intro marked b done
  obtain ⟨a, outcome, rest⟩ := bind_ok done
  rw [bind_of_ok outcome] at marked
  have is := first (fun id here => marked id (List.mem_append_left _ here)) a outcome
  exact next a is (fun id here => marked id (List.mem_append_right _ here)) b rest

def backing (noted : String → Prop) : Logic where
  Holds good r := Backed noted good r
  holds_pure := backed_pure
  holds_bind {_ _ _ _ r _} first next := by
    have traced : Backed noted (fun a => _ ∧ r.outcome = .ok a) r :=
      fun marked a done => ⟨first marked a done, done⟩
    exact backed_bind traced fun a is => next a is.2 is.1
  holds_under := backed_under

theorem backing_blind (noted : String → Prop) : (backing noted).Blind := fun _ => backed_any _

end Report

namespace Ir.Schema

-- The components that a schema refers to itself.
def refers : Schema → List String
  | .reference _ id => [id]
  | .object o => o.parents
  | _ => []

-- Whatever the schema refers to, at any depth, is noted.
def Covered (noted : String → Prop) (s : Schema) : Prop :=
  Throughout (fun t => ∀ id ∈ t.refers, noted id) s

variable {noted : String → Prop} {s : Schema}

theorem covered_mapInfo (f : Meta → Meta) (covered : s.Covered noted) :
    (s.mapInfo f).Covered noted := by
  refine throughout_mapInfo covered fun own => ?_
  cases s <;> exact own

theorem covered_setName (name : NameVariants) (covered : s.Covered noted) :
    (s.setName name).Covered noted := by
  refine throughout_setName covered fun own => ?_
  cases s <;> exact own

theorem covered_unlessRequired (required : Bool) (covered : s.Covered noted) :
    (s.unlessRequired required).Covered noted := by
  by_cases needed : required = true
  · rw [unlessRequired, if_pos needed]
    exact covered
  · rw [unlessRequired, if_neg needed]
    exact covered_mapInfo _ covered

end Ir.Schema

namespace SchemaLowering

open ApiLowering.Composition (Place)
open Report (Backed)

-- A report on a schema that is covered by what the report notes.
abbrev Backs (noted : String → Prop) (report : Report Ir.Schema) : Prop :=
  Backed noted (Ir.Schema.Covered noted) report

variable {noted : String → Prop} {r : Resolver} {path : List String}

theorem backing_forms (noted : String → Prop) (r : Resolver) :
    EachForm r (fun _ => True) noted fun s => ∀ id ∈ s.refers, noted id where
  unknown _ _ here := absurd here List.not_mem_nil
  reference is := List.forall_mem_singleton.mpr is
  primitive _ _ _ here := absurd here List.not_mem_nil
  enumeration _ _ here := absurd here List.not_mem_nil
  array _ _ _ here := absurd here List.not_mem_nil
  map _ _ _ here := absurd here List.not_mem_nil
  object _ _ _ _ here := absurd here List.not_mem_nil
  composed _ parents := parents
  union _ _ _ _ _ _ here := absurd here List.not_mem_nil
  annotated f s own := by cases s <;> exact own

theorem backing_rules (noted : String → Prop) (r : Resolver) :
    Rules (Report.backing noted) r (fun _ => True) noted (Ir.Schema.Covered noted) :=
  (backing_forms noted r).rules (fun _ _ => Report.backed_any _) (fun _ => Report.backed_mark _)
    fun _ => Report.backed_fail _

/-- A lowered schema refers to nothing that was not noted while it was lowered. -/
theorem lower_backs (noted : String → Prop) (r : Resolver) (place : Place) :
    Backs noted (lower r place.1 place.2) :=
  lower_holds (backing_rules noted r) ⟨fun _ _ => trivial, fun _ _ _ => trivial⟩
    (fun _ => Report.backed_any _) place.1 place.2 trivial

theorem lowerComponent_backs (id : String) (node : SchemaNode) :
    Backs noted (lowerComponent r path id node) :=
  lowerComponent_holds (Report.backing_blind noted).tolerant (fun _ _ => Report.backed_fail _)
    (fun deeper _ => lower_backs noted r (deeper, node))
    fun _ name _ _ => Ir.Schema.covered_setName name

end SchemaLowering

end ApiLowering
