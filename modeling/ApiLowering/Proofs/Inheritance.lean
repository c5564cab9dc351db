import ApiLowering.Proofs.Components
import ApiLowering.Proofs.Merging
import Mathlib.Logic.Relation

/-!
Cycles of inheritance. A walk refuses a reference back to a component that is being lowered, however
many components it has come through, but it does not come through a union that collapses. So a cycle
in the lowered document leads through two components at least whose compositions stand in unions.
-/

set_option autoImplicit false

namespace ApiLowering

open Relation (ReflTransGen TransGen)
open SchemaLowering (Core form lookup_found)

/-- One component of the file is an object that extends the other. -/
def Ir.File.Extends (file : Ir.File) (a b : String) : Prop :=
  ∃ o, Entries.get? a file.schemas = some (.object o) ∧ b ∈ o.parents

/-- What a component node leaves its shape to is a composition with a reference to the other
component among its members; a union collapsed on the way to it, or not. -/
def Inherits (schemas : Entries SchemaNode) (collapsed : Bool) (a b : String) : Prop :=
  ∃ node t target component, Entries.get? a schemas = some node ∧ Core node collapsed t ∧
    form t = .composed ∧ SchemaNode.reference target ∈ t.allOf ∧
    Pointer.componentId? "schemas" target = some b ∧ Entries.get? b schemas = some component

-- A component that inherits out of a union.
def Collapses (schemas : Entries SchemaNode) (a : String) : Prop :=
  ∃ b, Inherits schemas true a b

variable {options : Options} {d : ApiDocument} {file : Ir.File}

theorem parents_of_built {r : Resolver} {path : List String} {t : Schema} {body : Ir.Body}
    (built : SchemaLowering.Built r path t body) {id : String} :
    id ∈ body.parents ↔ form t = .composed ∧ ∃ target node,
      SchemaNode.reference target ∈ t.allOf ∧ r.lookupSchema target = .found id node := by
  cases built with
  | composed shape made done =>
    exact ⟨fun here => ⟨shape, (SchemaLowering.parents_of_composed made done).mp here⟩,
      fun both => (SchemaLowering.parents_of_composed made done).mpr both.2⟩
  | typed shape listed =>
    refine ⟨fun here => absurd here List.not_mem_nil, fun both => ?_⟩
    cases shape.symm.trans both.1

theorem extends_built (done : d.lower options = .ok file) {a b : String}
    (extend : file.Extends a b) :
    ∃ node collapsed t body, Entries.get? a d.componentSchemas = some node ∧ Core node collapsed t ∧
      SchemaLowering.Built (d.resolver options) [Pointer.ofSchema a] t body ∧ b ∈ body.parents := by
  obtain ⟨o, present, parent⟩ := extend
  obtain ⟨node, inner, stored, lowered, body, -⟩ := component_of_file done present
  obtain ⟨before, object, dropped⟩ := Option.map_eq_some_iff.mp body.symm
  -- stripping the discriminants left the parents alone
  have kept : o.parents = before.parents := (congrArg Ir.Body.parents dropped).symm
  obtain ⟨collapsed, t, core, built, -⟩ := SchemaLowering.object_built node lowered object
  exact ⟨node, collapsed, t, before, stored, core, built, kept ▸ parent⟩

theorem extends_iff (done : d.lower options = .ok file) {a b : String} :
    file.Extends a b ↔ ∃ collapsed, Inherits d.componentSchemas collapsed a b := by
  have schemas := ApiDocument.resolver_schemas options d
  constructor
  · intro extend
    obtain ⟨node, collapsed, t, body, stored, core, built, parent⟩ := extends_built done extend
    obtain ⟨shape, target, component, listed, leads⟩ := (parents_of_built built).mp parent
    obtain ⟨named, known⟩ := lookup_found.mp leads
    rw [schemas] at known
    exact ⟨collapsed, node, t, target, component, stored, core, shape, listed, named, known⟩
  · rintro ⟨collapsed, node, t, target, component, stored, core, shape, listed, named, known⟩
    obtain ⟨schema, inner, present, lowered, body⟩ := file_of_component done stored
    obtain ⟨before, object, built⟩ := SchemaLowering.core_built core shape lowered
    rw [← schemas] at known
    have parent : b ∈ before.parents :=
      (parents_of_built built).mpr ⟨shape, target, component, listed, lookup_found.mpr ⟨named, known⟩⟩
    rw [object, Option.map_some] at body
    cases schema with
    | object o =>
      have kept : o.parents = before.parents := congrArg Ir.Body.parents (Option.some.inj body)
      exact ⟨o, present, kept ▸ parent⟩
    | _ => cases body

open ApiLowering.Composition (Open Place Visits)

-- A walk comes from a place to a reference to the component, while a pointer is open.
def Reaches (r : Resolver) (place : Place) (pointer id : String) : Prop :=
  ∃ path target node, Visits r place (path, .reference target) ∧
    r.lookupSchema target = .found id node ∧ pointer ∈ path

theorem reaches_inherits {r : Resolver} {place : Place} {pointer a b : String} (free : Open r place)
    (reaches : Reaches r place pointer a) (inherits : Inherits r.schemas false a b) :
    Reaches r place pointer b := by
  obtain ⟨path, target, node, visited, leads, inside⟩ := reaches
  obtain ⟨again, t, next, component, stored, core, -, listed, named, known⟩ := inherits
  cases (lookup_found.mp leads).2.symm.trans stored
  have entered := free.entered visited leads
  refine ⟨path ++ [Pointer.ofSchema a], next, component, ?_, lookup_found.mpr ⟨named, known⟩,
    List.mem_append_left _ inside⟩
  have further := Composition.visits_trans
    (SchemaLowering.core_visited r (path ++ [Pointer.ofSchema a]) core) (.member listed .here)
  exact Composition.visits_trans visited (.component leads entered further)

theorem reaches_elsewhere {r : Resolver} {place : Place} {a b : String} (free : Open r place)
    (reaches : Reaches r place (Pointer.ofSchema a) b) : b ≠ a := by
  obtain ⟨path, target, node, visited, leads, inside⟩ := reaches
  obtain ⟨fresh, -⟩ := Resolver.enter_ok (free.entered visited leads)
  intro same
  subst same
  rw [List.contains_iff_mem.mpr inside] at fresh
  cases fresh

theorem extends_straight (done : d.lower options = .ok file) {a b c : String}
    (extend : file.Extends a b) (straight : ReflTransGen (Inherits d.componentSchemas false) b c) :
    c ≠ a := by
  obtain ⟨node, collapsed, t, body, stored, core, built, parent⟩ := extends_built done extend
  obtain ⟨shape, target, component, listed, leads⟩ := (parents_of_built built).mp parent
  have free : Open (d.resolver options) ([Pointer.ofSchema a], .inline t) := by
    cases built with
    | composed _ _ passed => exact Composition.walkAll_open passed
    | typed other _ => cases shape.symm.trans other
  -- the walk that found the parent goes on along inheritance outside of unions, all the way, with
  -- the pointer of the component that extends open
  have all : Reaches (d.resolver options) ([Pointer.ofSchema a], .inline t)
      (Pointer.ofSchema a) c := by
    induction straight with
    | refl => exact ⟨_, target, component, .member listed .here, leads, List.mem_cons_self⟩
    | tail _ inherits ih =>
      rw [← ApiDocument.resolver_schemas options d] at inherits
      exact reaches_inherits free ih inherits
  exact reaches_elsewhere free all

theorem straight_or_collapses {schemas : Entries SchemaNode} {edge : String → String → Prop}
    (inherits : ∀ a b, edge a b → ∃ collapsed, Inherits schemas collapsed a b) {a b : String}
    (path : ReflTransGen edge b a) :
    ReflTransGen (Inherits schemas false) b a ∨
      ∃ c, c ≠ a ∧ Collapses schemas c ∧ ReflTransGen edge b c ∧ TransGen edge c a := by
  induction path using ReflTransGen.head_induction_on with
  | refl => exact .inl .refl
  | @head b next step rest ih =>
    by_cases back : b = a
    · exact .inl (back ▸ .refl)
    · obtain ⟨collapsed, inherits⟩ := inherits b next step
      cases collapsed with
      | true => exact .inr ⟨b, back, ⟨next, inherits⟩, .refl, .head' step rest⟩
      | false =>
        rcases ih with straight | ⟨c, other, collapses, before, after⟩
        · exact .inl (.head inherits straight)
        · exact .inr ⟨c, other, collapses, .head step before, after⟩

theorem cycle_collapses (done : d.lower options = .ok file) {a : String}
    (cycle : TransGen file.Extends a a) :
    ∃ b, b ≠ a ∧ Collapses d.componentSchemas b ∧ TransGen file.Extends a b ∧
      TransGen file.Extends b a := by
  obtain ⟨next, step, rest⟩ := TransGen.head'_iff.mp cycle
  rcases straight_or_collapses (fun _ _ => (extends_iff done).mp) rest with
    straight | ⟨b, other, collapses, before, after⟩
  · exact absurd rfl (extends_straight done step straight)
  · exact ⟨b, other, collapses, .head' step before, after⟩

/-- Inheritance in a lowered document has a cycle exactly when two different components inherit from
each other, over any number of others, both of them out of unions that collapsed. -/
theorem extends_cycle_iff {options : Options} {d : ApiDocument} {file : Ir.File}
    (done : d.lower options = .ok file) :
    (∃ a, TransGen file.Extends a a) ↔
      ∃ a b, a ≠ b ∧ Collapses d.componentSchemas a ∧ Collapses d.componentSchemas b ∧
        TransGen (fun x y => ∃ collapsed, Inherits d.componentSchemas collapsed x y) a b ∧
        TransGen (fun x y => ∃ collapsed, Inherits d.componentSchemas collapsed x y) b a := by
  have same : file.Extends =
      fun x y => ∃ collapsed, Inherits d.componentSchemas collapsed x y := by
    funext x y
    exact propext (extends_iff done)
  rw [← same]
  constructor
  · rintro ⟨start, cycle⟩
    -- once around from the start for the first component, once around from there for the second
    obtain ⟨a, -, collapses, before, after⟩ := cycle_collapses done cycle
    obtain ⟨b, other, also, there, back⟩ := cycle_collapses done (after.trans before)
    exact ⟨a, b, other.symm, collapses, also, there, back⟩
  · rintro ⟨a, b, -, -, -, there, back⟩
    exact ⟨a, there.trans back⟩

def extending (id key : String) : Schema :=
  { Keywords.empty with
    allOf := [.reference (Pointer.ofSchema id),
      .inline { Keywords.empty with
        type := some (.single .object)
        properties := [(key, .inline { Keywords.empty with type := some (.single .string) })] }] }

def orNull (s : Schema) : SchemaNode :=
  .inline { Keywords.empty with
    oneOf := [.inline s, .inline { Keywords.empty with type := some (.single .null) }] }

def nullablePair : ApiDocument :=
  .ofSchemas [("A", orNull (extending "B" "a")), ("B", orNull (extending "A" "b"))]

theorem nullablePair_inherits :
    Inherits nullablePair.componentSchemas true "A" "B" ∧
      Inherits nullablePair.componentSchemas true "B" "A" := by
  constructor
  · exact ⟨_, extending "B" "a", Pointer.ofSchema "B", _, rfl, .collapsed rfl .own, rfl,
      List.mem_cons_self, by decide +kernel, rfl⟩
  · exact ⟨_, extending "A" "b", Pointer.ofSchema "A", _, rfl, .collapsed rfl .own, rfl,
      List.mem_cons_self, by decide +kernel, rfl⟩

theorem ok_of_isSome {result : Except LoweringError Ir.File}
    (done : result.toOption.isSome = true) : ∃ file, result = .ok file := by
  cases result with
  | error e => cases done
  | ok file => exact ⟨file, rfl⟩

theorem nullablePair_cycle :
    ∃ file, nullablePair.lower .default = .ok file ∧ ∃ a, TransGen file.Extends a a := by
  have lowered : (nullablePair.lower .default).toOption.isSome = true := by decide +kernel
  obtain ⟨file, done⟩ := ok_of_isSome lowered
  obtain ⟨there, back⟩ := nullablePair_inherits
  refine ⟨file, done, (extends_cycle_iff done).mpr ⟨"A", "B", by decide, ⟨"B", there⟩, ⟨"A", back⟩,
    .single ⟨true, there⟩, .single ⟨true, back⟩⟩⟩

end ApiLowering
