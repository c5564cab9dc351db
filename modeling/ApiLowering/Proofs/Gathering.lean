import ApiLowering.Proofs.FirstWins
import ApiLowering.Proofs.SameShape
import ApiLowering.Proofs.Sites

/-!
What a composition gathers. It can be merged if no reference on the way is refused and if everything
that is declared on the way can be lowered; and what the merged object has, as a set, was declared,
required or allowed by some schema to which its members lead.
-/

set_option autoImplicit false

namespace ApiLowering

theorem Report.forEach_succeeds {α β : Type} {f : α → Report β} {items : List α}
    (each : ∀ a ∈ items, ∃ b, (f a).outcome = .ok b) : ∃ bs, (forEach f items).outcome = .ok bs := by
  induction items with
  | nil => exact ⟨[], rfl⟩
  | cons a rest ih =>
    obtain ⟨b, first⟩ := each a List.mem_cons_self
    obtain ⟨more, later⟩ := ih fun x here => each x (List.mem_cons_of_mem _ here)
    refine ⟨b :: more, ?_⟩
    rw [forEach, bind_of_ok first]
    change (forEach f rest >>= fun more => pure (b :: more)).outcome = _
    rw [bind_of_ok later]
    rfl

namespace Composition

variable {r : Resolver} {path : List String} {s : Schema}

theorem walkAll_done (free : Open r (path, .inline s)) : (walkAll r path s).failure = none := by
  cases ended : (walkAll r path s).failure with
  | none => rfl
  | some e => exact absurd (walkAll_failure ended) (free e)

-- What a walk declares is what the schemas declare to which it leads.
theorem declared_walked (done : (walkAll r path s).failure = none) (d : Declaration) :
    d ∈ (walkAll r path s).steps.filterMap Step.declaration? ↔
      ∃ t, Leads r (.inline s) (.inline t) ∧ d ∈ t.properties := by
  constructor
  · intro here
    obtain ⟨step, among, same⟩ := List.mem_filterMap.mp here
    cases step with
    | declare reached breadcrumbs key node =>
      cases same
      obtain ⟨t, visited, listed⟩ := walkAll_declares among
      exact ⟨t, leads_of_visits visited, listed⟩
    | found _ | follow _ _ | constrain _ _ => cases same
  · rintro ⟨t, led, listed⟩
    obtain ⟨reached, visited⟩ := visits_of_leads led path (walkAll_open done)
    obtain ⟨keys, met⟩ := walkAll_meets done visited
    refine List.mem_filterMap.mpr ⟨.declare reached (keys ++ [d.1]) d.1 d.2, ?_, rfl⟩
    exact met (List.mem_cons_of_mem _ (List.mem_map.mpr ⟨d, listed, rfl⟩))

end Composition

namespace SchemaLowering

open ApiLowering.Composition (Declaration Leads Open Place Step Visits)

variable {r : Resolver} {path : List String} {s : Schema} {schema : Ir.Schema} {steps : List Step}
  {step : Step} {change : Change} {changes : List Change} {key : String}

-- Everything that is declared where a walk from the place comes to can be lowered there.
def Lowerable (r : Resolver) (place : Place) : Prop :=
  ∀ reached t, Visits r place (reached, .inline t) → ∀ d ∈ t.properties, namedAfter d ≠ "" →
    ∃ schema, (lower r reached d.2).outcome = .ok schema

theorem stepChange_succeeds
    (declared : ∀ reached breadcrumbs key node, step = .declare reached breadcrumbs key node →
      namedAfter (key, node) ≠ "" → ∃ schema, (lower r reached node).outcome = .ok schema) :
    ∃ change, (stepChange r step).outcome = .ok change := by
  cases step with
  | found finding => exact ⟨_, rfl⟩
  | follow id direct => exact ⟨_, rfl⟩
  | constrain required additional => exact ⟨_, rfl⟩
  | declare reached breadcrumbs key node =>
    change ∃ change, (Report.under _ _).outcome = .ok change
    cases named : propertyName? key node with
    | none => exact ⟨id, rfl⟩
    | some name =>
      obtain ⟨schema, lowered⟩ := declared _ _ _ _ rfl (namedAfter_some named)
      refine ⟨fun m => m.declare key name schema, ?_⟩
      change (Report.bind _ _).outcome = _
      simp only [Report.bind, lowered]
      rfl

/-- A composition can be merged exactly if every reference on the way can be entered and everything
declared on the way can be lowered. -/
theorem lowerComposed_succeeds :
    (∃ schema, (lowerComposed r path s).outcome = .ok schema) ↔
      Open r (path, .inline s) ∧ Lowerable r (path, .inline s) := by
  constructor
  · rintro ⟨schema, done⟩
    obtain ⟨changes, made, ended, -⟩ := lowerComposed_ok done
    refine ⟨Composition.walkAll_open ended, fun reached t visited d listed named => ?_⟩
    obtain ⟨keys, met⟩ := Composition.walkAll_meets ended visited
    have here : Step.declare reached (keys ++ [d.1]) d.1 d.2 ∈ (Composition.walkAll r path s).steps :=
      met (List.mem_cons_of_mem _ (List.mem_map.mpr ⟨d, listed, rfl⟩))
    obtain ⟨change, -, effect⟩ := made_change made here
    rcases effect with ⟨unnamed, -⟩ | ⟨_, schema, -, lowered, -⟩
    · exact absurd ((propertyName_none d).mp unnamed) named
    · exact ⟨schema, lowered⟩
  · rintro ⟨free, lowerable⟩
    have ended := Composition.walkAll_done free
    have each (step : Step) (here : step ∈ (Composition.walkAll r path s).steps) :
        ∃ change, (stepChange r step).outcome = .ok change := by
      refine stepChange_succeeds fun reached breadcrumbs key node same named => ?_
      subst same
      obtain ⟨t, visited, listed⟩ := Composition.walkAll_declares here
      exact lowerable reached t visited (key, node) listed named
    obtain ⟨changes, made⟩ := Report.forEach_succeeds each
    refine ⟨(Merged.ofChanges changes).finish (ownInfo s), ?_⟩
    rw [lowerComposed, Report.bind_of_ok made, ended]
    rfl

theorem follow_additional (m : Merged) (id : String) (direct : Bool) :
    (m.follow id direct).additional = m.additional := by
  unfold Merged.follow
  split <;> rfl

theorem declare_additional (m : Merged) (key : String) (name : NameVariants) (schema : Ir.Schema) :
    (m.declare key name schema).additional = m.additional := by
  rcases declare_cases m key name schema with ⟨_, -, -, same⟩ | ⟨_, -, same⟩ | ⟨-, same⟩ <;> rw [same]

theorem additional_iff (effect : Effect r change step) (m : Merged) :
    (change m).additional = true ↔
      m.additional = true ∨ ∃ required, step = .constrain required true := by
  cases step with
  | constrain required additional =>
    cases effect
    simp only [Merged.constrain, Bool.or_eq_true, Step.constrain.injEq, exists_eq_left']
  | found finding =>
    cases effect
    simp only [id_eq, reduceCtorEq, exists_false, or_false]
  | follow id direct =>
    cases effect
    simp only [follow_additional, reduceCtorEq, exists_false, or_false]
  | declare reached breadcrumbs key node =>
    rcases effect with ⟨-, same⟩ | ⟨name, schema, -, -, same⟩ <;>
    · cases same
      simp only [id_eq, declare_additional, reduceCtorEq, exists_false, or_false]

theorem additional_run (made : Made r steps changes) (m : Merged) :
    (changes.foldl (fun m change => change m) m).additional = true ↔
      m.additional = true ∨ ∃ required, .constrain required true ∈ steps := by
  induction made generalizing m with
  | nil => simp only [List.foldl_nil, List.not_mem_nil, exists_false, or_false]
  | cons first _ ih =>
    rw [List.foldl_cons, ih, additional_iff (stepChange_effect first), or_assoc, ← exists_or]
    simp only [List.mem_cons, eq_comm]

-- A composition allows further properties if some schema does to which its members lead.
theorem additional_walked (made : Made r (Composition.walkAll r path s).steps changes)
    (done : (Composition.walkAll r path s).failure = none) :
    (Merged.ofChanges changes).additional = true ↔
      ∃ t, Leads r (.inline s) (.inline t) ∧ t.allowsAdditional = true := by
  refine (additional_run made Merged.empty).trans ((or_iff_right Bool.false_ne_true).trans ?_)
  constructor
  · rintro ⟨required, here⟩
    rcases Composition.walkAll_stands here with ⟨member, listed, reached, t, visited, -, allowed⟩ |
      ⟨reached, t, visited, -, allowed⟩
    · exact ⟨t, .member listed (Composition.leads_of_visits visited), allowed.symm⟩
    · exact ⟨t, Composition.leads_of_visits visited, allowed.symm⟩
  · rintro ⟨t, led, allowed⟩
    obtain ⟨reached, visited⟩ :=
      Composition.visits_of_leads led path (Composition.walkAll_open done)
    obtain ⟨keys, met⟩ := Composition.walkAll_meets done visited
    exact ⟨t.required, allowed ▸ met List.mem_cons_self⟩

-- A property that is declared by some schema to which the members of a composition lead.
def Contributes (r : Resolver) (s : Schema) (d : Declaration) : Prop :=
  ∃ t, Leads r (.inline s) (.inline t) ∧ d ∈ t.properties

theorem mem_converted {declared : List Declaration} {converted : List Converted}
    (each : List.Forall₂ (Converts r) (named declared) converted) (c : Converted) :
    c ∈ converted ↔ ∃ d ∈ declared, Converts r d c := by
  constructor
  · intro here
    obtain ⟨d, among, converts⟩ := related_of_mem each.flip here
    exact ⟨d, (List.mem_filter.mp among).1, converts⟩
  · rintro ⟨d, here, converts⟩
    obtain ⟨other, among, also⟩ :=
      related_of_mem each (List.mem_filter.mpr ⟨here, decide_eq_true (namedAfter_some converts.name)⟩)
    exact converts_unique also converts ▸ among

-- Two declarations of the key differ in shape.
def Clash (declared : Converted → Prop) (key : String) : Prop :=
  ∃ a b, declared a ∧ declared b ∧ a.key = key ∧ b.key = key ∧ a.schema.sameShape b.schema = false

theorem conflict_clash {before : List Converted} {c : Converted}
    (here : key ∈ (conflict? before c).toList.map Ir.PropertyConflict.propertyKey) :
    c.key = key ∧ ∃ first ∈ before, first.key = key ∧ first.schema.sameShape c.schema = false := by
  unfold conflict? at here
  cases found : before.find? fun other => other.key = c.key with
  | none =>
    rw [found] at here
    cases here
  | some first =>
    rw [found] at here
    dsimp only at here
    split at here
    · cases here
    · rename_i differs
      cases List.mem_singleton.mp here
      have same : first.key = c.key := by simpa using List.find?_some found
      exact ⟨rfl, first, List.mem_of_find?_eq_some found, same, Bool.eq_false_iff.mpr differs⟩

-- A declaration that differs in shape from an earlier one of its key is a conflict, unless the earlier
-- ones differed before: what has the shape of the first of them has that of all of its shape.
theorem clash_later {before : List Converted} {other last : Converted} (among : other ∈ before)
    (same : other.key = last.key)
    (differs : other.schema.sameShape last.schema = false ∨
      last.schema.sameShape other.schema = false) :
    Clash (· ∈ before) last.key ∨
      last.key ∈ (conflict? before last).toList.map Ir.PropertyConflict.propertyKey := by
  obtain ⟨first, found⟩ : ∃ first, (before.find? fun c => c.key = last.key) = some first :=
    Option.isSome_iff_exists.mp (List.find?_isSome.mpr ⟨other, among, decide_eq_true same⟩)
  have keyed : first.key = last.key := by simpa using List.find?_some found
  cases equal : first.schema.sameShape last.schema with
  | false =>
    right
    simp only [conflict?, found, equal, Bool.false_eq_true, if_false, Option.toList_some,
      List.map_cons, List.mem_cons, true_or]
  | true =>
    refine .inl ⟨first, other, List.mem_of_find?_eq_some found, among, keyed, same, ?_⟩
    refine Bool.eq_false_iff.mpr fun alike => ?_
    rcases differs with differs | differs
    · exact Bool.eq_false_iff.mp differs (Ir.Schema.sameShape_euclidean alike equal)
    · exact Bool.eq_false_iff.mp differs (Ir.Schema.sameShape_euclidean equal alike)

theorem clash_snoc {before : List Converted} {last : Converted} (self : last.schema.Shapely) :
    Clash (· ∈ before ++ [last]) key ↔ Clash (· ∈ before) key ∨
      key ∈ (conflict? before last).toList.map Ir.PropertyConflict.propertyKey := by
  constructor
  · rintro ⟨a, b, first, second, keyed, same, differs⟩
    rcases List.mem_append.mp first with one | is <;>
      rcases List.mem_append.mp second with other | isToo
    · exact .inl ⟨a, b, one, other, keyed, same, differs⟩
    · cases List.mem_singleton.mp isToo
      exact same ▸ clash_later one (keyed.trans same.symm) (.inl differs)
    · cases List.mem_singleton.mp is
      exact keyed ▸ clash_later other (same.trans keyed.symm) (.inr differs)
    · cases List.mem_singleton.mp is
      cases List.mem_singleton.mp isToo
      exact absurd self (Bool.eq_false_iff.mp differs)
  · rintro (⟨a, b, first, second, others⟩ | here)
    · exact ⟨a, b, List.mem_append_left _ first, List.mem_append_left _ second, others⟩
    · obtain ⟨keyed, first, listed, same, differs⟩ := conflict_clash here
      exact ⟨first, last, List.mem_append_left _ listed,
        List.mem_append_right _ List.mem_cons_self, same, keyed, differs⟩

/-- The keys in conflict are those that are declared with different shapes, wherever the two
declarations stand. -/
theorem conflict_keys {declared : List Converted} (shapely : ∀ c ∈ declared, c.schema.Shapely) :
    key ∈ (conflictsAfter [] declared).map Ir.PropertyConflict.propertyKey ↔
      Clash (· ∈ declared) key := by
  induction declared using List.reverseRecOn with
  | nil => exact iff_of_false List.not_mem_nil fun ⟨_, _, here, _⟩ => absurd here List.not_mem_nil
  | append_singleton declared last ih =>
    have self := shapely last (List.mem_append_right _ List.mem_cons_self)
    rw [conflictsAfter_snoc, List.nil_append, List.map_append, List.mem_append,
      ih fun c here => shapely c (List.mem_append_left _ here), clash_snoc self]

/-- What the object has that a composition is merged to, in whatever order its members stand. -/
structure Gathers (r : Resolver) (s : Schema) (o : Ir.ObjectSchema Ir.Schema) : Prop where
  keys : ∀ key, key ∈ o.properties.map Ir.Property.key ↔
    ∃ d, Contributes r s d ∧ namedAfter d ≠ "" ∧ d.1 = key
  required : ∀ p ∈ o.properties, p.required = true ↔
    ∃ t, Leads r (.inline s) (.inline t) ∧ p.key ∈ t.required
  parents : ∀ id, id ∈ o.parents ↔ ∃ target node, SchemaNode.reference target ∈ s.allOf ∧
    r.lookupSchema target = .found id node
  additional : o.additionalProperties = true ↔
    ∃ t, Leads r (.inline s) (.inline t) ∧ t.allowsAdditional = true
  conflicts : ∀ key, key ∈ o.conflicts.map Ir.PropertyConflict.propertyKey ↔
    Clash (fun c => ∃ d, Contributes r s d ∧ Converts r d c) key

theorem Merged.Reflects.finished_keys {m : Merged} {declared : List Converted} {ids : List String}
    (reflects : m.Reflects declared ids) :
    m.finished.map Ir.Property.key = (declared.map Converted.key).eraseDups := by
  rw [← reflects.keys, Merged.finished, List.map_map]
  rfl

theorem finished_required {m : Merged} {p : Ir.Property Ir.Schema} (here : p ∈ m.finished) :
    p.required = m.required.contains p.key := by
  obtain ⟨q, -, same⟩ := List.mem_map.mp here
  subst same
  rfl

-- The run of a walk, in terms of the declarations that it met.
theorem lowerComposed_reflects (done : (lowerComposed r path s).outcome = .ok schema) :
    ∃ changes converted, Made r (Composition.walkAll r path s).steps changes ∧
      (Composition.walkAll r path s).failure = none ∧
      schema = (Merged.ofChanges changes).finish (ownInfo s) ∧
      List.Forall₂ (Converts r)
        (named ((Composition.walkAll r path s).steps.filterMap Step.declaration?)) converted ∧
      ∃ ids, (Merged.ofChanges changes).Reflects converted ids := by
  obtain ⟨changes, made, ended, same⟩ := lowerComposed_ok done
  obtain ⟨converted, each, reflects⟩ := run_reflects made reflects_empty
  exact ⟨changes, converted, made, ended, same, each, _, reflects⟩

section

variable {converted : List Converted} (ended : (Composition.walkAll r path s).failure = none)
  (each : List.Forall₂ (Converts r)
    (named ((Composition.walkAll r path s).steps.filterMap Step.declaration?)) converted)

include ended each

theorem contributed_iff (c : Converted) :
    c ∈ converted ↔ ∃ d, Contributes r s d ∧ Converts r d c := by
  rw [mem_converted each]
  simp only [Composition.declared_walked ended]
  rfl

theorem contributed_keys :
    key ∈ converted.map Converted.key ↔
      ∃ d, Contributes r s d ∧ namedAfter d ≠ "" ∧ d.1 = key := by
  rw [List.mem_map]
  constructor
  · rintro ⟨c, here, rfl⟩
    obtain ⟨d, contributes, converts⟩ := (contributed_iff ended each c).mp here
    exact ⟨d, contributes, namedAfter_some converts.name, converts.key.symm⟩
  · rintro ⟨d, contributes, some, rfl⟩
    have here := (Composition.declared_walked ended d).mpr contributes
    obtain ⟨c, among, converts⟩ :=
      related_of_mem each (List.mem_filter.mpr ⟨here, decide_eq_true some⟩)
    exact ⟨c, among, converts.key⟩

theorem contributed_shapely (components : ∀ e ∈ r.schemas, RealNode e.2)
    (real : RealNode (.inline s)) : ∀ c ∈ converted, c.schema.Shapely := by
  intro c here
  obtain ⟨d, ⟨t, led, listed⟩, -, -, start, lowered⟩ := (contributed_iff ended each c).mp here
  obtain ⟨reached, visited⟩ :=
    Composition.visits_of_leads led path (Composition.walkAll_open ended)
  exact lower_shapely components
    (realNode_part (realNode_visits components real visited) (.property listed)) lowered

end

theorem lowerComposed_gathers (components : ∀ e ∈ r.schemas, RealNode e.2)
    (real : RealNode (.inline s)) (done : (lowerComposed r path s).outcome = .ok schema) :
    ∃ o, schema = .object o ∧ Gathers r s o := by
  obtain ⟨changes, converted, made, ended, same, each, ids, reflects⟩ := lowerComposed_reflects done
  refine ⟨_, same, fun key => ?_, fun p here => ?_, fun id => parents_of_composed made ended,
    additional_walked made ended, fun key => ?_⟩
  · change key ∈ (Merged.ofChanges changes).finished.map Ir.Property.key ↔ _
    rw [reflects.finished_keys, List.mem_eraseDups, contributed_keys ended each]
  · rw [finished_required here]
    exact List.contains_iff_mem.trans (required_walked made ended)
  · have recorded : (Merged.ofChanges changes).conflicts = conflictsAfter [] converted :=
      reflects.conflicts
    change key ∈ (Merged.ofChanges changes).conflicts.map Ir.PropertyConflict.propertyKey ↔ _
    rw [recorded, conflict_keys (contributed_shapely ended each components real)]
    simp only [Clash, contributed_iff ended each]

end SchemaLowering

end ApiLowering
