import ApiLowering.Proofs.Discriminants
import ApiLowering.Proofs.Pointer

/-!
The variants of unions with a discriminant. Each of them comes from a member of the schema or from an
entry of the mapping; and a component that the schema lists has a variant that refers to it.
-/

set_option autoImplicit false

namespace ApiLowering.SchemaLowering

variable {r : Resolver} {path : List String} {s : Schema} {d : Discriminator}

/-- Where a variant comes from, with the pointer that led to its schema if there was one: a member,
which may be a reference, or an entry of the mapping, which always stands for one. -/
inductive Origin (r : Resolver) (path : List String) (s : Schema) (d : Discriminator) :
    Ir.Variant Ir.Schema → Option String → Prop where
  | member {node : SchemaNode} {variant : Ir.Variant Ir.Schema} (listed : node ∈ (unionMembers s).2)
      (labelled : (taggedLabel d node).outcome = .ok (some variant.discriminantValue))
      (lowered : (lower r path node).outcome = .ok variant.schema) :
      Origin r path s d variant node.target?
  | mapped {value name : String} {variant : Ir.Variant Ir.Schema}
      (listed : (value, name) ∈ d.mapping)
      (labelled : (discriminantLabel value).outcome = .ok (some variant.discriminantValue))
      (lowered : (lowerReference r (Discriminant.target name)).outcome = .ok variant.schema) :
      Origin r path s d variant (some (Discriminant.target name))

theorem lowerMembers_variants {keyword : String} {label : SchemaNode → Report Label} {index : Nat}
    {members : List SchemaNode} {variants : List (Ir.Variant Ir.Schema)}
    (done : (lowerMembers r path keyword label index members).outcome = .ok variants)
    (v : Ir.Variant Ir.Schema) :
    v ∈ variants ↔ ∃ node ∈ members, (label node).outcome = .ok (some v.discriminantValue) ∧
      (lower r path node).outcome = .ok v.schema := by
  induction members generalizing index variants with
  | nil =>
    rw [lowerMembers] at done
    cases done
    simp only [List.not_mem_nil, false_and, exists_false]
  | cons member rest ih =>
    rw [lowerMembers] at done
    obtain ⟨found, more, first, later, same⟩ := Report.oneMore_ok done
    subst same
    rw [List.mem_append, ih later, Option.mem_toList]
    simp only [List.mem_cons, exists_eq_or_imp]
    refine or_congr_left ?_
    -- what the first member gives, if anything, is its label and what it is lowered to
    obtain ⟨value, labelled, first⟩ := Report.bind_ok first
    cases value with
    | none =>
      cases first
      simp only [labelled, Except.ok.injEq, reduceCtorEq, false_and]
    | some value =>
      obtain ⟨schema, lowered, first⟩ := Report.bind_ok first
      cases first
      simp only [labelled, lowered, Except.ok.injEq, Option.some.injEq]
      constructor
      · rintro rfl
        exact ⟨rfl, rfl⟩
      · rintro ⟨rfl, rfl⟩
        rfl

theorem mappedVariants_origin {covered : List String} {mapping : List (String × String)}
    {variants : List (Ir.Variant Ir.Schema)}
    (done : (mappedVariants r covered mapping).outcome = .ok variants) {v : Ir.Variant Ir.Schema}
    (here : v ∈ variants) :
    ∃ e ∈ mapping, (discriminantLabel e.1).outcome = .ok (some v.discriminantValue) ∧
      (lowerReference r (Discriminant.target e.2)).outcome = .ok v.schema := by
  induction mapping generalizing covered variants with
  | nil =>
    cases done
    cases here
  | cons e rest ih =>
    obtain ⟨value, name⟩ := e
    rw [mappedVariants] at done
    split at done
    · obtain ⟨e, listed, origin⟩ := ih done here
      exact ⟨e, List.mem_cons_of_mem _ listed, origin⟩
    · obtain ⟨found, more, first, later, same⟩ := Report.oneMore_ok done
      subst same
      rcases List.mem_append.mp here with own | after
      · obtain ⟨label, labelled, first⟩ := Report.bind_ok first
        cases label with
        | none =>
          cases first
          cases own
        | some label =>
          obtain ⟨schema, lowered, first⟩ := Report.bind_ok first
          cases first
          cases List.mem_singleton.mp own
          exact ⟨(value, name), List.mem_cons_self, labelled, lowered⟩
      · obtain ⟨e, listed, origin⟩ := ih later after
        exact ⟨e, List.mem_cons_of_mem _ listed, origin⟩

theorem lowerTagged_parts {schema : Ir.Schema}
    (done : (lowerTagged r path s d).outcome = .ok schema) :
    ∃ variants mapped base,
      (lowerMembers r path (unionMembers s).1 (taggedLabel d) 0 (unionMembers s).2).outcome =
        .ok variants ∧
      (mappedVariants r ((unionMembers s).2.filterMap SchemaNode.target?) d.mapping).outcome =
        .ok mapped ∧
      schema = .union ⟨none, ownInfo s, some d.propertyName, base, variants ++ mapped⟩ := by
  obtain ⟨variants, onMembers, done⟩ := Report.bind_ok done
  obtain ⟨mapped, onMapping, done⟩ := Report.bind_ok done
  obtain ⟨base, -, done⟩ := Report.bind_ok done
  exact ⟨variants, mapped, base, onMembers, onMapping, (Report.pure_ok done).symm⟩

theorem lowerTagged_origin {u : Ir.UnionSchema Ir.Schema}
    (done : (lowerTagged r path s d).outcome = .ok (.union u)) :
    u.discriminant = some d.propertyName ∧ ∀ v ∈ u.variants, ∃ pointer, Origin r path s d v pointer := by
  obtain ⟨variants, mapped, base, onMembers, onMapping, same⟩ := lowerTagged_parts done
  cases same
  refine ⟨rfl, fun v here => ?_⟩
  rcases List.mem_append.mp here with own | extra
  · obtain ⟨node, listed, labelled, lowered⟩ := (lowerMembers_variants onMembers v).mp own
    exact ⟨_, .member listed labelled lowered⟩
  · obtain ⟨e, listed, labelled, lowered⟩ := mappedVariants_origin onMapping extra
    exact ⟨_, .mapped listed labelled lowered⟩

theorem form_discriminator (shape : form s = .tagged d) : s.discriminator = some d := by
  unfold form at shape
  repeat' split at shape
  all_goals cases shape
  assumption

theorem unionMembers_united (filled : (unionMembers s).2 ≠ []) : s.oneOf ≠ [] ∨ s.anyOf ≠ [] := by
  by_cases none : s.oneOf.isEmpty
  · rw [unionMembers, if_pos none] at filled
    exact .inr filled
  · exact .inl fun empty => none (List.isEmpty_iff.mpr empty)

theorem form_tagged (bare : s.allOf = []) (united : s.oneOf ≠ [] ∨ s.anyOf ≠ [])
    (present : s.discriminator = some d) : form s = .tagged d := by
  have several : (!s.oneOf.isEmpty || !s.anyOf.isEmpty) = true := by simpa using united
  rw [form, bare, List.isEmpty_nil, Bool.not_true, if_neg Bool.false_ne_true, if_pos several, present]

theorem form_untagged (bare : s.allOf = []) (united : s.oneOf ≠ [] ∨ s.anyOf ≠ [])
    (plain : s.discriminator = none) :
    form s = .union ∨ ∃ index member, form s = .collapsed index member := by
  have several : (!s.oneOf.isEmpty || !s.anyOf.isEmpty) = true := by simpa using united
  rw [form, bare, List.isEmpty_nil, Bool.not_true, if_neg Bool.false_ne_true, if_pos several, plain]
  cases memberAt? (unionMembers s).2 (soleMember? s) with
  | none => exact .inl rfl
  | some only => exact .inr ⟨only.1, only.2, rfl⟩

theorem Origin.pointed {v : Ir.Variant Ir.Schema} {pointer : String}
    (origin : Origin r path s d v (some pointer)) : pointer ∈ Discriminant.memberPointers s d := by
  generalize leads : some pointer = found at origin
  cases origin with
  | @member node _ listed _ _ =>
    refine List.mem_append_left _ (List.mem_filterMap.mpr ⟨node, ?_, leads.symm⟩)
    unfold unionMembers at listed
    split at listed
    · exact List.mem_append_right _ listed
    · exact List.mem_append_left _ listed
  | mapped listed _ _ =>
    cases leads
    exact List.mem_append_right _ (List.mem_map_of_mem (List.mem_map_of_mem listed))

theorem lowerReference_known {id : String} (named : id ≠ "") (known : Known r id) :
    (lowerReference r (Pointer.ofSchema id)).outcome = .ok (.reference Ir.Meta.blank id) := by
  obtain ⟨node, stored⟩ := known
  rw [lowerReference, lookup_found.mpr ⟨Pointer.componentId_ofSchema named, stored⟩]
  rfl

theorem discriminantLabel_named {value : String} (named : value ≠ "") :
    ∃ label, (discriminantLabel value).outcome = .ok (some label) := by
  have spelled : value.isEmpty = false := by simpa using named
  unfold discriminantLabel NameVariants.derive?
  rw [spelled]
  exact ⟨_, rfl⟩

-- The first key that is mapped to a pointer, if there is one, is a name.
def Spelled (mapping : List (String × String)) (pointer : String) : Prop :=
  ∀ e, (mapping.find? fun e => Discriminant.target e.2 = pointer) = some e → e.1 ≠ ""

theorem spelled_of_all {mapping : List (String × String)} {pointer : String}
    (all : ∀ e ∈ mapping, Discriminant.target e.2 = pointer → e.1 ≠ "") : Spelled mapping pointer :=
  fun e found => all e (List.mem_of_find?_eq_some found) (by simpa using List.find?_some found)

theorem taggedLabel_named {id : String} (named : id ≠ "")
    (spelled : Spelled d.mapping (Pointer.ofSchema id)) :
    ∃ label, (taggedLabel d (.reference (Pointer.ofSchema id))).outcome = .ok (some label) := by
  have value : ∃ value, discriminantValue? d (.reference (Pointer.ofSchema id)) = some value ∧
      value ≠ "" := by
    rw [discriminantValue?, Pointer.componentId_ofSchema named]
    cases entry : d.mapping.find? fun e => Discriminant.target e.2 = Pointer.ofSchema id with
    | none => exact ⟨id, rfl, named⟩
    | some e => exact ⟨e.1, rfl, spelled e entry⟩
  obtain ⟨value, given, named⟩ := value
  rw [taggedLabel, given]
  exact discriminantLabel_named named

theorem mappedVariants_lists {covered : List String} {mapping : List (String × String)}
    {variants : List (Ir.Variant Ir.Schema)} {pointer : String} {schema : Ir.Schema}
    (done : (mappedVariants r covered mapping).outcome = .ok variants)
    (spelled : Spelled mapping pointer) (fresh : pointer ∉ covered)
    (mapped : ∃ e ∈ mapping, Discriminant.target e.2 = pointer)
    (lowered : (lowerReference r pointer).outcome = .ok schema) :
    ∃ v ∈ variants, v.schema = schema ∧ ∃ e ∈ mapping, Discriminant.target e.2 = pointer ∧
      (discriminantLabel e.1).outcome = .ok (some v.discriminantValue) := by
  induction mapping generalizing covered variants with
  | nil =>
    obtain ⟨e, listed, -⟩ := mapped
    cases listed
  | cons e rest ih =>
    obtain ⟨value, name⟩ := e
    obtain ⟨e, listed, leads⟩ := mapped
    have later (other : Discriminant.target name ≠ pointer) : Spelled rest pointer := fun e found =>
      spelled e ((List.find?_cons_of_neg (by simpa using other)).trans found)
    rw [mappedVariants] at done
    split at done
    · rename_i before
      have other : Discriminant.target name ≠ pointer := fun here =>
        fresh (here ▸ List.contains_iff_mem.mp before)
      rcases List.mem_cons.mp listed with same | there
      · subst same
        exact absurd leads other
      · obtain ⟨v, among, schema, e, listed, origin⟩ := ih done (later other) fresh ⟨e, there, leads⟩
        exact ⟨v, among, schema, e, List.mem_cons_of_mem _ listed, origin⟩
    · obtain ⟨found, more, first, rest, same⟩ := Report.oneMore_ok done
      subst same
      by_cases here : Discriminant.target name = pointer
      · have named := spelled (value, name) (List.find?_cons_of_pos (by simpa using here))
        obtain ⟨label, labelled⟩ := discriminantLabel_named named
        obtain ⟨given, again, first⟩ := Report.bind_ok first
        cases labelled.symm.trans again
        obtain ⟨s, reached, first⟩ := Report.bind_ok first
        cases (here ▸ reached).symm.trans lowered
        cases first
        exact ⟨_, List.mem_append_left _ (List.mem_singleton.mpr rfl), rfl, (value, name),
          List.mem_cons_self, here, labelled⟩
      · have still : pointer ∉ Discriminant.target name :: covered :=
          List.not_mem_cons_of_ne_of_not_mem (Ne.symm here) fresh
        rcases List.mem_cons.mp listed with same | there
        · subst same
          exact absurd leads here
        · obtain ⟨v, among, schema, e, listed, origin⟩ := ih rest (later here) still ⟨e, there, leads⟩
          exact ⟨v, List.mem_append_right _ among, schema, e, List.mem_cons_of_mem _ listed, origin⟩

-- A union with a discriminant has the component among its members or in its mapping, and the names
-- that its variant takes are there.
structure Offers (s : Schema) (d : Discriminator) (id : String) : Prop where
  listed : .reference (Pointer.ofSchema id) ∈ (unionMembers s).2 ∨
    ∃ e ∈ d.mapping, Discriminant.target e.2 = Pointer.ofSchema id
  named : id ≠ ""
  spelled : ∀ e ∈ d.mapping, Discriminant.target e.2 = Pointer.ofSchema id → e.1 ≠ ""

/-- A component has a variant that refers to it if a union lists it or maps a key to it, and the first of
these keys is a name. -/
theorem lowerTagged_mentions {schema : Ir.Schema} {id : String}
    (done : (lowerTagged r path s d).outcome = .ok schema) (known : Known r id) (named : id ≠ "")
    (listed : .reference (Pointer.ofSchema id) ∈ (unionMembers s).2 ∨
      ∃ e ∈ d.mapping, Discriminant.target e.2 = Pointer.ofSchema id)
    (spelled : Spelled d.mapping (Pointer.ofSchema id)) :
    ∃ u, schema = .union u ∧ u.discriminant = some d.propertyName ∧
      ∃ v ∈ u.variants, v.schema = .reference Ir.Meta.blank id ∧
        Origin r path s d v (some (Pointer.ofSchema id)) := by
  obtain ⟨variants, mapped, base, onMembers, onMapping, same⟩ := lowerTagged_parts done
  refine ⟨_, same, rfl, ?_⟩
  have lowered := lowerReference_known named known
  by_cases member : .reference (Pointer.ofSchema id) ∈ (unionMembers s).2
  · obtain ⟨label, labelled⟩ := taggedLabel_named (d := d) named spelled
    have reached : (lower r path (.reference (Pointer.ofSchema id))).outcome =
        .ok (.reference Ir.Meta.blank id) := by
      rw [lower]
      exact lowered
    refine ⟨⟨label, .reference Ir.Meta.blank id⟩, List.mem_append_left _ ?_, rfl, ?_⟩
    · exact (lowerMembers_variants onMembers _).mpr ⟨_, member, labelled, reached⟩
    · exact .member member labelled reached
  · have fresh : Pointer.ofSchema id ∉ (unionMembers s).2.filterMap SchemaNode.target? := by
      intro covered
      obtain ⟨node, here, leads⟩ := List.mem_filterMap.mp covered
      cases node with
      | reference target =>
        cases leads
        exact member here
      | inline _ | invalid _ => cases leads
    obtain ⟨v, here, refers, e, entry, leads, labelled⟩ :=
      mappedVariants_lists onMapping spelled fresh (listed.resolve_left member) lowered
    refine ⟨v, List.mem_append_right _ here, refers, leads ▸ .mapped entry labelled ?_⟩
    rw [leads, refers]
    exact lowered

/-- A component that a union offers has a variant that refers to it. -/
theorem lowerTagged_refers {schema : Ir.Schema} {id : String}
    (done : (lowerTagged r path s d).outcome = .ok schema) (known : Known r id)
    (offers : Offers s d id) :
    ∃ u, schema = .union u ∧ u.discriminant = some d.propertyName ∧
      ∃ v ∈ u.variants, v.schema = .reference Ir.Meta.blank id ∧
        Origin r path s d v (some (Pointer.ofSchema id)) :=
  lowerTagged_mentions done known offers.named offers.listed (spelled_of_all offers.spelled)

end ApiLowering.SchemaLowering
