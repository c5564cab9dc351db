import ApiLowering.Proofs.Components
import ApiLowering.Proofs.FirstWins
import ApiLowering.Proofs.Unions

/-!
Which variants take the keys of a mapping. A member that is a reference takes the first key that is mapped
to its target, or falls back to its id, and a target that no member refers to is given one variant more;
an inline member falls back to its title or to a literal. So a key that is the first one for its target is
never lost, but it is shared with every other member that refers to the target and with every member that
falls back to the same text; and a later key of a member is left to those that fall back to it.
-/

set_option autoImplicit false

namespace ApiLowering

def Ir.Schema.union? : Ir.Schema → Option (Ir.UnionSchema Ir.Schema)
  | .union u => some u
  | _ => none

def Ir.Variant.wire? (v : Ir.Variant Ir.Schema) : Option String :=
  v.discriminantValue.map NameVariants.wireValue

-- How many variants of a union have the discriminant value.
def Ir.UnionSchema.times (u : Ir.UnionSchema Ir.Schema) (value : String) : Nat :=
  u.variants.countP fun v => v.wire? = some value

theorem countP_split {α : Type} {p q w : α → Bool} (items : List α)
    (each : ∀ a, p a = (q a || w a)) (apart : ∀ a, q a = true → w a = false) :
    items.countP p = items.countP q + items.countP w := by
  induction items with
  | nil => rfl
  | cons a rest ih =>
    rw [List.countP_cons, List.countP_cons, List.countP_cons, ih, each]
    cases one : q a with
    | false =>
      rw [Bool.false_or, if_neg Bool.false_ne_true]
      omega
    | true =>
      rw [apart a one, Bool.or_false, if_pos rfl, if_neg Bool.false_ne_true]
      omega

namespace SchemaLowering

variable {r : Resolver} {path : List String} {s : Schema} {d : Discriminator} {schema : Ir.Schema}
  {key : String} {entry : String × String} {mapping : List (String × String)}
  {covered : List String} {members : List SchemaNode} {node : SchemaNode}
  {variants : List (Ir.Variant Ir.Schema)} {label : Label}

-- The key that a member takes from the mapping.
def mappedKey? (d : Discriminator) (member : SchemaNode) : Option String :=
  member.target?.bind fun target =>
    (d.mapping.find? fun e => Discriminant.target e.2 = target).map Prod.fst

-- What a member is called when no key is mapped to it.
def fallback? (d : Discriminator) : SchemaNode → Option String
  | .reference target => Pointer.componentId? "schemas" target
  | .inline s => s.title.or (discriminantLiteral? s d.propertyName)
  | .invalid _ => none

theorem discriminantValue_eq (d : Discriminator) (member : SchemaNode) :
    discriminantValue? d member = (mappedKey? d member).or (fallback? d member) := by
  cases member <;> rfl

-- Whether a member enters a union with the value.
def Label.tells (key : String) (label : Label) : Bool :=
  label.any fun name => name.map NameVariants.wireValue = some key

theorem discriminantLabel_tells {value : String} (spelled : key ≠ "")
    (done : (discriminantLabel value).outcome = .ok label) :
    label.tells key = decide (value = key) := by
  by_cases empty : value = ""
  · subst empty
    cases done
    exact (decide_eq_false spelled.symm).symm
  · have filled : value.isEmpty = false := by simpa using empty
    rw [discriminantLabel, NameVariants.derive?, filled] at done
    cases done
    simp only [Label.tells, Option.any_some, Option.map_some, Option.getD_none, Option.some.injEq]

theorem taggedLabel_tells (spelled : key ≠ "") (done : (taggedLabel d node).outcome = .ok label) :
    label.tells key = decide (discriminantValue? d node = some key) := by
  unfold taggedLabel at done
  cases told : discriminantValue? d node with
  | none =>
    rw [told] at done
    cases done
    rfl
  | some value =>
    rw [told] at done
    rw [discriminantLabel_tells spelled done]
    simp only [Option.some.injEq]

theorem lowerMembers_count {keyword : String} {index : Nat} (spelled : key ≠ "")
    (done : (lowerMembers r path keyword (taggedLabel d) index members).outcome = .ok variants) :
    (variants.countP fun v => v.wire? = some key) =
      members.countP fun member => discriminantValue? d member = some key := by
  induction members generalizing index variants with
  | nil =>
    rw [lowerMembers] at done
    cases done
    rfl
  | cons member rest ih =>
    rw [lowerMembers] at done
    obtain ⟨found, more, first, later, same⟩ := Report.oneMore_ok done
    subst same
    obtain ⟨label, labelled, first⟩ := Report.bind_ok first
    have tells := taggedLabel_tells spelled labelled
    rw [List.countP_append, ih later, List.countP_cons, ← tells, Nat.add_comm]
    cases label with
    | none =>
      cases first
      rfl
    | some name =>
      obtain ⟨schema, -, first⟩ := Report.bind_ok first
      cases first
      rw [Option.toList_some, List.countP_singleton]
      rfl

-- The entries of a mapping that are given a variant of their own, after some targets.
def leftover : List String → List (String × String) → List (String × String)
  | _, [] => []
  | covered, e :: rest =>
    if covered.contains (Discriminant.target e.2) then leftover covered rest
    else e :: leftover (Discriminant.target e.2 :: covered) rest

theorem mappedVariants_count (spelled : key ≠ "")
    (done : (mappedVariants r covered mapping).outcome = .ok variants) :
    (variants.countP fun v => v.wire? = some key) =
      (leftover covered mapping).countP fun e => e.1 = key := by
  induction mapping generalizing covered variants with
  | nil =>
    cases done
    rfl
  | cons e rest ih =>
    obtain ⟨value, name⟩ := e
    rw [mappedVariants] at done
    rw [leftover]
    split at done
    · rename_i known
      rw [if_pos known]
      exact ih done
    · rename_i fresh
      obtain ⟨found, more, first, later, same⟩ := Report.oneMore_ok done
      subst same
      obtain ⟨label, labelled, first⟩ := Report.bind_ok first
      have tells := discriminantLabel_tells spelled labelled
      rw [if_neg fresh, List.countP_append, ih later, List.countP_cons, ← tells, Nat.add_comm]
      cases label with
      | none =>
        cases first
        rfl
      | some label =>
        obtain ⟨schema, -, first⟩ := Report.bind_ok first
        cases first
        rw [Option.toList_some, List.countP_singleton]
        rfl

theorem leftover_sublist (covered : List String) (mapping : List (String × String)) :
    (leftover covered mapping).Sublist mapping := by
  induction mapping generalizing covered with
  | nil => exact .slnil
  | cons e rest ih =>
    rw [leftover]
    split
    · exact (ih covered).cons e
    · exact (ih _).cons_cons e

theorem leftover_fresh (here : entry ∈ leftover covered mapping) :
    Discriminant.target entry.2 ∉ covered := by
  induction mapping generalizing covered with
  | nil => cases here
  | cons e rest ih =>
    rw [leftover] at here
    split at here
    · exact ih here
    · rename_i fresh
      rcases List.mem_cons.mp here with same | later
      · rw [same]
        exact fun known => fresh (List.contains_iff_mem.mpr known)
      · exact fun known => ih later (List.mem_cons_of_mem _ known)

-- The first entry of a mapping that leads where it does.
def FirstFor (mapping : List (String × String)) (e : String × String) : Prop :=
  (mapping.find? fun other => Discriminant.target other.2 = Discriminant.target e.2) = some e

instance : Decidable (FirstFor mapping entry) := inferInstanceAs (Decidable (_ = _))

theorem leftover_first (first : FirstFor mapping entry)
    (fresh : Discriminant.target entry.2 ∉ covered) : entry ∈ leftover covered mapping := by
  induction mapping generalizing covered with
  | nil => cases first
  | cons e rest ih =>
    rw [leftover]
    rw [FirstFor] at first
    by_cases same : Discriminant.target e.2 = Discriminant.target entry.2
    · rw [List.find?_cons_of_pos (by simpa using same)] at first
      cases first
      rw [if_neg fun known => fresh (List.contains_iff_mem.mp known)]
      exact List.mem_cons_self
    · rw [List.find?_cons_of_neg (by simpa using same)] at first
      split
      · exact ih first fresh
      · exact List.mem_cons_of_mem _
          (ih first (List.not_mem_cons_of_ne_of_not_mem (Ne.symm same) fresh))

theorem leftover_count (distinct : (mapping.map Prod.fst).Nodup) (listed : entry ∈ mapping) :
    ((leftover covered mapping).countP fun e => e.1 = entry.1) =
      if entry ∈ leftover covered mapping then 1 else 0 := by
  have part := leftover_sublist covered mapping
  have keys : ((leftover covered mapping).map Prod.fst).Nodup := distinct.sublist (part.map Prod.fst)
  have counted : ((leftover covered mapping).countP fun e => e.1 = entry.1) =
      ((leftover covered mapping).map Prod.fst).count entry.1 := by
    rw [List.count, List.countP_map]
    rfl
  rw [counted]
  by_cases here : entry ∈ leftover covered mapping
  · rw [if_pos here, List.count_eq_one_of_mem keys (List.mem_map_of_mem here)]
  · rw [if_neg here, List.count_eq_zero]
    intro there
    obtain ⟨e, among, same⟩ := List.mem_map.mp there
    exact here (List.inj_on_of_nodup_map distinct (part.subset among) listed same ▸ among)

theorem first_of_mapped (distinct : (d.mapping.map Prod.fst).Nodup) (listed : entry ∈ d.mapping)
    (takes : mappedKey? d node = some entry.1) :
    FirstFor d.mapping entry ∧ node.target? = some (Discriminant.target entry.2) := by
  obtain ⟨target, leads, takes⟩ := Option.bind_eq_some_iff.mp takes
  obtain ⟨e, found, same⟩ := Option.map_eq_some_iff.mp takes
  have only := List.inj_on_of_nodup_map distinct (List.mem_of_find?_eq_some found) listed same
  subst only
  have reached : Discriminant.target e.2 = target := by simpa using List.find?_some found
  subst reached
  exact ⟨found, leads⟩

theorem mapped_of_first (first : FirstFor d.mapping entry)
    (leads : node.target? = some (Discriminant.target entry.2)) :
    mappedKey? d node = some entry.1 := by
  rw [FirstFor] at first
  rw [mappedKey?, leads, Option.bind_some, first, Option.map_some]

-- The members that refer to a target.
def references (members : List SchemaNode) (target : String) : Nat :=
  members.countP fun member => member.target? = some target

-- The members that no key is mapped to and that fall back to a value.
def fallbacks (d : Discriminator) (members : List SchemaNode) (value : String) : Nat :=
  members.countP fun member =>
    (mappedKey? d member).isNone && decide (fallback? d member = some value)

theorem references_pos {target : String} :
    0 < references members target ↔ target ∈ members.filterMap SchemaNode.target? := by
  rw [references, List.countP_pos_iff, List.mem_filterMap]
  simp only [decide_eq_true_eq]

-- The members that take a key are those that refer to its target, if it is the first key there.
theorem members_count (distinct : (d.mapping.map Prod.fst).Nodup) (listed : entry ∈ d.mapping) :
    (members.countP fun member => discriminantValue? d member = some entry.1) =
      (if FirstFor d.mapping entry then references members (Discriminant.target entry.2) else 0) +
        fallbacks d members entry.1 := by
  have taking : (members.countP fun member => mappedKey? d member = some entry.1) =
      if FirstFor d.mapping entry then references members (Discriminant.target entry.2) else 0 := by
    by_cases first : FirstFor d.mapping entry
    · rw [if_pos first]
      refine List.countP_congr fun member _ => ?_
      simp only [decide_eq_true_eq]
      exact ⟨fun takes => (first_of_mapped distinct listed takes).2, mapped_of_first first⟩
    · rw [if_neg first, List.countP_eq_zero]
      intro member _ takes
      exact first (first_of_mapped distinct listed (of_decide_eq_true takes)).1
  rw [← taking]
  refine countP_split members (fun member => ?_) fun member takes => ?_
  · rw [discriminantValue_eq]
    cases mappedKey? d member with
    | none => rfl
    | some key => exact (Bool.or_false _).symm
  · rw [of_decide_eq_true takes]
    rfl

/-- The variants of a union with a discriminant that take the key of an entry of the mapping, where the
key is the first for its target or a member refers to the target: the first key goes to every such member,
or to one variant more if there is none, and any key goes to the members that fall back to it. -/
theorem mapping_keys_counted (bare : s.allOf = []) (united : s.oneOf ≠ [] ∨ s.anyOf ≠ [])
    (present : s.discriminator = some d) (spelled : ∀ e ∈ d.mapping, e.1 ≠ "")
    (distinct : (d.mapping.map Prod.fst).Nodup)
    (done : (lowerInline r path s).outcome = .ok schema) :
    ∃ u, schema = .union u ∧ ∀ e ∈ d.mapping,
      FirstFor d.mapping e ∨ 0 < references (unionMembers s).2 (Discriminant.target e.2) →
      u.times e.1 =
        (if FirstFor d.mapping e then
          max 1 (references (unionMembers s).2 (Discriminant.target e.2)) else 0) +
        fallbacks d (unionMembers s).2 e.1 := by
  have shape : form s = .tagged d := by
    have several : (!s.oneOf.isEmpty || !s.anyOf.isEmpty) = true := by simpa using united
    rw [form, bare, List.isEmpty_nil, Bool.not_true, if_neg Bool.false_ne_true, if_pos several,
      present]
  have done := lowerInline_ok done
  rw [shape] at done
  obtain ⟨variants, mapped, base, onMembers, onMapping, same⟩ := lowerTagged_parts done
  refine ⟨_, same, fun e listed settled => ?_⟩
  have named := spelled e listed
  rw [Ir.UnionSchema.times, List.countP_append, lowerMembers_count named onMembers,
    mappedVariants_count named onMapping, members_count distinct listed,
    leftover_count distinct listed]
  have covers : 0 < references (unionMembers s).2 (Discriminant.target e.2) ↔ _ := references_pos
  by_cases first : FirstFor d.mapping e
  · rw [if_pos first, if_pos first]
    by_cases refers : 0 < references (unionMembers s).2 (Discriminant.target e.2)
    · rw [if_neg fun left => leftover_fresh left (covers.mp refers)]
      omega
    · rw [if_pos (leftover_first first fun covered => refers (covers.mpr covered))]
      omega
  · -- the target of a later key is covered by the members that refer to it
    have refers := settled.resolve_left first
    rw [if_neg first, if_neg first, if_neg fun left => leftover_fresh left (covers.mp refers),
      Nat.add_zero]

-- Two pets that take the first key of a pet, and a schema that goes by the second.
def menagerie : Schema :=
  { Keywords.empty with
    oneOf := [.reference (Pointer.ofSchema "Pet"), .reference (Pointer.ofSchema "Pet"),
      .inline { Keywords.empty with title := some "dog" }]
    discriminator := some ⟨"kind", [("hound", "Alias"), ("pet", "Pet"), ("dog", "Pet")]⟩ }

theorem menagerie_counted :
    menagerie.allOf = [] ∧ menagerie.oneOf ≠ [] ∧
      ∃ d u, menagerie.discriminator = some d ∧ (∀ e ∈ d.mapping, e.1 ≠ "") ∧
        (d.mapping.map Prod.fst).Nodup ∧
        (lowerInline kennel [] menagerie).outcome = .ok (.union u) ∧
        u.times "hound" = 1 ∧ u.times "pet" = 2 ∧ u.times "dog" = 1 := by
  have several : menagerie.oneOf ≠ [] := by simp [menagerie]
  have lowers : ((lowerInline kennel [] menagerie).outcome.toOption.any fun _ => true) = true := by
    decide +kernel
  obtain ⟨schema, done, -⟩ := ok_of_any lowers
  obtain ⟨u, union, counted⟩ := mapping_keys_counted (s := menagerie) rfl (.inl several) rfl (by decide)
    (by decide) done
  subst union
  refine ⟨rfl, several, _, u, rfl, by decide, by decide, done, ?_, ?_, ?_⟩
  · exact (counted ("hound", "Alias") (by decide) (by decide +kernel)).trans (by decide +kernel)
  · exact (counted ("pet", "Pet") (by decide) (by decide +kernel)).trans (by decide +kernel)
  · exact (counted ("dog", "Pet") (by decide) (by decide +kernel)).trans (by decide +kernel)

-- A pet that has two keys.
def aliased : Schema :=
  { Keywords.empty with
    oneOf := [.reference (Pointer.ofSchema "Pet")]
    discriminator := some ⟨"kind", [("pet", "Pet"), ("animal", "Pet")]⟩ }

/-- The second key of a component that a union lists is the value of no variant. -/
theorem aliased_lost :
    aliased.allOf = [] ∧ aliased.oneOf ≠ [] ∧
      ∃ d u, aliased.discriminator = some d ∧ (∀ e ∈ d.mapping, e.1 ≠ "") ∧
        (lowerInline kennel [] aliased).outcome = .ok (.union u) ∧
        ("animal", "Pet") ∈ d.mapping ∧ u.times "animal" = 0 := by
  have lowers : ((lowerInline kennel [] aliased).outcome.toOption.any fun schema =>
      schema.union?.any fun u => u.times "animal" == 0) = true := by decide +kernel
  obtain ⟨schema, done, checked⟩ := ok_of_any lowers
  cases schema with
  | union u =>
    exact ⟨rfl, by simp [aliased], _, u, rfl, by decide, done, by decide, eq_of_beq checked⟩
  | object _ | enumeration _ | primitive _ | array _ _ | map _ _ | reference _ _ | unknown _ =>
    cases checked

end SchemaLowering

end ApiLowering
