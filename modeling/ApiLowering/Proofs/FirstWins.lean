import ApiLowering.Proofs.Consulted
import ApiLowering.Proofs.Flattening

/-!
Merging a composition is flattening it, and the first declaration of a key wins. The object is read
off the list of the declarations that the members bring: a property for each key where it first
occurs, and a conflict for each later declaration of another shape.
-/

set_option autoImplicit false

namespace ApiLowering

namespace SchemaLowering

open ApiLowering.Composition (Brings Declaration Leads Step resolved?)

-- The members that count when a composition could reduce to one of them: a single member always
-- does, several do if they are more than annotations.
def shapedMembers (members : List SchemaNode) : List SchemaNode :=
  if members.length = 1 then members else members.filter fun m => !m.annotates

def IsMerged (s : Schema) : Prop :=
  s.allOf ≠ [] ∧ (s.properties ≠ [] ∨ (shapedMembers s.allOf).length ≠ 1)

theorem shaped_indexed (members : List SchemaNode) :
    (members.zipIdx.filter fun m => !m.1.annotates).map Prod.fst =
      members.filter fun m => !m.annotates := by
  rw [← List.zipIdx_map_fst 0 members, List.filter_map, List.zipIdx_map_fst]
  rfl

theorem soleShaped_isSome (members : List SchemaNode) :
    (memberAt? members (soleShaped? members)).isSome = true ↔
      (shapedMembers members).length = 1 := by
  by_cases single : members.length = 1
  · obtain ⟨member, same⟩ := List.length_eq_one_iff.mp single
    subst same
    exact iff_of_true rfl rfl
  · have counted : (members.zipIdx.filter fun m => !m.1.annotates).length =
        (members.filter fun m => !m.annotates).length := by
      rw [← shaped_indexed, List.length_map]
    rw [shapedMembers, if_neg single, soleShaped?, if_neg single, ← counted]
    constructor
    · intro found
      split at found
      · rename_i m only
        rw [only]
        rfl
      · cases found
    · intro one
      obtain ⟨m, only⟩ := List.length_eq_one_iff.mp one
      have listed : m ∈ members.zipIdx.filter fun m => !m.1.annotates := by
        rw [only]
        exact List.mem_cons_self
      have here := List.mem_zipIdx_iff_getElem?.mp (List.mem_filter.mp listed).1
      simp only [only, memberAt?, Option.bind_some, here, Option.map_some, Option.isSome_some]

theorem form_composed_iff (s : Schema) : form s = .composed ↔ IsMerged s := by
  unfold form IsMerged
  by_cases none : s.allOf = []
  · refine iff_of_false (fun shape => ?_) fun merged => merged.1 none
    rw [none] at shape
    simp only [List.isEmpty_nil, Bool.not_true, Bool.false_eq_true, if_false] at shape
    repeat' split at shape
    all_goals cases shape
  · have some : (!s.allOf.isEmpty) = true := by simpa using none
    rw [if_pos some]
    by_cases own : s.properties = []
    · have counted := soleShaped_isSome s.allOf
      rw [own, List.isEmpty_nil, if_pos rfl]
      cases chosen : memberAt? s.allOf (soleShaped? s.allOf) with
      | some choice =>
        rw [chosen] at counted
        refine iff_of_false (fun shape => nomatch shape) fun merged => ?_
        exact (merged.2.resolve_left fun other => other rfl) (counted.mp rfl)
      | none =>
        rw [chosen] at counted
        refine iff_of_true rfl ⟨none, .inr fun one => ?_⟩
        cases counted.mpr one
    · have kept : s.properties.isEmpty = false := List.isEmpty_eq_false_iff.mpr own
      rw [kept, if_neg Bool.false_ne_true]
      exact iff_of_true rfl ⟨none, .inl own⟩

theorem memberAt_some {members : List SchemaNode} {choice : Option Nat} {index : Nat}
    {member : SchemaNode} :
    memberAt? members choice = some (index, member) ↔
      choice = some index ∧ members[index]? = some member := by
  cases choice with
  | none => simp only [memberAt?, Option.bind_none, reduceCtorEq, false_and]
  | some i =>
    simp only [memberAt?, Option.bind_some, Option.map_eq_some_iff, Prod.mk.injEq, Option.some.injEq]
    constructor
    · rintro ⟨other, here, rfl, rfl⟩
      exact ⟨rfl, here⟩
    · rintro ⟨rfl, here⟩
      exact ⟨member, here, rfl, rfl⟩

theorem form_reduced_iff {s : Schema} {index : Nat} {member : SchemaNode} :
    form s = .reduced index member ↔
      s.properties = [] ∧ soleShaped? s.allOf = some index ∧ s.allOf[index]? = some member := by
  rw [← memberAt_some]
  constructor
  · intro shape
    unfold form at shape
    repeat' split at shape
    all_goals cases shape
    rename_i chosen
    split at chosen
    · exact ⟨List.isEmpty_iff.mp ‹_›, chosen⟩
    · cases chosen
  · rintro ⟨own, chosen⟩
    have some : s.allOf.isEmpty = false :=
      List.isEmpty_eq_false_iff.mpr (List.ne_nil_of_mem (memberAt_mem chosen))
    rw [form, some, own, Bool.not_false, if_pos rfl, List.isEmpty_nil, if_pos rfl, chosen]

-- A declaration with its name and with what its schema is lowered to.
structure Converted where
  key : String
  name : NameVariants
  schema : Ir.Schema

def Converted.property (c : Converted) : Ir.Property Ir.Schema := ⟨c.key, c.name, c.schema, false⟩

structure Converts (r : Resolver) (d : Declaration) (c : Converted) : Prop where
  key : c.key = d.1
  name : propertyName? d.1 d.2 = some c.name
  schema : ∃ path, (lower r path d.2).outcome = .ok c.schema

theorem converts_unique {r : Resolver} {d : Declaration} {a b : Converted} (one : Converts r d a)
    (other : Converts r d b) : a = b := by
  obtain ⟨key, name, schema⟩ := a
  obtain ⟨path, lowered⟩ := one.schema
  obtain ⟨elsewhere, again⟩ := other.schema
  have sameKey := one.key.trans other.key.symm
  have sameName := one.name.symm.trans other.name
  have sameSchema := lower_unique lowered again
  cases sameKey
  cases sameName
  cases sameSchema
  rfl

def conflict? (before : List Converted) (c : Converted) : Option (Ir.PropertyConflict Ir.Schema) :=
  match before.find? fun other => other.key = c.key with
  | some first =>
    if first.schema.sameShape c.schema then none else some ⟨c.key, first.schema, c.schema⟩
  | none => none

-- The later declarations that differ in shape from the first one of their key.
def conflictsAfter (before : List Converted) :
    List Converted → List (Ir.PropertyConflict Ir.Schema)
  | [] => []
  | c :: rest => (conflict? before c).toList ++ conflictsAfter (before ++ [c]) rest

theorem conflictsAfter_snoc (before declared : List Converted) (last : Converted) :
    conflictsAfter before (declared ++ [last]) =
      conflictsAfter before declared ++ (conflict? (before ++ declared) last).toList := by
  induction declared generalizing before with
  | nil => rw [List.append_nil, List.nil_append, conflictsAfter, conflictsAfter, conflictsAfter,
      List.append_nil, List.nil_append]
  | cons c rest ih =>
    rw [List.cons_append, conflictsAfter, conflictsAfter, ih, List.append_assoc, List.append_assoc,
      List.singleton_append]

-- A composition after some declarations, and after its members referred to some components.
structure Merged.Reflects (m : Merged) (declared : List Converted) (ids : List String) : Prop where
  keys : m.properties.map Ir.Property.key = (declared.map Converted.key).eraseDups
  firsts : ∀ key, (m.properties.find? fun p => p.key = key) =
    (declared.find? fun c => c.key = key).map Converted.property
  conflicts : m.conflicts = conflictsAfter [] declared
  parents : m.parents = ids.eraseDups

theorem eraseDups_snoc {κ : Type} [BEq κ] [LawfulBEq κ] [DecidableEq κ] (keys : List κ)
    (key : κ) :
    (keys ++ [key]).eraseDups = if key ∈ keys then keys.eraseDups else keys.eraseDups ++ [key] := by
  rw [List.eraseDups_append, List.removeAll]
  by_cases known : key ∈ keys
  · rw [if_pos known, List.filter_cons_of_neg (by simpa using known)]
    exact List.append_nil _
  · rw [if_neg known, List.filter_cons_of_pos (by simpa using known)]
    rfl

variable {r : Resolver} {path : List String} {s : Schema} {schema : Ir.Schema} {m : Merged}
  {declared : List Converted} {ids : List String} {step : Step} {change : Change}

theorem find_snoc (declared : List Converted) (c : Converted) (key : String) :
    ((declared ++ [c]).find? fun other => other.key = key) =
      (declared.find? fun other => other.key = key).or (if c.key = key then some c else none) := by
  rw [List.find?_append, List.find?_singleton]
  simp only [decide_eq_true_eq]

-- A declaration is a conflict at most when its key is known, and a property when it is not.
theorem Merged.Reflects.declare_eq (reflects : m.Reflects declared ids) (c : Converted) :
    m.declare c.key c.name c.schema =
      if (declared.find? fun other => other.key = c.key).isSome then
        { m with conflicts := m.conflicts ++ (conflict? declared c).toList }
      else { m with properties := m.properties ++ [c.property] } := by
  rw [Merged.declare, reflects.firsts, conflict?]
  cases declared.find? fun other => other.key = c.key with
  | none => rfl
  | some first =>
    change (if first.schema.sameShape c.schema then m else _) = _
    by_cases same : first.schema.sameShape c.schema = true
    · simp only [same, if_true, Option.isSome_some, Option.toList_none, List.append_nil]
    · simp only [same, Bool.false_eq_true, if_false, Option.isSome_some, if_true,
        Option.toList_some]
      rfl

theorem Merged.Reflects.declare (reflects : m.Reflects declared ids) (c : Converted) :
    (m.declare c.key c.name c.schema).Reflects (declared ++ [c]) ids := by
  have listed : (declared.find? fun other => other.key = c.key).isSome = true ↔
      c.key ∈ declared.map Converted.key := by
    simp only [List.find?_isSome, decide_eq_true_eq, List.mem_map]
  have keys : ((declared ++ [c]).map Converted.key).eraseDups =
      if c.key ∈ declared.map Converted.key then (declared.map Converted.key).eraseDups
      else (declared.map Converted.key).eraseDups ++ [c.key] := by
    rw [List.map_append, List.map_singleton, eraseDups_snoc]
  have conflicts : conflictsAfter [] (declared ++ [c]) =
      m.conflicts ++ (conflict? declared c).toList := by
    rw [conflictsAfter_snoc, reflects.conflicts, List.nil_append]
  rw [reflects.declare_eq]
  by_cases known : (declared.find? fun other => other.key = c.key).isSome = true
  · rw [if_pos known]
    refine ⟨?_, fun key => ?_, conflicts.symm, reflects.parents⟩
    · rw [keys, if_pos (listed.mp known)]
      exact reflects.keys
    · dsimp only
      rw [reflects.firsts, find_snoc]
      by_cases same : c.key = key
      · obtain ⟨first, found⟩ := Option.isSome_iff_exists.mp known
        rw [← same, found, Option.some_or]
      · rw [if_neg same, Option.or_none]
  · rw [if_neg known]
    have fresh : (declared.find? fun other => other.key = c.key) = none :=
      Option.not_isSome_iff_eq_none.mp known
    refine ⟨?_, fun key => ?_, ?_, reflects.parents⟩
    · rw [keys, if_neg fun here => known (listed.mpr here), List.map_append, reflects.keys]
      rfl
    · have last : ([c.property].find? fun p => p.key = key) =
          (if c.key = key then some c else none).map Converted.property := by
        rw [List.find?_singleton]
        change (if decide (c.key = key) = true then some c.property else none) = _
        by_cases same : c.key = key
        · rw [if_pos (decide_eq_true same), if_pos same, Option.map_some]
        · rw [if_neg (by simpa using same), if_neg same, Option.map_none]
      rw [List.find?_append, reflects.firsts, find_snoc, Option.map_or, last]
    · rw [conflicts, conflict?, fresh]
      exact (List.append_nil _).symm

theorem Merged.Reflects.follow (reflects : m.Reflects declared ids) (id : String) (direct : Bool) :
    (m.follow id direct).Reflects declared (ids ++ (Step.follow id direct).parent?.toList) := by
  obtain ⟨properties, -, conflicts⟩ := follow_others m id direct
  refine ⟨properties ▸ reflects.keys, properties ▸ reflects.firsts,
    conflicts.trans reflects.conflicts, ?_⟩
  cases direct with
  | false => exact reflects.parents.trans (congrArg List.eraseDups (List.append_nil ids).symm)
  | true =>
    have listed : id ∈ m.parents ↔ id ∈ ids := by
      rw [reflects.parents, List.mem_eraseDups]
    change _ = (ids ++ [id]).eraseDups
    rw [eraseDups_snoc, Merged.follow, Bool.true_and]
    by_cases known : id ∈ ids
    · rw [if_pos known, if_neg (by simpa using listed.mpr known)]
      exact reflects.parents
    · rw [if_neg known, if_pos (by simpa using fun here => known (listed.mp here)), reflects.parents]

-- The declarations that can be named.
def named (declared : List Declaration) : List Declaration :=
  declared.filter fun d => namedAfter d ≠ ""

theorem step_reflects (effect : Effect r change step) (reflects : m.Reflects declared ids) :
    ∃ more, List.Forall₂ (Converts r) (named step.declaration?.toList) more ∧
      (change m).Reflects (declared ++ more) (ids ++ step.parent?.toList) := by
  have unchanged : m.Reflects (declared ++ []) (ids ++ []) := by
    rw [List.append_nil, List.append_nil]
    exact reflects
  cases step with
  | found finding =>
    cases effect
    exact ⟨[], .nil, unchanged⟩
  | follow id direct =>
    cases effect
    refine ⟨[], .nil, ?_⟩
    rw [List.append_nil]
    exact reflects.follow id direct
  | constrain required additional =>
    cases effect
    exact ⟨[], .nil, unchanged.keys, unchanged.firsts, unchanged.conflicts, unchanged.parents⟩
  | declare reached breadcrumbs key node =>
    rcases effect with ⟨unnamed, same⟩ | ⟨name, schema, derived, lowered, same⟩
    · cases same
      have empty := (propertyName_none (key, node)).mp unnamed
      refine ⟨[], ?_, unchanged⟩
      rw [named, Step.declaration?, Option.toList_some, List.filter_cons_of_neg (by simpa using empty)]
      exact .nil
    · cases same
      have some := namedAfter_some (d := (key, node)) derived
      refine ⟨[⟨key, name, schema⟩], ?_, ?_⟩
      · rw [named, Step.declaration?, Option.toList_some, List.filter_cons_of_pos (by simpa using some)]
        exact .cons ⟨rfl, derived, reached, lowered⟩ .nil
      · change (m.declare key name schema).Reflects _ (ids ++ [])
        rw [List.append_nil]
        exact reflects.declare ⟨key, name, schema⟩

theorem run_reflects {steps : List Step} {changes : List Change} (made : Made r steps changes)
    (reflects : m.Reflects declared ids) :
    ∃ more, List.Forall₂ (Converts r) (named (steps.filterMap Step.declaration?)) more ∧
      (changes.foldl (fun m change => change m) m).Reflects (declared ++ more)
        (ids ++ steps.filterMap Step.parent?) := by
  induction made generalizing m declared ids with
  | nil =>
    refine ⟨[], .nil, ?_⟩
    rw [List.append_nil, List.filterMap_nil, List.append_nil]
    exact reflects
  | @cons step change steps changes first _ ih =>
    obtain ⟨here, converted, reflected⟩ := step_reflects (stepChange_effect first) reflects
    obtain ⟨later, others, done⟩ := ih reflected
    have split {β : Type} (f : Step → Option β) :
        (step :: steps).filterMap f = (f step).toList ++ steps.filterMap f := by
      rw [List.filterMap_cons]
      cases f step <;> rfl
    refine ⟨here ++ later, ?_, ?_⟩
    · rw [split, named, List.filter_append]
      exact List.rel_append converted others
    · rw [split, ← List.append_assoc, ← List.append_assoc]
      exact done

theorem reflects_empty : Merged.empty.Reflects [] [] := ⟨rfl, fun _ => rfl, rfl, rfl⟩

/-- The object that a composition is flattened to, in terms of the declarations that its members
bring. -/
structure Flattens (r : Resolver) (s : Schema) (declared : List Converted)
    (o : Ir.ObjectSchema Ir.Schema) : Prop where
  keys : o.properties.map Ir.Property.key = (declared.map Converted.key).eraseDups
  firsts : ∀ p ∈ o.properties, ∃ first, (declared.find? fun c => c.key = p.key) = some first ∧
    p.name = first.name ∧ p.schema = first.schema.setOptional (!p.required)
  conflicts : o.conflicts = conflictsAfter [] declared
  required : ∀ p ∈ o.properties, p.required = true ↔
    ∃ t, Leads r (.inline s) (.inline t) ∧ p.key ∈ t.required
  parents : o.parents = (s.allOf.filterMap (resolved? r)).eraseDups

theorem required_walked {changes : List Change}
    (made : Made r (Composition.walkAll r path s).steps changes)
    (done : (Composition.walkAll r path s).failure = none) {key : String} :
    key ∈ (Merged.ofChanges changes).required ↔
      ∃ t, Leads r (.inline s) (.inline t) ∧ key ∈ t.required := by
  constructor
  · intro here
    obtain ⟨reached, t, visited, listed⟩ := (sourced_of_made made).required key here
    exact ⟨t, Composition.leads_of_visits visited, listed⟩
  · rintro ⟨t, led, listed⟩
    obtain ⟨reached, visited⟩ :=
      Composition.visits_of_leads led path (Composition.walkAll_open done)
    exact composed_requires made done ⟨reached, t, visited, listed⟩

theorem find_distinct (distinct : m.Distinct) {p : Ir.Property Ir.Schema}
    (here : p ∈ m.properties) : (m.properties.find? fun q => q.key = p.key) = some p := by
  cases found : m.properties.find? fun q => q.key = p.key with
  | none => exact absurd (decide_eq_true rfl) (List.find?_eq_none.mp found p here)
  | some q =>
    have same : q.key = p.key := by simpa using List.find?_some found
    rw [List.inj_on_of_nodup_map distinct (List.mem_of_find?_eq_some found) here same]

/-- A composition that is merged flattens to an object in which the first declaration of a key wins.
Its members bring one list of declarations: depth first, through references, and the own properties
last. -/
theorem merged_flattens {r : Resolver} {path : List String} {s : Schema} {schema : Ir.Schema}
    (merged : IsMerged s) (done : (lowerInline r path s).outcome = .ok schema) :
    ∃ declared, Brings r (.inline s) declared ∧
      ∃ converted, List.Forall₂ (Converts r) (named declared) converted ∧
        ∃ o, schema = .object o ∧ Flattens r s converted o := by
  obtain ⟨changes, made, ended, same⟩ := composed_ok ((form_composed_iff s).mpr merged) done
  obtain ⟨converted, each, reflects⟩ := run_reflects made reflects_empty
  rw [List.nil_append, List.nil_append, Composition.walkAll_parents ended] at reflects
  refine ⟨_, Composition.walkAll_brings ended, converted, each, _, same, ?_⟩
  refine ⟨?_, fun p here => ?_, reflects.conflicts, fun p here => ?_, reflects.parents⟩
  · rw [← reflects.keys, List.map_map]
    rfl
  · obtain ⟨q, listed, same⟩ := List.mem_map.mp here
    subst same
    have found := (find_distinct (distinct_of_made made) listed).symm.trans (reflects.firsts q.key)
    obtain ⟨first, earliest, equal⟩ := Option.map_eq_some_iff.mp found.symm
    subst equal
    exact ⟨first, earliest, rfl, rfl⟩
  · obtain ⟨q, -, same⟩ := List.mem_map.mp here
    subst same
    exact List.contains_iff_mem.trans (required_walked made ended)

def declaring (required : List String) (properties : List (String × SchemaType))
    (members : List SchemaNode) : Schema :=
  { Keywords.empty with
    required := required
    allOf := members
    properties := properties.map fun p =>
      (p.1, .inline { Keywords.empty with type := some (.single p.2) }) }

-- A dog is a pet by way of an alias and once more in a nested composition.
def dog : Schema :=
  declaring ["name"] [("age", .string)]
    [.reference (Pointer.ofSchema "Alias"),
      .inline (declaring [] [("name", .integer), ("bark", .boolean)]
        [.reference (Pointer.ofSchema "Pet")]),
      .reference (Pointer.ofSchema "Missing")]

def kennel : Resolver :=
  { schemas := [("Alias", .reference (Pointer.ofSchema "Pet")),
      ("Pet", .inline (declaring ["bark"] [("name", .string), ("age", .integer)] []))]
    parameters := []
    requestBodies := []
    responses := []
    maxDepth := 8 }

theorem dog_flattened :
    IsMerged dog ∧ ∃ schema, (lowerInline kennel [] dog).outcome = .ok schema ∧
      (schema.body?.any fun body =>
        (body.properties.map fun p => (p.key, p.required)) ==
            [("name", true), ("age", false), ("bark", true)] &&
          body.conflicts.map Ir.PropertyConflict.propertyKey == ["name", "age"] &&
          body.parents == ["Alias"]) = true ∧
      ∃ declared, Brings kennel (.inline dog) declared ∧
        ∃ converted, List.Forall₂ (Converts kennel) (named declared) converted ∧
          ∃ o, schema = .object o ∧ Flattens kennel dog converted o := by
  have merged : IsMerged dog := ⟨by decide, .inl (by decide)⟩
  have lowers : ((lowerInline kennel [] dog).outcome.toOption.any fun schema =>
      schema.body?.any fun body =>
        (body.properties.map fun p => (p.key, p.required)) ==
            [("name", true), ("age", false), ("bark", true)] &&
          body.conflicts.map Ir.PropertyConflict.propertyKey == ["name", "age"] &&
          body.parents == ["Alias"]) = true := by decide +kernel
  obtain ⟨schema, done, checked⟩ := ok_of_any lowers
  exact ⟨merged, schema, done, checked, merged_flattens merged done⟩

end SchemaLowering

end ApiLowering
