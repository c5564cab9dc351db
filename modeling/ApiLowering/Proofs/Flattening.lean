import ApiLowering.Proofs.Alike
import ApiLowering.Proofs.Decoding
import ApiLowering.Proofs.Inheritance
import Mathlib.Data.List.Nodup

/-!
Flattening is complete. The walk over a composition comes to every declaration that the parents were
built from, so what a parent has the composition has as well: the property, the requirement, and the
shape, unless the two shapes are recorded as a conflict.
-/

set_option autoImplicit false

namespace ApiLowering

namespace SchemaLowering

open ApiLowering.Composition (Place Step Visits Open)
open Ir.Schema (Shapely)

-- A property that was lowered from a declaration to which a walk from the place comes.
def Declared (r : Resolver) (place : Place) (key : String) (schema : Ir.Schema) : Prop :=
  ∃ reached t node name lowered, Visits r place (reached, .inline t) ∧ (key, node) ∈ t.properties ∧
    propertyName? key node = some name ∧ (lower r reached node).outcome = .ok lowered ∧
    schema.shape = lowered.shape

def Required (r : Resolver) (place : Place) (key : String) : Prop :=
  ∃ reached t, Visits r place (reached, .inline t) ∧ key ∈ t.required

structure Merged.Sourced (r : Resolver) (place : Place) (m : Merged) : Prop where
  properties : ∀ p ∈ m.properties, Declared r place p.key p.schema
  required : ∀ key ∈ m.required, Required r place key

variable {r : Resolver} {path reached : List String} {t u : Schema} {changes : List Change}
  {steps : List Step} {key : String} {node : SchemaNode} {name : NameVariants}
  {lowered : Ir.Schema}

theorem sourced_of_made (made : Made r (Composition.walkAll r path t).steps changes) :
    (Merged.ofChanges changes).Sourced r (path, .inline t) := by
  refine merged_keeps (Merged.Sourced r (path, .inline t)) made
    ⟨fun _ here => absurd here List.not_mem_nil, fun _ here => absurd here List.not_mem_nil⟩
    fun step here change effect m sourced => ?_
  cases step with
  | found finding =>
    cases effect
    exact sourced
  | follow id direct =>
    cases effect
    obtain ⟨properties, required, -⟩ := follow_others m id direct
    exact ⟨properties ▸ sourced.properties, required ▸ sourced.required⟩
  | constrain required additional =>
    cases effect
    refine ⟨sourced.properties, fun key among => ?_⟩
    rcases List.mem_append.mp among with before | added
    · exact sourced.required key before
    · obtain ⟨reached, u, visited, same⟩ := Composition.walkAll_constrains here
      exact ⟨reached, u, visited, same ▸ added⟩
  | declare reached breadcrumbs key node =>
    rcases effect with ⟨-, same⟩ | ⟨name, schema, named, done, same⟩
    · cases same
      exact sourced
    · cases same
      obtain ⟨u, visited, listed⟩ := Composition.walkAll_declares here
      dsimp only
      rcases declare_cases m key name schema with
        ⟨_, -, -, same⟩ | ⟨_, -, same⟩ | ⟨-, same⟩ <;> rw [same]
      · exact sourced
      · exact ⟨sourced.properties, sourced.required⟩
      · refine ⟨fun p among => ?_, sourced.required⟩
        rcases List.mem_append.mp among with before | added
        · exact sourced.properties p before
        · cases List.mem_singleton.mp added
          exact ⟨reached, u, node, name, schema, visited, listed, named, done, rfl⟩

theorem distinct_stable : Stable Merged.Distinct where
  follow id direct m distinct := by
    rw [Merged.Distinct, (follow_others m id direct).1]
    exact distinct
  constrain _ _ _ distinct := distinct
  declare key name schema _ distinct := declare_distinct distinct key name schema

theorem distinct_of_made (made : Made r steps changes) : (Merged.ofChanges changes).Distinct :=
  merged_keeps Merged.Distinct made List.nodup_nil fun _ _ _ effect =>
    distinct_stable.keeps effect

theorem lowerProperties_declared {required : List String} {exclude : Option String}
    {properties : List (String × SchemaNode)} {listed : List (Ir.Property Ir.Schema)}
    (done : (lowerProperties r path required exclude properties).outcome = .ok listed) :
    ∀ p ∈ listed, p.required = required.contains p.key ∧ ∃ node name lowered,
      (p.key, node) ∈ properties ∧ propertyName? p.key node = some name ∧
        (lower r path node).outcome = .ok lowered ∧ p.schema = lowered.unlessRequired p.required := by
  induction properties generalizing listed with
  | nil =>
    rw [lowerProperties] at done
    cases done
    exact fun _ here => absurd here List.not_mem_nil
  | cons e rest ih =>
    obtain ⟨key, node⟩ := e
    have weaken {more : List (Ir.Property Ir.Schema)}
        (later : (lowerProperties r path required exclude rest).outcome = .ok more)
        (p : Ir.Property Ir.Schema) (here : p ∈ more) :
        p.required = required.contains p.key ∧ ∃ found name lowered,
          (p.key, found) ∈ (key, node) :: rest ∧ propertyName? p.key found = some name ∧
            (lower r path found).outcome = .ok lowered ∧
            p.schema = lowered.unlessRequired p.required := by
      obtain ⟨flag, found, name, lowered, among, others⟩ := ih later p here
      exact ⟨flag, found, name, lowered, List.mem_cons_of_mem _ among, others⟩
    rw [lowerProperties] at done
    split at done
    · exact weaken done
    · obtain ⟨found, first, done⟩ := Report.bind_ok done
      obtain ⟨more, later, done⟩ := Report.bind_ok done
      cases done
      intro p here
      rcases List.mem_append.mp here with here | there
      · change (Report.under _ _).outcome = .ok found at first
        cases named : propertyName? key node with
        | none =>
          simp only [named] at first
          cases first
          cases here
        | some name =>
          simp only [named] at first
          obtain ⟨schema, lowered, same⟩ := Report.bind_ok first
          cases same
          cases List.mem_singleton.mp here
          exact ⟨rfl, node, name, schema, List.mem_cons_self, named, lowered, rfl⟩
      · exact weaken later p there

theorem built_declared {body : Ir.Body} (built : Built r path t body)
    {p : Ir.Property Ir.Schema} (here : p ∈ body.properties) :
    Declared r (path, .inline t) p.key p.schema ∧
      (p.required = true → Required r (path, .inline t) p.key) := by
  cases built with
  | composed shape made done =>
    have sourced := sourced_of_made made
    obtain ⟨q, listed, same⟩ := List.mem_map.mp here
    subst same
    constructor
    · obtain ⟨reached, u, node, name, lowered, visited, among, named, passed, equal⟩ :=
        sourced.properties q listed
      exact ⟨reached, u, node, name, lowered, visited, among, named, passed,
        (Ir.Schema.shape_setOptional _ _).trans equal⟩
    · exact fun flag => sourced.required _ (List.contains_iff_mem.mp flag)
  | typed shape listed =>
    rcases listed with none | done
    · subst none
      cases here
    · obtain ⟨flag, node, name, lowered, among, named, passed, same⟩ :=
        lowerProperties_declared done p here
      constructor
      · refine ⟨path, t, node, name, lowered, .here, among, named, passed, ?_⟩
        rw [same, Ir.Schema.shape_unlessRequired]
      · exact fun set => ⟨path, t, .here, List.contains_iff_mem.mp (flag ▸ set)⟩

-- A composition has the property in the given shape, or records that the shapes differ.
def Merged.Holds (key : String) (schema : Ir.Schema) (m : Merged) : Prop :=
  ∃ p, (m.properties.find? fun p => p.key = key) = some p ∧
    (p.schema.sameShape schema = true ∨ key ∈ m.conflicts.map Ir.PropertyConflict.propertyKey)

theorem declare_holds (m : Merged) (key : String) (name : NameVariants) {schema : Ir.Schema}
    (shapely : schema.Shapely) : (m.declare key name schema).Holds key schema := by
  rcases declare_cases m key name schema with
    ⟨p, found, equal, same⟩ | ⟨p, found, same⟩ | ⟨absent, same⟩ <;> rw [same]
  · exact ⟨p, found, .inl equal⟩
  · refine ⟨p, found, .inr ?_⟩
    rw [List.map_append]
    exact List.mem_append_right _ List.mem_cons_self
  · refine ⟨⟨key, name, schema, false⟩, ?_, .inl shapely⟩
    rw [List.find?_append, absent, Option.none_or, List.find?_singleton]
    simp only [decide_true, if_true]

theorem holds_stable (key : String) (schema : Ir.Schema) : Stable (Merged.Holds key schema) where
  follow id direct m holds := by
    obtain ⟨properties, -, conflicts⟩ := follow_others m id direct
    rw [Merged.Holds, properties, conflicts]
    exact holds
  constrain _ _ _ holds := holds
  declare other name next m holds := by
    obtain ⟨p, found, either⟩ := holds
    dsimp only
    rcases declare_cases m other name next with ⟨_, -, -, same⟩ | ⟨_, -, same⟩ | ⟨-, same⟩ <;>
      rw [same]
    · exact ⟨p, found, either⟩
    · refine ⟨p, found, either.imp_right fun here => ?_⟩
      rw [List.map_append]
      exact List.mem_append_left _ here
    · -- a new property goes behind the one that is found first
      refine ⟨p, ?_, either⟩
      rw [List.find?_append, found, Option.some_or]

-- A composition holds every property that is declared where its walk comes to.
theorem composed_holds (made : Made r (Composition.walkAll r path t).steps changes)
    (done : (Composition.walkAll r path t).failure = none)
    (visited : Visits r (path, .inline t) (reached, .inline u)) (listed : (key, node) ∈ u.properties)
    (named : propertyName? key node = some name) :
    ∃ lowered, (lower r reached node).outcome = .ok lowered ∧
      (lowered.Shapely → (Merged.ofChanges changes).Holds key lowered) := by
  obtain ⟨keys, met⟩ := Composition.walkAll_meets done visited
  have here : Step.declare reached (keys ++ [key]) key node ∈
      (Composition.walkAll r path t).steps :=
    met (List.mem_cons_of_mem _ (List.mem_map.mpr ⟨(key, node), listed, rfl⟩))
  obtain ⟨change, -, effect⟩ := made_change made here
  rcases effect with ⟨unnamed, -⟩ | ⟨_, lowered, -, passed, -⟩
  · cases named.symm.trans unnamed
  · refine ⟨lowered, passed, fun shapely => ?_⟩
    refine merged_brings (Merged.Holds key lowered) made here ?_ (holds_stable key lowered)
    intro change effect m
    rcases effect with ⟨unnamed, -⟩ | ⟨name, again, -, also, same⟩
    · cases named.symm.trans unnamed
    · cases passed.symm.trans also
      cases same
      exact declare_holds m key name shapely

theorem required_stable (key : String) : Stable fun m => key ∈ m.required where
  follow id direct m holds := by
    dsimp only at holds ⊢
    rw [(follow_others m id direct).2.1]
    exact holds
  constrain _ _ _ holds := List.mem_append_left _ holds
  declare other name next m holds := by
    dsimp only at holds ⊢
    rw [declare_required]
    exact holds

theorem composed_requires (made : Made r (Composition.walkAll r path t).steps changes)
    (done : (Composition.walkAll r path t).failure = none)
    (required : Required r (path, .inline t) key) :
    key ∈ (Merged.ofChanges changes).required := by
  obtain ⟨reached, u, visited, listed⟩ := required
  obtain ⟨keys, met⟩ := Composition.walkAll_meets done visited
  have here : Step.constrain u.required u.allowsAdditional ∈
      (Composition.walkAll r path t).steps := met List.mem_cons_self
  refine merged_brings (fun m => key ∈ m.required) made here ?_ (required_stable key)
  intro change effect m
  cases effect
  exact List.mem_append_right _ listed

theorem holds_property {m : Merged} {schema : Ir.Schema} (distinct : m.Distinct)
    (holds : m.Holds key schema) :
    (∃ p ∈ m.finished, p.key = key) ∧ ∀ p ∈ m.finished, p.key = key →
      p.required = m.required.contains key ∧
        (p.schema.sameShape schema = true ∨
          key ∈ m.conflicts.map Ir.PropertyConflict.propertyKey) := by
  obtain ⟨found, first, either⟩ := holds
  have keyed : found.key = key := by simpa using List.find?_some first
  have listed := List.mem_of_find?_eq_some first
  refine ⟨⟨_, List.mem_map.mpr ⟨found, listed, rfl⟩, keyed⟩, fun p here same => ?_⟩
  obtain ⟨q, among, equal⟩ := List.mem_map.mp here
  subst equal
  have only : q = found := List.inj_on_of_nodup_map distinct among listed (same.trans keyed.symm)
  subst only
  refine ⟨congrArg m.required.contains keyed, either.imp_left fun equal => ?_⟩
  rw [← equal]
  exact Ir.Schema.sameShape_congr (Ir.Schema.shape_setOptional _ _) rfl

theorem collapsed_otherShape {s : Schema} {index : Nat} {member : SchemaNode}
    (shape : form s = .collapsed index member) : Composition.otherShape? s ≠ none := by
  have union : (!s.oneOf.isEmpty || !s.anyOf.isEmpty) = true := by
    unfold form at shape
    repeat' split at shape
    all_goals cases shape
    assumption
  unfold Composition.otherShape?
  split
  · exact Option.some_ne_none _
  · exact Option.some_ne_none _

/-- A body covers another one but for some keys: it has the properties, it requires them where the
other one does, and where the shapes differ that is a conflict. -/
structure Covers (dropped : List String) (a b : Ir.Body) : Prop where
  properties : ∀ q ∈ b.properties, (∃ p ∈ a.properties, p.key = q.key) ∨ q.key ∈ dropped
  required : ∀ q ∈ b.properties, ∀ p ∈ a.properties, p.key = q.key → q.required = true →
    p.required = true
  shapes : ∀ q ∈ b.properties, ∀ p ∈ a.properties, p.key = q.key →
    p.schema.sameShape q.schema = true ∨ ∃ c ∈ a.conflicts, c.propertyKey = q.key

theorem covers_drop {a b : Ir.Body} (covers : Covers [] a b) (dropped others : List String) :
    Covers dropped (a.drop dropped) (b.drop others) := by
  have kept {q : Ir.Property Ir.Schema} (here : q ∈ (b.drop others).properties) :
      q ∈ b.properties := (List.mem_filter.mp here).1
  refine ⟨fun q here => ?_, fun q here p there => ?_, fun q here p there same => ?_⟩
  · rcases covers.properties q (kept here) with ⟨p, listed, same⟩ | absent
    · by_cases lost : q.key ∈ dropped
      · exact .inr lost
      · refine .inl ⟨p, List.mem_filter.mpr ⟨listed, ?_⟩, same⟩
        simpa [same] using lost
    · cases absent
  · exact covers.required q (kept here) p (List.mem_filter.mp there).1
  · obtain ⟨listed, stays⟩ := List.mem_filter.mp there
    refine (covers.shapes q (kept here) p listed same).imp_right fun ⟨c, among, keyed⟩ => ?_
    refine ⟨c, List.mem_filter.mpr ⟨among, ?_⟩, keyed⟩
    rw [keyed, ← same]
    exact stays

theorem parent_visited {target id : String} {other : Schema} {last : Place}
    (free : Open r (path, .inline t)) (listed : SchemaNode.reference target ∈ t.allOf)
    (leads : r.lookupSchema target = .found id node) (core : Core node false other)
    (start : List String) (visited : Visits r (start, .inline other) last) :
    ∃ reached, Visits r (path, .inline t) (reached, last.2) := by
  have entered := free.entered (.member listed .here) leads
  have opened : Open r (path ++ [Pointer.ofSchema id], node) :=
    free.further fun _ further => .member listed (.component leads entered further)
  have whole := Composition.visits_trans (core_visited r start core) visited
  obtain ⟨reached, found⟩ := Composition.visits_elsewhere whole _ opened
  exact ⟨reached, .member listed (.component leads entered found)⟩

theorem core_straight {target id : String} {other : Schema} {collapsed : Bool}
    (done : (Composition.walkAll r path t).failure = none)
    (silent : ∀ step ∈ (Composition.walkAll r path t).steps, (stepChange r step).findings = [])
    (listed : SchemaNode.reference target ∈ t.allOf)
    (leads : r.lookupSchema target = .found id node) (core : Core node collapsed other) :
    collapsed = false := by
  cases collapsed with
  | false => rfl
  | true =>
    -- the walk comes to the union, which has another shape than that of an object: a finding
    have entered := (Composition.walkAll_open done).entered (.member listed .here) leads
    obtain ⟨s, index, member, visited, shape⟩ :=
      core_collapsed r (path ++ [Pointer.ofSchema id]) core
    obtain ⟨deep, flag, free, met⟩ :=
      Composition.walkAll_reaches done listed (.component leads entered visited)
    obtain ⟨kind, other⟩ := Option.ne_none_iff_exists'.mp (collapsed_otherShape shape)
    have found : Step.found ⟨.malformedNode, deep,
        "allOf member is " ++ kind ++ "; only its object properties are merged"⟩ ∈
          Composition.shapeSteps deep s := by
      rw [Composition.shapeSteps, other]
      exact List.mem_cons_self
    cases silent _ (met (Composition.walk_inline free (List.mem_append_left _ found)))

theorem composed_covers (components : ∀ e ∈ r.schemas, RealNode e.2) (real : RealNode (.inline t))
    (made : Made r (Composition.walkAll r path t).steps changes)
    (done : (Composition.walkAll r path t).failure = none)
    (silent : ∀ step ∈ (Composition.walkAll r path t).steps, (stepChange r step).findings = [])
    {target id : String} (listed : SchemaNode.reference target ∈ t.allOf)
    (leads : r.lookupSchema target = .found id node) {start : List String} {schema : Ir.Schema}
    {body : Ir.Body} (passed : (lower r start node).outcome = .ok schema)
    (object : schema.body? = some body) :
    Covers [] ⟨(Merged.ofChanges changes).finished, (Merged.ofChanges changes).parents,
      (Merged.ofChanges changes).conflicts⟩ body := by
  obtain ⟨collapsed, other, core, built, -⟩ := object_built node passed object
  have straight := core_straight done silent listed leads core
  subst straight
  have free := Composition.walkAll_open done
  -- each property of the parent was declared where the walk over the composition comes to as well,
  -- and was lowered there to the same schema
  have held (q : Ir.Property Ir.Schema) (here : q ∈ body.properties) :
      ∃ lowered, lowered.shape = q.schema.shape ∧
        (Merged.ofChanges changes).Holds q.key lowered := by
    obtain ⟨reached, u, part, name, first, visited, among, named, before, shape⟩ :=
      (built_declared built here).1
    obtain ⟨again, found⟩ := parent_visited free listed leads core start visited
    obtain ⟨lowered, after, holds⟩ := composed_holds made done found among named
    have same := lower_unique after before
    subst same
    have shapely := lower_shapely components
      (realNode_part (realNode_visits components real found) (.property among)) after
    exact ⟨lowered, shape.symm, holds shapely⟩
  refine ⟨fun q here => ?_, fun q here p there same needed => ?_, fun q here p there same => ?_⟩
  · obtain ⟨lowered, -, holds⟩ := held q here
    exact .inl (holds_property (distinct_of_made made) holds).1
  · obtain ⟨lowered, -, holds⟩ := held q here
    obtain ⟨reached, u, visited, among⟩ := (built_declared built here).2 needed
    obtain ⟨again, found⟩ := parent_visited free listed leads core start visited
    have inside := composed_requires made done ⟨again, u, found, among⟩
    rw [((holds_property (distinct_of_made made) holds).2 p there same).1]
    exact List.contains_iff_mem.mpr inside
  · obtain ⟨lowered, shape, holds⟩ := held q here
    rcases ((holds_property (distinct_of_made made) holds).2 p there same).2 with equal | conflict
    · exact .inl ((Ir.Schema.sameShape_congr rfl shape).symm.trans equal)
    · exact .inr (List.mem_map.mp conflict)

theorem realNode_core {collapsed : Bool} (core : Core node collapsed t) (real : RealNode node) :
    RealNode (.inline t) := by
  induction core with
  | own => exact real
  | reduced shape _ ih => exact ih (realNode_part real (.all (reduced_mem shape)))
  | collapsed shape _ ih =>
    exact ih (realNode_part real (unionMember_part (collapsed_mem shape)))

end SchemaLowering

open SchemaLowering (Covers RealNode)

variable {options : Options} {d : ApiDocument} {file : Ir.File} {a b : String}

theorem component_covers (components : ∀ e ∈ d.componentSchemas, RealNode e.2)
    (done : d.lower options = .ok file) (clean : file.errors = []) {schema base : Ir.Schema}
    {body parent : Ir.Body} (child : Entries.get? a file.schemas = some schema)
    (object : schema.body? = some body) (extend : b ∈ body.parents)
    (known : Entries.get? b file.schemas = some base) (also : base.body? = some parent) :
    Covers (d.discriminants options a) body parent := by
  obtain ⟨node, inner, stored, lowered, dropped, quiet⟩ := component_of_file done child
  obtain ⟨other, deeper, present, passed, cut, -⟩ := component_of_file done known
  obtain ⟨before, was, same⟩ := Option.map_eq_some_iff.mp (dropped.symm.trans object)
  obtain ⟨under, had, equal⟩ := Option.map_eq_some_iff.mp (cut.symm.trans also)
  subst same equal
  rw [← ApiDocument.resolver_schemas options d] at components present
  obtain ⟨collapsed, t, core, built, last, composed, silent⟩ :=
    SchemaLowering.object_built node lowered was
  have real := components _ (Resolver.get_mem (ApiDocument.resolver_schemas options d ▸ stored))
  refine SchemaLowering.covers_drop ?_ _ _
  cases built with
  | composed shape made ended =>
    obtain ⟨target, component, listed, leads⟩ :=
      (SchemaLowering.parents_of_composed made ended).mp extend
    cases (SchemaLowering.lookup_found.mp leads).2.symm.trans present
    exact SchemaLowering.composed_covers components (SchemaLowering.realNode_core core real) made
      ended (SchemaLowering.composed_silent shape composed (silent (quiet clean))) listed leads
      passed had
  | typed shape listed => cases extend

/-- In a document that came from JSON and was lowered without a finding, an object has what the
objects have that it extends: every property, but for its own discriminants, required where it is
required there, and of the same shape, unless a conflict is recorded. -/
theorem parents_covered {options : Options} {d : ApiDocument} {file : Ir.File} {a b : String}
    {child parent : Ir.ObjectSchema Ir.Schema} (parsed : d.FromJson)
    (done : d.lower options = .ok file) (clean : file.errors = [])
    (first : Entries.get? a file.schemas = some (.object child)) (extend : b ∈ child.parents)
    (second : Entries.get? b file.schemas = some (.object parent)) :
    ∀ q ∈ parent.properties,
      ((∃ p ∈ child.properties, p.key = q.key) ∨ q.key ∈ d.discriminants options a) ∧
        ∀ p ∈ child.properties, p.key = q.key →
          (q.required = true → p.required = true) ∧
            (p.schema.sameShape q.schema = true ∨ ∃ c ∈ child.conflicts, c.propertyKey = q.key) := by
  have covers := component_covers (fromJson_real parsed) done clean first rfl extend second rfl
  intro q here
  refine ⟨covers.properties q here, fun p there same => ⟨?_, ?_⟩⟩
  · exact covers.required q here p there same
  · exact covers.shapes q here p there same

def extendsIn (text a b : String) : Bool :=
  match ApiDocument.ofJsonText text with
  | .error _ => false
  | .ok d =>
    match d.lower .default with
    | .error _ => false
    | .ok file =>
      match Entries.get? a file.schemas, Entries.get? b file.schemas with
      | some (.object child), some (.object parent) =>
        file.errors.isEmpty && child.parents.contains b && !parent.properties.isEmpty
      | _, _ => false

theorem extendsIn_true {text a b : String} (holds : extendsIn text a b = true) :
    ∃ d file child parent, ApiDocument.ofJsonText text = .ok d ∧ d.lower .default = .ok file ∧
      file.errors = [] ∧ Entries.get? a file.schemas = some (.object child) ∧ b ∈ child.parents ∧
      Entries.get? b file.schemas = some (.object parent) ∧ parent.properties ≠ [] := by
  unfold extendsIn at holds
  split at holds
  · cases holds
  · rename_i d read
    split at holds
    · cases holds
    · rename_i file done
      split at holds
      · rename_i child parent first second
        simp only [Bool.and_eq_true, Bool.not_eq_true', List.isEmpty_iff,
          List.isEmpty_eq_false_iff, List.contains_iff_mem] at holds
        exact ⟨d, file, child, parent, read, done, holds.1.1, first, holds.1.2, second, holds.2⟩
      · cases holds

def petText : String :=
  "\x7b\"openapi\":\"3.1.0\",\"info\":\x7b\"title\":\"Pets\"\x7d,\"components\":\x7b\"schemas\":\x7b" ++
  "\"Cat\":\x7b\"allOf\":[\x7b\"$ref\":\"#/components/schemas/Pet\"\x7d,\x7b\"type\":\"object\"," ++
  "\"properties\":\x7b\"lives\":\x7b\"type\":\"integer\"\x7d\x7d\x7d]\x7d,\"Pet\":\x7b\"type\":\"object\"," ++
  "\"required\":[\"age\"],\"properties\":\x7b\"age\":\x7b\"type\":\"number\",\"minimum\":0.5\x7d\x7d\x7d\x7d\x7d\x7d"

theorem pet_covered :
    ∃ d file, ∃ child parent : Ir.ObjectSchema Ir.Schema,
      ApiDocument.ofJsonText petText = .ok d ∧ d.lower .default = .ok file ∧
        Entries.get? "Cat" file.schemas = some (.object child) ∧
        Entries.get? "Pet" file.schemas = some (.object parent) ∧ parent.properties ≠ [] ∧
        ∀ q ∈ parent.properties, (∃ p ∈ child.properties, p.key = q.key) ∨
          q.key ∈ d.discriminants .default "Cat" := by
  have holds : extendsIn petText "Cat" "Pet" = true := by decide +kernel
  obtain ⟨d, file, child, parent, read, done, clean, first, extend, second, some⟩ :=
    extendsIn_true holds
  exact ⟨d, file, child, parent, read, done, first, second, some,
    fun q here => (parents_covered (.text read) done clean first extend second q here).1⟩

end ApiLowering
