import ApiLowering.Proofs.Forms
import ApiLowering.Proofs.Occurrence

/-!
The pieces that lowered schemas are put together from: names that stand for a text, properties that
were lowered from declarations, what the members of a composition have brought, and the values of the
variants of a union.
-/

set_option autoImplicit false

namespace ApiLowering

namespace NameVariants

-- A name that was derived from its original value and stands for a text on the wire.
def Stands (name : NameVariants) (text : String) : Prop :=
  derive? name.originalValue (some text) = some name

theorem derive_ok {raw : String} {wire : Option String} {name : NameVariants}
    (derived : derive? raw wire = some name) :
    name.originalValue = raw ∧ name.Stands (wire.getD raw) := by
  unfold Stands
  unfold derive? at derived ⊢
  by_cases empty : raw.isEmpty = true
  · rw [if_pos empty] at derived
    cases derived
  · rw [if_neg empty] at derived
    cases derived
    exact ⟨rfl, if_neg empty⟩

-- A name that is derived from a text alone stands for that text.
theorem stands_of_plain {raw : String} {name : NameVariants} (derived : derive? raw none = some name) :
    name.Stands name.originalValue := by
  obtain ⟨original, stands⟩ := derive_ok derived
  exact original ▸ stands

theorem Stands.wire {name : NameVariants} {text : String} (stands : name.Stands text) :
    name.wireValue = text := by
  unfold Stands derive? at stands
  split at stands
  · cases stands
  · exact (congrArg wireValue (Option.some.inj stands)).symm

theorem Stands.self {name : NameVariants} {text : String} (stands : name.Stands text) :
    name.Stands name.wireValue := by
  rw [stands.wire]
  exact stands

end NameVariants

namespace SchemaLowering

theorem follow_parents {m : Merged} {id other : String} {direct : Bool} :
    other ∈ (m.follow id direct).parents ↔ other ∈ m.parents ∨ direct = true ∧ other = id := by
  by_cases new : (direct && !m.parents.contains id) = true
  · rw [Merged.follow, if_pos new]
    have flagged := (Bool.and_eq_true_iff.mp new).1
    simp only [List.mem_append, List.mem_singleton, flagged, true_and]
  · rw [Merged.follow, if_neg new]
    refine ⟨.inl, ?_⟩
    rintro (here | ⟨flagged, same⟩)
    · exact here
    · -- nothing is added again that is there already
      subst same
      simpa [flagged] using new

theorem follow_others (m : Merged) (id : String) (direct : Bool) :
    (m.follow id direct).properties = m.properties ∧ (m.follow id direct).required = m.required ∧
      (m.follow id direct).conflicts = m.conflicts := by
  by_cases new : (direct && !m.parents.contains id) = true
  · rw [Merged.follow, if_pos new]
    exact ⟨rfl, rfl, rfl⟩
  · rw [Merged.follow, if_neg new]
    exact ⟨rfl, rfl, rfl⟩

theorem declare_cases (m : Merged) (key : String) (name : NameVariants) (schema : Ir.Schema) :
    (∃ existing, (m.properties.find? fun p => p.key = key) = some existing ∧
        existing.schema.sameShape schema = true ∧ m.declare key name schema = m) ∨
      (∃ existing, (m.properties.find? fun p => p.key = key) = some existing ∧
        m.declare key name schema =
          { m with conflicts := m.conflicts ++ [⟨key, existing.schema, schema⟩] }) ∨
      ((m.properties.find? fun p => p.key = key) = none ∧
        m.declare key name schema =
          { m with properties := m.properties ++ [⟨key, name, schema, false⟩] }) := by
  unfold Merged.declare
  cases found : m.properties.find? fun p => p.key = key with
  | none => exact .inr (.inr ⟨rfl, rfl⟩)
  | some existing =>
    by_cases same : existing.schema.sameShape schema = true
    · exact .inl ⟨existing, rfl, same, if_pos same⟩
    · exact .inr (.inl ⟨existing, rfl, if_neg same⟩)

theorem declare_parents {m : Merged} {key : String} {name : NameVariants} {schema : Ir.Schema} :
    (m.declare key name schema).parents = m.parents := by
  rcases declare_cases m key name schema with ⟨_, -, -, same⟩ | ⟨_, -, same⟩ | ⟨-, same⟩ <;> rw [same]

theorem declare_required {m : Merged} {key : String} {name : NameVariants} {schema : Ir.Schema} :
    (m.declare key name schema).required = m.required := by
  rcases declare_cases m key name schema with ⟨_, -, -, same⟩ | ⟨_, -, same⟩ | ⟨-, same⟩ <;> rw [same]

def Change.Keeps (p : Merged → Prop) (change : Change) : Prop := ∀ m, p m → p (change m)

theorem ofChanges_keeps {p : Merged → Prop} {changes : List Change} (start : p Merged.empty)
    (each : ∀ change ∈ changes, Change.Keeps p change) : p (Merged.ofChanges changes) := by
  unfold Merged.ofChanges
  generalize Merged.empty = m at start ⊢
  induction changes generalizing m with
  | nil => exact start
  | cons change rest ih =>
    exact ih (fun c here => each c (List.mem_cons_of_mem _ here)) _
      (each change List.mem_cons_self m start)

def Merged.Distinct (m : Merged) : Prop := (m.properties.map Ir.Property.key).Nodup

theorem declare_distinct {m : Merged} (distinct : m.Distinct) (key : String) (name : NameVariants)
    (schema : Ir.Schema) : (m.declare key name schema).Distinct := by
  rcases declare_cases m key name schema with
    ⟨_, -, -, same⟩ | ⟨_, -, same⟩ | ⟨absent, same⟩ <;> rw [same]
  · exact distinct
  · exact distinct
  · rw [Merged.Distinct, List.map_append]
    refine List.nodup_append.mpr ⟨distinct, List.pairwise_singleton _ _, ?_⟩
    intro first before second added same
    cases List.mem_singleton.mp added
    obtain ⟨p, listed, keyed⟩ := List.mem_map.mp before
    exact List.find?_eq_none.mp absent p listed (decide_eq_true (keyed.trans same))

/-- Properties that were lowered from declarations, without the excluded one. -/
structure Listed (good : Ir.Schema → Prop) (declared : List (String × SchemaNode))
    (exclude : Option String) (all : List (Ir.Property Ir.Schema)) : Prop where
  keys : (all.map Ir.Property.key).Sublist (Entries.keys declared)
  others : ∀ p ∈ all, exclude ≠ some p.key
  names : ∀ p ∈ all, p.name.Stands p.key
  schemas : ∀ p ∈ all, ∃ schema, good schema ∧ p.schema = schema.unlessRequired p.required

/-- What the members of a composition have brought so far. The recorded side of a conflict is the
schema of the property that the conflict is about. -/
structure Gathered (good : Ir.Schema → Prop) (m : Merged) : Prop where
  distinct : m.Distinct
  parents : m.parents.Nodup
  names : ∀ p ∈ m.properties, p.name.Stands p.key
  properties : ∀ p ∈ m.properties, good p.schema
  conflicts : ∀ c ∈ m.conflicts, good c.existing ∧ good c.conflicting ∧
    c.existing.sameShape c.conflicting = false ∧
    ∃ p ∈ m.properties, p.key = c.propertyKey ∧ p.schema = c.existing

/-- A value of a variant, which stands for itself and is there just if the union is tagged. -/
structure Fits (tagged : Bool) (value : Option NameVariants) : Prop where
  present : value.isSome = tagged
  names : ∀ name ∈ value, name.Stands name.originalValue

abbrev Variants (good : Ir.Schema → Prop) (tagged : Bool) (vs : List (Ir.Variant Ir.Schema)) : Prop :=
  ∀ v ∈ vs, Fits tagged v.discriminantValue ∧ good v.schema

variable {good : Ir.Schema → Prop}

theorem listed_nil (declared : List (String × SchemaNode)) (exclude : Option String) :
    Listed good declared exclude [] where
  keys := List.nil_sublist _
  others _ here := absurd here List.not_mem_nil
  names _ here := absurd here List.not_mem_nil
  schemas _ here := absurd here List.not_mem_nil

theorem unlessRequired_good (kept : ∀ f s, good s → good (Ir.Schema.mapInfo f s)) (required : Bool)
    {s : Ir.Schema} (is : good s) : good (s.unlessRequired required) := by
  by_cases needed : required = true
  · rw [Ir.Schema.unlessRequired, if_pos needed]
    exact is
  · rw [Ir.Schema.unlessRequired, if_neg needed]
    exact kept _ s is

-- What was lowered from the declarations is good if annotations do not matter to it.
theorem listed_good (kept : ∀ f s, good s → good (Ir.Schema.mapInfo f s))
    {declared : List (String × SchemaNode)} {exclude : Option String}
    {all : List (Ir.Property Ir.Schema)} (listed : Listed good declared exclude all) :
    ∀ p ∈ all, good p.schema := by
  intro p here
  obtain ⟨schema, is, same⟩ := listed.schemas p here
  exact same ▸ unlessRequired_good kept p.required is

theorem gathered_empty : Gathered good Merged.empty where
  distinct := List.nodup_nil
  parents := List.nodup_nil
  names _ here := absurd here List.not_mem_nil
  properties _ here := absurd here List.not_mem_nil
  conflicts _ here := absurd here List.not_mem_nil

theorem follow_distinct {m : Merged} (distinct : m.parents.Nodup) (id : String) (direct : Bool) :
    (m.follow id direct).parents.Nodup := by
  unfold Merged.follow
  split
  · rename_i fresh
    simp only [Bool.and_eq_true, Bool.not_eq_true', List.contains_eq_mem,
      decide_eq_false_iff_not] at fresh
    exact List.nodup_append.mpr ⟨distinct, List.pairwise_singleton _ _, fun _ before _ added same =>
      fresh.2 (List.mem_singleton.mp added ▸ same ▸ before)⟩
  · exact distinct

theorem gathered_follow {m : Merged} (gathered : Gathered good m) (id : String) (direct : Bool) :
    Gathered good (m.follow id direct) := by
  obtain ⟨properties, -, conflicts⟩ := follow_others m id direct
  refine ⟨?_, follow_distinct gathered.parents id direct, properties ▸ gathered.names,
    properties ▸ gathered.properties, ?_⟩
  · rw [Merged.Distinct, properties]
    exact gathered.distinct
  · rw [properties, conflicts]
    exact gathered.conflicts

theorem gathered_declare {m : Merged} (gathered : Gathered good m) {key : String}
    {name : NameVariants} (named : name.Stands key) {schema : Ir.Schema} (is : good schema) :
    Gathered good (m.declare key name schema) := by
  have distinct := declare_distinct gathered.distinct key name schema
  cases found : m.properties.find? fun p => p.key = key with
  | none =>
    have added : m.declare key name schema =
        { m with properties := m.properties ++ [⟨key, name, schema, false⟩] } := by
      simp only [Merged.declare, found]
    rw [added] at distinct ⊢
    refine ⟨distinct, gathered.parents, fun p here => ?_, fun p here => ?_, fun c here => ?_⟩
    · rcases List.mem_append.mp here with before | added
      · exact gathered.names p before
      · exact List.mem_singleton.mp added ▸ named
    · rcases List.mem_append.mp here with before | added
      · exact gathered.properties p before
      · exact List.mem_singleton.mp added ▸ is
    · obtain ⟨existing, conflicting, differs, p, among, keyed⟩ := gathered.conflicts c here
      exact ⟨existing, conflicting, differs, p, List.mem_append_left _ among, keyed⟩
  | some existing =>
    simp only [Merged.declare, found]
    by_cases same : existing.schema.sameShape schema = true
    · rw [if_pos same]
      exact gathered
    · rw [if_neg same]
      refine ⟨gathered.distinct, gathered.parents, gathered.names, gathered.properties,
        fun c here => ?_⟩
      rcases List.mem_append.mp here with before | added
      · exact gathered.conflicts c before
      · cases List.mem_singleton.mp added
        have among := List.mem_of_find?_eq_some found
        have keyed : existing.key = key := by simpa using List.find?_some found
        exact ⟨gathered.properties existing among, is, Bool.eq_false_iff.mpr same, existing, among,
          keyed, rfl⟩

-- So is the object that members are merged into, with what was gathered for it.
theorem finished_good (kept : ∀ f s, good s → good (Ir.Schema.mapInfo f s)) {m : Merged}
    (gathered : Gathered good m) {info : Ir.Meta} {o : Ir.ObjectSchema Ir.Schema}
    (finished : m.finish info = .object o) :
    (∀ p ∈ o.properties, good p.schema) ∧ ∀ c ∈ o.conflicts, good c.existing ∧ good c.conflicting := by
  cases finished
  refine ⟨fun p here => ?_, fun c here => ?_⟩
  · obtain ⟨q, listed, same⟩ := List.mem_map.mp here
    subst same
    exact kept (fun own => { own with optional := !m.required.contains q.key }) q.schema
      (gathered.properties q listed)
  · obtain ⟨existing, conflicting, -⟩ := gathered.conflicts c here
    exact ⟨existing, conflicting⟩

theorem finished_throughout (kept : ∀ f s, Ir.Schema.Throughout good s →
      Ir.Schema.Throughout good (Ir.Schema.mapInfo f s)) {m : Merged} {info : Ir.Meta}
    (gathered : Gathered (Ir.Schema.Throughout good) m) (own : good (m.finish info)) :
    Ir.Schema.Throughout good (m.finish info) := by
  obtain ⟨properties, conflicts⟩ := finished_good kept gathered (Eq.refl (m.finish info))
  exact Ir.Schema.throughout_object own properties conflicts

end SchemaLowering

end ApiLowering
