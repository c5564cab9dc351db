import ApiLowering.Proofs.Rules
import ApiLowering.Proofs.Walk

/-!
Where objects come from. An inline schema that reduces or collapses to one of its members leaves the
shape to it; the schema at the end of these steps is a composition or has a type, and that is what an
object is built of.
-/

set_option autoImplicit false

namespace ApiLowering

namespace Ir

-- What an object is made of, without its name and its annotations.
structure Body where
  properties : List (Property Schema)
  parents : List String
  conflicts : List (PropertyConflict Schema)

def Schema.body? : Schema → Option Body
  | .object o => some ⟨o.properties, o.parents, o.conflicts⟩
  | _ => none

@[simp] theorem Schema.body_mapInfo (f : Meta → Meta) (s : Schema) : (s.mapInfo f).body? = s.body? := by
  cases s <;> rfl

@[simp] theorem Schema.body_setName (name : NameVariants) (s : Schema) :
    (s.setName name).body? = s.body? := by
  cases s <;> rfl

end Ir

namespace SchemaLowering

open ApiLowering.Composition (Place Step Visits)

-- The schema that a node leaves its shape to, and whether a union collapsed on the way to it.
inductive Core : SchemaNode → Bool → Schema → Prop where
  | own {s : Schema} : Core (.inline s) false s
  | reduced {s t : Schema} {index : Nat} {member : SchemaNode} {collapsed : Bool}
      (shape : form s = .reduced index member) (further : Core member collapsed t) :
      Core (.inline s) collapsed t
  | collapsed {s t : Schema} {index : Nat} {member : SchemaNode} {collapsed : Bool}
      (shape : form s = .collapsed index member) (further : Core member collapsed t) :
      Core (.inline s) true t

def Merged.finished (m : Merged) : List (Ir.Property Ir.Schema) :=
  m.properties.map fun p =>
    { p with
      required := m.required.contains p.key
      schema := p.schema.setOptional (!m.required.contains p.key) }

-- The changes that the steps of a walk make, one for each step.
abbrev Made (r : Resolver) (steps : List Step) (changes : List Change) : Prop :=
  List.Forall₂ (fun step change => (stepChange r step).outcome = .ok change) steps changes

-- How the body of an object comes about.
inductive Built (r : Resolver) (path : List String) (t : Schema) : Ir.Body → Prop where
  | composed (shape : form t = .composed) {changes : List Change}
      (made : Made r (Composition.walkAll r path t).steps changes)
      (done : (Composition.walkAll r path t).failure = none) :
      Built r path t ⟨(Merged.ofChanges changes).finished, (Merged.ofChanges changes).parents,
        (Merged.ofChanges changes).conflicts⟩
  | typed (shape : form t = .typed) {properties : List (Ir.Property Ir.Schema)}
      (listed : properties = [] ∨
        (lowerProperties r path t.required none t.properties).outcome = .ok properties) :
      Built r path t ⟨properties, [], []⟩

variable {r : Resolver} {path : List String} {s t : Schema} {node : SchemaNode}
  {schema : Ir.Schema} {body : Ir.Body} {collapsed : Bool}

theorem lowerObject_body {parts : Parts} {info : Ir.Meta}
    (done : (lowerObject s parts info).outcome = .ok schema) (object : schema.body? = some body) :
    ∃ properties, body = ⟨properties, [], []⟩ ∧
      (s.properties = [] ∧ properties = [] ∨ (parts.properties ()).outcome = .ok properties) := by
  unfold lowerObject at done
  split at done
  · rename_i bare
    split at done
    · cases done
      cases object
      exact ⟨[], rfl, .inl ⟨List.isEmpty_iff.mp bare, rfl⟩⟩
    · obtain ⟨value, -, done⟩ := Report.bind_ok done
      cases done
      cases object
  · obtain ⟨properties, listed, done⟩ := Report.bind_ok done
    cases done
    cases object
    exact ⟨properties, rfl, .inr listed⟩

theorem lowerTyped_body {parts : Parts} {info : Ir.Meta} {type : SchemaType}
    (done : (lowerTyped s parts info type).outcome = .ok schema)
    (object : schema.body? = some body) :
    ∃ properties, body = ⟨properties, [], []⟩ ∧
      (s.properties = [] ∧ properties = [] ∨ (parts.properties ()).outcome = .ok properties) := by
  cases type with
  | object => exact lowerObject_body done object
  | array =>
    obtain ⟨items, -, done⟩ := Report.bind_ok done
    cases done
    cases object
  | string | integer | number | boolean | null | unsupported =>
    cases done
    cases object

theorem lowerByType_body {parts : Parts} {info : Ir.Meta}
    (done : (lowerByType s parts info).outcome = .ok schema) (object : schema.body? = some body) :
    ∃ properties, body = ⟨properties, [], []⟩ ∧
      (s.properties = [] ∧ properties = [] ∨ (parts.properties ()).outcome = .ok properties) := by
  unfold lowerByType at done
  split at done
  · exact lowerTyped_body done object
  · split at done
    · cases done
      cases object
    · exact lowerTyped_body done object
    · obtain ⟨variants, -, done⟩ := Report.bind_ok done
      cases done
      cases object
  · split at done
    · exact lowerObject_body done object
    · split at done
      · exact lowerTyped_body done object
      · cases done
        cases object

theorem enumeration_body {values : List Json} {info : Ir.Meta}
    (done : (Enumeration.lower s values info).outcome = .ok schema) : schema.body? = none := by
  obtain ⟨overrides, -, done⟩ := Report.bind_ok done
  obtain ⟨⟨nullable, members⟩, -, done⟩ := Report.bind_ok done
  cases done
  rfl

theorem lowerReference_body {target : String}
    (done : (lowerReference r target).outcome = .ok schema) : schema.body? = none := by
  unfold lowerReference at done
  split at done <;>
  · cases done
    rfl

theorem lowerTagged_body {d : Discriminator}
    (done : (lowerTagged r path s d).outcome = .ok schema) : schema.body? = none := by
  obtain ⟨variants, -, done⟩ := Report.bind_ok done
  obtain ⟨mapped, -, done⟩ := Report.bind_ok done
  obtain ⟨base, -, done⟩ := Report.bind_ok done
  cases done
  rfl

theorem lowerUnion_body (done : (lowerUnion r path s).outcome = .ok schema) :
    schema.body? = none := by
  obtain ⟨variants, -, done⟩ := Report.bind_ok done
  obtain ⟨base, -, done⟩ := Report.bind_ok done
  cases done
  rfl

theorem lowerComposed_ok (done : (lowerComposed r path s).outcome = .ok schema) :
    ∃ changes, Made r (Composition.walkAll r path s).steps changes ∧
      (Composition.walkAll r path s).failure = none ∧
      schema = (Merged.ofChanges changes).finish (ownInfo s) := by
  obtain ⟨changes, made, done⟩ := Report.bind_ok done
  cases ended : (Composition.walkAll r path s).failure with
  | some e =>
    rw [ended] at done
    cases done
  | none =>
    rw [ended] at done
    cases done
    exact ⟨changes, Report.forEach_ok made, rfl, rfl⟩

theorem composed_ok (shape : form s = .composed)
    (done : (lowerInline r path s).outcome = .ok schema) :
    ∃ changes, Made r (Composition.walkAll r path s).steps changes ∧
      (Composition.walkAll r path s).failure = none ∧
      schema = (Merged.ofChanges changes).finish (ownInfo s) := by
  have done := lowerInline_ok done
  rw [shape] at done
  exact lowerComposed_ok done

theorem composed_silent (shape : form s = .composed)
    (done : (lowerInline r path s).outcome = .ok schema)
    (silent : (lowerInline r path s).findings = []) :
    ∀ step ∈ (Composition.walkAll r path s).steps, (stepChange r step).findings = [] := by
  have done := lowerInline_ok done
  have silent := lowerInline_silent silent
  rw [shape, lowerForm, lowerComposed] at done silent
  obtain ⟨changes, made, -⟩ := Report.bind_ok done
  exact Report.forEach_silent made (Report.bind_silent made silent).1

theorem lowerAmended_ok {keys : List String} {member : SchemaNode} {description : Option String}
    {nullable : Bool}
    (done : (lowerAmended r path keys member description nullable).outcome = .ok schema) :
    ∃ inner, (lower r path member).outcome = .ok inner ∧ schema.body? = inner.body? ∧
      ((lowerAmended r path keys member description nullable).findings = [] →
        (lower r path member).findings = []) := by
  obtain ⟨inner, within, last⟩ := Report.bind_ok done
  cases last
  refine ⟨inner, within, Ir.Schema.body_mapInfo _ _, fun silent => ?_⟩
  exact Report.under_silent (Report.bind_silent within silent).1

-- Every object is built from the core of the node that was lowered to it; what was found there was
-- found with the node.
theorem object_built (node : SchemaNode) {schema : Ir.Schema} {body : Ir.Body}
    (done : (lower r path node).outcome = .ok schema) (object : schema.body? = some body) :
    ∃ collapsed t, Core node collapsed t ∧ Built r path t body ∧
      ∃ core, (lowerInline r path t).outcome = .ok core ∧
        ((lower r path node).findings = [] → (lowerInline r path t).findings = []) := by
  match node with
  | .reference target =>
    rw [lower] at done
    rw [lowerReference_body done] at object
    cases object
  | .invalid value =>
    rw [lower] at done
    cases done
    cases object
  | .inline s =>
    rw [lower] at done ⊢
    have formed := lowerInline_ok done
    -- from a member that the shape is left to, the core is found by recursion; the other forms are
    -- their own core, or give no object
    cases shape : form s with
    | reduced index member =>
      rw [shape, lowerForm] at formed
      obtain ⟨inner, within, same, quiet⟩ := lowerAmended_ok formed
      have less := Composition.member_lt (reduced_mem shape)
      obtain ⟨collapsed, t, core, built, last, passed, still⟩ :=
        object_built member within (same ▸ object)
      refine ⟨collapsed, t, .reduced shape core, built, last, passed, fun silent => still (quiet ?_)⟩
      have silent := lowerInline_silent silent
      rw [shape, lowerForm] at silent
      exact silent
    | composed =>
      obtain ⟨changes, made, passed, same⟩ := composed_ok shape done
      subst same
      cases object
      exact ⟨false, s, .own, .composed shape made passed, _, done, id⟩
    | tagged d =>
      rw [shape, lowerForm] at formed
      rw [lowerTagged_body formed] at object
      cases object
    | collapsed index member =>
      rw [shape, lowerForm] at formed
      obtain ⟨inner, within, same, quiet⟩ := lowerAmended_ok formed
      have less := unionMember_lt (collapsed_mem shape)
      obtain ⟨collapsed, t, core, built, last, passed, still⟩ :=
        object_built member within (same ▸ object)
      refine ⟨true, t, .collapsed shape core, built, last, passed, fun silent => still (quiet ?_)⟩
      have silent := lowerInline_silent silent
      rw [shape, lowerForm] at silent
      exact silent
    | union =>
      rw [shape, lowerForm] at formed
      rw [lowerUnion_body formed] at object
      cases object
    | enumeration values =>
      rw [shape, lowerForm] at formed
      rw [enumeration_body formed] at object
      cases object
    | typed =>
      rw [shape, lowerForm] at formed
      obtain ⟨properties, same, listed⟩ := lowerByType_body formed object
      subst same
      exact ⟨false, s, .own, .typed shape (listed.imp_left And.right), schema, done, id⟩
termination_by sizeOf node
decreasing_by
  · simp only [SchemaNode.inline.sizeOf_spec]
    omega
  · simp only [SchemaNode.inline.sizeOf_spec]
    omega

theorem core_built (core : Core node collapsed t) (shape : form t = .composed)
    (done : (lower r path node).outcome = .ok schema) :
    ∃ body, schema.body? = some body ∧ Built r path t body := by
  induction core generalizing schema with
  | own =>
    rw [lower] at done
    obtain ⟨changes, made, passed, same⟩ := composed_ok shape done
    subst same
    exact ⟨_, rfl, .composed shape made passed⟩
  | reduced reduces _ ih | collapsed reduces _ ih =>
    rw [lower] at done
    have formed := lowerInline_ok done
    rw [reduces, lowerForm] at formed
    obtain ⟨inner, within, same, -⟩ := lowerAmended_ok formed
    rw [same]
    exact ih shape within

theorem core_visited (r : Resolver) (path : List String) (core : Core node false t) :
    Visits r (path, node) (path, .inline t) := by
  generalize straight : false = collapsed at core
  induction core with
  | own => exact .here
  | reduced shape _ ih => exact .member (reduced_mem shape) (ih straight)
  | collapsed _ _ _ => cases straight

theorem core_collapsed (r : Resolver) (path : List String) (core : Core node true t) :
    ∃ s index member, Visits r (path, node) (path, .inline s) ∧ form s = .collapsed index member := by
  -- only down to the first union that collapses: a walk does not come any further
  generalize bent : true = collapsed at core
  induction core with
  | own => cases bent
  | reduced shape _ ih =>
    obtain ⟨s, index, member, visited, collapses⟩ := ih bent
    exact ⟨s, index, member, .member (reduced_mem shape) visited, collapses⟩
  | collapsed shape _ _ => exact ⟨_, _, _, .here, shape⟩

end SchemaLowering

end ApiLowering
