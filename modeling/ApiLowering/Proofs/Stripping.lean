import ApiLowering.Proofs.Closure
import ApiLowering.Proofs.Unions

/-!
Stripping of discriminants. A component that a union with a discriminant refers to by its own pointer
does not declare the discriminant any more; and whatever a component was stripped of is the key of a
discriminator of the document that lists the component.
-/

set_option autoImplicit false

namespace ApiLowering

open SchemaLowering (Arises Known Offers Origin form lower lowerComponent)

variable {options : Options} {d : ApiDocument} {file : Ir.File} {id key : String}

-- The properties and conflicts of a component are those that it was lowered with, without the ones
-- whose keys are discriminants.
theorem object_of_file (done : d.lower options = .ok file) {after : Ir.ObjectSchema Ir.Schema}
    (present : Entries.get? id file.schemas = some (.object after)) :
    ∃ node before, Entries.get? id d.componentSchemas = some node ∧
      (lowerComponent (d.resolver options) [] id node).outcome = .ok (.object before) ∧
      after.properties =
        before.properties.filter (fun p => !(d.discriminants options id).contains p.key) ∧
      after.conflicts =
        before.conflicts.filter fun c => !(d.discriminants options id).contains c.propertyKey := by
  obtain ⟨node, whole, stored, component, stripped⟩ := stripped_of_file done present
  cases whole with
  | object before =>
    cases stripped
    exact ⟨node, before, stored, component, rfl, rfl⟩
  | union _ | enumeration _ | primitive _ | array _ _ | map _ _ | reference _ _ | unknown _ =>
    cases stripped

theorem property_stripped (done : d.lower options = .ok file) {o : Ir.ObjectSchema Ir.Schema}
    (present : Entries.get? id file.schemas = some (.object o))
    (dropped : key ∈ d.discriminants options id) :
    (∀ p ∈ o.properties, p.key ≠ key) ∧ ∀ c ∈ o.conflicts, c.propertyKey ≠ key := by
  obtain ⟨_, before, -, -, properties, conflicts⟩ := object_of_file done present
  have fresh {other : String} (kept : (!(d.discriminants options id).contains other) = true) :
      other ≠ key := by
    intro same
    subst same
    simp only [List.contains_iff_mem.mpr dropped, Bool.not_true, reduceCtorEq] at kept
  rw [properties, conflicts]
  exact ⟨fun p here => fresh (List.mem_filter.mp here).2,
    fun c here => fresh (List.mem_filter.mp here).2⟩

theorem arises_key {u : Ir.UnionSchema Ir.Schema} {r : Resolver} {path : List String} {s : Schema}
    {e : Discriminator} (arises : Arises r path s e u) :
    u.discriminant = some e.propertyName ∧ ∀ v ∈ u.variants, ∃ pointer, Origin r path s e v pointer := by
  obtain ⟨name, info, lowered⟩ := arises.lowered
  -- the name and the annotations may differ, the discriminant and the variants do not
  obtain ⟨named, origins⟩ := SchemaLowering.lowerTagged_origin lowered
  exact ⟨named, origins⟩

theorem lowerInline_tagged {r : Resolver} {path : List String} {s : Schema} {e : Discriminator}
    {schema : Ir.Schema} (shape : form s = .tagged e)
    (done : (lower r path (.inline s)).outcome = .ok schema) :
    (SchemaLowering.lowerTagged r path s e).outcome = .ok schema := by
  rw [lower] at done
  have formed := SchemaLowering.lowerInline_ok done
  rw [shape] at formed
  exact formed

theorem component_arises {c : String} {s : Schema} {e : Discriminator}
    (done : d.lower options = .ok file) (stored : Entries.get? c d.componentSchemas = some (.inline s))
    (shape : form s = .tagged e) :
    ∃ u path, file.Holds (.union u) ∧ Arises (d.resolver options) path s e u := by
  obtain ⟨whole, component, present⟩ := stripped_of_component done stored
  have root {schema : Ir.Schema} (here : Entries.get? c file.schemas = some schema) :
      file.Holds schema := by
    refine ⟨schema, List.mem_append_left _ (List.mem_append_left _ ?_), .here⟩
    exact List.mem_map_of_mem (Resolver.get_mem here)
  unfold lowerComponent at component
  split at component
  · cases component
  · rename_i deeper _
    obtain ⟨inner, within, component⟩ := Report.bind_ok component
    have lowered := lowerInline_tagged shape within
    obtain ⟨_, _, _, -, -, same⟩ := SchemaLowering.lowerTagged_parts lowered
    -- a name does not change where the union comes from, and stripping leaves it as it is
    subst same
    split at component
    · cases component
      exact ⟨_, deeper, root present, shape, _, _, lowered⟩
    · cases component
      exact ⟨_, deeper, root present, shape, _, _, lowered⟩

/-- A union with a discriminant, anywhere in a lowered document, comes from lowering an inline schema
of the document, and each of its variants from a member or an entry of the mapping. Where the pointer
that led to a variant is that of the component the variant refers to, the component, if it is an
object, has no property and no conflict with the discriminant for its key. -/
theorem stripping_complete {u : Ir.UnionSchema Ir.Schema} (done : d.lower options = .ok file)
    (held : file.Holds (.union u)) (tagged : u.discriminant = some key) :
    (∃ s ∈ d.electedSchemas options, ∃ e path, Arises (d.resolver options) path s e u ∧
      ∀ v ∈ u.variants, ∃ pointer, Origin (d.resolver options) path s e v pointer) ∧
    ∀ s ∈ d.electedSchemas options, ∀ e path, Arises (d.resolver options) path s e u →
      ∀ v ∈ u.variants, ∀ info id, v.schema = .reference info id →
        Origin (d.resolver options) path s e v (some (Pointer.ofSchema id)) →
        ∀ o, Entries.get? id file.schemas = some (.object o) →
          (∀ p ∈ o.properties, p.key ≠ key) ∧ ∀ c ∈ o.conflicts, c.propertyKey ≠ key := by
  constructor
  · obtain ⟨s, listed, e, path, arises⟩ := (lowered_grounded done).1 _ held key tagged
    exact ⟨s, listed, e, path, arises, (arises_key arises).2⟩
  · intro s listed e path arises v _ info id _ origin o present
    have named : e.propertyName = key :=
      Option.some.inj ((arises_key arises).1.symm.trans tagged)
    refine property_stripped done present (ApiDocument.mem_discriminants.mpr ⟨s, listed, e, ?_⟩)
    exact ⟨SchemaLowering.form_discriminator arises.shape, named, origin.pointed⟩

-- The keys that an object declares.
def Ir.Schema.keys (s : Ir.Schema) : List String :=
  s.body?.toList.flatMap fun body => body.properties.map Ir.Property.key

theorem Ir.Schema.declared_of_keys {s : Ir.Schema} (listed : s.keys.contains key = true) :
    ∃ o, s = .object o ∧ ∃ p ∈ o.properties, p.key = key := by
  obtain ⟨body, object, declared⟩ := List.mem_flatMap.mp (List.contains_iff_mem.mp listed)
  cases s with
  | object o =>
    cases List.mem_singleton.mp object
    exact ⟨o, rfl, List.mem_map.mp declared⟩
  | union _ | enumeration _ | primitive _ | array _ _ | map _ _ | reference _ _ | unknown _ =>
    cases object

theorem pet_offers : Offers pet ⟨"petType", [("dog", "Dog")]⟩ "Cat" where
  listed := .inl List.mem_cons_self
  named := by decide
  spelled m listed _ := by
    cases List.mem_singleton.mp listed
    decide

theorem petShop_refers :
    ∃ file, petShop.lower .default = .ok file ∧
      (Entries.get? "Cat" file.schemas).any (fun s => s.keys.contains "lives") = true ∧
      ∃ u path e, file.Holds (.union u) ∧ u.discriminant = some "petType" ∧
        Arises (petShop.resolver .default) path pet e u ∧
        ∃ v ∈ u.variants, v.schema = .reference Ir.Meta.blank "Cat" ∧
          Origin (petShop.resolver .default) path pet e v (some (Pointer.ofSchema "Cat")) := by
  have lowered : ((petShop.lower .default).toOption.any fun file =>
      (Entries.get? "Cat" file.schemas).any fun s => s.keys.contains "lives") = true := by
    decide +kernel
  obtain ⟨file, done, declares⟩ := ok_of_any lowered
  have stored : Entries.get? "Pet" petShop.componentSchemas = some (.inline pet) := rfl
  obtain ⟨u, path, held, arises⟩ := component_arises done stored rfl
  obtain ⟨name, info, outcome⟩ := arises.lowered
  have known : Known (petShop.resolver .default) "Cat" :=
    ⟨_, by rw [ApiDocument.resolver_schemas]; rfl⟩
  obtain ⟨_, same, tagged, variant⟩ := SchemaLowering.lowerTagged_refers outcome known pet_offers
  cases same
  exact ⟨file, done, declares, u, path, _, held, tagged, arises, variant⟩

theorem petShop_stripped :
    ∃ file, petShop.lower .default = .ok file ∧ ∃ u, file.Holds (.union u) ∧
      u.discriminant = some "petType" ∧ ∃ o, Entries.get? "Cat" file.schemas = some (.object o) ∧
        (∃ p ∈ o.properties, p.key = "lives") ∧ ∀ p ∈ o.properties, p.key ≠ "petType" := by
  obtain ⟨file, done, declares, u, path, e, held, tagged, arises, v, here, refers, origin⟩ :=
    petShop_refers
  obtain ⟨cat, present, listed⟩ := (Option.any_eq_true _ _).mp declares
  obtain ⟨o, same, declared⟩ := Ir.Schema.declared_of_keys listed
  subst same
  have among : pet ∈ petShop.electedSchemas .default := List.mem_cons_self
  obtain ⟨properties, -⟩ := (stripping_complete done held tagged).2 pet among e path arises v here
    _ "Cat" refers origin o present
  exact ⟨file, done, u, held, tagged, o, present, declared, properties⟩

-- The union tells its variants apart by the key, and one of them refers to the component.
def Ir.UnionSchema.Refers (u : Ir.UnionSchema Ir.Schema) (key id : String) : Prop :=
  u.discriminant = some key ∧ ∃ v ∈ u.variants, ∃ info, v.schema = .reference info id

end ApiLowering
