import ApiLowering.Proofs.Components
import ApiLowering.Proofs.Conservation
import ApiLowering.Proofs.MappingKeys

/-!
Bare names in mappings. A value without slashes and dots that is no fragment stands for the component of
that id, whatever else is in it: a union that maps a key to it refers to the component, finds nothing wrong
with the entry, and tells the component its discriminant. Every other value stands for itself, as a pointer
or a file.
-/

set_option autoImplicit false

namespace ApiLowering

def Ir.Schema.isReference : Ir.Schema → Bool
  | .reference _ _ => true
  | _ => false

namespace Report

variable {α β : Type}

-- Whether it succeeds or not, a collection finds nothing but what is found for its items.
theorem collect_finds {f : α → Report (Option β)} {items : List α} {finding : Ir.Finding}
    (here : finding ∈ (collect f items).findings) : ∃ a ∈ items, finding ∈ (f a).findings := by
  induction items with
  | nil => cases here
  | cons a rest ih =>
    rw [collect] at here
    have later (there : finding ∈ (collect f rest).findings) :
        ∃ b ∈ a :: rest, finding ∈ (f b).findings := by
      obtain ⟨b, listed, found⟩ := ih there
      exact ⟨b, List.mem_cons_of_mem _ listed, found⟩
    cases first : (f a).outcome with
    | error e =>
      rw [bind_of_error first] at here
      exact ⟨a, List.mem_cons_self, here⟩
    | ok b =>
      rw [findings_bind first] at here
      rcases List.mem_append.mp here with own | there
      · exact ⟨a, List.mem_cons_self, own⟩
      · cases rested : (collect f rest).outcome with
        | error e =>
          rw [bind_of_error rested] at there
          exact later there
        | ok more =>
          rw [findings_last rested] at there
          exact later there

end Report

namespace Discriminant

/-- A mapping value that names a component: no fragment, no path and no file. -/
structure Bare (name : String) : Prop where
  fragment : Text.startsWith ['#'] name.toList = false
  slash : '/' ∉ name.toList
  dot : '.' ∉ name.toList

instance (name : String) : Decidable (Bare name) :=
  decidable_of_iff (_ ∧ _ ∧ _) ⟨fun ⟨a, b, c⟩ => ⟨a, b, c⟩, fun ⟨a, b, c⟩ => ⟨a, b, c⟩⟩

theorem target_bare {name : String} (bare : Bare name) : target name = Pointer.ofSchema name := by
  have slash : name.toList.contains '/' = false := by simpa using bare.slash
  have dot : name.toList.contains '.' = false := by simpa using bare.dot
  simp only [target, bare.fragment, slash, dot, Bool.or_false, Bool.false_eq_true, if_false]

end Discriminant

namespace SchemaLowering

open Discriminant (Bare target_bare)

variable {r : Resolver} {path : List String} {s : Schema} {d : Discriminator} {schema : Ir.Schema}
  {key id : String} {entry : String × String} {mapping : List (String × String)}
  {doc : ApiDocument} {options : Options} {node : SchemaNode}

-- The variant for one entry of a mapping.
def mappedVariant (r : Resolver) (entry : String × String) : Report (Option (Ir.Variant Ir.Schema)) :=
  (do
    match ← discriminantLabel entry.1 with
    | some label =>
      let schema ← lowerReference r (Discriminant.target entry.2)
      return some ⟨label, schema⟩
    | none => return none : Report (Option (Ir.Variant Ir.Schema))).under
    ["discriminator", "mapping", entry.1]

theorem mappedVariants_collect (covered : List String) :
    mappedVariants r covered mapping = Report.collect (mappedVariant r) (leftover covered mapping) := by
  induction mapping generalizing covered with
  | nil => rfl
  | cons e rest ih =>
    obtain ⟨value, name⟩ := e
    rw [mappedVariants, leftover]
    split
    · exact ih covered
    · rw [ih, Report.collect]
      rfl

theorem lowerReference_place (target : String) :
    ∃ schema, (lowerReference r target).outcome = .ok schema ∧
      ∀ f ∈ (lowerReference r target).findings, f.breadcrumbs = [] := by
  unfold lowerReference
  split
  · exact ⟨_, rfl, fun _ here => nomatch here⟩
  · exact ⟨_, rfl, List.forall_mem_singleton.mpr rfl⟩
  · exact ⟨_, rfl, List.forall_mem_singleton.mpr rfl⟩

-- What is found for an entry is found at the entry.
theorem mappedVariant_place {f : Ir.Finding} (here : f ∈ (mappedVariant r entry).findings) :
    f.breadcrumbs = ["discriminator", "mapping", entry.1] := by
  obtain ⟨inner, found, rfl⟩ := List.mem_map.mp here
  suffices placed : inner.breadcrumbs = [] by rw [Ir.Finding.under, placed, List.append_nil]
  rw [discriminantLabel] at found
  cases called : NameVariants.derive? entry.1 none with
  | none =>
    rw [called] at found
    cases List.mem_singleton.mp found
    rfl
  | some name =>
    obtain ⟨schema, done, placed⟩ := lowerReference_place (r := r) (Discriminant.target entry.2)
    rw [called, Report.findings_bind rfl, Report.findings_last done] at found
    exact placed inner found

theorem mappedVariant_silent (known : Known r id) (named : id ≠ "") (spelled : key ≠ "")
    (bare : Bare id) : (mappedVariant r (key, id)).findings = [] := by
  obtain ⟨label, labelled⟩ := discriminantLabel_named spelled
  obtain ⟨node, stored⟩ := known
  have found := lookup_found.mpr ⟨Pointer.componentId_ofSchema named, stored⟩
  have silent : (discriminantLabel key).findings = [] := by
    rw [discriminantLabel] at labelled ⊢
    split at labelled
    · rfl
    · cases labelled
  rw [mappedVariant, Report.under, target_bare bare, lowerReference, found, Report.findings_bind labelled,
    silent]
  rfl

-- Among entries with different keys, nothing is found for one that leads to a component.
theorem mappedVariants_quiet {covered : List String} (distinct : (mapping.map Prod.fst).Nodup)
    (listed : entry ∈ mapping) (silent : (mappedVariant r entry).findings = []) :
    ∀ f ∈ (mappedVariants r covered mapping).findings,
      f.breadcrumbs ≠ ["discriminator", "mapping", entry.1] := by
  intro f here place
  rw [mappedVariants_collect] at here
  obtain ⟨other, left, found⟩ := Report.collect_finds here
  have keyed := (mappedVariant_place found).symm.trans place
  simp only [List.cons.injEq, true_and, and_true] at keyed
  have same := List.inj_on_of_nodup_map distinct ((leftover_sublist _ _).subset left) listed keyed
  rw [same, silent] at found
  cases found

-- What a union with a discriminator finds: about its members, its mapping and its own properties.
theorem lowerTagged_findings (done : (lowerTagged r path s d).outcome = .ok schema) :
    (lowerTagged r path s d).findings =
      (lowerMembers r path (unionMembers s).1 (taggedLabel d) 0 (unionMembers s).2).findings ++
        ((mappedVariants r ((unionMembers s).2.filterMap SchemaNode.target?) d.mapping).findings ++
          (lowerProperties r path s.required (some d.propertyName) s.properties).findings) := by
  obtain ⟨variants, onMembers, done⟩ := Report.bind_ok done
  obtain ⟨mapped, onMapping, done⟩ := Report.bind_ok done
  obtain ⟨base, onProperties, -⟩ := Report.bind_ok done
  rw [lowerTagged, Report.findings_bind onMembers, Report.findings_bind onMapping,
    Report.findings_last onProperties]

/-- What becomes of a name that a union maps a key to, if it is understood: the union refers to the
component, what it finds about its mapping is nothing about the key, and if the union is in the document
then the component is told its discriminant. -/
structure Understands (doc : ApiDocument) (r : Resolver) (path : List String) (s : Schema)
    (d : Discriminator) (key id : String) (schema : Ir.Schema) : Prop where
  refers : ∃ u, schema = .union u ∧ ∃ v ∈ u.variants, v.schema = .reference Ir.Meta.blank id
  findings : (lowerInline r path s).findings = (Extension.checkUnknown s.extensions).findings ++
    ((lowerMembers r path (unionMembers s).1 (taggedLabel d) 0 (unionMembers s).2).findings ++
      ((mappedVariants r ((unionMembers s).2.filterMap SchemaNode.target?) d.mapping).findings ++
        (lowerProperties r path s.required (some d.propertyName) s.properties).findings))
  quiet : ∀ f ∈ (mappedVariants r ((unionMembers s).2.filterMap SchemaNode.target?) d.mapping).findings,
    f.breadcrumbs ≠ ["discriminator", "mapping", key]
  told : s ∈ doc.inlineSchemas →
    d.propertyName ∈ Discriminant.of (Discriminant.ofDocument doc) (Pointer.ofSchema id)

/-- A bare name in the mapping of a union with a discriminator is understood as the component of that id,
if the first key that is mapped to the component is a name. -/
theorem bare_names_understood (stored : Entries.get? id doc.componentSchemas = some node) (named : id ≠ "")
    (bare : Bare id) (plain : s.allOf = []) (united : s.oneOf ≠ [] ∨ s.anyOf ≠ [])
    (present : s.discriminator = some d) (distinct : (d.mapping.map Prod.fst).Nodup)
    (listed : (key, id) ∈ d.mapping) (spelled : key ≠ "")
    (first : Spelled d.mapping (Pointer.ofSchema id))
    (done : (lowerInline (.ofDocument doc options) path s).outcome = .ok schema) :
    Understands doc (.ofDocument doc options) path s d key id schema := by
  have known : Known (.ofDocument doc options) id := by
    refine ⟨node, ?_⟩
    rw [Resolver.ofDocument_schemas, stored]
  have shape := form_tagged plain united present
  have formed := lowerInline_ok done
  rw [shape] at formed
  have leads : Discriminant.target id = Pointer.ofSchema id := target_bare bare
  constructor
  case refers =>
    obtain ⟨u, union, -, v, variant, refers, -⟩ :=
      lowerTagged_mentions formed known named (.inr ⟨(key, id), listed, leads⟩) first
    exact ⟨u, union, v, variant, refers⟩
  case findings =>
    rw [lowerInline_eq, Report.findings_bind rfl, shape]
    exact congrArg _ (lowerTagged_findings formed)
  case quiet => exact mappedVariants_quiet distinct listed (mappedVariant_silent known named spelled bare)
  case told =>
    refine fun among => Discriminant.mem_ofDocument.mpr ⟨s, among, d, present, rfl, ?_⟩
    exact List.mem_append_right _ (List.mem_map.mpr ⟨id, List.mem_map_of_mem listed, leads⟩)

-- A union that maps a key to a name, and a zoo that has a component of that name.
def animal (target : String) : Schema :=
  { Keywords.empty with
    oneOf := [.inline { Keywords.empty with title := some "Dog" }]
    discriminator := some ⟨"kind", [("cat", target)]⟩ }

def zoo (target : String) : ApiDocument :=
  .ofSchemas [(target, .ofProperties [("lives", .ofType .integer)]), ("Animal", .inline (animal target))]

theorem tilde_understood :
    ∃ schema, (lowerInline (.ofDocument (zoo "cat~1") .default) [] (animal "cat~1")).outcome = .ok schema ∧
      Understands (zoo "cat~1") (.ofDocument (zoo "cat~1") .default) [] (animal "cat~1")
        ⟨"kind", [("cat", "cat~1")]⟩ "cat" "cat~1" schema := by
  have lowers : ((lowerInline (.ofDocument (zoo "cat~1") .default) []
      (animal "cat~1")).outcome.toOption.any fun _ => true) = true := by decide +kernel
  obtain ⟨schema, done, -⟩ := ok_of_any lowers
  refine ⟨schema, done, bare_names_understood (s := animal "cat~1") rfl (by decide) (by decide) rfl
    (.inl (by simp [animal])) rfl (by decide) (by decide) (by decide) ?_ done⟩
  exact spelled_of_all (by decide)

/-- A name with a dot is not understood, although a component has it. -/
theorem dotted_misunderstood :
    (Entries.get? "v1.Cat" (zoo "v1.Cat").componentSchemas).isSome = true ∧
      (animal "v1.Cat").discriminator = some ⟨"kind", [("cat", "v1.Cat")]⟩ ∧
      (∃ u, (lowerInline (.ofDocument (zoo "v1.Cat") .default) []
          (animal "v1.Cat")).outcome = .ok (.union u) ∧
        ∀ v ∈ u.variants, ∀ info, v.schema ≠ .reference info "v1.Cat") ∧
      (∃ f ∈ (lowerInline (.ofDocument (zoo "v1.Cat") .default) [] (animal "v1.Cat")).findings,
        f.kind = .unsupportedReference ∧ f.breadcrumbs = ["discriminator", "mapping", "cat"]) ∧
      "kind" ∉ Discriminant.of (Discriminant.ofDocument (zoo "v1.Cat")) (Pointer.ofSchema "v1.Cat") := by
  have lowers : ((lowerInline (.ofDocument (zoo "v1.Cat") .default) []
      (animal "v1.Cat")).outcome.toOption.any fun schema => schema.union?.any fun u =>
        u.variants.all fun v => !v.schema.isReference) = true := by decide +kernel
  refine ⟨by decide, rfl, ?_, by decide +kernel, by decide +kernel⟩
  obtain ⟨schema, done, checked⟩ := ok_of_any lowers
  cases schema with
  | union u =>
    refine ⟨u, done, fun v listed info refers => ?_⟩
    have other := List.all_eq_true.mp checked v listed
    rw [refers] at other
    cases other
  | object _ | enumeration _ | primitive _ | array _ _ | map _ _ | reference _ _ | unknown _ =>
    cases checked

end SchemaLowering

end ApiLowering
