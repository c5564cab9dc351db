import ApiLowering.Proofs.FirstWins
import ApiLowering.Proofs.Malformed

/-!
Unknown extensions of component schemas. They are looked for in every schema that is lowered for a
component, and in no other one: not in the members of a composition that are merged, and not in those
that a composition reduces over.
-/

set_option autoImplicit false

namespace ApiLowering

def Ir.Finding.names (key : String) (f : Ir.Finding) : Prop :=
  f.kind = .unknownExtension ∧ f.message = "unknown extension " ++ key

open Ir.Finding (Absorbs names plain_of_kind)
open Report (Finds Tells finds_bind finds_noted finds_pure finds_silent finds_under tells_first
  tells_next tells_under)

theorem Extension.checkUnknown_names {extensions : Entries Json} {key : String} {f : Ir.Finding}
    (here : f ∈ (checkUnknown extensions).findings) (is : f.names key) :
    key ∈ Entries.keys extensions ∧ isUnknown key = true := by
  obtain ⟨other, listed, same⟩ := List.mem_map.mp here
  have message : "unknown extension " ++ other = "unknown extension " ++ key :=
    (congrArg Ir.Finding.message same).trans is.2
  rw [String.append_right_inj] at message
  exact message ▸ List.mem_filter.mp listed

namespace SchemaLowering

variable {r : Resolver} {path : List String} {s t : Schema} {node : SchemaNode} {id key : String}

-- The schema has an extension that is not understood.
def Carries (key : String) (s : Schema) : Prop :=
  key ∈ Entries.keys s.extensions ∧ Extension.isUnknown key = true

theorem lowered_tells (lowered : Lowered r node s) (carries : Carries key s) (path : List String) :
    (lower r path node).Tells (names key) := by
  induction lowered generalizing path with
  | @here s =>
    rw [lower, lowerInline_eq]
    refine tells_first fun _ _ => ⟨_, List.mem_map.mpr ⟨key, List.mem_filter.mpr carries, rfl⟩, ?_⟩
    exact ⟨rfl, rfl⟩
  | part consults _ ih =>
    rw [lower, lowerInline_eq]
    exact tells_next fun _ _ => form_tells (fun _ _ is => is) consults (ih carries) path

theorem names_absorbs (r : Resolver) (node : SchemaNode) :
    Absorbs fun f => ∀ key, f.names key → ∃ s, Lowered r node s ∧ Carries key s where
  plain _ plain _ is := absurd is.1 plain.known
  under _ _ known := known

theorem lower_names (r : Resolver) (path : List String) (node : SchemaNode) :
    (lower r path node).Finds fun f =>
      ∀ key, f.names key → ∃ s, Lowered r node s ∧ Carries key s := by
  refine lower_finds (p := fun node f => ∀ key, f.names key → ∃ s, Lowered r node s ∧ Carries key s)
    (names_absorbs r) (fun s f here key is => ?_) (fun s node consults f known key is => ?_) path node
  · exact ⟨s, .here, Extension.checkUnknown_names here is⟩
  · obtain ⟨t, lowered, carries⟩ := known key is
    exact ⟨t, .part consults lowered, carries⟩

theorem component_names {whole : Ir.Schema}
    (done : (lowerComponent r path id node).outcome = .ok whole) :
    (∃ f ∈ (lowerComponent r path id node).findings, f.names key) ↔
      ∃ s, Lowered r node s ∧ Carries key s := by
  unfold lowerComponent at done ⊢
  cases entered : r.enter path (Pointer.ofSchema id) with
  | error e =>
    rw [entered] at done
    cases done
  | ok deeper =>
    rw [entered] at done
    dsimp only at done ⊢
    constructor
    · rintro ⟨f, here, is⟩
      refine finds_under (p := fun f => ∀ key, f.names key → ∃ s, Lowered r node s ∧ Carries key s)
        (finds_bind (lower_names r deeper node) fun schema _ => ?_) f here key is
      split
      · exact finds_pure _
      · exact finds_noted ((names_absorbs r node).plain _ (plain_of_kind (by decide) (by decide) _ _)) _
    · rintro ⟨s, lowered, carries⟩
      exact tells_under (tells_first (lowered_tells lowered carries deeper)) whole done

/-- Of a composition that is merged, the schemas that are lowered are itself and those that are lowered
for the properties it is merged from; the members are not among them. -/
theorem lowered_merged (merged : IsMerged s) :
    Lowered r (.inline s) t ↔ t = s ∨ ∃ u key node, Composition.Leads r (.inline s) (.inline u) ∧
      (key, node) ∈ u.properties ∧ namedAfter (key, node) ≠ "" ∧ Lowered r node t := by
  have composed := (form_composed_iff s).mpr merged
  constructor
  · rintro (_ | ⟨consults, further⟩)
    · exact .inl rfl
    · cases consults with
      | @declared u key _ shape led listed named => exact .inr ⟨u, key, _, led, listed, named, further⟩
      | reduced shape | tagged shape | base shape | collapsed shape | variant shape | shared shape
      | items shape | property shape | value shape => cases composed.symm.trans shape
  · rintro (rfl | ⟨u, key, node, led, listed, named, further⟩)
    · exact .here
    · exact .part (.declared composed led listed named) further

end SchemaLowering

open SchemaLowering (Carries Lowered lowerComponent)

/-- What is found when a component is lowered is told, and an unknown extension is found exactly if a
schema that is lowered for the component has it. -/
theorem extensions_told {options : Options} {d : ApiDocument} {file : Ir.File} {id : String}
    {node : SchemaNode} (done : d.lower options = .ok file) (listed : (id, node) ∈ d.componentSchemas) :
    (∀ f ∈ (lowerComponent (d.resolver options) [] id node).findings, f ∈ file.errors) ∧
      ∀ key, (∃ f ∈ (lowerComponent (d.resolver options) [] id node).findings, f.names key) ↔
        ∃ s, Lowered (d.resolver options) node s ∧ Carries key s := by
  constructor
  · intro f here
    rw [← ApiDocument.componentSchemas_resolveConflicts options.contentConflict d] at listed
    obtain ⟨g, told, same⟩ := told_of_lower (p := (f = ·)) done
      (DocumentLowering.component_tells listed fun _ _ => ⟨f, here, rfl⟩)
    exact same ▸ told
  · intro key
    obtain ⟨out, -, -, whole, lowered, -⟩ := related_of_mem (strips_of_lower done) listed
    exact SchemaLowering.component_names lowered

-- A page is merged from two members. The first one has an unknown extension, and so has its property.
def ruled : Schema :=
  { Keywords.empty with
    properties := [("a", .inline { Keywords.empty with extensions := [("x-fern-lost", .null)] })]
    extensions := [("x-fern-mystery", .null)] }

def page : Schema :=
  { Keywords.empty with
    allOf := [.inline ruled, .inline (SchemaLowering.declaring [] [("b", .string)] [])] }

def notebook : ApiDocument := ApiDocument.ofSchemas [("Page", .inline page)]

theorem notebook_told :
    ∃ file, notebook.lower .default = .ok file ∧ SchemaLowering.IsMerged page ∧
      .inline ruled ∈ page.allOf ∧ Carries "x-fern-mystery" ruled ∧
      file.errors.map (fun f => (f.kind, f.breadcrumbs, f.message)) =
        [(.unknownExtension, ["Page", "allOf", "0", "a"], "unknown extension x-fern-lost")] ∧
      (∀ f ∈ (lowerComponent (notebook.resolver .default) [] "Page" (.inline page)).findings,
        f ∈ file.errors) ∧
      ∀ key, (∃ f ∈ (lowerComponent (notebook.resolver .default) [] "Page" (.inline page)).findings,
          f.names key) ↔
        ∃ s, Lowered (notebook.resolver .default) (.inline page) s ∧ Carries key s := by
  have lowers : (notebook.lower .default).toOption.any (fun file => decide (
      file.errors.map (fun f => (f.kind, f.breadcrumbs, f.message)) =
        [(.unknownExtension, ["Page", "allOf", "0", "a"], "unknown extension x-fern-lost")])) = true := by
    decide +kernel
  obtain ⟨file, done, told⟩ := ok_of_any lowers
  have merged : SchemaLowering.IsMerged page := ⟨by decide, .inr (by decide)⟩
  exact ⟨file, done, merged, List.mem_cons_self, ⟨by decide, by decide⟩, of_decide_eq_true told,
    extensions_told done List.mem_cons_self⟩

end ApiLowering
