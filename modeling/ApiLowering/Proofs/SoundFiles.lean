import ApiLowering.Proofs.Closure
import ApiLowering.Proofs.IrFileForms
import ApiLowering.Proofs.Parsed

/-!
What is lowered from a document that was read from JSON can be carried by JSON: its bounds are those of
the document and finite, and no map in it repeats a key.
-/

set_option autoImplicit false

namespace ApiLowering

open Ir.Schema (Throughout FiniteHere)
open Report (Certified)
open SchemaLowering (Inside inside_here)

-- Elections take media types away, and nothing else.
namespace ContentConflict

variable {policy : ConflictPolicy}

theorem resolveBody_schemas (node : RequestBodyNode) :
    (resolveBody policy node).schemas ⊆ node.schemas := by
  cases node with
  | reference _ | invalid _ => exact List.Subset.refl _
  | inline body =>
    intro s here
    obtain ⟨e, listed, among⟩ := List.mem_flatMap.mp here
    have kept : e ∈ body.content := by
      have listed : e ∈ resolveContent policy body.content := listed
      rw [resolveContent] at listed
      split at listed
      · exact (List.mem_filter.mp listed).1
      · exact listed
    exact List.mem_flatMap.mpr ⟨e, kept, among⟩

theorem resolveOperation_schemas (o : Operation) :
    Operation.schemas { o with requestBody := o.requestBody.map (resolveBody policy) } ⊆
      o.schemas := by
  intro s here
  simp only [Operation.schemas, List.mem_append] at here ⊢
  refine here.imp_left (Or.imp_right fun body => ?_)
  obtain ⟨node, present, among⟩ := List.mem_flatMap.mp body
  obtain ⟨before, found, rfl⟩ := Option.map_eq_some_iff.mp (Option.mem_toList.mp present)
  exact List.mem_flatMap.mpr
    ⟨before, Option.mem_toList.mpr found, resolveBody_schemas before among⟩

theorem resolveItem_operations {item : PathItem} {e : HttpMethod × Operation}
    (listed : e ∈ (resolveItem policy item).operations) : ∃ o, (e.1, o) ∈ item.operations ∧
      e.2 = { o with requestBody := o.requestBody.map (resolveBody policy) } := by
  rw [resolveItem, operations_mapped] at listed
  obtain ⟨before, among, rfl⟩ := List.mem_map.mp listed
  exact ⟨before.2, among, rfl⟩

theorem resolveItem_schemas (item : PathItem) :
    (resolveItem policy item).schemas ⊆ item.schemas := by
  intro s here
  rcases List.mem_append.mp here with parameter | operation
  · exact List.mem_append_left _ parameter
  · obtain ⟨e, listed, among⟩ := List.mem_flatMap.mp operation
    obtain ⟨o, before, same⟩ := resolveItem_operations listed
    rw [same] at among
    exact List.mem_append_right _
      (List.mem_flatMap.mpr ⟨(e.1, o), before, resolveOperation_schemas o among⟩)

theorem resolveItems_mem {items : Entries (Option PathItem)} {e : String × Option PathItem}
    (listed : e ∈ resolveItems policy items) {item : PathItem} (present : item ∈ e.2) :
    ∃ before, (e.1, some before) ∈ items ∧ item = resolveItem policy before := by
  obtain ⟨⟨key, found⟩, among, rfl⟩ := List.mem_map.mp listed
  obtain ⟨before, rfl, rfl⟩ := Option.map_eq_some_iff.mp present
  exact ⟨before, among, rfl⟩

end ContentConflict

namespace ApiDocument

variable {d : ApiDocument}

theorem resolveConflicts_schemas (policy : ConflictPolicy) :
    (d.resolveConflicts policy).inlineSchemas ⊆ d.inlineSchemas := by
  intro s here
  simp only [inlineSchemas, Entries.values, List.mem_append, List.mem_flatMap, List.mem_map,
    Option.mem_toList] at here ⊢
  rcases here with ⟨found, onItems, item, present, among⟩ | ⟨c, present, among⟩
  · refine .inl ?_
    rcases onItems with ⟨e, listed, rfl⟩ | ⟨e, listed, rfl⟩
    · obtain ⟨before, listedBefore, rfl⟩ := ContentConflict.resolveItems_mem listed present
      exact ⟨_, .inl ⟨_, listedBefore, rfl⟩, before, rfl,
        ContentConflict.resolveItem_schemas before among⟩
    · obtain ⟨before, listedBefore, rfl⟩ := ContentConflict.resolveItems_mem listed present
      exact ⟨_, .inr ⟨_, listedBefore, rfl⟩, before, rfl,
        ContentConflict.resolveItem_schemas before among⟩
  · obtain ⟨before, found, rfl⟩ := Option.map_eq_some_iff.mp present
    refine .inr ⟨before, found, ?_⟩
    simp only [Components.inlineSchemas, List.mem_append] at among ⊢
    refine among.imp_left (Or.imp_right fun bodies => ?_)
    obtain ⟨node, listed, inside⟩ := List.mem_flatMap.mp bodies
    obtain ⟨e, elected, rfl⟩ := List.mem_map.mp listed
    obtain ⟨body, listedBefore, rfl⟩ := List.mem_map.mp elected
    exact List.mem_flatMap.mpr
      ⟨body.2, List.mem_map_of_mem listedBefore, ContentConflict.resolveBody_schemas _ inside⟩

theorem Sound.electedSchemas (sound : d.Sound) (options : Options) :
    ∀ s ∈ d.electedSchemas options, s.Bounded :=
  fun s here => sound.schemas s (resolveConflicts_schemas _ here)

end ApiDocument

namespace SchemaLowering

variable {r : Resolver} {given : List Schema} {s : Ir.Schema}

theorem finite_mapInfo (f : Ir.Meta → Ir.Meta) (finite : s.FiniteHere) :
    (s.mapInfo f).FiniteHere := by
  cases s with
  | primitive p => exact finite
  | object _ | union _ | enumeration _ | array _ _ | map _ _ | reference _ _ | unknown _ => trivial

theorem finite_setName (name : NameVariants) (finite : s.FiniteHere) :
    (s.setName name).FiniteHere := by
  cases s with
  | primitive p => exact finite
  | object _ | union _ | enumeration _ | array _ _ | map _ _ | reference _ _ | unknown _ => trivial

theorem finite_forms (r : Resolver) (bounded : ∀ s ∈ given, s.Bounded) :
    EachForm r (fun place => Inside given place.2) (fun _ => True) FiniteHere where
  unknown _ := trivial
  reference _ := trivial
  primitive inside own bounds here := own bounds here ▸ bounded _ (inside_here inside)
  enumeration _ := trivial
  array _ _ := trivial
  map _ _ := trivial
  object _ _ _ := trivial
  composed _ _ := trivial
  union _ _ _ _ _ := trivial
  annotated f _ finite := finite_mapInfo f finite

end SchemaLowering

theorem finite_delivers {given : List Schema} (scope : Scope)
    (within : scope.resolver.Within given) (bounded : ∀ s ∈ given, s.Bounded) :
    Delivers given (Throughout FiniteHere) (fun _ => True) scope :=
  (SchemaLowering.finite_forms _ bounded).delivers (fun _ _ => trivial)
    (fun _ name _ _ => SchemaLowering.finite_setName name) within

namespace OperationLowering

-- The requirements of an endpoint are those of its operation or, without any, of the document.
theorem lowerItem_security {scope : Scope} {item : PathItem}
    (shared : ∀ all ∈ scope.security, SecurityRequirement.Distinct all)
    (own : ∀ e ∈ item.operations, ∀ all ∈ e.2.security, SecurityRequirement.Distinct all)
    (path : String) :
    Certified (LoweredItem.Each (fun e => SecurityRequirement.Distinct e.security) fun _ => True)
      (fun _ => True) (lowerItem scope path item) := by
  have blind := Report.Logic.certifying_blind fun _ => True
  refine lowerItem_holds blind fun e listed => ?_
  refine lowerOperation_holds blind (Report.certified_any _) (fun parameters _ _ => ?_)
    fun _ _ _ => Report.yields_intro fun _ _ _ _ => trivial
  have chosen : SecurityRequirement.Distinct ((e.2.security.or scope.security).getD []) := by
    cases found : e.2.security.or scope.security with
    | none => exact fun _ here => absurd here List.not_mem_nil
    | some all =>
      rcases Option.or_eq_some_iff.mp found with declared | ⟨-, inherited⟩
      · exact own e (List.mem_filter.mp listed).1 all declared
      · exact shared all inherited
  refine Report.certified_bind (Report.certified_any _) fun _ _ => ?_
  exact Report.certified_bind (Report.certified_any _) fun _ _ => Report.certified_pure chosen

end OperationLowering

namespace DocumentLowering

theorem tags_distinct (declared : List Ir.Tag) (endpoints : List Ir.Endpoint) :
    (Entries.keys (tags declared endpoints)).Nodup := by
  have added (names : List String) (seen : Entries Ir.Tag) (distinct : (Entries.keys seen).Nodup) :
      (Entries.keys (names.foldl
        (fun seen name =>
          if Entries.contains name seen then seen else seen ++ [(name, (⟨name, none⟩ : Ir.Tag))])
        seen)).Nodup := by
    induction names generalizing seen with
    | nil => exact distinct
    | cons name rest ih =>
      rw [List.foldl_cons]
      refine ih _ ?_
      by_cases present : Entries.contains name seen = true
      · rwa [if_pos present]
      · rw [if_neg present]
        have fresh : name ∉ Entries.keys seen := by
          intro here
          obtain ⟨e, listed, rfl⟩ := List.mem_map.mp here
          exact present (Option.isSome_of_eq_some (get_of_mem distinct listed))
        rw [← put_fresh fresh]
        exact (put_keys distinct).1
  exact added _ _ (collect_distinct _)

theorem supported_keys (schemes : Entries SecuritySchemeNode) :
    (Entries.keys (SecurityLowering.supported schemes)).Sublist (Entries.keys schemes) := by
  unfold SecurityLowering.supported
  induction schemes with
  | nil => exact List.Sublist.slnil
  | cons e rest ih =>
    rw [List.filterMap_cons]
    split
    · exact ih.cons _
    · rename_i made
      split at made
      · obtain ⟨scheme, -, rfl⟩ := Option.map_eq_some_iff.mp made
        exact ih.cons_cons e.1
      · cases made

end DocumentLowering

namespace VariableLowering

theorem node_bounded {value : Json} (proper : value.Proper) :
    ∀ s ∈ (node value).inlineSchemas, s.Bounded := by
  unfold node
  split
  · rename_i found read
    exact SchemaNode.read_bounded _ _ found proper.inRange read
  · exact fun _ here => absurd here List.not_mem_nil

variable {r : Resolver} {given : List Schema}

theorem lowerOne_finite (components : ∀ e ∈ r.schemas, Inside given e.2)
    (bounded : ∀ s ∈ given, s.Bounded) (path : List String) (name : String) {value : Json}
    (proper : value.Proper) :
    Certified (fun found => ∀ e ∈ found, e.2.value.Finite) (fun _ => True)
      (lowerOne r path name value) := by
  have lowered : Certified (Throughout FiniteHere) (fun _ => True)
      (SchemaLowering.lower r path (node value)) := by
    have known : ∀ e ∈ r.schemas, Inside (given ++ (node value).inlineSchemas) e.2 :=
      fun e listed s here => List.mem_append_left _ (components e listed here)
    refine (SchemaLowering.finite_forms r fun s here => ?_).certified (fun _ _ => trivial)
      (SchemaLowering.inside_closed known) path _ fun s here => List.mem_append_right _ here
    rcases List.mem_append.mp here with before | own
    · exact bounded s before
    · exact node_bounded proper s own
  refine lowerOne_holds (fun p => p.value.Finite) (Report.Logic.certifying_blind _).tolerant ?_
  exact Report.certified_mono (Report.certified_attempt lowered) fun found fine _ is =>
    (Ir.Schema.throughout_iff.mp (fine _ is)).1

theorem lowerOne_named {r : Resolver} {path : List String} {name : String} {value : Json}
    {made : String × Ir.PrimitiveSchema}
    (done : (lowerOne r path name value).outcome = .ok (some made)) : made.1 = name := by
  obtain ⟨found, -, done⟩ := Report.bind_ok done
  split at done
  · exact congrArg Prod.fst (Option.some.inj (Report.pure_ok done)).symm
  · cases done

theorem lower_sound {d : ApiDocument} (extensions : ∀ e ∈ d.extensions, e.2.Proper)
    (components : ∀ e ∈ r.schemas, Inside given e.2) (bounded : ∀ s ∈ given, s.Bounded)
    {path : List String} {all : Entries Ir.PrimitiveSchema}
    (done : (lower r path d).outcome = .ok all) :
    (∀ e ∈ all, e.2.value.Finite) ∧ (Entries.keys all).Nodup := by
  unfold lower at done
  split at done
  · rename_i raw declared
    have proper := extensions _ (Resolver.get_mem declared)
    cases proper with
    | object ascends each =>
      have finite := Report.certified_collect fun e listed =>
        lowerOne_finite components bounded path e.1 (each e listed)
      refine ⟨fun e listed => ?_, (ascends_nodup ascends).sublist ?_⟩
      · exact finite.outcome _ done e listed
      · exact Report.collect_sublist (fun _ _ => lowerOne_named) done
  · cases done
    exact ⟨fun _ here => absurd here List.not_mem_nil, List.nodup_nil⟩

end VariableLowering

variable {options : Options} {d : ApiDocument} {file : Ir.File}

open DocumentLowering in
/-- What is lowered from a sound document is sound. -/
theorem lowered_sound (sound : d.Sound) (done : d.lower options = .ok file) : file.Sound := by
  obtain ⟨title, description, parts, outcome, same⟩ := staged_of_lower done
  have within := Resolver.ofDocument_within (d.resolveConflicts options.contentConflict) options
  have components : ∀ e ∈ (d.resolveConflicts options.contentConflict).componentSchemas,
      Inside (d.electedSchemas options) e.2 := by
    rw [← Resolver.ofDocument_schemas _ options]
    exact within.schemas
  have bounded := sound.electedSchemas options
  have delivers := finite_delivers (d.loweringScope options) within bounded
  have good := (lowerParts_delivers delivers components).outcome parts outcome
  have schemaKeys : (Entries.keys file.schemas).Nodup := lowered_keys done ▸ sound.schemaKeys
  obtain ⟨paths, onPaths, outcome⟩ := Report.bind_ok outcome
  obtain ⟨webhooks, -, outcome⟩ := Report.bind_ok outcome
  obtain ⟨schemas, -, outcome⟩ := Report.bind_ok outcome
  obtain ⟨variableSchemas, onVariables, outcome⟩ := Report.bind_ok outcome
  obtain ⟨servers, -, outcome⟩ := Report.bind_ok outcome
  obtain ⟨tags, -, outcome⟩ := Report.bind_ok outcome
  cases outcome
  obtain ⟨variableBounds, variableKeys⟩ :=
    VariableLowering.lower_sound sound.extensions within.schemas bounded onVariables
  have requirements : paths.Each (fun e => SecurityRequirement.Distinct e.security) fun _ => True := by
    refine (lowerPaths_holds (Report.Logic.certifying_blind fun _ => True)
      (fun path item listed => ?_) []).outcome paths onPaths
    refine OperationLowering.lowerItem_security sound.security (fun o held => ?_) path
    obtain ⟨before, among, rfl⟩ := ContentConflict.resolveItems_mem listed rfl
    obtain ⟨first, declared, resolved⟩ := ContentConflict.resolveItem_operations held
    rw [resolved]
    exact (sound.operations _ among before rfl _ declared).security
  subst same
  exact {
    schemas := fun s held => throughout_file (fun _ _ _ => trivial) good held
    variableBounds
    schemaKeys
    schemeKeys := sound.schemeKeys.sublist (supported_keys _)
    tagKeys := tags_distinct _ _
    variableKeys
    requirementKeys := requirements.endpoints }

end ApiLowering
