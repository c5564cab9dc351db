import ApiLowering.Proofs.Components
import ApiLowering.Proofs.Grounded
import ApiLowering.Proofs.Operations

/-!
The schemas of a lowered document, in its endpoints, its webhooks and its components, are grounded in
the inline schemas of the document after the elections between representations; so are those that
stripping leaves behind, and every reference noted leads to a component.
-/

set_option autoImplicit false

namespace ApiLowering

open Ir.Schema (Throughout)
open Report (Certified)
open SchemaLowering (EachForm Grounded Inside Known inside_closed lower_noting)

-- The inline schemas that references of any kind lead to are among the given ones.
abbrev Resolver.Within (given : List Schema) (r : Resolver) : Prop := r.Gives fun s => s ∈ given

-- What is lowered from the given inline schemas is good, and what is noted on the way is fine.
structure Delivers (given : List Schema) (good : Ir.Schema → Prop) (fine : String → Prop)
    (scope : Scope) : Prop where
  within : scope.resolver.Within given
  lower : ∀ node, Inside given node →
    Certified good fine (SchemaLowering.lower scope.resolver scope.path node)
  component : ∀ id node, Inside given node →
    Certified good fine (SchemaLowering.lowerComponent scope.resolver scope.path id node)
  noting : ∀ node,
    Certified (fun _ => True) fine (SchemaLowering.lower scope.resolver scope.path node)
  unknown : ∀ info, good (.unknown info)
  mapInfo : ∀ f s, good s → good (s.mapInfo f)

section

variable {given : List Schema} {good own : Ir.Schema → Prop} {fine : String → Prop} {scope : Scope}

theorem SchemaLowering.EachForm.delivers
    (each : EachForm scope.resolver (fun place => Inside given place.2) fine own)
    (known : ∀ id, Known scope.resolver id → fine id)
    (renamed : ∀ raw name s, NameVariants.derive? raw none = some name → own s →
      own (Ir.Schema.setName name s)) (within : scope.resolver.Within given) :
    Delivers given (Throughout own) fine scope where
  within := within
  lower node inside := each.certified known (inside_closed within.schemas) _ node inside
  component id _ inside :=
    each.component known (inside_closed within.schemas) renamed _ id fun _ => inside
  noting node := lower_noting known _ node
  unknown info := Ir.Schema.throughout_leaf (each.unknown info) rfl
  mapInfo f _ all := Ir.Schema.throughout_mapInfo all (each.annotated f)

theorem grounded_delivers (scope : Scope) (within : scope.resolver.Within given) :
    Delivers given (Throughout (Grounded scope.resolver given)) (Known scope.resolver) scope :=
  (SchemaLowering.grounded_forms _ given).delivers (fun _ => id)
    (fun _ name _ _ => SchemaLowering.grounded_setName name) within

theorem Delivers.rules (delivers : Delivers given good fine scope) :
    scope.Rules (Report.certifying fine) (fun s => s ∈ given) fun seat => good seat.2 where
  tolerant := (Report.Logic.certifying_blind fine).tolerant
  gives := delivers.within
  lower required node inside :=
    SchemaLowering.lowerOption_holds (fun _ => good) required
      (fun n present => delivers.lower n (by rwa [present] at inside)) (delivers.unknown _)
      fun _ is => SchemaLowering.unlessRequired_good delivers.mapInfo required is

open DocumentLowering in
/-- What holds of the schemas that are lowered from the given ones holds of the parts of a document. -/
theorem lowerParts_delivers {d : ApiDocument} (delivers : Delivers d.inlineSchemas good fine scope)
    (components : ∀ e ∈ d.componentSchemas, Inside d.inlineSchemas e.2) :
    Certified (Parts.Fit (fun seat => good seat.2) (fun r => ∀ seat ∈ r.seats, good seat.2)
      fun _ => True) fine (lowerParts scope d) := by
  refine lowerParts_certified (fun _ => True) delivers.rules (fun _ here => here)
    (fun e listed => delivers.component e.1 e.2 (components e listed)) ?_
  -- the references noted stay noted where the schema cannot be lowered or is no variable
  exact VariableLowering.lower_holds (fun _ => True) delivers.rules.tolerant fun value =>
    Report.certified_mono (Report.certified_attempt (delivers.noting _)) fun _ _ _ _ => trivial

end

theorem Resolver.ofDocument_within (d : ApiDocument) (options : Options) :
    (ofDocument d options).Within d.inlineSchemas := by
  cases stored : d.components with
  | none =>
    simp only [ofDocument, stored]
    constructor <;> exact fun _ listed => absurd listed List.not_mem_nil
  | some c =>
    have inside {s : Schema} (here : s ∈ c.inlineSchemas) : s ∈ d.inlineSchemas := by
      refine List.mem_append_right _ (List.mem_flatMap.mpr ⟨c, ?_, here⟩)
      exact Option.mem_toList.mpr stored
    simp only [ofDocument, stored]
    have value {α : Type} {e : String × α} {entries : Entries α} (listed : e ∈ entries) :
        e.2 ∈ Entries.values entries := List.mem_map_of_mem listed
    refine ⟨fun e listed s here => inside ?_, fun e listed s here => inside ?_,
      fun e listed s here => inside ?_, fun e listed s here => inside ?_⟩
    · exact List.mem_append_left _ (List.mem_append_left _ (List.mem_append_left _
        (List.mem_flatMap.mpr ⟨e.2, value listed, here⟩)))
    · exact List.mem_append_left _ (List.mem_append_left _ (List.mem_append_right _
        (List.mem_flatMap.mpr ⟨e.2, value listed, here⟩)))
    · exact List.mem_append_left _ (List.mem_append_right _
        (List.mem_flatMap.mpr ⟨e.2, value listed, here⟩))
    · exact List.mem_append_right _ (List.mem_flatMap.mpr ⟨e.2, value listed, here⟩)

/-- What a property of schemas has to put up with: an object loses the properties of some keys and the
conflicts about them. -/
def Strippable (good : Ir.Schema → Prop) : Prop :=
  ∀ (o : Ir.ObjectSchema Ir.Schema) (dropped : List String), good (.object o) →
    good (.object { o with
      properties := o.properties.filter fun p => !dropped.contains p.key
      conflicts := o.conflicts.filter fun c => !dropped.contains c.propertyKey })

theorem strip_throughout {good : Ir.Schema → Prop} (table : Discriminant.Table) (id : String)
    (kept : Strippable good) {s : Ir.Schema} (all : Throughout good s) :
    Throughout good (Discriminant.strip table id s) := by
  cases s with
  | object o =>
    obtain ⟨own, parts⟩ := Ir.Schema.throughout_iff.mp all
    refine Ir.Schema.throughout_object (kept o _ own) (fun p listed => ?_) fun c listed => ?_
    · exact parts _ (List.mem_append_left _ (List.mem_map_of_mem (List.mem_filter.mp listed).1))
    · have recorded := (List.mem_filter.mp listed).1
      constructor
      · exact parts _ (List.mem_append_right _
          (List.mem_flatMap.mpr ⟨c, recorded, List.mem_cons_self⟩))
      · exact parts _ (List.mem_append_right _
          (List.mem_flatMap.mpr ⟨c, recorded, List.mem_cons_of_mem _ List.mem_cons_self⟩))
  | union _ | enumeration _ | primitive _ | array _ _ | map _ _ | reference _ _ | unknown _ =>
    exact all

-- The inline schemas of a document after the elections between representations.
def ApiDocument.electedSchemas (options : Options) (d : ApiDocument) : List Schema :=
  (d.resolveConflicts options.contentConflict).inlineSchemas

theorem mem_insertSorted {s t : String} {set : List String} :
    t ∈ insertSorted s set ↔ t = s ∨ t ∈ set := by
  induction set with
  | nil => simp only [insertSorted, List.mem_singleton, List.not_mem_nil, or_false]
  | cons first rest ih =>
    by_cases same : s = first
    · rw [insertSorted, if_pos same]
      subst same
      simp only [List.mem_cons, or_self_left]
    · by_cases before : s < first
      · rw [insertSorted, if_neg same, if_pos before, List.mem_cons]
      · rw [insertSorted, if_neg same, if_neg before, List.mem_cons, ih, List.mem_cons]
        exact or_left_comm

theorem mem_sortedSet {t : String} {texts : List String} (here : t ∈ sortedSet texts) : t ∈ texts := by
  rcases mem_foldl (fun _ _ => mem_insertSorted.mp) here with listed | none
  · exact listed
  · cases none

theorem sortedSet_holds {texts : List String} {t : String} (listed : t ∈ texts) :
    t ∈ sortedSet texts := by
  have kept (set : List String) (here : t ∈ texts ∨ t ∈ set) :
      t ∈ texts.foldl (fun set s => insertSorted s set) set := by
    clear listed
    induction texts generalizing set with
    | nil => exact here.resolve_left List.not_mem_nil
    | cons s rest ih =>
      refine ih _ ?_
      rcases here with among | before
      · rcases List.mem_cons.mp among with same | later
        · exact .inr (mem_insertSorted.mpr (.inl same))
        · exact .inl later
      · exact .inr (mem_insertSorted.mpr (.inr before))
  exact kept [] (.inl listed)

variable {options : Options} {d : ApiDocument} {file : Ir.File}

theorem Ir.File.holds_cases {f : Ir.File} {s : Ir.Schema} (held : f.Holds s) :
    f.withoutRequests.Holds s ∨
      ∃ e ∈ f.endpoints, ∃ r ∈ e.request, ∃ root ∈ Ir.Request.schemas r, Ir.Schema.Occurs s root := by
  obtain ⟨root, listed, occurs⟩ := held
  rcases List.mem_append.mp listed with listed | webhook
  · rcases List.mem_append.mp listed with component | endpoint
    · exact .inl ⟨root, List.mem_append_left _ (List.mem_append_left _ component), occurs⟩
    · obtain ⟨e, among, inside⟩ := List.mem_flatMap.mp endpoint
      simp only [Ir.Endpoint.schemas, List.mem_append, List.mem_flatMap, Option.mem_toList] at inside
      have placed : root ∈ e.withoutRequest.schemas ∨ ∃ r ∈ e.request, root ∈ r.schemas := by
        simp only [Ir.Endpoint.schemas, Ir.Endpoint.withoutRequest, List.mem_append, List.mem_flatMap,
          Option.mem_toList]
        rcases inside with ((parameter | asked) | response) | error
        · exact .inl (.inl (.inl (.inl parameter)))
        · exact .inr asked
        · exact .inl (.inl (.inr response))
        · exact .inl (.inr error)
      rcases placed with outside | ⟨r, present, here⟩
      · refine .inl ⟨root, List.mem_append_left _ (List.mem_append_right _ ?_), occurs⟩
        exact List.mem_flatMap.mpr ⟨_, List.mem_map_of_mem among, outside⟩
      · exact .inr ⟨e, among, r, present, root, here, occurs⟩
  · exact .inl ⟨root, List.mem_append_right _ webhook, occurs⟩

section

open DocumentLowering

variable {good : Ir.Schema → Prop} {asked : Ir.Request → Prop} {varied : Ir.PrimitiveSchema → Prop}
  {title : String} {description : Option String} {schemes : Entries Ir.SecurityScheme}
  {findings : List Ir.Finding} {marks : List String} {parts : Parts} {s : Ir.Schema}

/-- What holds throughout the seats of the parts of a document, and of an object that loses properties,
holds of every schema that stands outside of the requests once the parts are assembled. -/
theorem throughout_assembled (kept : Strippable good)
    (fit : parts.Fit (fun seat => Throughout good seat.2) asked varied)
    (held : (assemble title description schemes d findings marks parts).withoutRequests.Holds s) :
    good s := by
  obtain ⟨root, listed, occurs⟩ := held
  rcases List.mem_append.mp listed with listed | raised
  · rcases List.mem_append.mp listed with component | endpoint
    · obtain ⟨e, stripped, same⟩ := List.mem_map.mp component
      obtain ⟨lowered, among, stripping⟩ := List.mem_map.mp stripped
      subst stripping
      subst same
      exact strip_throughout _ _ kept (fit.schemas lowered among) s occurs
    · obtain ⟨e, among, inside⟩ := List.mem_flatMap.mp endpoint
      obtain ⟨own, called, same⟩ := List.mem_map.mp among
      subst same
      rw [← Ir.Endpoint.seats_schemas] at inside
      obtain ⟨seat, seated, same⟩ := List.mem_map.mp inside
      subst same
      exact (fit.paths.endpoints own called).outside seat seated s occurs
  · obtain ⟨w, among, inside⟩ := List.mem_flatMap.mp raised
    rw [← Ir.Webhook.seats_schemas] at inside
    obtain ⟨seat, seated, same⟩ := List.mem_map.mp inside
    subst same
    exact fit.allRaised w among seat seated s occurs

theorem throughout_file (kept : Strippable good)
    (fit : parts.Fit (fun seat => Throughout good seat.2)
      (fun r => ∀ seat ∈ r.seats, Throughout good seat.2) varied)
    (held : (assemble title description schemes d findings marks parts).Holds s) : good s := by
  rcases Ir.File.holds_cases held with outside | ⟨e, listed, r, present, root, among, occurs⟩
  · exact throughout_assembled kept fit outside
  · rw [← Ir.Request.seats_schemas] at among
    obtain ⟨seat, seated, same⟩ := List.mem_map.mp among
    subst same
    exact (fit.paths.endpoints e listed).request r present seat seated s occurs

end

open DocumentLowering in
/-- Every schema in a lowered document is grounded in the components and the inline schemas of the
document, and every reference noted leads to a component. -/
theorem lowered_grounded (done : d.lower options = .ok file) :
    (∀ s, file.Holds s → Grounded (d.resolver options) (d.electedSchemas options) s) ∧
      ∀ id ∈ file.nonRequestReferencedSchemas, Known (d.resolver options) id := by
  obtain ⟨_, _, reserved, _, _, report, parts, made, outcome, same⟩ := assembled_of_lower done
  have within := Resolver.ofDocument_within (d.resolveConflicts options.contentConflict) options
  have components : ∀ e ∈ (d.resolveConflicts options.contentConflict).componentSchemas,
      Inside (d.electedSchemas options) e.2 := by
    rw [← Resolver.ofDocument_schemas _ options]
    exact within.schemas
  have delivers := grounded_delivers (scope options reserved _) within
  have certified := lowerParts_delivers delivers components
  rw [← made] at certified
  subst same
  refine ⟨fun s held => ?_, fun id noted => ?_⟩
  · exact throughout_file (fun _ _ parents => parents) (certified.outcome parts outcome) held
  · exact certified.marks id (mem_sortedSet noted)

end ApiLowering
