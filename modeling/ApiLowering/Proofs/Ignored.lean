import Mathlib.Data.List.Nodup
import ApiLowering.Proofs.Assembly
import ApiLowering.Proofs.Closure
import ApiLowering.Proofs.Discriminants
import ApiLowering.Proofs.Stripping

/-!
Ignored operations. An operation that is marked to be ignored becomes neither an endpoint nor a
webhook. It still takes part in the two passes over the whole document: the election between the
representations of its body may be noticed, and its unions with a discriminant strip components.
-/

set_option autoImplicit false

namespace ApiLowering

-- The first list is the second one with some elements put in at one place.
def Inserted {α : Type} (own whole rest : List α) : Prop :=
  ∃ first last, whole = first ++ own ++ last ∧ rest = first ++ last

namespace Inserted

variable {α β : Type} {own whole rest : List α}

theorem mem_iff (inserted : Inserted own whole rest) {a : α} : a ∈ whole ↔ a ∈ own ∨ a ∈ rest := by
  obtain ⟨first, last, all, others⟩ := inserted
  rw [all, others]
  simp only [List.mem_append]
  tauto

theorem append_left (inserted : Inserted own whole rest) (before : List α) :
    Inserted own (before ++ whole) (before ++ rest) := by
  obtain ⟨first, last, all, others⟩ := inserted
  refine ⟨before ++ first, last, ?_, ?_⟩
  · rw [all, List.append_assoc, List.append_assoc, List.append_assoc]
  · rw [others, List.append_assoc]

theorem append_right (inserted : Inserted own whole rest) (later : List α) :
    Inserted own (whole ++ later) (rest ++ later) := by
  obtain ⟨first, last, all, others⟩ := inserted
  refine ⟨first, last ++ later, ?_, ?_⟩
  · rw [all, List.append_assoc]
  · rw [others, List.append_assoc]

-- What maps, filters and the like do to the whole, they do to what was put in.
theorem image (inserted : Inserted own whole rest) {f : List α → List β}
    (append : ∀ a b, f (a ++ b) = f a ++ f b) : Inserted (f own) (f whole) (f rest) := by
  obtain ⟨first, last, all, others⟩ := inserted
  refine ⟨f first, f last, ?_, ?_⟩
  · rw [all, append, append]
  · rw [others, append]

-- One entry is exchanged for another, and what it contributes grows.
theorem flatMap {f : β → List α} {one other : β} (grown : Inserted own (f one) (f other))
    (front back : List β) :
    Inserted own ((front ++ one :: back).flatMap f) ((front ++ other :: back).flatMap f) := by
  simp only [List.flatMap_append, List.flatMap_cons]
  exact (grown.append_right _).append_left _

end Inserted

-- The value under the first occurrence of the key changes.
def Entries.modify {α : Type} (key : String) (f : α → α) : Entries α → Entries α
  | [] => []
  | (k, v) :: rest => if k = key then (k, f v) :: rest else (k, v) :: modify key f rest

theorem modify_split {α : Type} {key : String} {value : α} {entries : Entries α}
    (found : Entries.get? key entries = some value) (f : α → α) :
    ∃ front back, entries = front ++ (key, value) :: back ∧
      Entries.modify key f entries = front ++ (key, f value) :: back := by
  induction entries with
  | nil => cases found
  | cons e rest ih =>
    obtain ⟨k, v⟩ := e
    rw [Entries.get?] at found
    rw [Entries.modify]
    by_cases here : k = key
    · rw [if_pos here] at found ⊢
      cases found
      subst here
      exact ⟨[], rest, rfl, rfl⟩
    · rw [if_neg here] at found ⊢
      obtain ⟨front, back, all, changed⟩ := ih found
      exact ⟨(k, v) :: front, back, by rw [all]; rfl, by rw [changed]; rfl⟩

namespace PathItem

variable {item : PathItem} {method : HttpMethod} {o : Operation}

def operation? (item : PathItem) : HttpMethod → Option Operation
  | .get => item.get
  | .put => item.put
  | .post => item.post
  | .patch => item.patch
  | .delete => item.delete
  | .options => item.options
  | .head => item.head
  | .trace => item.trace

def withoutOperation (item : PathItem) : HttpMethod → PathItem
  | .get => { item with get := none }
  | .put => { item with put := none }
  | .post => { item with post := none }
  | .patch => { item with patch := none }
  | .delete => { item with delete := none }
  | .options => { item with options := none }
  | .head => { item with head := none }
  | .trace => { item with trace := none }

theorem operation_without (other : HttpMethod) :
    (item.withoutOperation method).operation? other =
      if other = method then none else item.operation? other := by
  cases method <;> cases other <;> rfl

theorem without_parameters : (item.withoutOperation method).parameters = item.parameters := by
  cases method <;> rfl

theorem without_extensions : (item.withoutOperation method).extensions = item.extensions := by
  cases method <;> rfl

-- The methods in the order of the operations of an item.
def methods : List HttpMethod := [.get, .put, .post, .patch, .delete, .options, .head, .trace]

def declared (item : PathItem) (method : HttpMethod) : Option (HttpMethod × Operation) :=
  (item.operation? method).map fun o => (method, o)

theorem operations_methods (item : PathItem) : item.operations = methods.filterMap item.declared :=
  rfl

theorem methods_split (method : HttpMethod) :
    ∃ front back, methods = front ++ method :: back ∧ method ∉ front ∧ method ∉ back := by
  have all : method ∈ methods := by cases method <;> decide
  have distinct : methods.Nodup := by decide
  obtain ⟨front, back, split⟩ := List.append_of_mem all
  rw [split, List.nodup_middle, List.nodup_cons, List.mem_append, not_or] at distinct
  exact ⟨front, back, split, distinct.1⟩

theorem operations_without (present : item.operation? method = some o) :
    Inserted [(method, o)] item.operations (item.withoutOperation method).operations := by
  obtain ⟨front, back, split, absent⟩ := methods_split method
  have others {slots : List HttpMethod} (none : method ∉ slots) :
      slots.filterMap (item.withoutOperation method).declared = slots.filterMap item.declared := by
    refine List.filterMap_congr fun other listed => ?_
    have different : other ≠ method := fun same => none (same ▸ listed)
    rw [declared, declared, operation_without, if_neg different]
  have here : item.declared method = some (method, o) := by rw [declared, present]; rfl
  have gone : (item.withoutOperation method).declared method = none := by
    rw [declared, operation_without, if_pos rfl]
    rfl
  refine ⟨front.filterMap item.declared, back.filterMap item.declared, ?_, ?_⟩
  · rw [operations_methods, split, List.filterMap_append, List.filterMap_cons_some here,
      List.append_assoc]
    rfl
  · rw [operations_methods, split, List.filterMap_append, List.filterMap_cons_none gone,
      others absent.1, others absent.2]

end PathItem

-- Where a document declares operations.
inductive Area where
  | paths
  | webhooks
deriving DecidableEq

def Area.name : Area → String
  | .paths => "paths"
  | .webhooks => "webhooks"

-- Where the request of an operation is said to be.
def Area.location (area : Area) (key : String) (method : HttpMethod) : String :=
  area.name ++ "." ++ key ++ "." ++ method.lowerName

namespace ApiDocument

def items (d : ApiDocument) : Area → Entries (Option PathItem)
  | .paths => d.paths
  | .webhooks => d.webhooks

def withItems (d : ApiDocument) (items : Entries (Option PathItem)) : Area → ApiDocument
  | .paths => { d with paths := items }
  | .webhooks => { d with webhooks := items }

def operation? (d : ApiDocument) (area : Area) (key : String) (method : HttpMethod) :
    Option Operation :=
  match Entries.get? key (d.items area) with
  | some (some item) => item.operation? method
  | _ => none

def withoutOperation (d : ApiDocument) (area : Area) (key : String) (method : HttpMethod) :
    ApiDocument :=
  d.withItems
    (Entries.modify key (Option.map fun item => item.withoutOperation method) (d.items area)) area

end ApiDocument

-- Two items that are lowered alike: they have the same operations that are not ignored.
structure PathItem.SameKept (a b : PathItem) : Prop where
  parameters : b.parameters = a.parameters
  extensions : b.extensions = a.extensions
  kept : OperationLowering.kept b = OperationLowering.kept a

abbrev SameItem (e f : String × Option PathItem) : Prop :=
  f.1 = e.1 ∧ Option.Rel PathItem.SameKept e.2 f.2

-- The same document but for ignored operations.
structure ApiDocument.SameKept (d e : ApiDocument) : Prop where
  rest : e = { d with paths := e.paths, webhooks := e.webhooks }
  paths : List.Forall₂ SameItem d.paths e.paths
  webhooks : List.Forall₂ SameItem d.webhooks e.webhooks

def Operation.elected (policy : ConflictPolicy) (o : Operation) : Operation :=
  { o with requestBody := o.requestBody.map (ContentConflict.resolveBody policy) }

namespace OperationLowering

variable {a b : PathItem} {policy : ConflictPolicy}

theorem kept_resolved (policy : ConflictPolicy) (item : PathItem) :
    kept (ContentConflict.resolveItem policy item) =
      (kept item).map fun e => (e.1, e.2.elected policy) := by
  unfold kept ContentConflict.resolveItem
  rw [operations_mapped, List.filter_map]
  rfl

theorem sameKept_resolved (same : a.SameKept b) :
    (ContentConflict.resolveItem policy a).SameKept (ContentConflict.resolveItem policy b) where
  parameters := same.parameters
  extensions := same.extensions
  kept := by rw [kept_resolved, kept_resolved, same.kept]

theorem lowerItem_kept (same : a.SameKept b) (scope : Scope) (path : String) :
    lowerItem scope path b = lowerItem scope path a := by
  have each (e : HttpMethod × Operation) (path : String) :
      lowerOperation scope path b e.1 e.2 = lowerOperation scope path a e.1 e.2 := by
    unfold lowerOperation
    rw [same.parameters]
  unfold lowerItem
  simp only [same.extensions, same.kept, each]

theorem lowerWebhookItem_kept (same : a.SameKept b) (scope : Scope) (key : String) :
    lowerWebhookItem scope key b = lowerWebhookItem scope key a := by
  unfold lowerWebhookItem
  rw [same.parameters, same.kept]

end OperationLowering

namespace DocumentLowering

variable {items others : Entries (Option PathItem)}

theorem lowerPaths_kept (same : List.Forall₂ SameItem items others) (scope : Scope)
    (seen : List Route) : lowerPaths scope seen others = lowerPaths scope seen items := by
  induction same generalizing seen with
  | nil => rfl
  | @cons e f _ _ first _ ih =>
    obtain ⟨path, item⟩ := e
    obtain ⟨key, other⟩ := f
    obtain ⟨aligned, first⟩ := first
    dsimp only at aligned
    subst aligned
    cases first with
    | none => exact ih seen
    | some items =>
      rw [lowerPaths, lowerPaths, OperationLowering.lowerItem_kept items]
      simp only [ih]

theorem lowerWebhooks_kept (same : List.Forall₂ SameItem items others) (scope : Scope) :
    lowerWebhooks scope others = lowerWebhooks scope items := by
  unfold lowerWebhooks
  congr 1
  induction same with
  | nil => rfl
  | @cons e f _ _ first _ ih =>
    obtain ⟨path, item⟩ := e
    obtain ⟨key, other⟩ := f
    obtain ⟨aligned, first⟩ := first
    dsimp only at aligned
    subst aligned
    rw [Report.forEach, Report.forEach, ih]
    cases first with
    | none => rfl
    | some items => simp only [OperationLowering.lowerWebhookItem_kept items]

end DocumentLowering

namespace ApiDocument

variable {d e : ApiDocument} {options : Options} {policy : ConflictPolicy} {area : Area}
  {key : String} {method : HttpMethod} {o : Operation}

theorem sameItems_resolved {items others : Entries (Option PathItem)} (policy : ConflictPolicy)
    (same : List.Forall₂ SameItem items others) :
    List.Forall₂ SameItem (ContentConflict.resolveItems policy items)
      (ContentConflict.resolveItems policy others) := by
  refine List.forall₂_map_left_iff.mpr (List.forall₂_map_right_iff.mpr ?_)
  refine same.imp fun e f one => ⟨one.1, ?_⟩
  obtain ⟨path, item⟩ := e
  obtain ⟨key, other⟩ := f
  cases one.2 with
  | none => exact .none
  | some items => exact .some (OperationLowering.sameKept_resolved items)

/-- Documents that differ in nothing but ignored operations give the same report on their parts. -/
theorem report_kept (same : d.SameKept e) (options : Options) :
    e.report options = d.report options := by
  have paths := sameItems_resolved options.contentConflict same.paths
  have webhooks := sameItems_resolved options.contentConflict same.webhooks
  have scope : e.loweringScope options = d.loweringScope options := by
    rw [same.rest]
    rfl
  unfold report
  rw [scope, same.rest]
  unfold DocumentLowering.lowerParts
  dsimp only [resolveConflicts]
  rw [DocumentLowering.lowerPaths_kept paths, DocumentLowering.lowerWebhooks_kept webhooks]
  rfl

theorem items_without (present : d.operation? area key method = some o) :
    ∃ item front back, item.operation? method = some o ∧
      d.items area = front ++ (key, some item) :: back ∧
      (d.withoutOperation area key method).items area =
        front ++ (key, some (item.withoutOperation method)) :: back := by
  unfold operation? at present
  split at present
  · rename_i item found
    obtain ⟨front, back, all, rest⟩ :=
      modify_split found (Option.map fun item => item.withoutOperation method)
    refine ⟨item, front, back, present, all, ?_⟩
    cases area <;> exact rest
  · cases present

theorem sameKept_without (present : d.operation? area key method = some o)
    (ignored : OperationLowering.isIgnored o = true) :
    d.SameKept (d.withoutOperation area key method) := by
  obtain ⟨item, front, back, declared, all, rest⟩ := items_without present
  have one : item.SameKept (item.withoutOperation method) :=
    { parameters := PathItem.without_parameters
      extensions := PathItem.without_extensions
      kept := by
        obtain ⟨before, later, whole, others⟩ := PathItem.operations_without declared
        unfold OperationLowering.kept
        rw [whole, others, List.append_assoc, List.filter_append, List.filter_append,
          List.singleton_append, List.filter_cons_of_neg (by simp only [ignored]; decide)] }
  have kept (e : String × Option PathItem) : SameItem e e := by
    obtain ⟨path, _ | item⟩ := e
    · exact ⟨rfl, .none⟩
    · exact ⟨rfl, .some ⟨rfl, rfl, rfl⟩⟩
  have same : List.Forall₂ SameItem (d.items area)
      ((d.withoutOperation area key method).items area) := by
    rw [all, rest]
    refine List.rel_append (List.forall₂_same.mpr fun e _ => kept e) ?_
    exact .cons ⟨rfl, .some one⟩ (List.forall₂_same.mpr fun e _ => kept e)
  cases area with
  | paths => exact ⟨rfl, same, List.forall₂_same.mpr fun e _ => kept e⟩
  | webhooks => exact ⟨rfl, List.forall₂_same.mpr fun e _ => kept e, same⟩

end ApiDocument

-- What a pass over the document notices about the body of an operation.
def Operation.conflicts (policy : ConflictPolicy) (location : String) (o : Operation) :
    List ContentConflict :=
  (o.requestBody.bind (ContentConflict.inBody? policy location)).toList

def Operation.notices (policy : ConflictPolicy) (location : String) (o : Operation) :
    List Ir.Finding :=
  ((o.conflicts policy location).filter ContentConflict.diverged).map DocumentLowering.diverged

-- What the schemas of an operation add to the discriminants that components are stripped of.
def Operation.discriminants (policy : ConflictPolicy) (o : Operation) : Discriminant.Table :=
  (o.elected policy).schemas.foldl Discriminant.addSchema []

namespace ApiDocument

variable {d : ApiDocument} {options : Options} {policy : ConflictPolicy} {area : Area}
  {key : String} {method : HttpMethod} {o : Operation}

theorem conflicts_without (policy : ConflictPolicy)
    (present : d.operation? area key method = some o) :
    Inserted (o.conflicts policy (area.location key method)) (d.conflicts policy)
      ((d.withoutOperation area key method).conflicts policy) := by
  obtain ⟨item, front, back, declared, all, rest⟩ := items_without present
  have one (lead : String) : Inserted (o.conflicts policy (lead ++ "." ++ method.lowerName))
      (ContentConflict.inItem policy lead item)
      (ContentConflict.inItem policy lead (item.withoutOperation method)) := by
    have grown := (PathItem.operations_without declared).image
      (f := List.filterMap fun e => e.2.requestBody.bind
        (ContentConflict.inBody? policy (lead ++ "." ++ e.1.lowerName)))
      fun a b => List.filterMap_append
    rwa [List.filterMap_eq_flatMap_toList _ [(method, o)], List.flatMap_singleton] at grown
  have grown : Inserted (o.conflicts policy (area.location key method))
      (ContentConflict.inItems policy area.name (d.items area))
      (ContentConflict.inItems policy area.name
        ((d.withoutOperation area key method).items area)) := by
    rw [all, rest]
    refine Inserted.flatMap ?_ front back
    simp only [Option.toList_some, List.flatMap_singleton]
    exact one (area.name ++ "." ++ key)
  cases area with
  | paths => exact (grown.append_right _).append_right _
  | webhooks => exact (grown.append_left _).append_right _

theorem notices_without (options : Options)
    (present : d.operation? area key method = some o) :
    Inserted (o.notices options.contentConflict (area.location key method)) (d.notices options)
      ((d.withoutOperation area key method).notices options) := by
  have grown := (conflicts_without options.contentConflict present).image
    (f := fun conflicts => (conflicts.filter ContentConflict.diverged).map DocumentLowering.diverged)
    fun a b => by rw [List.filter_append, List.map_append]
  cases area <;> exact grown.append_left _

theorem electedSchemas_without (present : d.operation? area key method = some o) :
    Inserted (o.elected options.contentConflict).schemas (d.electedSchemas options)
      ((d.withoutOperation area key method).electedSchemas options) := by
  obtain ⟨item, front, back, declared, all, rest⟩ := items_without present
  have one : Inserted (o.elected options.contentConflict).schemas
      (ContentConflict.resolveItem options.contentConflict item).schemas
      (ContentConflict.resolveItem options.contentConflict
        (item.withoutOperation method)).schemas := by
    have grown := (PathItem.operations_without declared).image
      (f := fun operations => operations.flatMap fun e =>
        (e.2.elected options.contentConflict).schemas)
      fun a b => List.flatMap_append
    unfold PathItem.schemas ContentConflict.resolveItem
    rw [operations_mapped, operations_mapped, List.flatMap_map, List.flatMap_map]
    have parameters : (item.withoutOperation method).parameters = item.parameters :=
      PathItem.without_parameters
    simp only [PathItem.mapOperations, parameters]
    rw [List.flatMap_singleton] at grown
    exact grown.append_left _
  have grown : Inserted (o.elected options.contentConflict).schemas
      ((d.items area).flatMap fun e =>
        (e.2.map (ContentConflict.resolveItem options.contentConflict)).toList.flatMap
          PathItem.schemas)
      (((d.withoutOperation area key method).items area).flatMap fun e =>
        (e.2.map (ContentConflict.resolveItem options.contentConflict)).toList.flatMap
          PathItem.schemas) := by
    rw [all, rest]
    refine Inserted.flatMap ?_ front back
    simpa only [Option.map_some, Option.toList_some, List.flatMap_singleton] using one
  unfold electedSchemas inlineSchemas resolveConflicts ContentConflict.resolveItems
    Entries.mapValues Entries.values
  simp only [List.flatMap_append, List.map_map, List.flatMap_map, Function.comp_def]
  cases area with
  | paths => exact (grown.append_right _).append_right _
  | webhooks => exact (grown.append_left _).append_right _

end ApiDocument

namespace Discriminant

variable {own whole rest : List Schema}

theorem strip_both {all one other : Table} {id : String}
    (both : ∀ key, key ∈ of all (Pointer.ofSchema id) ↔
      key ∈ of one (Pointer.ofSchema id) ∨ key ∈ of other (Pointer.ofSchema id))
    (s : Ir.Schema) : strip all id s = strip one id (strip other id s) := by
  cases s with
  | object o =>
    have contained (key : String) : (of all (Pointer.ofSchema id)).contains key =
        ((of one (Pointer.ofSchema id)).contains key
          || (of other (Pointer.ofSchema id)).contains key) := by
      rw [Bool.eq_iff_iff, Bool.or_eq_true]
      simp only [List.contains_iff_mem, both]
    simp only [strip, List.filter_filter, contained, Bool.not_or]
  | union _ | enumeration _ | primitive _ | array _ _ | map _ _ | reference _ _ | unknown _ => rfl

theorem stripAll_inserted (inserted : Inserted own whole rest) (schemas : Entries Ir.Schema) :
    stripAll (whole.foldl addSchema []) schemas =
      stripAll (own.foldl addSchema []) (stripAll (rest.foldl addSchema []) schemas) := by
  unfold stripAll
  rw [List.map_map]
  refine List.map_congr_left fun e _ => congrArg (Prod.mk e.1) (strip_both (fun key => ?_) e.2)
  have none : key ∉ of [] (Pointer.ofSchema e.1) := List.not_mem_nil
  simp only [mem_addSchemas, none, or_false, inserted.mem_iff, or_and_right, exists_or]

theorem stripAll_unlisted (plain : ∀ s ∈ own, s.discriminator = none) (schemas : Entries Ir.Schema) :
    stripAll (own.foldl addSchema []) schemas = schemas := by
  have kept (id : String) (s : Ir.Schema) : strip (own.foldl addSchema []) id s = s := by
    have unlisted : of (own.foldl addSchema []) (Pointer.ofSchema id) = [] := by
      refine List.eq_nil_iff_forall_not_mem.mpr fun key listed => ?_
      rcases mem_addSchemas.mp listed with ⟨s, among, e, discriminator, -⟩ | none
      · cases (plain s among).symm.trans discriminator
      · cases none
    cases s with
    | object o =>
      simp only [strip, unlisted, List.contains_nil, Bool.not_false, List.filter_true]
    | union _ | enumeration _ | primitive _ | array _ _ | map _ _ | reference _ _ | unknown _ => rfl
  simp only [stripAll, kept, List.map_id']

end Discriminant

-- What an ignored operation leaves in the representation that a document without it has: what is
-- noticed about its body, as the errors from some number on, and the discriminants of its schemas.
def Operation.residue (policy : ConflictPolicy) (location : String) (n : Nat) (o : Operation)
    (file : Ir.File) : Ir.File :=
  { file with
    errors := file.errors.take n ++ o.notices policy location ++ file.errors.drop n
    schemas := Discriminant.stripAll (o.discriminants policy) file.schemas }

section

variable {options : Options} {d : ApiDocument} {area : Area} {key : String} {method : HttpMethod}
  {o : Operation}

theorem effects_without (options : Options)
    (present : d.operation? area key method = some o)
    (ignored : OperationLowering.isIgnored o = true) :
    ∃ n, d.lower options = ((d.withoutOperation area key method).lower options).map
      (o.residue options.contentConflict (area.location key method) n) := by
  have report := ApiDocument.report_kept (ApiDocument.sameKept_without present ignored) options
  have info : (d.withoutOperation area key method).info = d.info := by cases area <;> rfl
  have schemes : (d.withoutOperation area key method).supportedSchemes = d.supportedSchemes := by
    cases area <;> rfl
  obtain ⟨first, last, all, rest⟩ := ApiDocument.notices_without options present
  refine ⟨first.length, ?_⟩
  rcases lower_staged options d.info with ⟨cause, fails⟩ | ⟨title, description, staged⟩
  · rw [fails d rfl, fails _ info]
    rfl
  · rw [staged d rfl, staged _ info, report]
    cases (d.report options).outcome with
    | error cause => rfl
    | ok parts =>
      have stripped : Discriminant.stripAll (Discriminant.ofDocument
          (d.resolveConflicts options.contentConflict)) parts.schemas =
          Discriminant.stripAll (o.discriminants options.contentConflict)
            (Discriminant.stripAll (Discriminant.ofDocument
              ((d.withoutOperation area key method).resolveConflicts options.contentConflict))
              parts.schemas) :=
        Discriminant.stripAll_inserted (ApiDocument.electedSchemas_without present) parts.schemas
      refine congrArg Except.ok ?_
      unfold Operation.residue ApiDocument.assembled DocumentLowering.assemble
      dsimp only
      rw [report, schemes, all, rest, stripped]
      simp only [List.append_assoc, List.take_left, List.drop_left]

theorem residue_plain {location : String} {n : Nat}
    (silent : o.notices options.contentConflict location = [])
    (plain : ∀ s ∈ (o.elected options.contentConflict).schemas, s.discriminator = none)
    (file : Ir.File) : o.residue options.contentConflict location n file = file := by
  simp only [Operation.residue, Operation.discriminants, silent, List.append_nil,
    List.take_append_drop, Discriminant.stripAll_unlisted plain]

/-- Deleting an ignored operation from a document leaves the failure as it is, or the representation
but for two effects: the election in the body of the operation is not noticed any more, and the
discriminants of the schemas of the operation are not stripped off components any more. Without such
an election and such discriminants nothing changes. -/
theorem ignored_deleted (present : d.operation? area key method = some o)
    (ignored : OperationLowering.isIgnored o = true) :
    (∃ n, d.lower options = ((d.withoutOperation area key method).lower options).map
      (o.residue options.contentConflict (area.location key method) n)) ∧
    (o.notices options.contentConflict (area.location key method) = [] →
      (∀ s ∈ (o.elected options.contentConflict).schemas, s.discriminator = none) →
      (d.withoutOperation area key method).lower options = d.lower options) := by
  obtain ⟨n, effects⟩ := effects_without options present ignored
  refine ⟨⟨n, effects⟩, fun silent plain => ?_⟩
  rw [effects]
  cases (d.withoutOperation area key method).lower options with
  | error cause => rfl
  | ok file => exact congrArg Except.ok (residue_plain silent plain file).symm

end

-- An ignored operation with two representations of its body, and a union in the one that is kept.
def adoptPet : Operation :=
  { Operation.record.blank with
    requestBody := some (.inline { RequestBody.record.blank with
      content := [
        ("application/json", ⟨some (.ofType .string), [], []⟩),
        ("multipart/form-data", ⟨some (.inline { Keywords.empty with
          oneOf := [.reference (Pointer.ofSchema "Cat")]
          discriminator := some ⟨"lives", []⟩ }), [], []⟩)] })
    extensions := [(Extension.ignoreKey, .bool true)] }

def petShelter : ApiDocument :=
  { petShop with
    paths := [("/pets", some { PathItem.record.blank with
      get := some listPets
      post := some adoptPet })] }

-- What the operation leaves behind: the number of errors, and the properties of a component.
def Ir.File.traces (file : Ir.File) : Nat × Option (List String) :=
  (file.errors.length, (Entries.get? "Cat" file.schemas).map Ir.Schema.keys)

theorem petShelter_noticed :
    ((petShelter.lower .default).toOption.map Ir.File.traces) = some (1, some []) ∧
    (((petShelter.withoutOperation .paths "/pets" .post).lower .default).toOption.map
      Ir.File.traces) = some (0, some ["lives"]) := by
  constructor <;> decide +kernel

theorem ignored_noticed :
    ¬ ∀ (options : Options) (d : ApiDocument) (area : Area) (key : String) (method : HttpMethod)
      (o : Operation), d.operation? area key method = some o →
      OperationLowering.isIgnored o = true →
      (d.withoutOperation area key method).lower options = d.lower options := by
  intro unchanged
  have same := unchanged .default petShelter .paths "/pets" .post adoptPet rfl rfl
  have traces := congrArg (fun result => result.toOption.map Ir.File.traces) same
  cases petShelter_noticed.2.symm.trans (traces.trans petShelter_noticed.1)

theorem petShelter_deleted :
    ∃ n file, (petShelter.withoutOperation .paths "/pets" .post).lower .default = .ok file ∧
      file.traces = (0, some ["lives"]) ∧
      petShelter.lower .default =
        .ok (adoptPet.residue .preferMultipart "paths./pets.post" n file) := by
  have listed : petShelter.operation? .paths "/pets" .post = some adoptPet := rfl
  obtain ⟨⟨n, effects⟩, -⟩ := @ignored_deleted .default _ _ _ _ _ listed rfl
  have traces := petShelter_noticed.2
  cases done : (petShelter.withoutOperation .paths "/pets" .post).lower .default with
  | error cause =>
    rw [done] at traces
    cases traces
  | ok file =>
    rw [done] at effects traces
    exact ⟨n, file, rfl, Option.some.inj traces, effects⟩

end ApiLowering
