import Mathlib.Data.List.Basic
import Mathlib.Data.Prod.Basic
import ApiLowering.Proofs.Ignored

/-!
The request bodies that are written out in a document, and where they stand: in the operations of paths,
in those of webhooks and among the components. The elections change their content one by one; a document
is known from these bodies and from its shell, which is the document without the content of them.
-/

set_option autoImplicit false

namespace ApiLowering

-- Where a document holds a request body.
inductive BodyPlace where
  | operation (area : Area) (key : String) (method : HttpMethod)
  | component (name : String)
deriving DecidableEq

-- The place as elections are reported for it.
def BodyPlace.location : BodyPlace → String
  | .operation area key method => area.location key method
  | .component name => "components.requestBodies." ++ name

def RequestBody.mapContent (f : Entries MediaType → Entries MediaType) (body : RequestBody) : RequestBody :=
  { body with content := f body.content }

namespace RequestBodyNode

def bodies : RequestBodyNode → List RequestBody
  | .inline body => [body]
  | _ => []

def mapContent (f : Entries MediaType → Entries MediaType) : RequestBodyNode → RequestBodyNode
  | .inline body => .inline (body.mapContent f)
  | other => other

end RequestBodyNode

namespace Operation

def bodies (o : Operation) : List RequestBody := o.requestBody.toList.flatMap RequestBodyNode.bodies

def mapContent (f : Entries MediaType → Entries MediaType) (o : Operation) : Operation :=
  { o with requestBody := o.requestBody.map (RequestBodyNode.mapContent f) }

end Operation

namespace PathItem

def bodies (item : PathItem) : List (HttpMethod × RequestBody) :=
  item.operations.flatMap fun e => e.2.bodies.map (Prod.mk e.1)

def mapContent (f : Entries MediaType → Entries MediaType) (item : PathItem) : PathItem :=
  item.mapOperations fun _ => Operation.mapContent f

end PathItem

namespace Components

def bodies (c : Components) : List (BodyPlace × RequestBody) :=
  c.requestBodies.flatMap fun e => e.2.bodies.map (Prod.mk (.component e.1))

def mapContent (f : Entries MediaType → Entries MediaType) (c : Components) : Components :=
  { c with requestBodies := Entries.mapValues (RequestBodyNode.mapContent f) c.requestBodies }

end Components

namespace ApiDocument

def bodiesIn (area : Area) (items : Entries (Option PathItem)) : List (BodyPlace × RequestBody) :=
  items.flatMap fun e =>
    (e.2.toList.flatMap PathItem.bodies).map fun b => (.operation area e.1 b.1, b.2)

-- Every request body that is written out, in the order of paths, webhooks and components.
def bodies (d : ApiDocument) : List (BodyPlace × RequestBody) :=
  bodiesIn .paths d.paths ++ bodiesIn .webhooks d.webhooks
    ++ d.components.toList.flatMap Components.bodies

def mapItems (f : Entries MediaType → Entries MediaType) (items : Entries (Option PathItem)) :
    Entries (Option PathItem) :=
  Entries.mapValues (Option.map (PathItem.mapContent f)) items

def mapContent (f : Entries MediaType → Entries MediaType) (d : ApiDocument) : ApiDocument :=
  { d with
    paths := mapItems f d.paths
    webhooks := mapItems f d.webhooks
    components := d.components.map (Components.mapContent f) }

-- The document without the content of its bodies.
def shell (d : ApiDocument) : ApiDocument := d.mapContent fun _ => []

end ApiDocument

theorem RequestBodyNode.mem_bodies {node : RequestBodyNode} {body : RequestBody} :
    body ∈ node.bodies ↔ node = .inline body := by
  cases node <;> simp [bodies, eq_comm]

theorem Operation.mem_bodies {o : Operation} {body : RequestBody} :
    body ∈ o.bodies ↔ o.requestBody = some (.inline body) := by
  simp [bodies, RequestBodyNode.mem_bodies]

theorem PathItem.mem_bodies {item : PathItem} {method : HttpMethod} {body : RequestBody} :
    (method, body) ∈ item.bodies ↔
      ∃ o, (method, o) ∈ item.operations ∧ o.requestBody = some (.inline body) := by
  simp [bodies, Operation.mem_bodies]

namespace ApiDocument

variable {d : ApiDocument} {area other : Area} {key name : String} {method : HttpMethod}
  {body : RequestBody}

theorem mem_bodiesIn {items : Entries (Option PathItem)} :
    (BodyPlace.operation area key method, body) ∈ bodiesIn other items ↔
      other = area ∧ ∃ item, (key, some item) ∈ items ∧ (method, body) ∈ item.bodies := by
  simp only [bodiesIn, List.mem_flatMap, List.mem_map]
  constructor
  · rintro ⟨⟨_, item⟩, listed, ⟨_, _⟩, held, ⟨⟩⟩
    obtain ⟨item, rfl, among⟩ := by simpa using held
    exact ⟨rfl, item, listed, among⟩
  · rintro ⟨rfl, item, listed, among⟩
    exact ⟨(key, some item), listed, (method, body), by simpa using among, rfl⟩

theorem mem_bodies_operation :
    (BodyPlace.operation area key method, body) ∈ d.bodies ↔
      ∃ item o, (key, some item) ∈ d.items area ∧ (method, o) ∈ item.operations ∧
        o.requestBody = some (.inline body) := by
  have elsewhere (c : Components) : (BodyPlace.operation area key method, body) ∉ c.bodies := by
    simp [Components.bodies]
  cases area <;> simp [bodies, items, mem_bodiesIn, elsewhere, PathItem.mem_bodies]

theorem mem_bodies_component :
    (BodyPlace.component name, body) ∈ d.bodies ↔
      ∃ c, d.components = some c ∧ (name, .inline body) ∈ c.requestBodies := by
  simp [bodies, bodiesIn, Components.bodies, RequestBodyNode.mem_bodies]

end ApiDocument

-- A value is known from its shell and from what is held in it, and the shell tells how much that is.
structure Encloses {α β γ : Type} (shell : α → γ) (held : α → List β) : Prop where
  amount {a b : α} : shell a = shell b → (held a).length = (held b).length
  known {a b : α} : shell a = shell b → held a = held b → a = b

namespace Encloses

variable {α β γ δ ι : Type} {shell : α → γ} {held : α → List β}

theorem list (encloses : Encloses shell held) : Encloses (List.map shell) (List.flatMap held) where
  amount {xs ys} same := by
    induction xs generalizing ys with
    | nil => simp_all
    | cons x rest ih =>
      cases ys with
      | nil => simp at same
      | cons y more =>
        obtain ⟨first, later⟩ := List.cons.inj same
        simp only [List.flatMap_cons, List.length_append, encloses.amount first, ih later]
  known {xs ys} same content := by
    induction xs generalizing ys with
    | nil => simp_all
    | cons x rest ih =>
      cases ys with
      | nil => simp at same
      | cons y more =>
        obtain ⟨first, later⟩ := List.cons.inj same
        rw [List.flatMap_cons, List.flatMap_cons] at content
        obtain ⟨own, others⟩ := List.append_inj content (encloses.amount first)
        rw [encloses.known first own, ih later others]

theorem option (encloses : Encloses shell held) :
    Encloses (Option.map shell) fun a => a.toList.flatMap held where
  amount {a b} same := by
    rcases a with _ | x <;> rcases b with _ | y
    · rfl
    · simp at same
    · simp at same
    · simpa using encloses.amount (Option.some.inj same)
  known {a b} same content := by
    rcases a with _ | x <;> rcases b with _ | y
    · rfl
    · simp at same
    · simp at same
    · rw [encloses.known (Option.some.inj same) (by simpa using content)]

-- What is held may be marked with the place of the value.
theorem tagged (encloses : Encloses shell held) (tag : ι → β → δ)
    (injective : ∀ i, Function.Injective (tag i)) :
    Encloses (fun e : ι × α => (e.1, shell e.2)) fun e => (held e.2).map (tag e.1) where
  amount {a b} same := by
    simp only [List.length_map, encloses.amount (Prod.mk.inj same).2]
  known {a b} same content := by
    obtain ⟨i, x⟩ := a
    obtain ⟨j, y⟩ := b
    obtain ⟨rfl, later⟩ := Prod.mk.inj same
    exact Prod.ext rfl (encloses.known later ((injective i).list_map content))

end Encloses

section

variable (f g : Entries MediaType → Entries MediaType)

theorem RequestBodyNode.mapContent_mapContent (node : RequestBodyNode) :
    (node.mapContent f).mapContent g = node.mapContent fun content => g (f content) := by
  cases node <;> rfl

theorem Operation.mapContent_mapContent (o : Operation) :
    (o.mapContent f).mapContent g = o.mapContent fun content => g (f content) := by
  simp only [mapContent, Option.map_map, Function.comp_def, RequestBodyNode.mapContent_mapContent]

theorem PathItem.mapContent_mapContent (item : PathItem) :
    (item.mapContent f).mapContent g = item.mapContent fun content => g (f content) := by
  simp only [mapContent, mapOperations, Option.map_map, Function.comp_def, Operation.mapContent_mapContent]

theorem Components.mapContent_mapContent (c : Components) :
    (c.mapContent f).mapContent g = c.mapContent fun content => g (f content) := by
  simp only [mapContent, Entries.mapValues, List.map_map, Function.comp_def,
    RequestBodyNode.mapContent_mapContent]

theorem ApiDocument.mapContent_mapContent (d : ApiDocument) :
    (d.mapContent f).mapContent g = d.mapContent fun content => g (f content) := by
  simp only [mapContent, mapItems, Entries.mapValues, List.map_map, Option.map_map, Function.comp_def,
    PathItem.mapContent_mapContent, Components.mapContent_mapContent]

-- The bodies of a changed document are the changed bodies, in the same places.
theorem RequestBodyNode.bodies_mapContent (node : RequestBodyNode) :
    (node.mapContent f).bodies = node.bodies.map (RequestBody.mapContent f) := by
  cases node <;> rfl

theorem Operation.bodies_mapContent (o : Operation) :
    (o.mapContent f).bodies = o.bodies.map (RequestBody.mapContent f) := by
  cases node : o.requestBody <;> simp [bodies, mapContent, node, RequestBodyNode.bodies_mapContent]

theorem PathItem.bodies_mapContent (item : PathItem) :
    (item.mapContent f).bodies = item.bodies.map fun b => (b.1, b.2.mapContent f) := by
  simp [bodies, mapContent, operations_mapped, List.flatMap_map, List.map_flatMap,
    Operation.bodies_mapContent, Function.comp_def]

theorem ApiDocument.bodiesIn_mapContent (area : Area) (items : Entries (Option PathItem)) :
    bodiesIn area (mapItems f items) = (bodiesIn area items).map fun b => (b.1, b.2.mapContent f) := by
  simp only [bodiesIn, mapItems, Entries.mapValues, List.flatMap_map, List.map_flatMap]
  apply List.flatMap_congr
  intro e _
  cases present : e.2 <;> simp [PathItem.bodies_mapContent]

theorem Components.bodies_mapContent (c : Components) :
    (c.mapContent f).bodies = c.bodies.map fun b => (b.1, b.2.mapContent f) := by
  simp [bodies, mapContent, Entries.mapValues, List.flatMap_map, List.map_flatMap,
    RequestBodyNode.bodies_mapContent, Function.comp_def]

theorem ApiDocument.bodies_mapContent (d : ApiDocument) :
    (d.mapContent f).bodies = d.bodies.map fun b => (b.1, b.2.mapContent f) := by
  cases present : d.components <;>
    simp [bodies, mapContent, present, bodiesIn_mapContent, Components.bodies_mapContent]

theorem ApiDocument.shell_mapContent (d : ApiDocument) : (d.mapContent f).shell = d.shell :=
  d.mapContent_mapContent f _

end

theorem RequestBodyNode.encloses :
    Encloses (RequestBodyNode.mapContent fun _ => []) RequestBodyNode.bodies where
  amount {a b} same := by
    cases a <;> cases b <;> simp_all [mapContent, bodies]
  known {a b} same content := by
    cases a <;> cases b <;> simp_all [mapContent, bodies]

theorem Operation.encloses : Encloses (Operation.mapContent fun _ => []) Operation.bodies where
  amount {a b} same := by
    apply RequestBodyNode.encloses.option.amount
    exact congrArg Operation.requestBody same
  known {a b} same content := by
    have body := RequestBodyNode.encloses.option.known (congrArg Operation.requestBody same) content
    cases a
    cases b
    simp_all [mapContent]

namespace PathItem

-- The operation under a method, if there is one.
def slot (item : PathItem) (method : HttpMethod) : HttpMethod × Option Operation :=
  (method, item.operation? method)

theorem bodies_slots (item : PathItem) :
    item.bodies = (methods.map item.slot).flatMap fun e =>
      (e.2.toList.flatMap Operation.bodies).map (Prod.mk e.1) := by
  unfold bodies
  rw [operations_methods, List.filterMap_eq_flatMap_toList, List.flatMap_assoc, List.flatMap_map]
  apply List.flatMap_congr
  intro method _
  cases present : item.operation? method with
  | none => simp [declared, slot, present]
  | some o => simp [declared, slot, present]

theorem slots_mapContent (f : Entries MediaType → Entries MediaType) (item : PathItem) :
    methods.map (item.mapContent f).slot =
      (methods.map item.slot).map fun e => (e.1, e.2.map (Operation.mapContent f)) := rfl

theorem slots_enclose :
    Encloses (List.map fun e : HttpMethod × Option Operation => (e.1, e.2.map (Operation.mapContent fun _ => [])))
      (List.flatMap fun e => (e.2.toList.flatMap Operation.bodies).map (Prod.mk e.1)) :=
  (Operation.encloses.option.tagged Prod.mk Prod.mk_right_injective).list

theorem encloses : Encloses (PathItem.mapContent fun _ => []) PathItem.bodies where
  amount {a b} same := by
    rw [bodies_slots, bodies_slots]
    apply slots_enclose.amount
    rw [← slots_mapContent, ← slots_mapContent, same]
  known {a b} same content := by
    rw [bodies_slots, bodies_slots] at content
    have slots : methods.map a.slot = methods.map b.slot := by
      apply slots_enclose.known _ content
      rw [← slots_mapContent, ← slots_mapContent, same]
    cases a
    cases b
    simp_all [mapContent, mapOperations, methods, slot, operation?]

end PathItem

namespace ApiDocument

theorem bodiesIn_encloses (area : Area) :
    Encloses (mapItems fun _ => []) (bodiesIn area) :=
  (PathItem.encloses.option.tagged (fun key b => (BodyPlace.operation area key b.1, b.2))
    fun key b c same => by simpa [Prod.ext_iff] using same).list

end ApiDocument

theorem Components.bodyEntries_enclose :
    Encloses (Entries.mapValues (RequestBodyNode.mapContent fun _ => [])) (List.flatMap fun e =>
      e.2.bodies.map (Prod.mk (BodyPlace.component e.1))) :=
  (RequestBodyNode.encloses.tagged (fun name => Prod.mk (BodyPlace.component name)) fun _ =>
    Prod.mk_right_injective _).list

theorem Components.encloses : Encloses (Components.mapContent fun _ => []) Components.bodies where
  amount {a b} same := bodyEntries_enclose.amount (congrArg Components.requestBodies same)
  known {a b} same content := by
    have bodies := bodyEntries_enclose.known (congrArg Components.requestBodies same) content
    cases a
    cases b
    simp_all [mapContent]

namespace ApiDocument

/-- A document is known from its shell and the request bodies that are written out in it. -/
theorem encloses : Encloses shell bodies where
  amount {d e} same := by
    have paths := (bodiesIn_encloses .paths).amount (congrArg ApiDocument.paths same)
    have webhooks := (bodiesIn_encloses .webhooks).amount (congrArg ApiDocument.webhooks same)
    have components := Components.encloses.option.amount (congrArg ApiDocument.components same)
    simp only [bodies, List.length_append, paths, webhooks, components]
  known {d e} same content := by
    have onPaths := congrArg ApiDocument.paths same
    have onWebhooks := congrArg ApiDocument.webhooks same
    have onComponents := congrArg ApiDocument.components same
    unfold bodies at content
    obtain ⟨operations, later⟩ := List.append_inj' content (Components.encloses.option.amount onComponents)
    obtain ⟨first, second⟩ := List.append_inj operations ((bodiesIn_encloses .paths).amount onPaths)
    have paths := (bodiesIn_encloses .paths).known onPaths first
    have webhooks := (bodiesIn_encloses .webhooks).known onWebhooks second
    have components := Components.encloses.option.known onComponents later
    cases d
    cases e
    simp_all [shell, mapContent]

end ApiDocument

namespace ContentConflict

variable (policy : ConflictPolicy)

theorem resolveBody_eq : resolveBody policy = RequestBodyNode.mapContent (resolveContent policy) := by
  funext node
  cases node <;> rfl

theorem inBody_eq (location : String) (node : RequestBodyNode) :
    (inBody? policy location node).toList =
      node.bodies.filterMap fun body => of? policy location body.content := by
  cases node with
  | inline body => exact (List.filterMap_eq_flatMap_toList _ [body]).symm ▸ (List.append_nil _).symm
  | reference target => rfl
  | invalid value => rfl

theorem inOperation_eq (location : String) (o : Operation) :
    o.conflicts policy location = o.bodies.filterMap fun body => of? policy location body.content := by
  unfold Operation.conflicts Operation.bodies
  cases o.requestBody with
  | none => rfl
  | some node => simpa using inBody_eq policy location node

theorem inItem_eq (lead : String) (item : PathItem) :
    inItem policy lead item =
      item.bodies.filterMap fun b => of? policy (lead ++ "." ++ b.1.lowerName) b.2.content := by
  unfold inItem PathItem.bodies
  rw [List.filterMap_eq_flatMap_toList, List.filterMap_flatMap]
  apply List.flatMap_congr
  intro e _
  rw [List.filterMap_map]
  exact inOperation_eq policy (lead ++ "." ++ e.1.lowerName) e.2

theorem inItems_eq (area : Area) (items : Entries (Option PathItem)) :
    inItems policy area.name items =
      (ApiDocument.bodiesIn area items).filterMap fun b => of? policy b.1.location b.2.content := by
  unfold inItems ApiDocument.bodiesIn
  rw [List.filterMap_flatMap]
  apply List.flatMap_congr
  intro e _
  rcases e with ⟨key, _ | item⟩
  · rfl
  · simp only [Option.toList_some, List.flatMap_singleton, inItem_eq, List.filterMap_map]
    rfl

end ContentConflict

namespace ApiDocument

variable (policy : ConflictPolicy) (d : ApiDocument)

/-- The elections are made in one body after the other. -/
theorem resolveConflicts_eq :
    d.resolveConflicts policy = d.mapContent (ContentConflict.resolveContent policy) := by
  simp only [resolveConflicts, ContentConflict.resolveItems, ContentConflict.resolveBody_eq]
  rfl

theorem conflicts_eq :
    d.conflicts policy =
      d.bodies.filterMap fun b => ContentConflict.of? policy b.1.location b.2.content := by
  have components (c : Components) :
      (c.requestBodies.filterMap fun e =>
        ContentConflict.inBody? policy ("components.requestBodies." ++ e.1) e.2) =
        c.bodies.filterMap fun b => ContentConflict.of? policy b.1.location b.2.content := by
    unfold Components.bodies
    rw [List.filterMap_eq_flatMap_toList, List.filterMap_flatMap]
    apply List.flatMap_congr
    intro e _
    rw [ContentConflict.inBody_eq, List.filterMap_map]
    rfl
  have onPaths := ContentConflict.inItems_eq policy .paths d.paths
  have onWebhooks := ContentConflict.inItems_eq policy .webhooks d.webhooks
  rw [conflicts, bodies, List.filterMap_append, List.filterMap_append, List.filterMap_flatMap, ← onPaths,
    ← onWebhooks]
  simp only [components, Area.name]

end ApiDocument

end ApiLowering
