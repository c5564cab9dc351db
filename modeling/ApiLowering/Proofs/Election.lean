import Mathlib.Data.List.Basic
import ApiLowering.Lowering.Document

/-!
Elections settle request bodies: afterwards no body has both JSON and multipart content, wherever an
operation finds it.
-/

set_option autoImplicit false

namespace ApiLowering

theorem operations_mapped (f : HttpMethod → Operation → Operation) (item : PathItem) :
    (item.mapOperations f).operations = item.operations.map fun e => (e.1, f e.1 e.2) := by
  unfold PathItem.operations
  rw [List.map_filterMap]
  -- the methods are those of the item, one by one
  refine (List.filterMap_map (f := fun e : HttpMethod × Option Operation => (e.1, e.2.map (f e.1)))
    (l := [(HttpMethod.get, item.get), (.put, item.put), (.post, item.post), (.patch, item.patch),
      (.delete, item.delete), (.options, item.options), (.head, item.head),
      (.trace, item.trace)])).trans ?_
  refine List.filterMap_congr fun e _ => ?_
  obtain ⟨method, slot⟩ := e
  cases slot <;> rfl

namespace ContentConflict

def Settled (content : Entries MediaType) : Prop :=
  firstOf? .json content = none ∨ firstOf? .multipart content = none

theorem firstOf_filter (kind : MediaKind) (content : Entries MediaType) :
    firstOf? kind (content.filter fun e => MediaKind.of e.1 ≠ kind) = none := by
  refine List.find?_eq_none.mpr fun e here => ?_
  have other := (List.mem_filter.mp here).2
  simpa using other

theorem settled_of_ranked (policy : ConflictPolicy) {content : Entries MediaType}
    (one : firstOf? (ranked policy).1 content = none ∨ firstOf? (ranked policy).2 content = none) :
    Settled content := by
  cases policy with
  | preferMultipart => exact one.symm
  | preferJson => exact one

theorem resolveContent_settled (policy : ConflictPolicy) (content : Entries MediaType) :
    Settled (resolveContent policy content) := by
  apply settled_of_ranked policy
  by_cases both : (of? policy "" content).isSome = true
  · rw [resolveContent, if_pos both]
    exact .inr (firstOf_filter _ content)
  · rw [resolveContent, if_neg both]
    cases kept : firstOf? (ranked policy).1 content with
    | none => exact .inl rfl
    | some first =>
      cases dropped : firstOf? (ranked policy).2 content with
      | none => exact .inr rfl
      | some second =>
        -- with a media type of each kind there would have been an election
        simp only [of?, kept, dropped, Option.isSome_some, not_true_eq_false] at both

def BodySettled : RequestBodyNode → Prop
  | .inline body => Settled body.content
  | _ => True

def ItemSettled (item : PathItem) : Prop :=
  ∀ e ∈ item.operations, ∀ node ∈ e.2.requestBody, BodySettled node

theorem resolveBody_settled (policy : ConflictPolicy) (node : RequestBodyNode) :
    BodySettled (resolveBody policy node) := by
  cases node with
  | inline body => exact resolveContent_settled policy body.content
  | reference target => trivial
  | invalid value => trivial

theorem operations_mapOperations {f : HttpMethod → Operation → Operation} {item : PathItem}
    {e : HttpMethod × Operation} (listed : e ∈ (item.mapOperations f).operations) :
    ∃ o, e.2 = f e.1 o := by
  rw [operations_mapped] at listed
  obtain ⟨before, -, same⟩ := List.mem_map.mp listed
  subst same
  exact ⟨before.2, rfl⟩

theorem resolveItem_settled (policy : ConflictPolicy) (item : PathItem) :
    ItemSettled (resolveItem policy item) := by
  intro e listed node present
  obtain ⟨o, same⟩ := operations_mapOperations listed
  rw [same] at present
  obtain ⟨before, _, elected⟩ := Option.map_eq_some_iff.mp present
  exact elected ▸ resolveBody_settled policy before

theorem resolveItems_settled {policy : ConflictPolicy} {items : Entries (Option PathItem)}
    {key : String} {item : PathItem} (listed : (key, some item) ∈ resolveItems policy items) :
    ItemSettled item := by
  obtain ⟨e, -, same⟩ := List.mem_map.mp listed
  obtain ⟨before, -, elected⟩ := Option.map_eq_some_iff.mp (Prod.mk.inj same).2
  exact elected ▸ resolveItem_settled policy before

end ContentConflict

open ContentConflict (BodySettled)

namespace Resolver

def BodiesSettled (r : Resolver) : Prop := ∀ e ∈ r.requestBodies, BodySettled e.2

theorem resolveConflicts_settled (policy : ConflictPolicy) (d : ApiDocument) (options : Options) :
    (ofDocument (d.resolveConflicts policy) options).BodiesSettled := by
  intro e listed
  unfold ofDocument at listed
  cases stored : d.components with
  | none =>
    simp only [ApiDocument.resolveConflicts, stored, Option.map_none] at listed
    cases listed
  | some c =>
    simp only [ApiDocument.resolveConflicts, stored, Option.map_some] at listed
    obtain ⟨before, -, same⟩ := List.mem_map.mp listed
    subst same
    exact ContentConflict.resolveBody_settled policy before.2

end Resolver

-- A document of component schemas alone.
def ApiDocument.ofSchemas (schemas : Entries SchemaNode) : ApiDocument :=
  { ApiDocument.record.blank with
    openapi := "3.1.0"
    info := some ⟨some "Components", none, none, []⟩
    components := some { Components.record.blank with schemas } }

theorem ApiDocument.componentSchemas_resolveConflicts (policy : ConflictPolicy) (d : ApiDocument) :
    (d.resolveConflicts policy).componentSchemas = d.componentSchemas := by
  cases stored : d.components with
  | none => simp only [componentSchemas, resolveConflicts, stored, Option.map_none]
  | some c => simp only [componentSchemas, resolveConflicts, stored, Option.map_some]

theorem Resolver.ofDocument_schemas (d : ApiDocument) (options : Options) :
    (ofDocument d options).schemas = d.componentSchemas := by
  cases stored : d.components with
  | none => simp only [ofDocument, ApiDocument.componentSchemas, stored]
  | some c => simp only [ofDocument, ApiDocument.componentSchemas, stored]

theorem Resolver.resolveConflicts_schemas (policy : ConflictPolicy) (d : ApiDocument)
    (options : Options) :
    (ofDocument (d.resolveConflicts policy) options).schemas = d.componentSchemas := by
  rw [ofDocument_schemas, ApiDocument.componentSchemas_resolveConflicts]

theorem Resolver.ofDocument_maxDepth (d : ApiDocument) (options : Options) :
    (ofDocument d options).maxDepth = options.maxReferenceDepth := by
  cases stored : d.components with
  | none => simp only [ofDocument, stored]
  | some c => simp only [ofDocument, stored]

end ApiLowering
