import ApiLowering.Lowering.Document
import ApiLowering.Proofs.Election
import ApiLowering.Proofs.Turns

/-!
The lowering looks components up. A pointer that is made of an id finds what is stored under that id.
No more is seen of the component schemas than what is stored under each id, so with components in
another order every part of a document is lowered as before.
-/

set_option autoImplicit false

namespace ApiLowering

theorem get_of_key {α : Type} {key : String} {entries : Entries α}
    (present : key ∈ Entries.keys entries) : ∃ value, Entries.get? key entries = some value := by
  induction entries with
  | nil => cases present
  | cons e rest ih =>
    obtain ⟨k, v⟩ := e
    by_cases same : k = key
    · exact ⟨v, by rw [Entries.get?, if_pos same]⟩
    · rw [Entries.get?, if_neg same]
      exact ih ((List.mem_cons.mp present).resolve_left (Ne.symm same))

theorem get_of_absent {α : Type} {key : String} {entries : Entries α}
    (absent : key ∉ Entries.keys entries) : Entries.get? key entries = none := by
  cases found : Entries.get? key entries with
  | none => rfl
  | some value => exact absurd (List.mem_map_of_mem (Resolver.get_mem found)) absent

theorem Resolver.lookup_ofSchema (r : Resolver) {id : String} (named : id ≠ "") :
    r.lookupSchema (Pointer.ofSchema id) =
      match Entries.get? id r.schemas with
      | some node => .found id node
      | none => .missing id := by
  cases stored : Entries.get? id r.schemas with
  | some node => simp only [lookupSchema, Pointer.componentId_ofSchema named, stored]
  | none => simp only [lookupSchema, Pointer.componentId_ofSchema named, stored]

/-- The pointer that is made of an id, whatever tildes, slashes and digits the id is written with, is
read back as that id and made of no other one; it finds the component of that id if there is one, and
that it is missing if there is none. -/
theorem pointers_lead_back {id : String} (named : id ≠ "") :
    Pointer.componentId? "schemas" (Pointer.ofSchema id) = some id ∧
      (∀ other, other ≠ "" → Pointer.ofSchema other = Pointer.ofSchema id → other = id) ∧
      ∀ (options : Options) (d : ApiDocument),
        (id ∈ Entries.keys d.componentSchemas →
          ∃ node, Entries.get? id d.componentSchemas = some node ∧
            (Resolver.ofDocument d options).lookupSchema (Pointer.ofSchema id) = .found id node) ∧
        (id ∉ Entries.keys d.componentSchemas →
          (Resolver.ofDocument d options).lookupSchema (Pointer.ofSchema id) = .missing id) := by
  refine ⟨Pointer.componentId_ofSchema named, ?_, fun options d => ⟨fun present => ?_, ?_⟩⟩
  · intro other _ same
    exact Pointer.ofSchema_injective same
  · obtain ⟨node, stored⟩ := get_of_key present
    refine ⟨node, stored, ?_⟩
    rw [Resolver.lookup_ofSchema _ named, Resolver.ofDocument_schemas, stored]
  · intro absent
    rw [Resolver.lookup_ofSchema _ named, Resolver.ofDocument_schemas, get_of_absent absent]

-- Two ids of which one is the other with its tildes read before its slashes.
def lookalikes : ApiDocument :=
  .ofSchemas [("//~01", .invalid .null), ("~1/~01", .reference "elsewhere")]

theorem lookalikes_lead_back :
    Pointer.ofSchema "~1/~01" = "#/components/schemas/~01~1~001" ∧
      Pointer.componentId? "schemas" "#/components/schemas/~01~1~001" = some "~1/~01" ∧
      (Resolver.ofDocument lookalikes .default).lookupSchema "#/components/schemas/~01~1~001" =
        .found "~1/~01" (.reference "elsewhere") ∧
      (Resolver.ofDocument (.ofSchemas []) .default).lookupSchema "#/components/schemas/~01~1~001" =
        .missing "~1/~01" := by
  have named : "~1/~01" ≠ "" := by decide
  have made : Pointer.ofSchema "~1/~01" = "#/components/schemas/~01~1~001" := by decide +kernel
  obtain ⟨read, -, found⟩ := pointers_lead_back named
  rw [made] at read found
  have listed : "~1/~01" ∈ Entries.keys lookalikes.componentSchemas :=
    List.mem_cons_of_mem _ List.mem_cons_self
  obtain ⟨node, stored, leads⟩ := (found .default lookalikes).1 listed
  cases stored
  exact ⟨made, read, leads, (found .default (.ofSchemas [])).2 List.not_mem_nil⟩

-- Two resolvers under which the same schema is stored under every id, and that are the same otherwise.
structure Resolver.Alike (r t : Resolver) : Prop where
  rest : t = { r with schemas := t.schemas }
  schemas : ∀ id, Entries.get? id t.schemas = Entries.get? id r.schemas

namespace Resolver.Alike

variable {r t : Resolver}

theorem depth (same : r.Alike t) : t.maxDepth = r.maxDepth := by rw [same.rest]

theorem lookup (same : r.Alike t) : t.lookupSchema = r.lookupSchema := by
  funext pointer
  unfold lookupSchema
  simp only [same.schemas]

theorem enter (same : r.Alike t) : t.enter = r.enter := by
  funext path pointer
  unfold Resolver.enter
  rw [same.depth]

theorem inlineWithin (same : r.Alike t) (fuel : Nat) (node : SchemaNode) :
    t.inlineWithin fuel node = r.inlineWithin fuel node := by
  induction fuel generalizing node with
  | zero => rfl
  | succ fuel ih =>
    cases node with
    | inline s => rfl
    | invalid value => rfl
    | reference target =>
      rw [Resolver.inlineWithin, Resolver.inlineWithin, same.lookup]
      simp only [ih]

theorem dereference (same : r.Alike t) : t.dereference = r.dereference := by
  funext node
  unfold Resolver.dereference
  rw [same.depth, same.inlineWithin]

theorem parameter (same : r.Alike t) : t.parameter? = r.parameter? := by
  have within (fuel : Nat) (pointer : String) :
      t.parameterWithin fuel pointer = r.parameterWithin fuel pointer := by
    induction fuel generalizing pointer with
    | zero => rfl
    | succ fuel ih =>
      have stored : t.parameters = r.parameters := by rw [same.rest]
      rw [parameterWithin, parameterWithin, stored]
      simp only [ih]
  funext pointer
  unfold parameter?
  rw [same.depth, within]

theorem requestBody (same : r.Alike t) : t.requestBody? = r.requestBody? := by
  have within (fuel : Nat) (pointer : String) :
      t.requestBodyWithin fuel pointer = r.requestBodyWithin fuel pointer := by
    induction fuel generalizing pointer with
    | zero => rfl
    | succ fuel ih =>
      have stored : t.requestBodies = r.requestBodies := by rw [same.rest]
      rw [requestBodyWithin, requestBodyWithin, stored]
      simp only [ih]
  funext pointer
  unfold requestBody?
  rw [same.depth, within]

theorem response (same : r.Alike t) : t.response? = r.response? := by
  have within (fuel : Nat) (pointer : String) :
      t.responseWithin fuel pointer = r.responseWithin fuel pointer := by
    induction fuel generalizing pointer with
    | zero => rfl
    | succ fuel ih =>
      have stored : t.responses = r.responses := by rw [same.rest]
      rw [responseWithin, responseWithin, stored]
      simp only [ih]
  funext pointer
  unfold response?
  rw [same.depth, within]

end Resolver.Alike

section

variable {r t : Resolver} {path : List String}

open ApiLowering.Composition (Walker Walks)

theorem Composition.walkTurn_alike (same : r.Alike t) (further : Walker) :
    walkTurn t further = walkTurn r further := by
  funext path breadcrumbs direct node
  cases node with
  | inline s => rfl
  | invalid value => rfl
  | reference target => rw [walkTurn, walkTurn, same.lookup, same.enter]

/-- A walk takes the same steps with components that are looked up alike. -/
theorem Composition.walk_places (same : r.Alike t) (place : Place) :
    Walks r (walk t) place := by
  induction place using (SchemaLowering.calls_wellFounded r).induction with
  | _ place ih =>
    intro breadcrumbs direct
    calc walk t place.1 breadcrumbs direct place.2
        = walkTurn t (walk t) place.1 breadcrumbs direct place.2 :=
          (walkTurn_walk (fun _ _ _ _ => rfl) breadcrumbs direct).symm
      _ = walkTurn r (walk t) place.1 breadcrumbs direct place.2 := by rw [walkTurn_alike same]
      _ = walk r place.1 breadcrumbs direct place.2 :=
          walkTurn_walk (fun next call => ih next call) breadcrumbs direct

namespace SchemaLowering

theorem lowerReference_alike (same : r.Alike t) : lowerReference t = lowerReference r := by
  funext target
  unfold lowerReference
  rw [same.lookup]

theorem mappedVariants_alike (same : r.Alike t) (covered : List String)
    (mapping : List (String × String)) :
    mappedVariants t covered mapping = mappedVariants r covered mapping := by
  induction mapping generalizing covered with
  | nil => rfl
  | cons e rest ih =>
    obtain ⟨value, name⟩ := e
    rw [mappedVariants, mappedVariants, lowerReference_alike same]
    simp only [ih]

theorem lowerTurn_alike (same : r.Alike t) (walker : Walker) (further : Lowerer) :
    lowerTurn t walker further = lowerTurn r walker further := by
  have forms (path : List String) (s : Schema) (shape : Form) :
      formTurn t walker further path s shape = formTurn r walker further path s shape := by
    cases shape with
    | tagged d =>
      rw [formTurn, formTurn]
      simp only [mappedVariants_alike same]
    | reduced _ _ | composed | collapsed _ _ | union | enumeration _ | typed => rfl
  funext path node
  cases node with
  | reference target => exact congrFun (lowerReference_alike same) target
  | inline s =>
    rw [lowerTurn, lowerTurn]
    simp only [forms]
  | invalid value => rfl

theorem lower_places (same : r.Alike t) (place : Composition.Place) : Lowers r (lower t) place := by
  induction place using (calls_wellFounded r).transGen.induction with
  | _ place ih =>
    calc lower t place.1 place.2
        = lowerTurn t (Composition.walk t) (lower t) place.1 place.2 := (lower_turn t _ _).symm
      _ = lowerTurn r (Composition.walk t) (lower t) place.1 place.2 := by
          rw [lowerTurn_alike same]
      _ = lower r place.1 place.2 :=
          lowerTurn_lower (fun next _ => Composition.walk_places same next)
            fun next calls => ih next (Relation.transGen_swap.mpr calls)

/-- Schemas are lowered to the same reports with components that are looked up alike. -/
theorem lower_lookup (same : r.Alike t) : lower t = lower r := by
  funext path node
  exact lower_places same (path, node)

theorem lowerOption_lookup (same : r.Alike t) : lowerOption t = lowerOption r := by
  funext path required node
  unfold lowerOption lowerAs
  rw [lower_lookup same]

theorem lowerComponent_lookup (same : r.Alike t) : lowerComponent t = lowerComponent r := by
  funext path id node
  unfold lowerComponent
  rw [lower_lookup same, same.enter]

end SchemaLowering

end

section

variable {scope : Scope} {t : Resolver}

theorem ParameterLowering.lower_lookup (same : scope.resolver.Alike t)
    (shared own : List ParameterNode) :
    lower { scope with resolver := t } shared own = lower scope shared own := by
  have resolves : resolve t = resolve scope.resolver := by
    funext node
    unfold resolve
    rw [same.parameter]
  have one : lowerOne { scope with resolver := t } = lowerOne scope := by
    funext parameter
    unfold lowerOne
    dsimp only
    rw [SchemaLowering.lowerOption_lookup same]
  unfold lower
  dsimp only
  rw [resolves, one]
  rfl

namespace RequestLowering

theorem resolve_lookup (same : scope.resolver.Alike t) : resolve t = resolve scope.resolver := by
  funext node
  unfold resolve
  rw [same.requestBody]

theorem lowerFields_lookup (same : scope.resolver.Alike t) (media : MediaType) :
    lowerFields { scope with resolver := t } media = lowerFields scope media := by
  have shapes : fileShape? t = fileShape? scope.resolver := by
    funext s
    unfold fileShape?
    rw [same.dereference]
  have fields : lowerField { scope with resolver := t } = lowerField scope := by
    funext media required key node
    unfold lowerField SchemaLowering.lowerAs
    dsimp only
    rw [SchemaLowering.lower_lookup same, same.dereference, shapes]
  unfold lowerFields
  dsimp only
  rw [fields, same.dereference]

theorem lower_lookup (same : scope.resolver.Alike t) (location : String)
    (node : Option RequestBodyNode) :
    lower { scope with resolver := t } location node = lower scope location node := by
  have contents (body : RequestBody) :
      lowerContent { scope with resolver := t } body = lowerContent scope body := by
    unfold lowerContent
    dsimp only
    simp only [SchemaLowering.lowerOption_lookup same, lowerFields_lookup same]
  unfold lower
  simp only [resolve_lookup same, contents]

end RequestLowering

theorem ResponseLowering.lower_lookup (same : scope.resolver.Alike t)
    (responses : Entries ResponseNode) :
    lower { scope with resolver := t } responses = lower scope responses := by
  have resolves : resolve t = resolve scope.resolver := by
    funext node
    unfold resolve
    rw [same.response]
  have success : lowerSuccess { scope with resolver := t } = lowerSuccess scope := by
    funext n
    unfold lowerSuccess
    dsimp only
    rw [resolves, SchemaLowering.lowerOption_lookup same]
  have errors : lowerError { scope with resolver := t } = lowerError scope := by
    funext n
    unfold lowerError
    dsimp only
    rw [resolves, SchemaLowering.lowerOption_lookup same]
  have each (pending : Bool) (all : List Numbered) :
      lowerEach { scope with resolver := t } pending all = lowerEach scope pending all := by
    induction all generalizing pending with
    | nil => rfl
    | cons n rest ih =>
      rw [lowerEach, lowerEach, success, errors]
      simp only [ih]
  exact each true (numbered responses)

namespace OperationLowering

theorem lowerEndpoint_lookup (same : scope.resolver.Alike t) (path : String) (method : HttpMethod)
    (o : Operation) (parameters : LoweredParameters) :
    lowerEndpoint { scope with resolver := t } path method o parameters =
      lowerEndpoint scope path method o parameters := by
  unfold lowerEndpoint
  simp only [RequestLowering.lower_lookup same, ResponseLowering.lower_lookup same]

theorem lowerWebhook_lookup (same : scope.resolver.Alike t) (path : String) (method : HttpMethod)
    (o : Operation) (headers : List Ir.Parameter) :
    lowerWebhook { scope with resolver := t } path method o headers =
      lowerWebhook scope path method o headers := by
  unfold lowerWebhook
  dsimp only
  rw [SchemaLowering.lowerOption_lookup same, RequestLowering.resolve_lookup same]

theorem lowerItem_lookup (same : scope.resolver.Alike t) (path : String) (item : PathItem) :
    lowerItem { scope with resolver := t } path item = lowerItem scope path item := by
  have operations (path : String) (method : HttpMethod) (o : Operation) :
      lowerOperation { scope with resolver := t } path item method o =
        lowerOperation scope path item method o := by
    unfold lowerOperation
    simp only [ParameterLowering.lower_lookup same, lowerWebhook_lookup same,
      lowerEndpoint_lookup same]
  unfold lowerItem
  simp only [operations]

theorem lowerWebhookItem_lookup (same : scope.resolver.Alike t) (key : String) (item : PathItem) :
    lowerWebhookItem { scope with resolver := t } key item = lowerWebhookItem scope key item := by
  unfold lowerWebhookItem
  simp only [ParameterLowering.lower_lookup same, lowerWebhook_lookup same]

end OperationLowering

namespace DocumentLowering

theorem lowerPaths_lookup (same : scope.resolver.Alike t) (seen : List Route)
    (items : Entries (Option PathItem)) :
    lowerPaths { scope with resolver := t } seen items = lowerPaths scope seen items := by
  induction items generalizing seen with
  | nil => rfl
  | cons e rest ih =>
    obtain ⟨path, _ | item⟩ := e
    · exact ih seen
    · rw [lowerPaths, lowerPaths, OperationLowering.lowerItem_lookup same]
      simp only [ih]

theorem lowerWebhooks_lookup (same : scope.resolver.Alike t) (items : Entries (Option PathItem)) :
    lowerWebhooks { scope with resolver := t } items = lowerWebhooks scope items := by
  unfold lowerWebhooks
  simp only [OperationLowering.lowerWebhookItem_lookup same]

end DocumentLowering

theorem VariableLowering.lower_lookup {r : Resolver} (same : r.Alike t) (path : List String)
    (d : ApiDocument) : lower t path d = lower r path d := by
  have one : lowerOne t = lowerOne r := by
    funext path name value
    unfold lowerOne
    rw [SchemaLowering.lower_lookup same]
  unfold lower
  rw [one]

end

end ApiLowering
