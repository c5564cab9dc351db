import ApiLowering.Proofs.Declared
import ApiLowering.Proofs.Malformed

/-!
Malformed nodes are told where they are read. What is read of an operation is what its lowering comes
to: all its parameters, but only the schemas of those that are sent; the body; of several
representations the one that is chosen; and of the responses the first successful one and the errors.
Components are read as far as an operation refers to them, and schemas and security schemes always.
-/

set_option autoImplicit false

namespace ApiLowering

open ContentConflict (firstOf?)
open Ir.Finding (isMalformed)
open Report (Tells tells_find tells_first tells_next tells_under tells_withoutMarks tells_collect)
open SchemaLowering (Reads reads_tells)

variable {scope : Scope}

theorem SchemaLowering.lowerOption_tells {r : Resolver} {node : SchemaNode} {value : Json}
    (reads : Reads r node (.invalid value)) (path : List String) (required : Bool) :
    (lowerOption r path required (some node)).Tells isMalformed :=
  tells_first (reads_tells reads rfl path)

namespace ParameterLowering

-- The parameters that are lowered: the last definition of each that is sent.
def effective (scope : Scope) (nodes : List ParameterNode) : List Parameter :=
  ((nodes.filterMap (parameter? scope.resolver)).foldl (fun seen p => put p seen) []).filter
    (isSent scope)

inductive ReadsMalformed (scope : Scope) (nodes : List ParameterNode) : Prop where
  | node {value : Json} (listed : .invalid value ∈ nodes)
  | schema {p : Parameter} {schema : SchemaNode} {value : Json}
      (sent : p ∈ effective scope nodes) (named : givenName p ≠ "")
      (present : p.schema = some schema) (reads : Reads scope.resolver schema (.invalid value))

theorem lowerOne_tells {p : Parameter} {schema : SchemaNode} {value : Json}
    (named : givenName p ≠ "") (present : p.schema = some schema)
    (reads : Reads scope.resolver schema (.invalid value)) :
    (lowerOne scope p).Tells isMalformed := by
  obtain ⟨name, derived⟩ := NameVariants.derive_some named (some p.name)
  rw [givenName] at derived
  refine tells_under ?_
  rw [derived, present]
  exact tells_first (SchemaLowering.lowerOption_tells reads _ _)

theorem lower_tells {shared own : List ParameterNode}
    (reads : ReadsMalformed scope (shared ++ own)) : (lower scope shared own).Tells isMalformed := by
  cases reads with
  | node listed => exact tells_first (tells_collect listed (tells_first (tells_find rfl)))
  | schema sent named present reads =>
    refine tells_next fun resolved done => ?_
    cases (Report.collect_resolves (resolve_resolves scope.resolver) (shared ++ own)).1.symm.trans done
    exact tells_first (tells_collect sent (lowerOne_tells named present reads))

end ParameterLowering

namespace RequestLowering

-- The fields of multipart content that are lowered to a schema: those that are no files.
def isField (r : Resolver) (node : SchemaNode) : Prop :=
  (r.dereference node).bind (fileShape? r) = none

inductive ReadsMalformed (scope : Scope) (node : RequestBodyNode) : Prop where
  | node {value : Json} (is : node = .invalid value)
  | schema {body : RequestBody} {type : String} {media : MediaType} {schema : SchemaNode}
      {value : Json} (stands : body? scope.resolver node = some body)
      (chosen : schemaContent? body.content = some (type, media))
      (present : media.schema = some schema) (reads : Reads scope.resolver schema (.invalid value))
  | field {body : RequestBody} {type key : String} {media : MediaType} {object : Schema}
      {schema : SchemaNode} {value : Json} (stands : body? scope.resolver node = some body)
      (plain : schemaContent? body.content = none)
      (chosen : firstOf? .multipart body.content = some (type, media))
      (leads : media.schema.bind scope.resolver.dereference = some object)
      (listed : (key, schema) ∈ object.properties) (named : key ≠ "")
      (field : isField scope.resolver schema) (reads : Reads scope.resolver schema (.invalid value))

end RequestLowering

namespace ResponseLowering

-- The responses that are lowered: the first successful one, as long as it is pending, and every error.
def heeded : Bool → List Numbered → List Numbered
  | _, [] => []
  | pending, n :: rest =>
    if isSuccess n && pending then n :: heeded false rest
    else if isError n then n :: heeded pending rest
    else heeded pending rest

-- The content of a response that is lowered to a schema.
def schemaContent? (n : Numbered) (response : Response) : Option (String × MediaType) :=
  if isError n then firstOf? .json response.content
  else if n.status = 204 || response.content.isEmpty then none
  else (firstOf? .eventStream response.content).or (firstOf? .json response.content)

inductive ReadsMalformed (scope : Scope) (responses : Entries ResponseNode) : Prop where
  | node {n : Numbered} {value : Json} (listed : n ∈ heeded true (numbered responses))
      (is : n.node = .invalid value)
  | schema {n : Numbered} {response : Response} {type : String} {media : MediaType}
      {schema : SchemaNode} {value : Json} (listed : n ∈ heeded true (numbered responses))
      (stands : response? scope.resolver n.node = some response)
      (chosen : schemaContent? n response = some (type, media))
      (present : media.schema = some schema) (reads : Reads scope.resolver schema (.invalid value))

theorem success_no_error {n : Numbered} (success : isSuccess n = true) : isError n = false := by
  have below : n.status ≤ 299 := of_decide_eq_true (Bool.and_eq_true_iff.mp success).2
  have small : n.status.toNat ≤ 299 := UInt16.le_iff_toNat_le.mp below
  have other : ¬ (400 ≤ n.status) := fun error => by
    have large : 400 ≤ n.status.toNat := UInt16.le_iff_toNat_le.mp error
    omega
  rw [isError, decide_eq_false other, Bool.false_and]

theorem lowerEach_tells {n : Numbered} {all : List Numbered} {pending : Bool}
    (listed : n ∈ heeded pending all)
    (success : isError n = false → (lowerSuccess scope n).Tells isMalformed)
    (error : isError n = true → (lowerError scope n).Tells isMalformed) :
    (lowerEach scope pending all).Tells isMalformed := by
  induction all generalizing pending with
  | nil => cases listed
  | cons first rest ih =>
    rw [heeded] at listed
    rw [lowerEach]
    split at listed
    · rename_i answer
      rw [if_pos answer]
      rcases List.mem_cons.mp listed with same | there
      · subst same
        exact tells_first (tells_under (success (success_no_error (Bool.and_eq_true_iff.mp answer).1)))
      · exact tells_next fun _ _ => tells_first (ih there)
    · rename_i other
      rw [if_neg other]
      split at listed
      · rename_i failing
        rw [if_pos failing]
        rcases List.mem_cons.mp listed with same | there
        · subst same
          exact tells_first (tells_under (error failing))
        · exact tells_next fun _ _ => tells_first (ih there)
      · rename_i passed
        rw [if_neg passed]
        exact ih listed

section

variable {n : Numbered} {response : Response} {type : String} {media : MediaType}
  {schema : SchemaNode} {value : Json}

theorem lowerSuccess_tells (plain : isError n = false)
    (stands : response? scope.resolver n.node = some response)
    (chosen : schemaContent? n response = some (type, media)) (present : media.schema = some schema)
    (reads : Reads scope.resolver schema (.invalid value)) :
    (lowerSuccess scope n).Tells isMalformed := by
  have tells (required : Bool) : (SchemaLowering.lowerOption scope.resolver scope.path required
      media.schema).Tells isMalformed := present ▸ SchemaLowering.lowerOption_tells reads _ _
  refine tells_next fun found done => ?_
  cases (resolve_resolves scope.resolver n.node).outcome.symm.trans done
  rw [stands]
  dsimp only
  rw [schemaContent?, plain, if_neg Bool.false_ne_true] at chosen
  split at chosen
  · cases chosen
  · rename_i content
    rw [if_neg content]
    cases stream : firstOf? .eventStream response.content with
    | some e =>
      rw [stream, Option.some_or] at chosen
      cases chosen
      exact tells_first (tells true)
    | none =>
      rw [stream, Option.none_or] at chosen
      rw [chosen]
      exact tells_first (tells true)

theorem lowerError_tells (error : isError n = true)
    (stands : response? scope.resolver n.node = some response)
    (chosen : schemaContent? n response = some (type, media)) (present : media.schema = some schema)
    (reads : Reads scope.resolver schema (.invalid value)) :
    (lowerError scope n).Tells isMalformed := by
  refine tells_next fun found done => ?_
  cases (resolve_resolves scope.resolver n.node).outcome.symm.trans done
  rw [stands]
  dsimp only
  rw [schemaContent?, if_pos error] at chosen
  rw [chosen]
  dsimp only
  rw [present]
  exact tells_first (SchemaLowering.lowerOption_tells reads scope.path true)

end

theorem lower_tells {responses : Entries ResponseNode} (reads : ReadsMalformed scope responses) :
    (lower scope responses).Tells isMalformed := by
  cases reads with
  | @node n value listed is =>
    have tells : (resolve scope.resolver n.node).Tells isMalformed := by
      rw [is]
      exact tells_first (tells_find rfl)
    exact lowerEach_tells listed (fun _ => tells_first tells) fun _ => tells_first tells
  | schema listed stands chosen present reads =>
    exact lowerEach_tells listed
      (fun plain => lowerSuccess_tells plain stands chosen present reads)
      fun error => lowerError_tells error stands chosen present reads

end ResponseLowering

namespace Site

variable {s : Site}

-- An operation that clients call reads a malformed node.
inductive ReadsMalformed (scope : Scope) (s : Site) : Prop where
  | parameters (reads : ParameterLowering.ReadsMalformed scope (s.shared ++ s.operation.parameters))
  | request {node : RequestBodyNode} (own : s.operation.requestBody = some node)
      (reads : RequestLowering.ReadsMalformed scope node)
  | responses (reads : ResponseLowering.ReadsMalformed scope s.operation.responses)

-- An operation that is a webhook does: of its body it reads the first JSON content, and no response.
inductive RaisesMalformed (scope : Scope) (s : Site) : Prop where
  | parameters (reads : ParameterLowering.ReadsMalformed scope (s.shared ++ s.operation.parameters))
  | request {value : Json} (own : s.operation.requestBody = some (.invalid value))
  | payload {type : String} {media : MediaType} {schema : SchemaNode} {value : Json}
      (chosen : s.payload? scope.resolver = some (type, media))
      (present : media.schema = some schema) (reads : Reads scope.resolver schema (.invalid value))

end Site

/-- A malformed node of a document is read when the document is lowered: a security scheme or a part of
a component schema, or a node that an operation reads after the elections between representations. -/
inductive ApiDocument.ReadsMalformed (options : Options) (d : ApiDocument) : Prop where
  | scheme {id : String} {value : Json}
      (listed : (id, .invalid value) ∈ DocumentLowering.securitySchemes d)
  | component {id : String} {node : SchemaNode} {value : Json}
      (listed : (id, node) ∈ d.componentSchemas)
      (reads : Reads (d.loweringScope options).resolver node (.invalid value))
  | call {s : Site} (listed : s ∈ (d.resolveConflicts options.contentConflict).calls)
      (reads : s.ReadsMalformed (d.loweringScope options))
  | event {s : Site} (listed : s ∈ (d.resolveConflicts options.contentConflict).events)
      (reads : s.RaisesMalformed (d.loweringScope options))

end ApiLowering
