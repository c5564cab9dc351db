import ApiLowering.Proofs.Telling
import ApiLowering.Proofs.Unrolled

/-!
Request bodies whose schema is a reference that leads nowhere. For JSON and form content this is found
where the body stands; for multipart content nothing is found, and the request has no fields.
-/

set_option autoImplicit false

namespace ApiLowering

open Report (Tells tells_find tells_first)

def Ir.Finding.tellsLost (f : Ir.Finding) : Prop :=
  f.kind = .danglingReference ∨ f.kind = .unsupportedReference

variable {scope : Scope} {p : Ir.Finding → Prop}

theorem SchemaLowering.lowerReference_lost {r : Resolver} {target : String} (lost : r.Lost target) :
    (lowerReference r target).Tells fun f => f.tellsLost ∧ f.breadcrumbs = [] := by
  unfold lowerReference
  cases leads : r.lookupSchema target with
  | found id node => exact absurd leads (lost id node)
  | missing id => exact tells_first (tells_find ⟨.inl rfl, rfl⟩)
  | unsupported => exact tells_first (tells_find ⟨.inr rfl, rfl⟩)

theorem Resolver.lost_dereference {r : Resolver} {target : String} (lost : r.Lost target) :
    r.dereference (.reference target) = none := by
  unfold Resolver.dereference
  cases r.maxDepth with
  | zero => rfl
  | succ fuel =>
    rw [Resolver.inlineWithin]
    cases leads : r.lookupSchema target with
    | found id node => exact absurd leads (lost id node)
    | missing id => rfl
    | unsupported => rfl

namespace RequestLowering

open ContentConflict (firstOf?)

variable {body : RequestBody} {type : String} {media : MediaType}

-- Multipart content that leads to no inline schema has no fields, and nothing is found there.
theorem lower_fieldless {node : RequestBodyNode} (stands : body? scope.resolver node = some body)
    (plain : schemaContent? body.content = none)
    (chosen : firstOf? .multipart body.content = some (type, media))
    (shapeless : media.schema.bind scope.resolver.dereference = none) (location : String) :
    lower scope location (some node) =
      .ok (some (.multipart type [] body.description body.required)) := by
  have json : firstOf? .json body.content = none := (Option.or_eq_none_iff.mp plain).1
  have content : lowerContent scope body =
      .ok (some (.multipart type [] body.description body.required)) := by
    rw [schemaContent?] at plain
    simp only [lowerContent, plain, chosen, lowerFields, shapeless]
    rfl
  have resolves := resolve_resolves scope.resolver node
  rw [stands] at resolves
  rw [lower, resolves.report_eq]
  change Report.withoutMarks (if (firstOf? .json body.content).isSome && _ then _ else _) = _
  rw [json, content]
  rfl

end RequestLowering

open ContentConflict (firstOf?)
open RequestLowering (body? schemaContent?)

theorem Site.becomes_request {s : Site} {e : Ir.Endpoint} (made : s.Becomes scope e) :
    ∃ location, (RequestLowering.lower scope location s.operation.requestBody).outcome =
      .ok e.request := by
  obtain ⟨parameters, -, made⟩ := made
  obtain ⟨request, lowered, made⟩ := Report.bind_ok made
  obtain ⟨⟨response, errors⟩, -, made⟩ := Report.bind_ok made
  cases Report.pure_ok made
  exact ⟨_, lowered⟩

theorem ApiDocument.calls_keys {d : ApiDocument} {s : Site} (called : s ∈ d.calls) :
    s.keys = [s.path, s.method.lowerName] := by
  obtain ⟨key, item, -, e, -, same⟩ := s.mem_ofItems (List.mem_filter.mp called).1
  rw [same]
  rfl

theorem body_found {s : Site} {r : Resolver} {body : RequestBody}
    (stands : s.operation.requestBody.bind (body? r) = some body) :
    ∃ node, s.operation.requestBody = some node ∧ body? r node = some body :=
  Option.bind_eq_some_iff.mp stands

/-- What becomes of an operation whose body refers nowhere. This is found where the body stands when the
content is JSON or a form; multipart content becomes a request without fields, and nothing is found. -/
structure Site.Refers (scope : Scope) (file : Ir.File) (s : Site) (e : Ir.Endpoint) : Prop where
  schema : ∀ {body type media target},
    s.operation.requestBody.bind (body? scope.resolver) = some body →
    schemaContent? body.content = some (type, media) →
    media.schema = some (.reference target) → scope.resolver.Lost target →
    ∃ f ∈ file.errors, f.tellsLost ∧ f.breadcrumbs = [e.path, e.method.lowerName, "requestBody"]
  fields : ∀ {body type media target},
    s.operation.requestBody.bind (body? scope.resolver) = some body →
    schemaContent? body.content = none → firstOf? .multipart body.content = some (type, media) →
    media.schema = some (.reference target) → scope.resolver.Lost target →
    e.request = some (.multipart type [] body.description body.required) ∧
      ∀ location, (RequestLowering.lower scope location s.operation.requestBody).findings = []

/-- Every endpoint of a document that is lowered comes from an operation, and a reference that leads
nowhere is told of its body unless the content is multipart. -/
theorem dangling_bodies {options : Options} {d : ApiDocument} {file : Ir.File} {e : Ir.Endpoint}
    (done : d.lower options = .ok file) (listed : e ∈ file.endpoints) :
    ∃ s ∈ d.calls, (s.elected options.contentConflict).Becomes (d.loweringScope options) e ∧
      (s.elected options.contentConflict).Refers (d.loweringScope options) file e := by
  obtain ⟨s, called, routed, made⟩ := ApiDocument.endpoint_site done listed
  refine ⟨s, called, made, ?_, ?_⟩
  · intro body type media target stands chosen refers lost
    obtain ⟨node, own, stands⟩ := body_found stands
    have method : e.method = s.method := congrArg Prod.fst routed
    have path : e.path = s.path := congrArg Prod.snd routed
    have among : s.elected options.contentConflict ∈
        (d.resolveConflicts options.contentConflict).calls := by
      rw [ApiDocument.calls_resolved]
      exact List.mem_map.mpr ⟨s, called, rfl⟩
    refine told_of_lower done (DocumentLowering.call_tells among ?_)
    refine Site.answered_request own (RequestLowering.lower_tells stands ?_)
    refine RequestLowering.lowerContent_tells chosen ?_
    rw [refers]
    refine tells_first ?_
    rw [SchemaLowering.lower]
    refine (SchemaLowering.lowerReference_lost lost).mono ?_
    rintro f ⟨is, bare⟩
    refine ⟨is, ?_⟩
    change s.keys ++ (["requestBody"] ++ f.breadcrumbs) = _
    rw [ApiDocument.calls_keys called, bare, method, path]
    rfl
  · intro body type media target stands plain chosen refers lost
    obtain ⟨node, own, stands⟩ := body_found stands
    have shapeless : media.schema.bind (d.loweringScope options).resolver.dereference = none := by
      rw [refers]
      exact Resolver.lost_dereference lost
    have fieldless := RequestLowering.lower_fieldless stands plain chosen shapeless
    obtain ⟨location, lowered⟩ := Site.becomes_request made
    rw [own] at lowered ⊢
    rw [fieldless] at lowered
    exact ⟨(Except.ok.inj lowered).symm, fun location => by rw [fieldless]; rfl⟩

-- Two bodies that refer to a component that is missing.
def sending (type : String) : PathItem :=
  { PathItem.record.blank with
    post := some { Operation.record.blank with
      requestBody := some (.inline { RequestBody.record.blank with
        content := [(type, ⟨some (.reference (Pointer.ofSchema "Missing")), [], []⟩)] }) } }

def mailbox : ApiDocument :=
  { ApiDocument.ofSchemas [] with
    paths := [("/letters", some (sending "application/json")),
      ("/parcels", some (sending "multipart/form-data"))] }

theorem mailbox_dangling :
    ∃ file, mailbox.lower .default = .ok file ∧
      file.endpoints.map DocumentLowering.route = [(.post, "/letters"), (.post, "/parcels")] ∧
      file.errors.map (fun f => (f.kind, f.breadcrumbs)) =
        [(.danglingReference, ["/letters", "post", "requestBody"])] ∧
      ∀ e ∈ file.endpoints, ∃ s ∈ mailbox.calls,
        (s.elected .preferMultipart).Becomes (mailbox.loweringScope .default) e ∧
          (s.elected .preferMultipart).Refers (mailbox.loweringScope .default) file e := by
  have lowers : (mailbox.lower .default).toOption.any (fun file => decide (
      file.endpoints.map DocumentLowering.route = [(.post, "/letters"), (.post, "/parcels")] ∧
        file.errors.map (fun f => (f.kind, f.breadcrumbs)) =
          [(.danglingReference, ["/letters", "post", "requestBody"])])) = true := by
    decide +kernel
  obtain ⟨file, done, checked⟩ := ok_of_any lowers
  obtain ⟨routes, told⟩ := of_decide_eq_true checked
  exact ⟨file, done, routes, told, fun e listed => dangling_bodies done listed⟩

end ApiLowering
