import ApiLowering.Proofs.Conservation
import ApiLowering.Proofs.Places

/-!
Payloads of webhooks. The election between the representations of a body drops its JSON content only
where multipart content is preferred and is there. A webhook whose body has a JSON payload before the
election is raised unless the election drops that payload.
-/

set_option autoImplicit false

namespace ApiLowering

namespace ContentConflict

-- The election leaves the JSON content of a body in place.
def KeepsJson (policy : ConflictPolicy) (content : Entries MediaType) : Prop :=
  policy = .preferJson ∨ firstOf? .multipart content = none

theorem firstOf_other {kind dropped : MediaKind} (other : kind ≠ dropped)
    (content : Entries MediaType) :
    firstOf? kind (content.filter fun e => MediaKind.of e.1 ≠ dropped) = firstOf? kind content := by
  induction content with
  | nil => rfl
  | cons e rest ih =>
    by_cases gone : MediaKind.of e.1 = dropped
    · have passed : MediaKind.of e.1 ≠ kind := fun same => other (same.symm.trans gone)
      rw [List.filter_cons_of_neg (by simpa using gone), ih, firstOf?, firstOf?,
        List.find?_cons_of_neg (by simpa using passed)]
    · rw [List.filter_cons_of_pos (by simpa using gone), firstOf?, List.find?_cons]
      unfold firstOf? at ih ⊢
      rw [ih, List.find?_cons]

theorem resolveContent_json {policy : ConflictPolicy} {content : Entries MediaType}
    (keeps : KeepsJson policy content) :
    firstOf? .json (resolveContent policy content) = firstOf? .json content := by
  unfold resolveContent
  split
  · rename_i elected
    rcases keeps with preferred | missing
    · subst preferred
      exact firstOf_other (by decide) content
    · -- without multipart content there is nothing to elect
      cases policy <;> simp [of?, ranked, missing] at elected
  · rfl

theorem resolveContent_multipart {content : Entries MediaType} {policy : ConflictPolicy}
    (drops : ¬ KeepsJson policy content) : firstOf? .json (resolveContent policy content) = none := by
  obtain ⟨multipart, present⟩ := not_or.mp drops
  rcases resolveContent_settled policy content with none | missing
  · exact none
  · cases policy with
    | preferJson => exact absurd rfl multipart
    | preferMultipart =>
      have kept : firstOf? .multipart (resolveContent .preferMultipart content) =
          firstOf? .multipart content := by
        unfold resolveContent
        split
        · exact firstOf_other (by decide) content
        · rfl
      exact absurd (kept.symm.trans missing) present

-- A body after the election.
def electBody (policy : ConflictPolicy) (body : RequestBody) : RequestBody :=
  { body with content := resolveContent policy body.content }

end ContentConflict

open ContentConflict (KeepsJson electBody firstOf? resolveBody)

namespace Resolver

theorem ofDocument_requestBodies (policy : ConflictPolicy) (d : ApiDocument) (options : Options) :
    (ofDocument (d.resolveConflicts policy) options).requestBodies =
      Entries.mapValues (resolveBody policy) (ofDocument d options).requestBodies := by
  cases stored : d.components with
  | none => simp only [ofDocument, ApiDocument.resolveConflicts, stored, Option.map_none]; rfl
  | some c => simp only [ofDocument, ApiDocument.resolveConflicts, stored, Option.map_some]

section

variable {r t : Resolver} {policy : ConflictPolicy}

-- Whether before or after the elections, references lead from body to body in the same way.
theorem requestBodyWithin_elected
    (elected : t.requestBodies = Entries.mapValues (resolveBody policy) r.requestBodies)
    (fuel : Nat) (pointer : String) :
    t.requestBodyWithin fuel pointer = (r.requestBodyWithin fuel pointer).map (electBody policy) := by
  induction fuel generalizing pointer with
  | zero => rfl
  | succ fuel ih =>
    rw [requestBodyWithin, requestBodyWithin, elected]
    have found : ((Pointer.componentId? "requestBodies" pointer).bind fun id =>
        Entries.get? id (Entries.mapValues (resolveBody policy) r.requestBodies)) =
        ((Pointer.componentId? "requestBodies" pointer).bind fun id =>
          Entries.get? id r.requestBodies).map (resolveBody policy) := by
      rw [Option.map_bind]
      congr 1
      funext id
      exact get_mapValues _
    rw [found]
    cases (Pointer.componentId? "requestBodies" pointer).bind fun id =>
        Entries.get? id r.requestBodies with
    | none => rfl
    | some node =>
      cases node with
      | inline body => rfl
      | reference target => exact ih target
      | invalid value => rfl

end

end Resolver

namespace ApiDocument

variable {options : Options} {d : ApiDocument} {file : Ir.File} {s : Site}

-- The body of an operation as the document declares it.
def body? (options : Options) (d : ApiDocument) (s : Site) : Option RequestBody :=
  s.operation.requestBody.bind (RequestLowering.body? (.ofDocument d options))

theorem body_elected (policy : ConflictPolicy) (options : Options) (d : ApiDocument)
    (node : RequestBodyNode) :
    RequestLowering.body? (.ofDocument (d.resolveConflicts policy) options)
        (resolveBody policy node) =
      (RequestLowering.body? (.ofDocument d options) node).map (electBody policy) := by
  cases node with
  | inline body => rfl
  | reference target =>
    have depth : (Resolver.ofDocument (d.resolveConflicts policy) options).maxDepth =
        (Resolver.ofDocument d options).maxDepth := by
      rw [Resolver.ofDocument_maxDepth, Resolver.ofDocument_maxDepth]
    unfold resolveBody RequestLowering.body? Resolver.requestBody?
    rw [depth]
    exact Resolver.requestBodyWithin_elected (Resolver.ofDocument_requestBodies policy d options) _ _
  | invalid value => rfl

/-- A webhook has a payload after the elections just if the election in its body keeps one. -/
theorem isPaid_iff {body : RequestBody} (found : d.body? options s = some body) :
    d.isPaid options s =
      (firstOf? .json (electBody options.contentConflict body).content).isSome := by
  obtain ⟨node, present, leads⟩ := Option.bind_eq_some_iff.mp found
  have elected := body_elected options.contentConflict options d node
  rw [leads] at elected
  unfold isPaid Site.isPaid Site.payload?
  have own : (s.elected options.contentConflict).operation.requestBody =
      some (resolveBody options.contentConflict node) := by
    unfold Site.elected Operation.elected
    rw [present]
    rfl
  rw [own, Option.bind_some]
  unfold loweringScope DocumentLowering.scope
  dsimp only
  rw [elected]
  rfl

theorem raised_of_paid (done : d.lower options = .ok file) (listed : s ∈ d.events)
    (paid : d.isPaid options s = true) :
    ∃ w ∈ file.webhooks, (w.method, w.path) = s.route ∧
      (s.elected options.contentConflict).Raises (d.loweringScope options) w := by
  obtain ⟨-, raised⟩ := conserved_of_lower done
  have among := List.mem_filter.mpr ⟨List.mem_map_of_mem listed, paid⟩
  obtain ⟨w, held, made⟩ := related_of_mem raised.raised among
  exact ⟨w, held, (Site.raises_route made).trans rfl, made⟩

theorem told_of_unpaid (done : d.lower options = .ok file) (listed : s ∈ d.events)
    (poor : d.isPaid options s = false) : s.unpaid ∈ file.errors := by
  obtain ⟨-, raised⟩ := conserved_of_lower done
  have among : s.elected options.contentConflict ∈
      (d.events.map (Site.elected options.contentConflict)).filter fun s =>
        !s.isPaid (d.loweringScope options).resolver :=
    List.mem_filter.mpr ⟨List.mem_map_of_mem listed, congrArg Bool.not poor⟩
  have told := List.mem_map_of_mem (f := Site.unpaid) among
  rw [← raised.missing] at told
  exact (List.mem_filter.mp told).1

end ApiDocument

section

variable {options : Options} {d : ApiDocument} {file : Ir.File} {s : Site}

/-- A webhook whose body has a JSON payload is raised where the election keeps that payload, and is
reported where multipart content takes its place. -/
theorem webhooks_keep_payloads (done : d.lower options = .ok file) (listed : s ∈ d.events)
    {body : RequestBody} (found : d.body? options s = some body)
    (payload : (firstOf? .json body.content).isSome) :
    (KeepsJson options.contentConflict body.content →
        ∃ w ∈ file.webhooks, (w.method, w.path) = s.route ∧
          (s.elected options.contentConflict).Raises (d.loweringScope options) w) ∧
      (¬ KeepsJson options.contentConflict body.content → s.unpaid ∈ file.errors) := by
  have paid := ApiDocument.isPaid_iff found
  constructor
  · intro keeps
    rw [electBody, ContentConflict.resolveContent_json keeps, payload] at paid
    exact ApiDocument.raised_of_paid done listed paid
  · intro drops
    rw [electBody, ContentConflict.resolveContent_multipart drops] at paid
    exact ApiDocument.told_of_unpaid done listed paid

end

-- The operation of a webhook with a body.
def ringing (body : RequestBodyNode) : Site :=
  ⟨"ring", ["webhooks", "ring", "post"], [], .post,
    { Operation.record.blank with requestBody := some body }⟩

-- A webhook is the only operation, and its body may be one of the components.
def bellPull (body : RequestBodyNode) (bodies : Entries RequestBodyNode) : ApiDocument :=
  { ApiDocument.ofSchemas [] with
    webhooks := [("ring", some { PathItem.record.blank with
      post := some (ringing body).operation })]
    components := some { Components.record.blank with requestBodies := bodies } }

def contentOf (types : List String) : RequestBodyNode :=
  .inline { RequestBody.record.blank with content := types.map fun type => (type, ⟨none, [], []⟩) }

-- A body that refers to a component, which refers to another one.
def sharedBell : ApiDocument :=
  bellPull (.reference "#/components/requestBodies/Ring")
    [("Ring", .reference "#/components/requestBodies/Tone"),
      ("Tone", contentOf ["text/plain", "application/vnd.tone+json"])]

theorem sharedBell_raised :
    ∃ file s, sharedBell.lower .default = .ok file ∧ s ∈ sharedBell.events ∧
      ∃ w ∈ file.webhooks, (w.method, w.path) = s.route ∧
        (s.elected .preferMultipart).Raises (sharedBell.loweringScope .default) w := by
  have lowers : (sharedBell.lower .default).toOption.any (fun _ => true) = true := by decide +kernel
  obtain ⟨file, done, -⟩ := ok_of_any lowers
  let s := ringing (.reference "#/components/requestBodies/Ring")
  have listed : s ∈ sharedBell.events := List.mem_singleton.mpr rfl
  have leads : (sharedBell.body? .default s).any (fun body =>
      (firstOf? .json body.content).isSome && (firstOf? .multipart body.content).isNone) = true := by
    decide +kernel
  cases found : sharedBell.body? .default s with
  | none =>
    rw [found] at leads
    cases leads
  | some body =>
    rw [found] at leads
    obtain ⟨payload, missing⟩ := Bool.and_eq_true_iff.mp leads
    have keeps : KeepsJson .preferMultipart body.content := .inr (Option.isNone_iff_eq_none.mp missing)
    exact ⟨file, s, done, listed, (webhooks_keep_payloads done listed found payload).1 keeps⟩

-- A body with both representations of what is sent.
def loudBell : ApiDocument :=
  bellPull (contentOf ["application/json", "multipart/form-data"]) []

theorem loudBell_silent :
    ((loudBell.lower .default).toOption.map fun file => file.webhooks.length) = some 0 := by
  decide +kernel

/-- A JSON payload that is declared does not make a webhook where multipart content is preferred. -/
theorem payloads_dropped :
    ¬ ∀ (options : Options) (d : ApiDocument) (file : Ir.File) (s : Site) (body : RequestBody),
      d.lower options = .ok file → s ∈ d.events → d.body? options s = some body →
        (firstOf? .json body.content).isSome →
          ∃ w ∈ file.webhooks, (w.method, w.path) = s.route := by
  intro kept
  cases done : loudBell.lower .default with
  | error cause =>
    have silent := loudBell_silent
    rw [done] at silent
    cases silent
  | ok file =>
    have silent := loudBell_silent
    rw [done] at silent
    obtain ⟨w, among, -⟩ := kept .default loudBell file _ _ done
      (List.mem_singleton.mpr rfl) rfl (by decide +kernel)
    rw [List.eq_nil_of_length_eq_zero (Option.some.inj silent)] at among
    cases among

end ApiLowering
