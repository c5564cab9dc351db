import ApiLowering.Proofs.Overrides

/-!
Which responses an operation is lowered to. The responses whose key is a status are sorted by it, one
status spelled in several ways keeping the order of the document. The first successful one is the
response, even if nothing comes of it, and every client or server error that stands for a response is
an error response.
-/

set_option autoImplicit false

namespace ApiLowering.ResponseLowering

open ContentConflict (firstOf?)
open ParameterLowering (frontDesk)
open Report (bind_ok pure_ok findings_bind findings_last)

variable {scope : Scope} {n : Numbered} {all sorted : List Numbered}

-- The responses whose key is a status, in the order of the document.
def coded (responses : Entries ResponseNode) : List Numbered :=
  responses.filterMap fun e => (status? e.1).map fun status => ⟨status, e.1, e.2⟩

/-- Sorted by status, and stably so: those of one status stand in the order they had. -/
structure Ranks (all sorted : List Numbered) : Prop where
  ascending : sorted.Pairwise fun m n => m.status ≤ n.status
  stable : ∀ status, (sorted.filter fun n => n.status = status) = all.filter fun n => n.status = status

theorem insert_ascending (ascending : sorted.Pairwise fun m n => m.status ≤ n.status) :
    (insert n sorted).Pairwise fun m n => m.status ≤ n.status := by
  induction sorted with
  | nil => exact List.pairwise_singleton _ _
  | cons m rest ih =>
    obtain ⟨least, later⟩ := List.pairwise_cons.mp ascending
    by_cases before : n.status < m.status
    · rw [insert, if_pos before]
      apply List.Pairwise.cons _ ascending
      intro k here
      rcases List.mem_cons.mp here with same | after
      · exact same ▸ UInt16.le_of_lt before
      · exact UInt16.le_trans (UInt16.le_of_lt before) (least k after)
    · rw [insert, if_neg before]
      apply List.Pairwise.cons _ (ih later)
      intro k here
      rcases mem_insert here with new | old
      · exact new ▸ UInt16.not_lt.mp before
      · exact least k old

-- What comes in goes behind those of its own status: none of them stands behind one of a higher status.
theorem insert_stable (ascending : sorted.Pairwise fun m n => m.status ≤ n.status)
    (status : UInt16) :
    ((insert n sorted).filter fun m => m.status = status) =
      (sorted.filter fun m => m.status = status) ++ [n].filter fun m => m.status = status := by
  induction sorted with
  | nil => rfl
  | cons m rest ih =>
    obtain ⟨least, later⟩ := List.pairwise_cons.mp ascending
    by_cases before : n.status < m.status
    · rw [insert, if_pos before]
      by_cases same : n.status = status
      · have none : (m :: rest).filter (fun m => m.status = status) = [] := by
          apply List.filter_eq_nil_iff.mpr
          intro k here equal
          have above : n.status < k.status := by
            rcases List.mem_cons.mp here with first | after
            · exact first ▸ before
            · exact UInt16.lt_of_lt_of_le before (least k after)
          exact UInt16.ne_of_lt above (same.trans (of_decide_eq_true equal).symm)
        rw [List.filter_cons_of_pos (by simpa using same), none]
        simp [same]
      · simp [same]
    · rw [insert, if_neg before, List.filter_cons, ih later, List.filter_cons]
      by_cases same : m.status = status <;> simp [same]

theorem insert_ranks (ranks : Ranks all sorted) : Ranks (all ++ [n]) (insert n sorted) where
  ascending := insert_ascending ranks.ascending
  stable status := by rw [insert_stable ranks.ascending, ranks.stable, List.filter_append]

theorem foldl_ranks (all : List Numbered) :
    Ranks all (all.foldl (fun sorted n => insert n sorted) []) := by
  induction all using List.reverseRecOn with
  | nil => exact ⟨.nil, fun _ => rfl⟩
  | append_singleton all n ih =>
    rw [List.foldl_append]
    exact insert_ranks ih

theorem numbered_ranks (responses : Entries ResponseNode) :
    Ranks (coded responses) (numbered responses) := foldl_ranks _

/-- The response that the chosen one is lowered to: none if it stands for no response or has no content,
or else the one of the preferred kind of its content. -/
inductive Answers (scope : Scope) : Option Numbered → Option Ir.Response → Prop where
  | nothing : Answers scope none none
  | unresolved {n : Numbered} (lost : response? scope.resolver n.node = none) :
      Answers scope (some n) none
  | bare {n : Numbered} {response : Response}
      (stands : response? scope.resolver n.node = some response)
      (bare : n.status = 204 ∨ response.content = []) : Answers scope (some n) none
  | streaming {n : Numbered} {response : Response} {type : String} {media : MediaType}
      {schema : Ir.Schema} (stands : response? scope.resolver n.node = some response)
      (full : n.status ≠ 204) (stream : firstOf? .eventStream response.content = some (type, media))
      (lowered : (SchemaLowering.lowerOption scope.resolver scope.path true media.schema).outcome =
        .ok schema) : Answers scope (some n) (some (.streaming n.status schema response.description))
  | json {n : Numbered} {response : Response} {type : String} {media : MediaType}
      {schema : Ir.Schema} (stands : response? scope.resolver n.node = some response)
      (full : n.status ≠ 204) (stream : firstOf? .eventStream response.content = none)
      (json : firstOf? .json response.content = some (type, media))
      (lowered : (SchemaLowering.lowerOption scope.resolver scope.path true media.schema).outcome =
        .ok schema) : Answers scope (some n) (some (.json n.status schema response.description))
  | text {n : Numbered} {response : Response} {content : String × MediaType}
      (stands : response? scope.resolver n.node = some response)
      (full : n.status ≠ 204) (stream : firstOf? .eventStream response.content = none)
      (json : firstOf? .json response.content = none)
      (text : firstOf? .text response.content = some content) :
      Answers scope (some n) (some (.text n.status response.description))
  | file {n : Numbered} {response : Response}
      (stands : response? scope.resolver n.node = some response)
      (full : n.status ≠ 204 ∧ response.content ≠ [])
      (stream : firstOf? .eventStream response.content = none)
      (json : firstOf? .json response.content = none)
      (text : firstOf? .text response.content = none) :
      Answers scope (some n) (some (.file n.status response.description))

/-- The error response that a client or server error is lowered to. -/
structure Fails (scope : Scope) (n : Numbered) (e : Ir.ErrorResponse) : Prop where
  status : e.statusCode = n.status
  name : NameVariants.derive? (Name.ofStatus n.status) none = some e.name
  stands : ∃ response, response? scope.resolver n.node = some response ∧
    e.description = response.description ∧
    match firstOf? .json response.content with
    | none => e.schema = none
    | some (_, media) => ∃ schema, e.schema = some schema ∧
      (SchemaLowering.lowerOption scope.resolver scope.path true media.schema).outcome = .ok schema

-- What is found of a response: it lies under its key, and is one thing if no response stands there.
structure Finds (scope : Scope) (n : Numbered) (findings : List Ir.Finding) : Prop where
  under : ∀ f ∈ findings, ["responses", n.key] <+: f.breadcrumbs
  lost : response? scope.resolver n.node = none →
    ∃ f : Ir.Finding, findings = [f.under ["responses", n.key]] ∧ f.isUnresolved

def stands (scope : Scope) (n : Numbered) : Bool := (response? scope.resolver n.node).isSome

/-- What becomes of sorted responses: the first successful one is the response, every error that stands
for a response is an error response, and these are all that findings come from. -/
structure Selects (scope : Scope) (sorted : List Numbered) (response : Option Ir.Response)
    (errors : List Ir.ErrorResponse) (findings : List Ir.Finding) : Prop where
  response : Answers scope (sorted.find? isSuccess) response
  errors : List.Forall₂ (Fails scope) (sorted.filter fun n => isError n && stands scope n) errors
  found : ∃ parts, findings = parts.flatten ∧
    List.Forall₂ (Finds scope) ((sorted.find? isSuccess).toList ++ sorted.filter isError) parts

theorem lowerSuccess_answers {made : Option Ir.Response}
    (done : (lowerSuccess scope n).outcome = .ok made) : Answers scope (some n) made := by
  obtain ⟨found, resolved, done⟩ := bind_ok done
  cases (resolve_resolves scope.resolver n.node).outcome.symm.trans resolved
  cases leads : response? scope.resolver n.node with
  | none =>
    rw [leads] at done
    cases pure_ok done
    exact .unresolved leads
  | some response =>
    simp only [leads] at done
    by_cases bare : (n.status = 204 || response.content.isEmpty) = true
    · rw [if_pos bare] at done
      cases pure_ok done
      exact .bare leads (by simpa using bare)
    · rw [if_neg bare] at done
      obtain ⟨full, some⟩ : n.status ≠ 204 ∧ response.content ≠ [] := by simpa using bare
      cases stream : firstOf? .eventStream response.content with
      | some e =>
        simp only [stream] at done
        obtain ⟨schema, lowered, done⟩ := bind_ok done
        cases pure_ok done
        exact .streaming leads full stream lowered
      | none =>
        cases json : firstOf? .json response.content with
        | some e =>
          simp only [stream, json] at done
          obtain ⟨schema, lowered, done⟩ := bind_ok done
          cases pure_ok done
          exact .json leads full stream json lowered
        | none =>
          cases text : firstOf? .text response.content with
          | some e =>
            simp only [stream, json, text] at done
            cases pure_ok done
            exact .text leads full stream json text
          | none =>
            simp only [stream, json, text] at done
            cases pure_ok done
            exact .file leads ⟨full, some⟩ stream json text

theorem lowerError_fails {made : Option Ir.ErrorResponse}
    (done : (lowerError scope n).outcome = .ok made) :
    List.Forall₂ (Fails scope) ([n].filter (stands scope)) made.toList := by
  obtain ⟨found, resolved, done⟩ := bind_ok done
  cases (resolve_resolves scope.resolver n.node).outcome.symm.trans resolved
  cases leads : response? scope.resolver n.node with
  | none =>
    rw [leads] at done
    cases pure_ok done
    simp [stands, leads]
  | some response =>
    rw [List.filter_cons_of_pos (by simp [stands, leads])]
    simp only [leads] at done
    cases named : NameVariants.derive? (Name.ofStatus n.status) none with
    | none =>
      simp only [named] at done
      split at done
      · obtain ⟨_, _, done⟩ := bind_ok done
        cases done
      · cases done
    | some name =>
      simp only [named] at done
      cases json : firstOf? .json response.content with
      | none =>
        simp only [json] at done
        cases pure_ok done
        exact .cons ⟨rfl, named, response, leads, rfl, by rw [json]⟩ .nil
      | some e =>
        simp only [json] at done
        obtain ⟨schema, lowered, done⟩ := bind_ok done
        cases pure_ok done
        exact .cons ⟨rfl, named, response, leads, rfl, by rw [json]; exact ⟨schema, rfl, lowered⟩⟩ .nil

-- Nothing but the node is looked at when no response stands there.
theorem resolve_finds {α : Type} {next : Option Response → Report (Option α)}
    (passes : next none = pure none) :
    Finds scope n ((resolve scope.resolver n.node >>= next).under ["responses", n.key]).findings where
  under f here := by
    obtain ⟨g, -, same⟩ := List.mem_map.mp here
    rw [← same]
    exact List.prefix_append _ _
  lost none := by
    have resolves := resolve_resolves scope.resolver n.node
    obtain ⟨f, only, is⟩ := resolves.told none
    have resolved := resolves.outcome
    rw [none] at resolved
    refine ⟨f, ?_, is⟩
    rw [Report.under_bind, Report.bind_of_ok (r := (resolve scope.resolver n.node).under _) resolved,
      passes]
    change (resolve scope.resolver n.node).findings.map _ ++ [] = _
    rw [only]
    rfl

-- What a part of the sorted responses comes to, as long as the response is pending and thereafter.
structure Heeds (scope : Scope) (pending : Bool) (all : List Numbered)
    (out : Option Ir.Response × List Ir.ErrorResponse) (findings : List Ir.Finding) : Prop where
  response : Answers scope (if pending then all.find? isSuccess else none) out.1
  errors : List.Forall₂ (Fails scope) (all.filter fun n => isError n && stands scope n) out.2
  found : ∃ parts, findings = parts.flatten ∧ List.Forall₂ (Finds scope) (heeded pending all) parts

theorem lowerEach_heeds {pending : Bool} {out : Option Ir.Response × List Ir.ErrorResponse}
    (done : (lowerEach scope pending all).outcome = .ok out) :
    Heeds scope pending all out (lowerEach scope pending all).findings := by
  induction all generalizing pending out with
  | nil =>
    cases pure_ok done
    exact ⟨by cases pending <;> exact .nothing, .nil, [], rfl, .nil⟩
  | cons n rest ih =>
    rw [lowerEach] at done ⊢
    by_cases answer : (isSuccess n && pending) = true
    · obtain ⟨success, waiting⟩ := Bool.and_eq_true_iff.mp answer
      have plain := success_no_error success
      rw [if_pos answer] at done ⊢
      obtain ⟨response, first, done⟩ := bind_ok done
      obtain ⟨more, others, done⟩ := bind_ok done
      cases pure_ok done
      obtain ⟨-, errors, parts, later, each⟩ := ih others
      refine ⟨?_, ?_, ((lowerSuccess scope n).under ["responses", n.key]).findings :: parts, ?_, ?_⟩
      · simpa [waiting, success] using lowerSuccess_answers first
      · simpa [plain] using errors
      · rw [findings_bind first, findings_last others, later, List.flatten_cons]
      · rw [heeded, if_pos answer]
        exact .cons (resolve_finds rfl) each
    · rw [if_neg answer] at done ⊢
      have passed : (if pending then (n :: rest).find? isSuccess else none) =
          if pending then rest.find? isSuccess else none := by
        cases pending with
        | false => rfl
        | true => simp [show isSuccess n = false by simpa using answer]
      by_cases failing : isError n = true
      · rw [if_pos failing] at done ⊢
        obtain ⟨error, first, done⟩ := bind_ok done
        obtain ⟨more, others, done⟩ := bind_ok done
        cases pure_ok done
        obtain ⟨response, errors, parts, later, each⟩ := ih others
        refine ⟨passed ▸ response, ?_,
          ((lowerError scope n).under ["responses", n.key]).findings :: parts, ?_, ?_⟩
        · have own := List.rel_append (lowerError_fails first) errors
          by_cases here : stands scope n = true <;> simpa [failing, here] using own
        · rw [findings_bind first, findings_last others, later, List.flatten_cons]
        · rw [heeded, if_neg answer, if_pos failing]
          exact .cons (resolve_finds rfl) each
      · rw [if_neg failing] at done ⊢
        obtain ⟨response, errors, parts, later, each⟩ := ih done
        refine ⟨passed ▸ response, ?_, parts, later, ?_⟩
        · simpa [failing] using errors
        · rwa [heeded, if_neg answer, if_neg failing]

theorem heeded_later (all : List Numbered) : heeded false all = all.filter isError := by
  induction all with
  | nil => rfl
  | cons n rest ih =>
    by_cases failing : isError n = true <;> simp [heeded, failing, ih]

-- No successful response stands behind an error.
theorem no_success {m : Numbered} (failing : isError n = true) (after : n.status ≤ m.status) :
    isSuccess m = false := by
  by_contra success
  rw [Bool.not_eq_false] at success
  have large : 400 ≤ n.status.toNat :=
    UInt16.le_iff_toNat_le.mp (of_decide_eq_true (Bool.and_eq_true_iff.mp failing).1)
  have small : m.status.toNat ≤ 299 :=
    UInt16.le_iff_toNat_le.mp (of_decide_eq_true (Bool.and_eq_true_iff.mp success).2)
  have between := UInt16.le_iff_toNat_le.mp after
  omega

theorem heeded_sorted (ascending : sorted.Pairwise fun m n => m.status ≤ n.status) :
    heeded true sorted = (sorted.find? isSuccess).toList ++ sorted.filter isError := by
  induction sorted with
  | nil => rfl
  | cons n rest ih =>
    obtain ⟨least, later⟩ := List.pairwise_cons.mp ascending
    by_cases success : isSuccess n = true
    · simp [heeded, success, success_no_error success, heeded_later]
    · by_cases failing : isError n = true
      · have none : rest.find? isSuccess = none :=
          List.find?_eq_none.mpr fun m here => by simp [no_success failing (least m here)]
        simp [heeded, success, failing, ih later, none]
      · simp [heeded, success, failing, ih later]

/-- The responses whose key is a status are ranked by it, and what they are lowered to is selected from
the ranking: the response by the first successful one alone, the error responses by all errors. -/
theorem responses_selected {responses : Entries ResponseNode} {response : Option Ir.Response}
    {errors : List Ir.ErrorResponse}
    (done : (lower scope responses).outcome = .ok (response, errors)) :
    Ranks (coded responses) (numbered responses) ∧
      Selects scope (numbered responses) response errors (lower scope responses).findings := by
  have ranks := numbered_ranks responses
  obtain ⟨answers, fails, found⟩ := lowerEach_heeds done
  refine ⟨ranks, answers, fails, ?_⟩
  rwa [heeded_sorted ranks.ascending] at found

-- The status and the description of a stream.
def stream? : Option Ir.Response → Option (UInt16 × Option String)
  | some (.streaming status _ description) => some (status, description)
  | _ => none

def describing (description : String) (types : List String) : ResponseNode :=
  .inline { Response.record.blank with
    description := some description
    content := types.map fun type => (type, ⟨none, [], []⟩) }

-- Two statuses that are spelled twice each, one of them for a response that is not there.
def departures : Entries ResponseNode :=
  [("+404", .reference "#/components/responses/Missing"), ("default", describing "other" []),
    ("0404", describing "gone" ["text/plain"]), ("204", describing "none" []),
    ("0200", describing "live" ["application/json", "text/event-stream"]),
    ("+200", describing "once" ["application/json"])]

theorem departures_selected :
    ∃ response errors, (lower (frontDesk.loweringScope .default) departures).outcome =
        .ok (response, errors) ∧
      stream? response = some (200, some "live") ∧
      errors.map (fun e => (e.statusCode, e.description)) = [(404, some "gone")] ∧
      Ranks (coded departures) (numbered departures) ∧
      Selects (frontDesk.loweringScope .default) (numbered departures) response errors
        (lower (frontDesk.loweringScope .default) departures).findings := by
  have lowers : (lower (frontDesk.loweringScope .default) departures).outcome.toOption.any
      (fun out => decide (stream? out.1 = some (200, some "live") ∧
        out.2.map (fun e => (e.statusCode, e.description)) = [(404, some "gone")])) = true := by
    decide +kernel
  obtain ⟨⟨response, errors⟩, done, checked⟩ := ok_of_any lowers
  obtain ⟨live, gone⟩ := of_decide_eq_true checked
  exact ⟨response, errors, done, live, gone, responses_selected done⟩

end ApiLowering.ResponseLowering
