import ApiLowering.Proofs.Election
import ApiLowering.Proofs.Findings
import ApiLowering.Proofs.Sites

/-!
No operation is lost. Each operation that clients call becomes an endpoint if none before it has its
method and path, and is reported as a repeat otherwise; each webhook becomes a webhook of the
representation if its body has a JSON payload, and is reported to have none otherwise.
-/

set_option autoImplicit false

namespace ApiLowering

open DocumentLowering (Route)
open Ir.Finding (tellsRepeat tellsNoPayload noPayload)

namespace Report

variable {α β : Type} {r : Report α} {f : α → Report β}

theorem findings_bind {a : α} (done : r.outcome = .ok a) :
    (r >>= f).findings = r.findings ++ (f a).findings := by rw [bind_of_ok done]

theorem findings_last {a : α} (done : r.outcome = .ok a) (g : α → β) :
    (r >>= fun a => pure (g a)).findings = r.findings := by
  rw [findings_bind done]
  exact List.append_nil _

-- What holds of the outcomes and the findings of all items, put together one after the other.
theorem forEach_gathers {P : List α → List β → List Ir.Finding → Prop} (nothing : P [] [] [])
    (one : ∀ {a b rest more later}, (f a).outcome = .ok b → P rest more later →
      P (a :: rest) (b :: more) ((f a).findings ++ later)) {items : List α} {bs : List β}
    (done : (forEach f items).outcome = .ok bs) : P items bs (forEach f items).findings := by
  induction items generalizing bs with
  | nil =>
    cases pure_ok done
    exact nothing
  | cons a rest ih =>
    obtain ⟨b, first, done⟩ := bind_ok done
    obtain ⟨more, later, done⟩ := bind_ok done
    cases pure_ok done
    rw [forEach, findings_bind first, findings_last later]
    exact one first (ih later)

theorem collect_gathers {f : α → Report (Option β)} {P : List α → List β → List Ir.Finding → Prop}
    (nothing : P [] [] [])
    (one : ∀ {a found rest more later}, (f a).outcome = .ok found → P rest more later →
      P (a :: rest) (found.toList ++ more) ((f a).findings ++ later)) {items : List α} {bs : List β}
    (done : (collect f items).outcome = .ok bs) : P items bs (collect f items).findings := by
  induction items generalizing bs with
  | nil =>
    cases pure_ok done
    exact nothing
  | cons a rest ih =>
    obtain ⟨found, more, first, later, rfl⟩ := oneMore_ok done
    rw [collect, findings_bind first, findings_last later]
    exact one first (ih later)

end Report

open Report (Ordinary findings_bind findings_last forEach_gathers collect_gathers bind_ok pure_ok)

theorem Ir.Finding.repeats_ordinary {findings : List Ir.Finding}
    (plain : ∀ f ∈ findings, f.Ordinary) : findings.filter tellsRepeat = [] :=
  List.filter_eq_nil_iff.mpr fun f here => Bool.eq_false_iff.mp (plain f here).repeats

theorem Ir.Finding.payload_ordinary {findings : List Ir.Finding}
    (plain : ∀ f ∈ findings, f.Ordinary) : findings.filter tellsNoPayload = [] :=
  List.filter_eq_nil_iff.mpr fun f here => Bool.eq_false_iff.mp (plain f here).payload

open Ir.Finding (repeats_ordinary payload_ordinary)

namespace Site

variable {scope : Scope} {s : Site}

-- The first JSON content of the body.
def payload? (r : Resolver) (s : Site) : Option (String × MediaType) :=
  (s.operation.requestBody.bind (RequestLowering.body? r)).bind fun body =>
    ContentConflict.firstOf? .json body.content

def isPaid (r : Resolver) (s : Site) : Bool := (s.payload? r).isSome

-- What is found of an operation whose route an operation before it has.
def repeated (s : Site) : Ir.Finding :=
  ⟨.duplicateEndpoint, [s.path, s.method.lowerName],
    s.method.name ++ " " ++ s.path ++ " is declared more than once; keeping the first"⟩

-- What is found of a webhook without a payload.
def unpaid (s : Site) : Ir.Finding := ⟨.malformedNode, s.keys, noPayload⟩

-- The sites whose route is new, or those whose route is not; the routes before them are given.
def sift (isNew : Bool) : List Route → List Site → List Site
  | _, [] => []
  | before, s :: rest =>
    if decide (s.route ∉ before) = isNew then s :: sift isNew (before ++ [s.route]) rest
    else sift isNew (before ++ [s.route]) rest

def firsts (sites : List Site) : List Site := sift true [] sites

def repeats (sites : List Site) : List Site := sift false [] sites

section

variable {before : List Route} {rest : List Site}

theorem sift_known (isNew : Bool) (known : s.route ∈ before) :
    sift isNew before (s :: rest) =
      (if isNew then [] else [s]) ++ sift isNew (before ++ [s.route]) rest := by
  rw [sift, decide_eq_false (not_not_intro known)]
  cases isNew <;> rfl

theorem sift_fresh (isNew : Bool) (fresh : s.route ∉ before) :
    sift isNew before (s :: rest) =
      (if isNew then [s] else []) ++ sift isNew (before ++ [s.route]) rest := by
  rw [sift, decide_eq_true fresh]
  cases isNew <;> rfl

end

theorem sift_append (isNew : Bool) (before : List Route) (sites more : List Site) :
    sift isNew before (sites ++ more) =
      sift isNew before sites ++ sift isNew (before ++ sites.map route) more := by
  induction sites generalizing before with
  | nil => rw [List.map_nil, List.append_nil]; rfl
  | cons s rest ih =>
    rw [List.cons_append, sift, sift, ih, List.append_assoc, List.map_cons, List.singleton_append]
    split <;> rfl

theorem sift_elected (policy : ConflictPolicy) (isNew : Bool) (before : List Route)
    (sites : List Site) :
    sift isNew before (sites.map (elected policy)) =
      (sift isNew before sites).map (elected policy) := by
  induction sites generalizing before with
  | nil => rfl
  | cons s rest ih =>
    have same : (s.elected policy).route = s.route := rfl
    rw [List.map_cons, sift, sift, ih, same]
    split <;> rfl

-- What is new and what is not make up all there is.
theorem sift_perm (before : List Route) (sites : List Site) :
    (sift true before sites ++ sift false before sites).Perm sites := by
  induction sites generalizing before with
  | nil => exact .refl _
  | cons s rest ih =>
    by_cases known : s.route ∈ before
    · rw [sift_known true known, sift_known false known]
      exact List.perm_middle.trans ((ih _).cons s)
    · rw [sift_fresh true known, sift_fresh false known]
      exact (ih _).cons s

-- The routes that are new are all the routes that were not there before.
theorem sift_routes (before : List Route) (sites : List Site) (route : Route) :
    route ∈ before ++ (sift true before sites).map Site.route ↔
      route ∈ before ++ sites.map Site.route := by
  induction sites generalizing before with
  | nil => exact Iff.rfl
  | cons s rest ih =>
    have later := ih (before ++ [s.route])
    by_cases known : s.route ∈ before
    · rw [sift_known true known]
      grind
    · rw [sift_fresh true known]
      grind

end Site

open Site (sift)

/-- The webhooks were raised by the sites that have a payload, and the findings tell of the others. -/
structure Raised (scope : Scope) (sites : List Site) (webhooks : List Ir.Webhook)
    (findings : List Ir.Finding) : Prop where
  raised : List.Forall₂ (Site.Raises scope) (sites.filter (Site.isPaid scope.resolver)) webhooks
  missing : findings.filter tellsNoPayload =
    (sites.filter fun s => !s.isPaid scope.resolver).map Site.unpaid

/-- The endpoints were made of the sites whose routes are new, and the findings tell of the others. -/
structure Called (scope : Scope) (before : List Route) (sites : List Site)
    (endpoints : List Ir.Endpoint) (findings : List Ir.Finding) : Prop where
  made : List.Forall₂ (Site.Becomes scope) (sift true before sites) endpoints
  repeats : findings.filter tellsRepeat = (sift false before sites).map Site.repeated

/-- What comes of operations of an item, before repeats are dropped. -/
structure Settled (scope : Scope) (sites : List Site) (lowered : LoweredItem)
    (findings : List Ir.Finding) : Prop where
  endpoints : List.Forall₂ (Site.Becomes scope) (sites.filter fun s => !s.isMarked) lowered.endpoints
  webhooks : Raised scope (sites.filter Site.isMarked) lowered.webhooks findings
  once : findings.filter tellsRepeat = []

section

variable {scope : Scope} {before : List Route} {sites more : List Site}
  {webhooks others : List Ir.Webhook} {endpoints later : List Ir.Endpoint}
  {findings told : List Ir.Finding}

theorem raised_nothing (plain : ∀ f ∈ findings, f.Ordinary) : Raised scope [] [] findings :=
  ⟨.nil, payload_ordinary plain⟩

theorem Raised.append (first : Raised scope sites webhooks findings)
    (second : Raised scope more others told) :
    Raised scope (sites ++ more) (webhooks ++ others) (findings ++ told) where
  raised := by
    rw [List.filter_append]
    exact List.rel_append first.raised second.raised
  missing := by
    rw [List.filter_append, List.filter_append, List.map_append, first.missing, second.missing]

theorem called_nothing (plain : ∀ f ∈ findings, f.Ordinary) : Called scope before [] [] findings :=
  ⟨.nil, repeats_ordinary plain⟩

theorem called_fresh {s : Site} {e : Ir.Endpoint} (becomes : s.Becomes scope e)
    (fresh : s.route ∉ before) : Called scope before [s] [e] [] where
  made := by
    rw [Site.sift_fresh true fresh]
    exact .cons becomes .nil
  repeats := by
    rw [Site.sift_fresh false fresh]
    rfl

theorem called_known {s : Site} (known : s.route ∈ before) :
    Called scope before [s] [] [s.repeated] where
  made := by
    rw [Site.sift_known true known]
    exact .nil
  repeats := by
    rw [Site.sift_known false known]
    rfl

theorem Called.append (first : Called scope before sites endpoints findings)
    (second : Called scope (before ++ sites.map Site.route) more later told) :
    Called scope before (sites ++ more) (endpoints ++ later) (findings ++ told) where
  made := by
    rw [Site.sift_append]
    exact List.rel_append first.made second.made
  repeats := by
    rw [List.filter_append, Site.sift_append, List.map_append, first.repeats, second.repeats]

theorem Called.first (called : Called scope before sites endpoints findings)
    (once : told.filter tellsRepeat = []) :
    Called scope before sites endpoints (told ++ findings) where
  made := called.made
  repeats := by
    rw [List.filter_append, once]
    exact called.repeats

theorem Called.last (called : Called scope before sites endpoints findings)
    (once : told.filter tellsRepeat = []) :
    Called scope before sites endpoints (findings ++ told) where
  made := called.made
  repeats := by rw [List.filter_append, once, List.append_nil, called.repeats]

theorem Raised.last (raised : Raised scope sites webhooks findings)
    (quiet : told.filter tellsNoPayload = []) :
    Raised scope sites webhooks (findings ++ told) where
  raised := raised.raised
  missing := by rw [List.filter_append, quiet, List.append_nil, raised.missing]

theorem settled_nothing (plain : ∀ f ∈ findings, f.Ordinary) :
    Settled scope [] ⟨[], []⟩ findings :=
  ⟨.nil, raised_nothing plain, repeats_ordinary plain⟩

theorem Raised.after (raised : Raised scope sites webhooks findings) (plain : ∀ f ∈ told, f.Ordinary) :
    Raised scope sites webhooks (told ++ findings) := (raised_nothing plain).append raised

theorem Settled.append (first : Settled scope sites ⟨endpoints, webhooks⟩ findings)
    (second : Settled scope more ⟨later, others⟩ told) :
    Settled scope (sites ++ more) ⟨endpoints ++ later, webhooks ++ others⟩ (findings ++ told) where
  endpoints := by
    rw [List.filter_append]
    exact List.rel_append first.endpoints second.endpoints
  webhooks := by
    rw [List.filter_append]
    exact first.webhooks.append second.webhooks
  once := by rw [List.filter_append, first.once, second.once, List.append_nil]

theorem Settled.after {lowered : LoweredItem} (settled : Settled scope sites lowered findings)
    (plain : ∀ f ∈ told, f.Ordinary) : Settled scope sites lowered (told ++ findings) :=
  (settled_nothing plain).append settled

end

namespace OperationLowering

variable {scope : Scope} {lead : List String} {path : String} {item : PathItem}
  {operation : HttpMethod × Operation}

-- A webhook with a payload is raised and nothing is found; one without is found to have none.
theorem lowerWebhook_outcome {s : Site} {headers : List Ir.Parameter} {found : Option Ir.Webhook}
    (done : (lowerWebhook scope s.path s.method s.operation headers).outcome = .ok found) :
    (s.isPaid scope.resolver = true ∧ found.isSome ∧
        (lowerWebhook scope s.path s.method s.operation headers).Ordinary) ∨
      (s.isPaid scope.resolver = false ∧ found = none ∧
        ∃ plain : List Ir.Finding, (∀ f ∈ plain, f.Ordinary) ∧
          (lowerWebhook scope s.path s.method s.operation headers).findings =
            plain ++ [⟨.malformedNode, [], noPayload⟩]) := by
  unfold lowerWebhook at done ⊢
  unfold Site.isPaid Site.payload?
  cases present : s.operation.requestBody with
  | none =>
    rw [present] at done
    cases done
    exact .inr ⟨rfl, rfl, [], fun _ here => absurd here List.not_mem_nil, rfl⟩
  | some node =>
    rw [present] at done
    have resolves := RequestLowering.resolve_resolves scope.resolver node
    have body := resolves.outcome
    have quiet := (resolves.holds (Report.Logic.finding_tolerant Ir.Finding.ordinary_absorbs)).1
    dsimp only [Option.bind_some] at done ⊢
    rw [Report.bind_of_ok body] at done ⊢
    dsimp only at done ⊢
    cases content : (RequestLowering.body? scope.resolver node).bind
        fun body => ContentConflict.firstOf? .json body.content with
    | none =>
      rw [content] at done
      cases done
      exact .inr ⟨rfl, rfl, _, quiet, rfl⟩
    | some first =>
      rw [content] at done
      obtain ⟨payload, lowered, done⟩ := bind_ok done
      cases pure_ok done
      refine .inl ⟨rfl, rfl, fun f here => ?_⟩
      rcases List.mem_append.mp here with before | after
      · exact quiet f before
      · rw [findings_last lowered] at after
        exact Report.ordinary_under _ (SchemaLowering.lowerOption_ordinary _ _) f after

/-- What comes of an operation that is a webhook. -/
theorem lowerWebhook_raised {s : Site} {parameters : LoweredParameters} {found : Option Ir.Webhook}
    (merged : (ParameterLowering.lower scope s.shared s.operation.parameters).outcome =
      .ok parameters)
    (done : (lowerWebhook scope s.path s.method s.operation parameters.headers).outcome = .ok found) :
    Raised scope [s] found.toList
      ((lowerWebhook scope s.path s.method s.operation parameters.headers).under s.keys).findings := by
  rcases lowerWebhook_outcome done with ⟨paid, raised, quiet⟩ | ⟨poor, rfl, plain, quiet, told⟩
  · obtain ⟨w, rfl⟩ := Option.isSome_iff_exists.mp raised
    constructor
    · rw [List.filter_singleton, paid]
      exact .cons ⟨parameters, merged, done⟩ .nil
    · rw [payload_ordinary (Report.ordinary_under _ quiet), List.filter_singleton, paid]
      rfl
  · have noted : ∀ f ∈ plain.map (Ir.Finding.under s.keys), f.Ordinary := by
      refine List.forall_mem_map.mpr fun f here => ?_
      exact Ir.Finding.ordinary_under _ (quiet f here)
    constructor
    · rw [List.filter_singleton, poor]
      exact .nil
    · have unpaid : Ir.Finding.under s.keys ⟨.malformedNode, [], noPayload⟩ = s.unpaid := by
        rw [Ir.Finding.under, List.append_nil]
        rfl
      have missed : [s].filter (fun s => !s.isPaid scope.resolver) = [s] := by
        rw [List.filter_singleton, poor]
        rfl
      rw [Report.under, told, List.map_append, List.filter_append, payload_ordinary noted, missed,
        List.map_singleton, unpaid]
      rfl

theorem lowerWebhook_once {s : Site} {headers : List Ir.Parameter} {found : Option Ir.Webhook}
    (done : (lowerWebhook scope s.path s.method s.operation headers).outcome = .ok found) :
    (lowerWebhook scope s.path s.method s.operation headers).findings.filter tellsRepeat = [] := by
  rcases lowerWebhook_outcome done with ⟨-, -, quiet⟩ | ⟨-, -, plain, quiet, told⟩
  · exact repeats_ordinary quiet
  · rw [told, List.filter_append, repeats_ordinary quiet]
    rfl

theorem once_under (keys : List String) {findings : List Ir.Finding}
    (once : findings.filter tellsRepeat = []) :
    (findings.map (Ir.Finding.under keys)).filter tellsRepeat = [] := by
  rw [List.filter_map]
  exact List.map_eq_nil_iff.mpr once

theorem lowerEndpoint_ordinary (scope : Scope) (path : String) (method : HttpMethod) (o : Operation)
    (parameters : LoweredParameters) : (lowerEndpoint scope path method o parameters).Ordinary := by
  refine Report.ordinary_bind (RequestLowering.lower_ordinary _ _ _) fun _ => ?_
  exact Report.ordinary_bind (ResponseLowering.lower_ordinary _ _) fun _ => Report.ordinary_pure _

theorem lowerOperation_settled {lowered : LoweredItem}
    (done : (lowerOperation scope path item operation.1 operation.2).outcome = .ok lowered) :
    Settled scope [Site.ofOperation lead path item operation] lowered
      ((lowerOperation scope path item operation.1 operation.2).under
        (lead ++ [path, operation.1.lowerName])).findings := by
  unfold lowerOperation at done ⊢
  obtain ⟨_, checked, done⟩ := bind_ok done
  obtain ⟨parameters, merged, done⟩ := bind_ok done
  rw [Report.under_bind, findings_bind (by exact checked), Report.under_bind,
    findings_bind (by exact merged)]
  refine Settled.after (Settled.after ?_ ?_) ?_
  · by_cases marked : Extension.flag operation.2.extensions Extension.webhookKey
    · have isMarked : (Site.ofOperation lead path item operation).isMarked = true := marked
      rw [if_pos marked] at done ⊢
      obtain ⟨webhook, raised, done⟩ := bind_ok done
      cases pure_ok done
      rw [Report.under, findings_last raised]
      constructor
      · rw [List.filter_singleton, isMarked]
        exact .nil
      · rw [List.filter_singleton, isMarked]
        exact lowerWebhook_raised (s := .ofOperation lead path item operation) merged raised
      · exact once_under _ (lowerWebhook_once (s := .ofOperation lead path item operation) raised)
    · have isMarked : (Site.ofOperation lead path item operation).isMarked = false :=
        Bool.eq_false_iff.mpr marked
      have quiet := Report.ordinary_under (lead ++ [path, operation.1.lowerName])
        (lowerEndpoint_ordinary scope path operation.1 operation.2 parameters)
      rw [if_neg marked] at done ⊢
      obtain ⟨endpoint, made, done⟩ := bind_ok done
      cases pure_ok done
      rw [Report.under, findings_last made]
      constructor
      · rw [List.filter_singleton, isMarked]
        exact .cons ⟨parameters, merged, made⟩ .nil
      · rw [List.filter_singleton, isMarked]
        exact raised_nothing quiet
      · exact repeats_ordinary quiet
  · exact Report.ordinary_under _ (ParameterLowering.lower_ordinary _ _ _)
  · exact Report.ordinary_under _ (Extension.checkUnknown_ordinary _)

theorem lowerItem_settled {lowered : LoweredItem}
    (done : (lowerItem scope path item).outcome = .ok lowered) :
    Settled scope (Site.ofItem [] (normalizePath path) item) lowered
      (lowerItem scope path item).findings := by
  unfold lowerItem at done ⊢
  obtain ⟨_, checked, done⟩ := bind_ok done
  obtain ⟨all, each, done⟩ := bind_ok done
  cases pure_ok done
  dsimp only
  rw [findings_bind checked, findings_last each]
  refine Settled.after ?_ (Report.ordinary_under _ (Extension.checkUnknown_ordinary _))
  refine forEach_gathers (P := fun operations all told => Settled scope
    (operations.map (Site.ofOperation [] (normalizePath path) item))
    ⟨all.flatMap LoweredItem.endpoints, all.flatMap LoweredItem.webhooks⟩ told) ?_ ?_ each
  · exact settled_nothing fun _ here => absurd here List.not_mem_nil
  · exact fun first later => (lowerOperation_settled first).append later

theorem lowerWebhookItem_raised {key : String} {webhooks : List Ir.Webhook}
    (done : (lowerWebhookItem scope key item).outcome = .ok webhooks) :
    Raised scope (Site.ofItem ["webhooks"] key item) webhooks
        (lowerWebhookItem scope key item).findings ∧
      (lowerWebhookItem scope key item).findings.filter tellsRepeat = [] := by
  refine collect_gathers (P := fun operations all told => Raised scope
    (operations.map (Site.ofOperation ["webhooks"] key item)) all told ∧
      told.filter tellsRepeat = []) ?_ ?_ done
  · exact ⟨raised_nothing fun _ here => absurd here List.not_mem_nil, rfl⟩
  · intro operation found rest more told first later
    obtain ⟨_, checked, made⟩ := bind_ok first
    obtain ⟨parameters, merged, made⟩ := bind_ok made
    rw [Report.under_bind, findings_bind (by exact checked), Report.under_bind,
      findings_bind (by exact merged)]
    have noted := Report.ordinary_under ["webhooks", key, operation.1.lowerName]
      (Extension.checkUnknown_ordinary operation.2.extensions)
    have plain : (ParameterLowering.lower scope item.parameters operation.2.parameters).Ordinary :=
      ParameterLowering.lower_ordinary _ _ _
    have quiet := Report.ordinary_under ["webhooks", key, operation.1.lowerName] plain
    have raised := lowerWebhook_raised (s := .ofOperation ["webhooks"] key item operation) merged made
    have once := once_under ["webhooks", key, operation.1.lowerName]
      (lowerWebhook_once (s := .ofOperation ["webhooks"] key item operation) made)
    refine ⟨((raised.after quiet).after noted).append later.1, ?_⟩
    rw [List.filter_append, List.filter_append, List.filter_append, repeats_ordinary noted,
      repeats_ordinary quiet, later.2]
    exact (List.append_nil _).trans once

end OperationLowering

namespace DocumentLowering

open OperationLowering (normalizePath lowerItem_settled lowerWebhookItem_raised)

variable {scope : Scope}

-- What `seen` holds are the routes before, in any order.
theorem dropRepeats_called {sites : List Site} {endpoints fresh : List Ir.Endpoint}
    (made : List.Forall₂ (Site.Becomes scope) sites endpoints) {seen before : List Route}
    (same : ∀ route, route ∈ seen ↔ route ∈ before)
    (done : (dropRepeats seen endpoints).outcome = .ok fresh) :
    Called scope before sites fresh (dropRepeats seen endpoints).findings ∧
      (dropRepeats seen endpoints).findings.filter tellsNoPayload = [] := by
  induction made generalizing seen before fresh with
  | nil =>
    cases pure_ok done
    exact ⟨called_nothing fun _ here => absurd here List.not_mem_nil, rfl⟩
  | @cons s e sites endpoints becomes made ih =>
    have routed := Site.becomes_route becomes
    rw [dropRepeats] at done ⊢
    by_cases known : seen.contains (route e)
    · have old : s.route ∈ before := by
        rw [← same, ← routed]
        exact List.contains_iff_mem.mp known
      rw [if_pos known] at done ⊢
      obtain ⟨_, -, later⟩ := bind_ok done
      have reached (one : Route) : one ∈ seen ↔ one ∈ before ++ [s.route] := by grind
      obtain ⟨rest, quiet⟩ := ih reached later
      have method : e.method = s.method := congrArg Prod.fst routed
      have path : e.path = s.path := congrArg Prod.snd routed
      have told : (Report.under [e.path, e.method.lowerName] (Report.find .duplicateEndpoint
          (e.method.name ++ " " ++ e.path ++ " is declared more than once; keeping the first"))
          ).findings = [s.repeated] := by
        rw [method, path]
        rfl
      rw [findings_bind (a := ()) rfl, told]
      exact ⟨(called_known old).append rest, quiet⟩
    · have new : s.route ∉ before := by
        rw [← same, ← routed]
        exact fun here => known (List.contains_iff_mem.mpr here)
      rw [if_neg known] at done ⊢
      obtain ⟨more, later, done⟩ := bind_ok done
      cases pure_ok done
      rw [findings_last later]
      have reached (one : Route) : one ∈ route e :: seen ↔ one ∈ before ++ [s.route] := by grind
      obtain ⟨rest, quiet⟩ := ih reached later
      exact ⟨(called_fresh becomes new).append rest, quiet⟩

-- The routes seen after the endpoints of an item are those of its sites and those before.
theorem reached_routes {sites : List Site} {fresh : List Ir.Endpoint} {seen before : List Route}
    (made : List.Forall₂ (Site.Becomes scope) (sift true before sites) fresh)
    (same : ∀ route, route ∈ seen ↔ route ∈ before) (one : Route) :
    one ∈ fresh.map route ++ seen ↔ one ∈ before ++ sites.map Site.route := by
  rw [Site.becomes_routes made, ← Site.sift_routes, List.mem_append, List.mem_append, same one]
  exact or_comm

theorem ofItems_cons (lead : List String) (named : String → String) (key : String)
    (item : PathItem) (rest : Entries (Option PathItem)) :
    Site.ofItems lead named ((key, some item) :: rest) =
      Site.ofItem lead (named key) item ++ Site.ofItems lead named rest := by
  unfold Site.ofItems
  rw [List.flatMap_cons, Option.toList_some, List.flatMap_singleton]

theorem ofItems_none (lead : List String) (named : String → String) (key : String)
    (rest : Entries (Option PathItem)) :
    Site.ofItems lead named ((key, none) :: rest) = Site.ofItems lead named rest := rfl

/-- What comes of all items of paths, whatever routes there were before. -/
theorem lowerPaths_conserved {items : List (String × Option PathItem)} {seen before : List Route}
    (same : ∀ route, route ∈ seen ↔ route ∈ before) {lowered : LoweredItem}
    (done : (lowerPaths scope seen items).outcome = .ok lowered) :
    Called scope before ((Site.ofItems [] normalizePath items).filter fun s => !s.isMarked)
        lowered.endpoints (lowerPaths scope seen items).findings ∧
      Raised scope ((Site.ofItems [] normalizePath items).filter Site.isMarked) lowered.webhooks
        (lowerPaths scope seen items).findings := by
  induction items generalizing seen before lowered with
  | nil =>
    cases pure_ok done
    have nothing (f : Ir.Finding) (here : f ∈ []) : f.Ordinary := absurd here List.not_mem_nil
    exact ⟨called_nothing nothing, raised_nothing nothing⟩
  | cons first rest ih =>
    obtain ⟨path, item⟩ := first
    cases item with
    | none =>
      rw [ofItems_none]
      exact ih same done
    | some item =>
      rw [lowerPaths] at done ⊢
      obtain ⟨own, made, done⟩ := bind_ok done
      obtain ⟨fresh, dropped, done⟩ := bind_ok done
      obtain ⟨more, later, done⟩ := bind_ok done
      cases pure_ok done
      rw [findings_bind made, findings_bind dropped, findings_last later, ofItems_cons]
      have settled := lowerItem_settled made
      obtain ⟨called, quiet⟩ := dropRepeats_called settled.endpoints same dropped
      obtain ⟨calledLater, raisedLater⟩ := ih (reached_routes called.made same) later
      rw [List.filter_append, List.filter_append, ← List.append_assoc]
      exact ⟨(called.first settled.once).append calledLater,
        (settled.webhooks.last quiet).append raisedLater⟩

theorem lowerWebhooks_raised {items : Entries (Option PathItem)} {webhooks : List Ir.Webhook}
    (done : (lowerWebhooks scope items).outcome = .ok webhooks) :
    Raised scope (Site.ofItems ["webhooks"] id items) webhooks (lowerWebhooks scope items).findings ∧
      (lowerWebhooks scope items).findings.filter tellsRepeat = [] := by
  unfold lowerWebhooks at done ⊢
  obtain ⟨all, each, done⟩ := bind_ok done
  cases pure_ok done
  rw [findings_last each]
  refine forEach_gathers (P := fun items all told => Raised scope
    (Site.ofItems ["webhooks"] id items) all.flatten told ∧ told.filter tellsRepeat = []) ?_ ?_ each
  · exact ⟨raised_nothing fun _ here => absurd here List.not_mem_nil, rfl⟩
  · intro e webhooks rest more told first later
    obtain ⟨key, item⟩ := e
    cases item with
    | none =>
      cases pure_ok first
      exact later
    | some item =>
      obtain ⟨raised, once⟩ := lowerWebhookItem_raised first
      rw [ofItems_cons, List.flatten_cons, List.filter_append]
      exact ⟨raised.append later.1, List.append_eq_nil_iff.mpr ⟨once, later.2⟩⟩

/-- What comes of the operations of a document in the report on its parts. -/
theorem lowerParts_conserved {d : ApiDocument} {parts : Parts}
    (done : (lowerParts scope d).outcome = .ok parts) :
    Called scope [] d.calls parts.paths.endpoints (lowerParts scope d).findings ∧
      Raised scope d.events (parts.paths.webhooks ++ parts.webhooks) (lowerParts scope d).findings := by
  unfold lowerParts at done ⊢
  obtain ⟨paths, onPaths, done⟩ := bind_ok done
  obtain ⟨webhooks, onWebhooks, done⟩ := bind_ok done
  have nowhere (one : Route) : one ∈ ([] : List Route) ↔ one ∈ ([] : List Route) := Iff.rfl
  obtain ⟨called, marked⟩ := lowerPaths_conserved nowhere onPaths
  obtain ⟨own, once⟩ := lowerWebhooks_raised onWebhooks
  obtain ⟨plain, same⟩ := lowerOthers_ordinary scope d paths webhooks
  have same := same parts done
  rw [findings_bind onPaths, findings_bind onWebhooks, ← List.append_assoc, same.1, same.2]
  exact ⟨(called.last once).last (repeats_ordinary plain),
    (marked.append own).last (payload_ordinary plain)⟩

end DocumentLowering

namespace ApiDocument

variable {options : Options} {d : ApiDocument} {file : Ir.File}

-- Whether the body of an operation has a JSON payload after the elections.
def isPaid (options : Options) (d : ApiDocument) (s : Site) : Bool :=
  (s.elected options.contentConflict).isPaid (d.loweringScope options).resolver

theorem notices_ordinary (options : Options) (d : ApiDocument) :
    ∀ f ∈ d.notices options, f.Ordinary := by
  refine List.forall_mem_append.mpr ⟨List.forall_mem_append.mpr ⟨?_, ?_⟩, ?_⟩
  · exact List.forall_mem_map.mpr fun id _ => Ir.Finding.ordinary_of_kind (by decide) _ _
  · refine List.forall_mem_map.mpr fun id _ => ?_
    rw [SecurityLowering.malformed, String.append_assoc]
    exact Ir.Finding.ordinary_of_lead rfl (by decide) _ _
  · exact List.forall_mem_map.mpr fun id _ => Ir.Finding.ordinary_of_kind (by decide) _ _

/-- What comes of the operations of a document that is lowered, after the elections. -/
theorem conserved_of_lower (done : d.lower options = .ok file) :
    Called (d.loweringScope options) [] (d.calls.map (Site.elected options.contentConflict))
        file.endpoints file.errors ∧
      Raised (d.loweringScope options) (d.events.map (Site.elected options.contentConflict))
        file.webhooks file.errors := by
  obtain ⟨title, description, parts, outcome, same⟩ := staged_of_lower done
  obtain ⟨called, raised⟩ := DocumentLowering.lowerParts_conserved outcome
  rw [calls_resolved] at called
  rw [events_resolved] at raised
  subst same
  have plain := notices_ordinary options d
  exact ⟨called.first (repeats_ordinary plain), raised.after plain⟩

-- Every endpoint was lowered from an operation that clients call.
theorem endpoint_site (done : d.lower options = .ok file) {e : Ir.Endpoint}
    (listed : e ∈ file.endpoints) :
    ∃ s ∈ d.calls, DocumentLowering.route e = s.route ∧
      (s.elected options.contentConflict).Becomes (d.loweringScope options) e := by
  obtain ⟨⟨made, -⟩, -⟩ := conserved_of_lower done
  rw [Site.sift_elected] at made
  obtain ⟨s, among, becomes⟩ := related_of_mem (List.forall₂_map_left_iff.mp made).flip listed
  have held := (Site.sift_perm [] d.calls).subset (List.mem_append_left _ among)
  exact ⟨s, held, (Site.becomes_route becomes).trans rfl, becomes⟩

-- Every webhook was lowered from an operation that is one.
theorem webhook_site (done : d.lower options = .ok file) {w : Ir.Webhook}
    (listed : w ∈ file.webhooks) :
    ∃ s ∈ d.events, (w.method, w.path) = s.route ∧
      (s.elected options.contentConflict).Raises (d.loweringScope options) w := by
  obtain ⟨-, raised, -⟩ := conserved_of_lower done
  rw [List.filter_map] at raised
  obtain ⟨s, among, raises⟩ := related_of_mem (List.forall₂_map_left_iff.mp raised).flip listed
  exact ⟨s, (List.mem_filter.mp among).1, (Site.raises_route raises).trans rfl, raises⟩

end ApiDocument

/-- What comes of the operations of a document: clients call the first of each route, and the others
are reported; webhooks with a payload are raised, and the others are reported. Both go in order. -/
structure Conserved (options : Options) (d : ApiDocument) (file : Ir.File) : Prop where
  endpoints : List.Forall₂
    (fun s e => (s.elected options.contentConflict).Becomes (d.loweringScope options) e)
    (Site.firsts d.calls) file.endpoints
  routes : file.endpoints.map DocumentLowering.route = (Site.firsts d.calls).map Site.route
  repeats : file.errors.filter tellsRepeat = (Site.repeats d.calls).map Site.repeated
  complete : (Site.firsts d.calls ++ Site.repeats d.calls).Perm d.calls
  webhooks : List.Forall₂
    (fun s w => (s.elected options.contentConflict).Raises (d.loweringScope options) w)
    (d.events.filter (d.isPaid options)) file.webhooks
  targets : (file.webhooks.map fun w => (w.method, w.path)) =
    (d.events.filter (d.isPaid options)).map Site.route
  missing : file.errors.filter tellsNoPayload =
    (d.events.filter fun s => !d.isPaid options s).map Site.unpaid

/-- No operation of a document that is lowered is lost, and none is lowered twice. -/
theorem operations_conserved {options : Options} {d : ApiDocument} {file : Ir.File}
    (done : d.lower options = .ok file) : Conserved options d file := by
  obtain ⟨called, raised⟩ := ApiDocument.conserved_of_lower done
  have made := called.made
  have told := called.repeats
  rw [Site.sift_elected] at made told
  have webhooks := raised.raised
  have missing := raised.missing
  rw [List.filter_map] at webhooks missing
  rw [List.map_map] at told missing
  exact {
    endpoints := List.forall₂_map_left_iff.mp made
    routes := (Site.becomes_routes made).trans (List.map_map ..)
    repeats := told
    complete := Site.sift_perm [] d.calls
    webhooks := List.forall₂_map_left_iff.mp webhooks
    targets := (Site.raises_routes webhooks).trans (List.map_map ..)
    missing }

-- A path that is given twice, an item that is missing, an operation that is ignored, and a webhook
-- without a payload.
def switchboard : ApiDocument :=
  { ApiDocument.ofSchemas [] with
    paths := [
      ("/calls", some { PathItem.record.blank with get := some Operation.record.blank }),
      ("/gone", none),
      ("/calls/", some { PathItem.record.blank with
        get := some Operation.record.blank
        put := some { Operation.record.blank with
          extensions := [(Extension.ignoreKey, .bool true)] }
        post := some { Operation.record.blank with
          extensions := [(Extension.webhookKey, .bool true)] } })]
    webhooks := [("ring", some { PathItem.record.blank with
      post := some { Operation.record.blank with
        requestBody := some (.inline { RequestBody.record.blank with
          content := [("application/json", ⟨none, [], []⟩)] }) } })] }

theorem switchboard_conserved :
    ∃ file, switchboard.lower .default = .ok file ∧
      (file.endpoints.length, file.webhooks.length) = (1, 1) ∧
      file.errors.map (fun f => (f.kind, f.breadcrumbs)) =
        [(.malformedNode, ["/calls", "post"]), (.duplicateEndpoint, ["/calls", "get"])] ∧
      Conserved .default switchboard file := by
  have lowers : (switchboard.lower .default).toOption.any (fun file => decide (
      (file.endpoints.length, file.webhooks.length) = (1, 1) ∧
        file.errors.map (fun f => (f.kind, f.breadcrumbs)) =
          [(.malformedNode, ["/calls", "post"]), (.duplicateEndpoint, ["/calls", "get"])])) = true := by
    decide +kernel
  obtain ⟨file, done, checked⟩ := ok_of_any lowers
  obtain ⟨counts, told⟩ := of_decide_eq_true checked
  exact ⟨file, done, counts, told, operations_conserved done⟩

end ApiLowering
