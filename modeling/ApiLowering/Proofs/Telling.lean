import ApiLowering.Proofs.Conservation

/-!
What a lowering tells. If a report succeeds, a finding of any part of it is among its findings, under
the keys that lead to the part; so what the lowering of one operation or of one component finds is
told in the intermediate representation.
-/

set_option autoImplicit false

namespace ApiLowering

namespace Report

variable {α β : Type} {p : Ir.Finding → Prop} {r : Report α}

-- Whenever the report succeeds, it has a finding of that kind.
def Tells (p : Ir.Finding → Prop) (r : Report α) : Prop :=
  ∀ a, r.outcome = .ok a → ∃ f ∈ r.findings, p f

theorem tells_find {kind : Ir.FindingKind} {message : String} (is : p ⟨kind, [], message⟩) :
    (find kind message).Tells p := fun _ _ => ⟨_, List.mem_cons_self, is⟩

theorem Tells.mono {q : Ir.Finding → Prop} (tells : r.Tells p) (imp : ∀ f, p f → q f) :
    r.Tells q := by
  intro a done
  obtain ⟨f, here, is⟩ := tells a done
  exact ⟨f, here, imp f is⟩

theorem tells_under {keys : List String} (tells : r.Tells fun f => p (f.under keys)) :
    (r.under keys).Tells p := by
  intro a done
  obtain ⟨f, here, is⟩ := tells a done
  exact ⟨f.under keys, List.mem_map.mpr ⟨f, here, rfl⟩, is⟩

theorem tells_withoutMarks (tells : r.Tells p) : r.withoutMarks.Tells p := tells

theorem tells_first {f : α → Report β} (tells : r.Tells p) : (r >>= f).Tells p := by
  intro b done
  obtain ⟨a, first, -⟩ := bind_ok done
  obtain ⟨found, here, is⟩ := tells a first
  rw [findings_bind first]
  exact ⟨found, List.mem_append_left _ here, is⟩

theorem tells_next {f : α → Report β} (tells : ∀ a, r.outcome = .ok a → (f a).Tells p) :
    (r >>= f).Tells p := by
  intro b done
  obtain ⟨a, first, next⟩ := bind_ok done
  obtain ⟨found, here, is⟩ := tells a first b next
  rw [findings_bind first]
  exact ⟨found, List.mem_append_right _ here, is⟩

theorem tells_forEach {f : α → Report β} {items : List α} {a : α} (listed : a ∈ items)
    (tells : (f a).Tells p) : (forEach f items).Tells p := by
  induction items with
  | nil => cases listed
  | cons first rest ih =>
    rcases List.mem_cons.mp listed with same | there
    · exact tells_first (same ▸ tells)
    · exact tells_next fun _ _ => tells_first (ih there)

-- What is collected is what is left of the reports one by one.
theorem collect_eq (f : α → Report (Option β)) (items : List α) :
    collect f items = forEach f items >>= fun found => pure found.reduceOption := by
  induction items with
  | nil => rfl
  | cons a rest ih =>
    rw [collect, forEach, ih]
    simp only [bind_assoc, pure_bind]
    congr 1
    funext b
    cases b <;> rfl

theorem tells_collect {f : α → Report (Option β)} {items : List α} {a : α} (listed : a ∈ items)
    (tells : (f a).Tells p) : (collect f items).Tells p := by
  rw [collect_eq]
  exact tells_first (tells_forEach listed tells)

end Report

open Report (Tells tells_first tells_next tells_under tells_withoutMarks tells_forEach tells_collect)

variable {scope : Scope} {p : Ir.Finding → Prop} {options : Options} {d : ApiDocument}
  {file : Ir.File}

namespace RequestLowering

open ContentConflict (firstOf?)

-- The content of a body that is lowered to a schema: JSON, or else a form.
def schemaContent? (content : Entries MediaType) : Option (String × MediaType) :=
  (firstOf? .json content).or (firstOf? .formUrlEncoded content)

variable {body : RequestBody} {type : String} {media : MediaType}

theorem lowerContent_tells (chosen : schemaContent? body.content = some (type, media))
    (tells : (SchemaLowering.lowerOption scope.resolver scope.path true media.schema).Tells p) :
    (lowerContent scope body).Tells p := by
  rw [schemaContent?] at chosen
  simp only [lowerContent, chosen]
  exact tells_first tells

theorem lower_tells {node : RequestBodyNode} (stands : body? scope.resolver node = some body)
    (tells : (lowerContent scope body).Tells fun f => p (f.under ["requestBody"]))
    (location : String) : (lower scope location (some node)).Tells p := by
  refine tells_withoutMarks (tells_next fun found resolved => ?_)
  cases (resolve_resolves scope.resolver node).outcome.symm.trans resolved
  rw [stands]
  dsimp only
  split
  · exact fun _ done => nomatch done
  · exact tells_under tells

end RequestLowering

namespace Site

variable (scope : Scope) (s : Site)

def prepared : Report LoweredParameters := do
  Extension.checkUnknown s.operation.extensions
  ParameterLowering.lower scope s.shared s.operation.parameters

-- The lowering of an operation that clients call, and of one that is a webhook.
def answered : Report Ir.Endpoint := do
  let parameters ← s.prepared scope
  OperationLowering.lowerEndpoint scope s.path s.method s.operation parameters

def announced : Report (Option Ir.Webhook) := do
  let parameters ← s.prepared scope
  OperationLowering.lowerWebhook scope s.path s.method s.operation parameters.headers

theorem lowerOperation_site (lead : List String) (path : String) (item : PathItem)
    (e : HttpMethod × Operation) :
    OperationLowering.lowerOperation scope path item e.1 e.2 =
      if (ofOperation lead path item e).isMarked then do
        let webhook ← (ofOperation lead path item e).announced scope
        return ⟨[], webhook.toList⟩
      else do
        let endpoint ← (ofOperation lead path item e).answered scope
        return ⟨[endpoint], []⟩ := by
  have marked : (ofOperation lead path item e).isMarked =
      Extension.flag e.2.extensions Extension.webhookKey := rfl
  rw [OperationLowering.lowerOperation, marked]
  split <;> simp only [announced, answered, prepared, bind_assoc] <;> rfl

theorem mem_ofItems {lead : List String} {named : String → String}
    {items : Entries (Option PathItem)} (listed : s ∈ ofItems lead named items) :
    ∃ key item, (key, some item) ∈ items ∧
      ∃ e ∈ OperationLowering.kept item, s = ofOperation lead (named key) item e := by
  obtain ⟨⟨key, found⟩, here, inside⟩ := List.mem_flatMap.mp listed
  cases found with
  | none => cases inside
  | some item =>
    rw [Option.toList_some, List.flatMap_singleton] at inside
    obtain ⟨e, kept, same⟩ := List.mem_map.mp inside
    exact ⟨key, item, here, e, kept, same.symm⟩

end Site

variable {s : Site}

theorem Site.answered_request {node : RequestBodyNode} (own : s.operation.requestBody = some node)
    (tells : ∀ location, (RequestLowering.lower scope location (some node)).Tells p) :
    (s.answered scope).Tells p := by
  refine tells_next fun parameters _ => ?_
  rw [OperationLowering.lowerEndpoint, own]
  exact tells_first (tells _)

namespace DocumentLowering

open OperationLowering (normalizePath)

theorem lowerPaths_tells {items : List (String × Option PathItem)} {key : String} {item : PathItem}
    (listed : (key, some item) ∈ items) (seen : List Route)
    (tells : (OperationLowering.lowerItem scope key item).Tells p) :
    (lowerPaths scope seen items).Tells p := by
  induction items generalizing seen with
  | nil => cases listed
  | cons first rest ih =>
    obtain ⟨path, found⟩ := first
    rcases List.mem_cons.mp listed with same | there
    · cases same
      rw [lowerPaths]
      exact tells_first tells
    · cases found with
      | none => exact ih there seen
      | some other =>
        rw [lowerPaths]
        exact tells_next fun _ _ => tells_next fun _ _ => tells_first (ih there _)

theorem pathSite_tells {items : List (String × Option PathItem)} (seen : List Route)
    (listed : s ∈ Site.ofItems [] normalizePath items)
    (call : s.isMarked = false → (s.answered scope).Tells fun f => p (f.under s.keys))
    (event : s.isMarked = true → (s.announced scope).Tells fun f => p (f.under s.keys)) :
    (lowerPaths scope seen items).Tells p := by
  obtain ⟨key, item, here, e, kept, same⟩ := Site.mem_ofItems s listed
  subst same
  refine lowerPaths_tells here seen (tells_next fun _ _ => tells_first ?_)
  refine tells_forEach kept (tells_under ?_)
  rw [Site.lowerOperation_site scope [] (normalizePath key) item e]
  split
  · rename_i marked
    exact tells_first (event marked)
  · rename_i plain
    exact tells_first (call (Bool.eq_false_iff.mpr plain))

theorem call_tells (listed : s ∈ d.calls)
    (tells : (s.answered scope).Tells fun f => p (f.under s.keys)) : (lowerParts scope d).Tells p := by
  obtain ⟨here, plain⟩ := List.mem_filter.mp listed
  have unmarked : s.isMarked = false := by simpa using plain
  exact tells_first (pathSite_tells [] here (fun _ => tells)
    fun marked => nomatch unmarked.symm.trans marked)

theorem component_tells {id : String} {node : SchemaNode} (listed : (id, node) ∈ d.componentSchemas)
    (tells : (SchemaLowering.lowerComponent scope.resolver scope.path id node).Tells p) :
    (lowerParts scope d).Tells p := by
  refine tells_next fun _ _ => tells_next fun _ _ => tells_first ?_
  exact tells_forEach listed (tells_first tells)

end DocumentLowering

-- What the report on the parts of a document tells is in its representation.
theorem told_of_lower (done : d.lower options = .ok file) (tells : (d.report options).Tells p) :
    ∃ f ∈ file.errors, p f := by
  obtain ⟨title, description, parts, outcome, same⟩ := staged_of_lower done
  obtain ⟨f, here, is⟩ := tells parts outcome
  subst same
  exact ⟨f, List.mem_append_right _ here, is⟩

end ApiLowering
