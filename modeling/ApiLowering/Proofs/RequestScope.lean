import ApiLowering.Proofs.Assembly
import ApiLowering.Proofs.Closure

/-!
Requests and the references that are noted. Whatever the body of a request holds, however deep the
references in it lie, it changes nothing about the components that a document refers to from outside
of requests.
-/

set_option autoImplicit false

namespace ApiLowering

namespace Report

variable {α β γ : Type}

-- Two reports that note the same references if both succeed.
def SameMarks (a b : Report α) : Prop :=
  ∀ x y, a.outcome = .ok x → b.outcome = .ok y → a.marks = b.marks

theorem sameMarks_refl (a : Report α) : SameMarks a a := fun _ _ _ _ => rfl

theorem sameMarks_pure (a b : α) : SameMarks (pure a) (pure b) := fun _ _ _ _ => rfl

theorem sameMarks_under {a b : Report α} (keys : List String) (same : SameMarks a b) :
    SameMarks (a.under keys) (b.under keys) := same

theorem sameMarks_bind {a b : Report α} {f g : α → Report β} (first : SameMarks a b)
    (next : ∀ x y, SameMarks (f x) (g y)) : SameMarks (a >>= f) (b >>= g) := by
  intro v w left right
  obtain ⟨x, fromA, left⟩ := bind_ok left
  obtain ⟨y, fromB, right⟩ := bind_ok right
  rw [bind_of_ok fromA, bind_of_ok fromB, first x y fromA fromB, next x y v w left right]

-- What comes first is the same on both sides, and so what follows is given the same.
theorem sameMarks_after (a : Report α) {f g : α → Report β} (next : ∀ x, SameMarks (f x) (g x)) :
    SameMarks (a >>= f) (a >>= g) := by
  intro v w left right
  obtain ⟨x, done, left⟩ := bind_ok left
  obtain ⟨y, again, right⟩ := bind_ok right
  cases done.symm.trans again
  rw [bind_of_ok done, bind_of_ok done, next x v w left right]

theorem sameMarks_forEach {f g : α → Report γ} {items others : List α}
    (each : List.Forall₂ (fun a b => SameMarks (f a) (g b)) items others) :
    SameMarks (forEach f items) (forEach g others) := by
  induction each with
  | nil => exact sameMarks_refl _
  | cons first _ ih =>
    exact sameMarks_bind first fun _ _ => sameMarks_bind ih fun _ _ => sameMarks_pure _ _

end Report

open Report (SameMarks)

-- The same operation but for the body of its request, and that too if the operation is a webhook.
structure Operation.SameButRequest (o p : Operation) : Prop where
  rest : p = { o with requestBody := p.requestBody }
  webhook : Extension.flag o.extensions Extension.webhookKey = true → p.requestBody = o.requestBody

abbrev SameEntry (e f : HttpMethod × Operation) : Prop :=
  f.1 = e.1 ∧ e.2.SameButRequest f.2

structure PathItem.SameButRequests (a b : PathItem) : Prop where
  parameters : b.parameters = a.parameters
  extensions : b.extensions = a.extensions
  operations : List.Forall₂ SameEntry a.operations b.operations

-- The same document but for the bodies of the requests of endpoints.
structure ApiDocument.SameButRequests (d e : ApiDocument) : Prop where
  rest : e = { d with paths := e.paths }
  paths : List.Forall₂ (fun a b => b.1 = a.1 ∧ Option.Rel PathItem.SameButRequests a.2 b.2)
    d.paths e.paths

namespace ContentConflict

variable {policy : ConflictPolicy}

theorem resolveOperation_same {o p : Operation} (same : o.SameButRequest p) :
    Operation.SameButRequest { o with requestBody := o.requestBody.map (resolveBody policy) }
      { p with requestBody := p.requestBody.map (resolveBody policy) } where
  rest := by rw [same.rest]
  webhook flagged := congrArg (Option.map (resolveBody policy)) (same.webhook flagged)

theorem resolveItem_same {a b : PathItem} (same : a.SameButRequests b) :
    (resolveItem policy a).SameButRequests (resolveItem policy b) where
  parameters := same.parameters
  extensions := same.extensions
  operations := by
    rw [resolveItem, resolveItem, operations_mapped, operations_mapped, List.forall₂_map_left_iff,
      List.forall₂_map_right_iff]
    exact same.operations.imp fun _ _ one => ⟨one.1, resolveOperation_same one.2⟩

end ContentConflict

theorem ApiDocument.SameButRequests.resolved {d e : ApiDocument} (same : d.SameButRequests e)
    (policy : ConflictPolicy) : (d.resolveConflicts policy).SameButRequests (e.resolveConflicts policy) where
  rest := by
    rw [same.rest]
    rfl
  paths := by
    refine List.forall₂_map_left_iff.mpr (List.forall₂_map_right_iff.mpr ?_)
    refine same.paths.imp fun a b one => ⟨one.1, ?_⟩
    obtain ⟨path, item⟩ := a
    obtain ⟨key, other⟩ := b
    cases one.2 with
    | none => exact .none
    | some items => exact .some (ContentConflict.resolveItem_same items)

namespace OperationLowering

variable {scope : Scope} {path : String} {o p : Operation} {a b : PathItem}

theorem isIgnored_same (same : o.SameButRequest p) : isIgnored p = isIgnored o := by
  rw [same.rest]
  rfl

theorem kept_same (same : a.SameButRequests b) : List.Forall₂ SameEntry (kept a) (kept b) := by
  unfold kept
  have all := same.operations
  generalize a.operations = operations at all ⊢
  generalize b.operations = others at all ⊢
  induction all with
  | nil => exact .nil
  | @cons e f _ _ first _ ih =>
    have ignored := isIgnored_same first.2
    by_cases skipped : isIgnored e.2 = true
    · rwa [List.filter_cons_of_neg (by simpa using skipped),
        List.filter_cons_of_neg (by simpa [ignored] using skipped)]
    · rw [List.filter_cons_of_pos (by simpa using skipped),
        List.filter_cons_of_pos (by simpa [ignored] using skipped)]
      exact .cons first ih

theorem request_unmarked (location : String) (node : Option RequestBodyNode) :
    (RequestLowering.lower scope location node).marks = [] := by
  cases node <;> rfl

theorem lowerEndpoint_marks (same : o.SameButRequest p) (method : HttpMethod)
    (parameters : LoweredParameters) :
    SameMarks (lowerEndpoint scope path method o parameters)
      (lowerEndpoint scope path method p parameters) := by
  rw [same.rest]
  refine Report.sameMarks_bind ?_ fun request other => ?_
  · intro _ _ _ _
    rw [request_unmarked, request_unmarked]
  · exact Report.sameMarks_after _ fun _ => Report.sameMarks_pure _ _

theorem lowerOperation_marks (parameters : b.parameters = a.parameters)
    (same : o.SameButRequest p) (method : HttpMethod) :
    SameMarks (lowerOperation scope path a method o) (lowerOperation scope path b method p) := by
  unfold lowerOperation
  have flagged := same.webhook
  rw [parameters]
  have extensions : p.extensions = o.extensions := by rw [same.rest]
  have own : p.parameters = o.parameters := by rw [same.rest]
  rw [extensions, own]
  refine Report.sameMarks_after _ fun _ => Report.sameMarks_after _ fun lowered => ?_
  split
  · rename_i webhook
    have whole : p = o := by rw [same.rest, same.webhook webhook]
    rw [whole]
    exact Report.sameMarks_refl _
  · exact Report.sameMarks_bind (lowerEndpoint_marks same method lowered) fun _ _ =>
      Report.sameMarks_pure _ _

theorem lowerItem_marks (same : a.SameButRequests b) (path : String) :
    SameMarks (lowerItem scope path a) (lowerItem scope path b) := by
  unfold lowerItem
  rw [same.extensions]
  refine Report.sameMarks_after _ fun _ => ?_
  refine Report.sameMarks_bind (Report.sameMarks_forEach ?_) fun _ _ => Report.sameMarks_pure _ _
  refine (kept_same same).imp fun e f one => ?_
  rw [one.1]
  exact Report.sameMarks_under _ (lowerOperation_marks same.parameters one.2 e.1)

end OperationLowering

namespace DocumentLowering

variable {scope : Scope}

theorem dropRepeats_unmarked (seen : List Route) (endpoints : List Ir.Endpoint) :
    (dropRepeats seen endpoints).marks = [] := by
  induction endpoints generalizing seen with
  | nil => rfl
  | cons e rest ih =>
    rw [dropRepeats]
    split
    · exact ih seen
    · cases later : (dropRepeats (route e :: seen) rest).outcome with
      | error cause =>
        change (Report.bind _ _).marks = []
        rw [Report.bind, later]
        exact ih _
      | ok more =>
        rw [Report.bind_of_ok later, ih]
        rfl

theorem lowerPaths_marks {items others : Entries (Option PathItem)}
    (same : List.Forall₂ (fun a b => b.1 = a.1 ∧ Option.Rel PathItem.SameButRequests a.2 b.2)
      items others) (seen reached : List Route) :
    SameMarks (lowerPaths scope seen items) (lowerPaths scope reached others) := by
  -- which endpoints were seen before decides on findings and never on a mark
  induction same generalizing seen reached with
  | nil => exact Report.sameMarks_refl _
  | @cons e f _ _ first _ ih =>
    obtain ⟨path, item⟩ := e
    obtain ⟨key, other⟩ := f
    obtain ⟨aligned, first⟩ := first
    dsimp only at aligned
    subst aligned
    cases first with
    | none => exact ih seen reached
    | some items =>
      rw [lowerPaths, lowerPaths]
      refine Report.sameMarks_bind (OperationLowering.lowerItem_marks items key) fun _ _ => ?_
      refine Report.sameMarks_bind (fun _ _ _ _ => ?_) fun _ _ => ?_
      · rw [dropRepeats_unmarked, dropRepeats_unmarked]
      · exact Report.sameMarks_bind (ih _ _) fun _ _ => Report.sameMarks_pure _ _

theorem lowerParts_marks {d e : ApiDocument} (same : d.SameButRequests e) (scope : Scope) :
    SameMarks (lowerParts scope d) (lowerParts scope e) := by
  have paths : SameMarks (lowerPaths scope [] d.paths) (lowerPaths scope [] e.paths) :=
    lowerPaths_marks same.paths [] []
  rw [same.rest]
  refine Report.sameMarks_bind paths fun onPaths onOthers => ?_
  -- everything else is lowered from what the two documents have in common
  refine Report.sameMarks_after _ fun _ => Report.sameMarks_after _ fun _ => ?_
  refine Report.sameMarks_after _ fun _ => Report.sameMarks_after _ fun _ => ?_
  exact Report.sameMarks_after _ fun _ => Report.sameMarks_pure _ _

end DocumentLowering

variable {options : Options} {d e : ApiDocument} {file other : Ir.File}

theorem ApiDocument.SameButRequests.scope (same : d.SameButRequests e) (options : Options) :
    e.loweringScope options = d.loweringScope options := by
  rw [same.rest]
  rfl

/-- Two documents that differ in nothing but the requests of their endpoints refer to the same
components from outside of requests. -/
theorem requests_unreferenced (same : d.SameButRequests e) (done : d.lower options = .ok file)
    (also : e.lower options = .ok other) :
    other.nonRequestReferencedSchemas = file.nonRequestReferencedSchemas := by
  obtain ⟨_, _, parts, first, made⟩ := staged_of_lower done
  obtain ⟨_, _, others, second, madeToo⟩ := staged_of_lower also
  have marks : (d.report options).marks = (e.report options).marks := by
    refine DocumentLowering.lowerParts_marks (same.resolved options.contentConflict)
      (d.loweringScope options) parts others first ?_ |>.trans ?_
    · rw [← same.scope]
      exact second
    · rw [← same.scope]
      rfl
  subst made
  subst madeToo
  exact (congrArg sortedSet marks).symm

-- A delivery of pets, the request of which is given.
def restock (content : Entries MediaType) : Operation :=
  { Operation.record.blank with
    requestBody := some (.inline { RequestBody.record.blank with content })
    responses := [("200", .inline { Response.record.blank with
      content := [("application/json",
        ⟨some (.reference (Pointer.ofSchema "Pet")), [], []⟩)] })] }

def warehouse (content : Entries MediaType) : ApiDocument :=
  { ApiDocument.ofSchemas [("Delivery", .ofType .string), ("Pet", .ofType .string)] with
    paths := [("/pets", some { PathItem.record.blank with post := some (restock content) })] }

theorem warehouse_same (content others : Entries MediaType) :
    (warehouse content).SameButRequests (warehouse others) where
  rest := rfl
  paths := .cons ⟨rfl, .some ⟨rfl, rfl, .cons ⟨rfl, rfl, fun flagged => nomatch flagged⟩ .nil⟩⟩ .nil

theorem warehouse_unreferenced :
    ∃ file other,
      (warehouse [("application/json",
        ⟨some (.reference (Pointer.ofSchema "Delivery")), [], []⟩)]).lower .default = .ok file ∧
      (warehouse [("multipart/form-data", ⟨some (.ofProperties
        [("pet", .reference (Pointer.ofSchema "Pet"))]), [], []⟩)]).lower .default = .ok other ∧
      file.nonRequestReferencedSchemas = ["Pet"] ∧
      other.nonRequestReferencedSchemas = ["Pet"] := by
  have delivered : ((warehouse [("application/json",
      ⟨some (.reference (Pointer.ofSchema "Delivery")), [], []⟩)]).lower .default).toOption.any
        (fun file => file.nonRequestReferencedSchemas == ["Pet"]) = true := by decide +kernel
  have sent : ((warehouse [("multipart/form-data", ⟨some (.ofProperties
      [("pet", .reference (Pointer.ofSchema "Pet"))]), [], []⟩)]).lower .default).toOption.any
        (fun _ => true) = true := by decide +kernel
  obtain ⟨file, done, listed⟩ := ok_of_any delivered
  obtain ⟨other, also, -⟩ := ok_of_any sent
  have referenced := beq_iff_eq.mp listed
  have same := requests_unreferenced (warehouse_same _ _) done also
  exact ⟨file, other, done, also, referenced, same.trans referenced⟩

end ApiLowering
