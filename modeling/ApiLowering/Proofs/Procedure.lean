import ApiLowering.Lowering.Context
import ApiLowering.Proofs.Delivery

/-!
Procedures: what is done to a context step by step, in the order in which it is done, and with a
failure that may come in the middle of it. A procedure performs a report if it leaves every context as
running the report would; whatever it opens on the way it has closed then.
-/

set_option autoImplicit false

namespace ApiLowering

-- What something done to a context leaves alone: the path of open references with the rest of the
-- scope, the discriminants, and whether the context is in a request. What was found before is still
-- there, in front of anything new; references are noted in addition, and outside requests only.
structure Context.Frame (before after : Context) : Prop where
  scope : after.scope = before.scope
  discriminants : after.discriminants = before.discriminants
  inRequest : after.inRequest = before.inRequest
  findings : before.findings <+: after.findings
  referenced : before.referenced ⊆ after.referenced
  silent : before.inRequest = true → after.referenced = before.referenced

namespace Context

variable {α β : Type}

def noted (c : Context) (marks : List String) : List String :=
  if c.inRequest then c.referenced
  else marks.foldl (fun set id => insertSorted id set) c.referenced

theorem foldl_mark (c : Context) (marks : List String) :
    marks.foldl mark c = { c with referenced := c.noted marks } := by
  induction marks generalizing c with
  | nil =>
    unfold noted
    split <;> rfl
  | cons id rest ih =>
    rw [List.foldl_cons, ih, mark, noted, noted]
    by_cases inside : c.inRequest = true
    · simp only [inside, if_true]
    · simp only [inside, if_false, Bool.false_eq_true, List.foldl_cons]

theorem run_eq (c : Context) (report : Report α) :
    c.run report = (report.outcome,
      { c with
        findings := c.findings ++ report.findings
        referenced := c.noted report.marks }) := by
  rw [run, foldl_mark]
  rfl

theorem noted_append (c : Context) (marks more : List String) :
    c.noted (marks ++ more) = { c with referenced := c.noted marks }.noted more := by
  unfold noted
  split
  · rfl
  · rw [List.foldl_append]

theorem noted_subset (c : Context) (marks : List String) : c.referenced ⊆ c.noted marks := by
  unfold noted
  split
  · exact List.Subset.refl _
  · generalize c.referenced = set
    induction marks generalizing set with
    | nil => exact List.Subset.refl _
    | cons id rest ih =>
      exact List.Subset.trans (fun t listed => mem_insertSorted.mpr (.inr listed)) (ih _)

theorem run_silent (c : Context) {report : Report α} (silent : report.findings = [])
    (unmarked : report.marks = []) : c.run report = (report.outcome, c) := by
  rw [run, silent, unmarked, List.append_nil]
  rfl

theorem run_frame (c : Context) (report : Report α) : c.Frame (c.run report).2 := by
  rw [run_eq]
  exact ⟨rfl, rfl, rfl, List.prefix_append _ _, noted_subset c _, fun inside => if_pos inside⟩

theorem run_bind (c : Context) (report : Report α) (f : α → Report β) :
    c.run (report >>= f) =
      match c.run report with
      | (.ok a, after) => after.run (f a)
      | (.error e, after) => (.error e, after) := by
  rw [run_eq, run_eq]
  cases outcome : report.outcome with
  | error e =>
    rw [Report.bind_of_error outcome]
  | ok a =>
    rw [Report.bind_of_ok outcome]
    dsimp only
    rw [run_eq, List.append_assoc, noted_append]
    rfl

end Context

abbrev Procedure : Type → Type := ExceptT LoweringError (StateM Context)

namespace Procedure

variable {α β : Type}

def on (p : Procedure α) (c : Context) : Except LoweringError α × Context := p.run.run c

def record (finding : Ir.Finding) : Procedure Unit := modify fun c => c.record finding

def mark (id : String) : Procedure Unit := modify fun c => c.mark id

-- What finds and notes things at once.
def leaf (keys : List String) (report : Report α) : Procedure α :=
  ExceptT.mk fun c => c.run (report.under keys)

def withResolver (f : Resolver → Procedure α) : Procedure α := do
  let c ← get
  f c.scope.resolver

-- Closes the last reference that was opened when the procedure is over, whether it failed or not.
def closing (p : Procedure α) : Procedure α :=
  ExceptT.mk do
    let result ← p.run
    modify Context.exit
    return result

def entering (pointer : String) (inner : Procedure α) : Procedure α := do
  match (← get).enter pointer with
  | .error e => throw (.resolve e)
  | .ok opened =>
    set opened
    closing inner

theorem on_pure (a : α) (c : Context) : (pure a : Procedure α).on c = (.ok a, c) := rfl

theorem on_bind (p : Procedure α) (f : α → Procedure β) (c : Context) :
    (p >>= f).on c =
      match p.on c with
      | (.ok a, after) => (f a).on after
      | (.error e, after) => (.error e, after) := by
  simp only [on, ExceptT.run_bind, StateT.run_bind]
  generalize p.run.run c = done
  obtain ⟨result, after⟩ := done
  cases result <;> rfl

theorem on_closing (p : Procedure α) (c : Context) :
    (closing p).on c = ((p.on c).1, (p.on c).2.exit) := rfl

theorem on_entering (pointer : String) (inner : Procedure α) (c : Context) :
    (entering pointer inner).on c =
      match c.enter pointer with
      | .error e => (.error (.resolve e), c)
      | .ok opened => (closing inner).on opened := by
  unfold entering
  rw [on_bind]
  change Procedure.on (match c.enter pointer with | .error e => _ | .ok opened => _) c = _
  cases c.enter pointer with
  | error e => rfl
  | ok opened =>
    dsimp only
    rw [on_bind]
    rfl

-- In the scope, the procedure does to a context what running the report under the keys does to it.
def Performs (scope : Scope) (keys : List String) (p : Procedure α) (report : Report α) : Prop :=
  ∀ c, c.scope = scope → p.on c = c.run (report.under keys)

section

variable {scope : Scope} {keys : List String} {p : Procedure α} {report : Report α}

theorem performs_pure (a : α) : Performs scope keys (pure a) (pure a) := by
  intro c _
  rw [on_pure, Context.run_silent c rfl rfl]
  rfl

theorem performs_bind {f : α → Procedure β} {g : α → Report β}
    (first : Performs scope keys p report) (next : ∀ a, Performs scope keys (f a) (g a)) :
    Performs scope keys (p >>= f) (report >>= g) := by
  intro c within
  rw [on_bind, first c within, Report.under_bind, Context.run_bind]
  cases outcome : c.run (report.under keys) with
  | mk result after =>
    have framed := (Context.run_frame c (report.under keys)).scope
    rw [outcome] at framed
    cases result with
    | error e => rfl
    | ok a => exact next a after (framed.trans within)

theorem performs_return (performs : Performs scope keys p report) (f : α → β) :
    Performs scope keys (p >>= fun a => pure (f a)) (report >>= fun a => pure (f a)) :=
  performs_bind performs fun a => performs_pure (f a)

-- The keys that a procedure is told are those that its report lies under.
theorem performs_under {more : List String} (performs : Performs scope (keys ++ more) p report) :
    Performs scope keys p (report.under more) := by
  intro c within
  rw [performs c within, Report.under_under]

theorem performs_leaf (keys : List String) (report : Report α) :
    Performs scope keys (leaf keys report) report := fun _ _ => rfl

theorem performs_withResolver {f : Resolver → Procedure α}
    (performs : Performs scope keys (f scope.resolver) report) :
    Performs scope keys (withResolver f) report := by
  intro c within
  rw [← performs c within, ← within]
  rfl

theorem performs_entering {pointer : String} {deeper : List String}
    (entered : scope.resolver.enter scope.path pointer = .ok deeper)
    (performs : Performs { scope with path := deeper } keys p report) :
    Performs scope keys (entering pointer p) report := by
  intro c within
  have opened : c.enter pointer = .ok { c with scope := { scope with path := deeper } } := by
    rw [Context.enter, within, entered]
    rfl
  obtain ⟨-, added⟩ := Resolver.enter_ok entered
  rw [on_entering, opened]
  dsimp only
  -- what the report adds does not touch the path, whose last reference is closed again
  rw [on_closing, performs _ rfl, Context.run_eq, Context.run_eq]
  simp only [Context.exit, added, List.dropLast_concat, ← within]
  rfl

theorem performs_refused {pointer : String} {e : ResolveError}
    (refused : scope.resolver.enter scope.path pointer = .error e) :
    Performs scope keys (entering pointer p) (Report.fail (.resolve e)) := by
  intro c within
  have failed : c.enter pointer = .error e := by
    rw [Context.enter, within, refused]
    rfl
  rw [on_entering, failed, Context.run_silent c rfl rfl]
  rfl

end

end Procedure

end ApiLowering
