import Mathlib.Data.List.Forall2
import ApiLowering.Lowering.Report

/-!
Reasoning about reports: what every outcome of a report is like, how a successful outcome is made of
those of its parts, what the references are that it notes, and when two reports with successful
outcomes are the same.
-/

set_option autoImplicit false

namespace ApiLowering.Report

variable {α β γ : Type} {good : α → Prop} {better : β → Prop} {bad : LoweringError → Prop}

theorem bind_ok {r : Report α} {f : α → Report β} {b : β} (done : (r >>= f).outcome = .ok b) :
    ∃ a, r.outcome = .ok a ∧ (f a).outcome = .ok b := by
  change (r.bind f).outcome = .ok b at done
  cases outcome : r.outcome with
  | error e =>
    simp only [Report.bind, outcome] at done
    cases done
  | ok a =>
    simp only [Report.bind, outcome] at done
    exact ⟨a, rfl, done⟩

theorem pure_ok {a b : α} (done : (pure a : Report α).outcome = .ok b) : a = b :=
  Except.ok.inj done

theorem bind_of_ok {r : Report α} {f : α → Report β} {a : α} (done : r.outcome = .ok a) :
    r >>= f = ⟨r.findings ++ (f a).findings, r.marks ++ (f a).marks, (f a).outcome⟩ := by
  change r.bind f = _
  simp only [Report.bind, done]

theorem bind_of_error {r : Report α} {f : α → Report β} {e : LoweringError}
    (failed : r.outcome = .error e) : r >>= f = ⟨r.findings, r.marks, .error e⟩ := by
  change r.bind f = _
  simp only [Report.bind, failed]

theorem pure_next (a : α) (f : α → Report β) : pure a >>= f = f a := by
  rw [bind_of_ok rfl]
  rfl

theorem bind_next (r : Report α) (f : α → Report β) (g : β → Report γ) :
    r >>= f >>= g = r >>= fun a => f a >>= g := by
  cases outcome : r.outcome with
  | error e => rw [bind_of_error outcome, bind_of_error outcome, bind_of_error rfl]
  | ok a =>
    rw [bind_of_ok outcome, bind_of_ok outcome]
    cases next : (f a).outcome with
    | error e => rw [bind_of_error next, bind_of_error rfl]
    | ok b => rw [bind_of_ok next, bind_of_ok rfl, List.append_assoc, List.append_assoc]

theorem next_pure (r : Report α) : r >>= pure = r := by
  cases outcome : r.outcome with
  | error e => rw [bind_of_error outcome, ← outcome]
  | ok a =>
    rw [bind_of_ok outcome]
    change Report.mk (r.findings ++ []) (r.marks ++ []) (.ok a) = r
    rw [List.append_nil, List.append_nil, ← outcome]

instance : LawfulMonad Report := LawfulMonad.mk' Report next_pure pure_next bind_next

theorem under_bind (keys : List String) (r : Report α) (f : α → Report β) :
    (r >>= f).under keys = r.under keys >>= fun a => (f a).under keys := by
  cases outcome : r.outcome with
  | error e =>
    have failed : (r.under keys).outcome = .error e := outcome
    rw [bind_of_error outcome, bind_of_error failed]
    rfl
  | ok a =>
    have done : (r.under keys).outcome = .ok a := outcome
    rw [bind_of_ok outcome, bind_of_ok done]
    simp only [under, List.map_append]

theorem under_under (keys more : List String) (r : Report α) :
    (r.under more).under keys = r.under (keys ++ more) := by
  unfold under
  rw [List.map_map]
  have finding : Ir.Finding.under keys ∘ Ir.Finding.under more = Ir.Finding.under (keys ++ more) := by
    funext f
    simp only [Function.comp_apply, Ir.Finding.under, List.append_assoc]
  rw [finding]

theorem bind_silent {r : Report α} {f : α → Report β} {a : α} (done : r.outcome = .ok a)
    (silent : (r >>= f).findings = []) : r.findings = [] ∧ (f a).findings = [] := by
  rw [bind_of_ok done] at silent
  exact List.append_eq_nil_iff.mp silent

theorem under_silent {r : Report α} {keys : List String} (silent : (r.under keys).findings = []) :
    r.findings = [] := List.map_eq_nil_iff.mp silent

theorem forEach_ok {f : α → Report β} {items : List α} {bs : List β}
    (done : (forEach f items).outcome = .ok bs) :
    List.Forall₂ (fun a b => (f a).outcome = .ok b) items bs := by
  induction items generalizing bs with
  | nil =>
    cases pure_ok done
    exact .nil
  | cons a rest ih =>
    obtain ⟨b, first, done⟩ := bind_ok done
    obtain ⟨more, later, done⟩ := bind_ok done
    cases pure_ok done
    exact .cons first (ih later)

theorem forEach_silent {f : α → Report β} {items : List α} {bs : List β}
    (done : (forEach f items).outcome = .ok bs) (silent : (forEach f items).findings = []) :
    ∀ a ∈ items, (f a).findings = [] := by
  induction items generalizing bs with
  | nil => exact fun _ here => absurd here List.not_mem_nil
  | cons a rest ih =>
    obtain ⟨b, first, done⟩ := bind_ok done
    obtain ⟨more, later, -⟩ := bind_ok done
    obtain ⟨here, silent⟩ := bind_silent first silent
    exact List.forall_mem_cons.mpr ⟨here, ih later (bind_silent later silent).1⟩

theorem forEach_attach (f : α → Report β) (items : List α) :
    forEach (fun a : { a // a ∈ items } => f a.1) items.attach = forEach f items := by
  -- over any list of such elements, since the tail of what is attached is not attached itself
  have spread (mapped : List { a // a ∈ items }) :
      forEach (fun a : { a // a ∈ items } => f a.1) mapped =
        forEach f (mapped.map Subtype.val) := by
    induction mapped with
    | nil => rfl
    | cons a rest ih => simp only [forEach, List.map_cons, ih]
  rw [spread, List.attach_map_subtype_val]

theorem forEach_congr {f g : α → Report β} {items : List α} (same : ∀ a ∈ items, f a = g a) :
    forEach f items = forEach g items := by
  induction items with
  | nil => rfl
  | cons a rest ih =>
    rw [forEach, forEach, same a List.mem_cons_self,
      ih fun b here => same b (List.mem_cons_of_mem _ here)]

theorem oneMore_ok {next : Report (Option α)} {later : Report (List α)} {all : List α}
    (done : (do
      let found ← next
      let more ← later
      return found.toList ++ more : Report (List α)).outcome = .ok all) :
    ∃ found more, next.outcome = .ok found ∧ later.outcome = .ok more ∧ all = found.toList ++ more := by
  obtain ⟨found, first, done⟩ := bind_ok done
  obtain ⟨more, rest, done⟩ := bind_ok done
  exact ⟨found, more, first, rest, (pure_ok done).symm⟩

-- What is collected has the keys of what it was made from, in order.
theorem collect_sublist {κ : Type} {f : α → Report (Option β)} {key : α → κ} {made : β → κ}
    {items : List α} {all : List β}
    (each : ∀ a b, (f a).outcome = .ok (some b) → made b = key a)
    (done : (collect f items).outcome = .ok all) : (all.map made).Sublist (items.map key) := by
  induction items generalizing all with
  | nil =>
    cases pure_ok done
    exact List.Sublist.slnil
  | cons a rest ih =>
    obtain ⟨found, more, first, later, rfl⟩ := oneMore_ok done
    cases found with
    | none => exact (ih later).cons (key a)
    | some b =>
      have own : made b = key a := each a b first
      simpa [own] using (ih later).cons_cons (key a)

/-- A logic of reports: what it says of a report is about the outcome, it says something of a report
that is put together as soon as it does of the parts, and it does not matter to it where findings lie. -/
structure Logic where
  Holds {α : Type} : (α → Prop) → Report α → Prop
  holds_pure {α : Type} {good : α → Prop} {a : α} (is : good a) : Holds good (pure a)
  holds_bind {α β : Type} {good : α → Prop} {better : β → Prop} {r : Report α} {f : α → Report β}
    (first : Holds good r) (next : ∀ a, r.outcome = .ok a → good a → Holds better (f a)) :
    Holds better (r >>= f)
  holds_under {α : Type} {good : α → Prop} {r : Report α} (keys : List String)
    (holds : Holds good r) : Holds good (r.under keys)

namespace Logic

variable (logic : Logic) {r : Report α}

theorem holds_next {f : α → Report β} (first : logic.Holds good r)
    (next : ∀ a, good a → logic.Holds better (f a)) : logic.Holds better (r >>= f) :=
  logic.holds_bind first fun a _ => next a

theorem holds_mono {fits : α → Prop} (holds : logic.Holds good r) (imp : ∀ a, good a → fits a) :
    logic.Holds fits r := by
  rw [← next_pure r]
  exact logic.holds_next holds fun a is => logic.holds_pure (imp a is)

theorem holds_outcome (holds : logic.Holds good r) :
    logic.Holds (fun a => good a ∧ r.outcome = .ok a) r := by
  have traced : logic.Holds (fun a => good a ∧ r.outcome = .ok a) (r >>= pure) :=
    logic.holds_bind holds fun a done is => logic.holds_pure ⟨is, done⟩
  rwa [next_pure] at traced

theorem holds_forEach {f : α → Report β} {items : List α}
    (each : ∀ a ∈ items, logic.Holds better (f a)) :
    logic.Holds (fun bs => ∀ b ∈ bs, better b) (forEach f items) := by
  induction items with
  | nil => exact logic.holds_pure fun _ here => absurd here List.not_mem_nil
  | cons a rest ih =>
    refine logic.holds_next (each a List.mem_cons_self) fun b is => ?_
    have later := ih fun x here => each x (List.mem_cons_of_mem _ here)
    refine logic.holds_next later fun more others => ?_
    exact logic.holds_pure (List.forall_mem_cons.mpr ⟨is, others⟩)

theorem holds_none : logic.Holds (fun found => ∀ b ∈ found, better b) (pure none : Report _) :=
  logic.holds_pure fun _ here => absurd here (Option.not_mem_none _)

theorem holds_some {b : β} (is : better b) :
    logic.Holds (fun found => ∀ b ∈ found, better b) (pure (some b) : Report _) :=
  logic.holds_pure fun _ here => Option.some.inj here ▸ is

theorem holds_oneMore {next : Report (Option β)} {later : Report (List β)}
    (first : logic.Holds (fun found => ∀ b ∈ found, better b) next)
    (rest : logic.Holds (fun bs => ∀ b ∈ bs, better b) later) :
    logic.Holds (fun bs => ∀ b ∈ bs, better b) (do
      let found ← next
      let more ← later
      return found.toList ++ more) := by
  refine logic.holds_next first fun found is => logic.holds_next rest fun more others => ?_
  refine logic.holds_pure fun b here => ?_
  rcases List.mem_append.mp here with here | there
  · exact is b (Option.mem_toList.mp here)
  · exact others b there

theorem holds_collect {f : α → Report (Option β)} {items : List α}
    (each : ∀ a ∈ items, logic.Holds (fun found => ∀ b ∈ found, better b) (f a)) :
    logic.Holds (fun bs => ∀ b ∈ bs, better b) (collect f items) := by
  induction items with
  | nil => exact logic.holds_pure fun _ here => absurd here List.not_mem_nil
  | cons a rest ih =>
    exact logic.holds_oneMore (each a List.mem_cons_self)
      (ih fun x here => each x (List.mem_cons_of_mem _ here))

end Logic

-- Every successful outcome is good, every failure is of the bad kind.
def Ensures (good : α → Prop) (bad : LoweringError → Prop) (r : Report α) : Prop :=
  match r.outcome with
  | .ok a => good a
  | .error e => bad e

theorem ensures_ok {r : Report α} (ensured : Ensures good bad r) {a : α}
    (done : r.outcome = .ok a) : good a := by
  simpa only [Ensures, done] using ensured

theorem ensures_error {r : Report α} (ensured : Ensures good bad r) {e : LoweringError}
    (failed : r.outcome = .error e) : bad e := by
  simpa only [Ensures, failed] using ensured

theorem ensures_mono {r : Report α} {fine : α → Prop} (ensured : Ensures good bad r)
    (imp : ∀ a, good a → fine a) : Ensures fine bad r := by
  unfold Ensures at ensured ⊢
  split at ensured
  · exact imp _ ensured
  · exact ensured

theorem ensures_outcome {r : Report α} (ensured : Ensures good bad r) :
    Ensures (fun a => good a ∧ r.outcome = .ok a) bad r := by
  cases outcome : r.outcome with
  | error e =>
    have failed := ensures_error ensured outcome
    simpa only [Ensures, outcome] using failed
  | ok a =>
    have done := ensures_ok ensured outcome
    simpa only [Ensures, outcome, and_true] using done

theorem ensures_pure {a : α} (fine : good a) : Ensures good bad (pure a : Report α) := fine

theorem ensures_under {r : Report α} (keys : List String) (ensured : Ensures good bad r) :
    Ensures good bad (r.under keys) := ensured

theorem ensures_withoutMarks {r : Report α} (ensured : Ensures good bad r) :
    Ensures good bad r.withoutMarks := ensured

theorem ensures_bind {r : Report α} {f : α → Report β} (first : Ensures good bad r)
    (next : ∀ a, good a → Ensures better bad (f a)) : Ensures better bad (r >>= f) := by
  change Ensures better bad (r.bind f)
  cases outcome : r.outcome with
  | error e =>
    have failed := ensures_error first outcome
    simpa only [Ensures, Report.bind, outcome] using failed
  | ok a =>
    have rest := next a (ensures_ok first outcome)
    simpa only [Ensures, Report.bind, outcome] using rest

-- Partial knowledge of outcomes, and of failures.
def ensuring (bad : LoweringError → Prop) : Logic where
  Holds good r := Ensures good bad r
  holds_pure := ensures_pure
  holds_bind first next :=
    ensures_bind (ensures_outcome first) fun a fine => next a fine.2 fine.1
  holds_under := ensures_under

abbrev Only (bad : LoweringError → Prop) (r : Report α) : Prop := Ensures (fun _ => True) bad r

-- A report whose successful outcome is good and which notes nothing but fine references.
structure Certified (good : α → Prop) (fine : String → Prop) (r : Report α) : Prop where
  outcome : ∀ a, r.outcome = .ok a → good a
  marks : ∀ id ∈ r.marks, fine id

section

variable {fine : String → Prop} {r : Report α}

theorem certified_fail (e : LoweringError) : Certified good fine (fail e : Report α) :=
  ⟨fun _ done => (nomatch done), fun _ here => absurd here List.not_mem_nil⟩

theorem certified_any (r : Report α) : Certified (fun _ => True) (fun _ => True) r :=
  ⟨fun _ _ => trivial, fun _ _ => trivial⟩

theorem certified_findings (findings : List Ir.Finding) {a : α} (is : good a) :
    Certified good fine (⟨findings, [], .ok a⟩ : Report α) :=
  ⟨fun _ done => Except.ok.inj done ▸ is, fun _ here => absurd here List.not_mem_nil⟩

theorem certified_pure {a : α} (is : good a) : Certified good fine (pure a : Report α) :=
  certified_findings [] is

theorem certified_mark {id : String} (is : fine id) :
    Certified (fun _ => True) fine (mark id) :=
  ⟨fun _ _ => trivial, fun _ here => List.mem_singleton.mp here ▸ is⟩

theorem certified_mono {fits : α → Prop} (certified : Certified good fine r)
    (imp : ∀ a, good a → fits a) : Certified fits fine r :=
  ⟨fun a done => imp a (certified.outcome a done), certified.marks⟩

theorem certified_under (keys : List String) (certified : Certified good fine r) :
    Certified good fine (r.under keys) := ⟨certified.outcome, certified.marks⟩

theorem certified_withoutMarks (certified : Certified good fine r) :
    Certified good fine r.withoutMarks :=
  ⟨certified.outcome, fun _ here => absurd here List.not_mem_nil⟩

theorem certified_attempt (certified : Certified good fine r) :
    Certified (fun found => ∀ a, found = .ok a → good a) fine r.attempt := by
  refine ⟨fun found done a same => certified.outcome a ?_, certified.marks⟩
  cases done
  exact same

theorem certified_bind {f : α → Report β} (first : Certified good fine r)
    (next : ∀ a, good a → Certified better fine (f a)) : Certified better fine (r >>= f) := by
  cases outcome : r.outcome with
  | error e =>
    have stops : r >>= f = ⟨r.findings, r.marks, .error e⟩ := by
      change r.bind f = _
      simp only [Report.bind, outcome]
    rw [stops]
    exact ⟨fun _ done => (nomatch done), first.marks⟩
  | ok a =>
    have rest := next a (first.outcome a outcome)
    rw [bind_of_ok outcome]
    refine ⟨rest.outcome, fun id here => ?_⟩
    rcases List.mem_append.mp here with before | after
    · exact first.marks id before
    · exact rest.marks id after

theorem certified_outcome (certified : Certified good fine r) :
    Certified (fun a => good a ∧ r.outcome = .ok a) fine r :=
  ⟨fun a done => ⟨certified.outcome a done, done⟩, certified.marks⟩

def certifying (fine : String → Prop) : Logic where
  Holds good r := Certified good fine r
  holds_pure := certified_pure
  holds_bind first next :=
    certified_bind (certified_outcome first) fun a is => next a is.2 is.1
  holds_under := certified_under

theorem certified_collect {f : α → Report (Option β)} {items : List α}
    (each : ∀ a ∈ items, Certified (fun found => ∀ b ∈ found, better b) fine (f a)) :
    Certified (fun bs => ∀ b ∈ bs, better b) fine (collect f items) :=
  (certifying fine).holds_collect each

/-- Every successful outcome of the report is good. -/
abbrev Yields (good : α → Prop) (r : Report α) : Prop := Certified good (fun _ => True) r

theorem yields_intro (each : ∀ a, r.outcome = .ok a → good a) : Yields good r :=
  ⟨each, fun _ _ => trivial⟩

end

-- Two reports that are the same if both succeed.
def Agree (a b : Report α) : Prop :=
  ∀ x y, a.outcome = .ok x → b.outcome = .ok y → a = b

theorem agree_refl (a : Report α) : Agree a a := fun _ _ _ _ => rfl

theorem agree_under {a b : Report α} (keys : List String) (same : Agree a b) :
    Agree (a.under keys) (b.under keys) := by
  intro x y first second
  rw [same x y first second]

theorem agree_bind {a b : Report α} {f g : α → Report β} (same : Agree a b)
    (next : ∀ x, Agree (f x) (g x)) : Agree (a >>= f) (b >>= g) := by
  intro y z first second
  obtain ⟨x, fromA, first⟩ := bind_ok first
  obtain ⟨w, fromB, second⟩ := bind_ok second
  have equal := same x w fromA fromB
  subst equal
  cases fromA.symm.trans fromB
  rw [bind_of_ok fromA, bind_of_ok fromA, next x y z first second]

theorem forEach_agree {f g : α → Report β} (key : α → γ) {items others : List α}
    (keys : items.map key = others.map key)
    (each : ∀ a ∈ items, ∀ b ∈ others, key a = key b → Agree (f a) (g b)) :
    Agree (forEach f items) (forEach g others) := by
  induction items generalizing others with
  | nil =>
    cases List.map_eq_nil_iff.mp keys.symm
    exact agree_refl _
  | cons a rest ih =>
    cases others with
    | nil => cases keys
    | cons b more =>
      obtain ⟨same, keys⟩ := List.cons.inj keys
      refine agree_bind (each a List.mem_cons_self b List.mem_cons_self same) fun x => ?_
      refine agree_bind (ih keys fun c here d there => ?_) fun _ => agree_refl _
      exact each c (List.mem_cons_of_mem _ here) d (List.mem_cons_of_mem _ there)

end ApiLowering.Report
