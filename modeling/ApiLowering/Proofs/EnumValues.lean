import ApiLowering.Proofs.FirstWins
import ApiLowering.Proofs.Rules

/-!
What becomes of the values of an enumeration. Each of them, in order, is kept as the next member, is null
and makes the enumeration nullable, or is dropped with one finding: because it is a list or an object,
because its name is empty, or because a member before it has the same name in screaming snake case. So of
values whose names collide it is the first one that stays.
-/

set_option autoImplicit false

namespace ApiLowering

namespace Extension

-- The text that a value of an enumeration is named after, by an override or by itself.
def givenName (overrides : Entries EnumOverride) (text : String) : String :=
  ((Entries.get? text overrides).bind EnumOverride.name).getD text

theorem enumOverrides_ok (extensions : Entries Json) :
    ∃ overrides,
      enumOverrides extensions = ⟨(enumOverrides extensions).findings, [], .ok overrides⟩ := by
  unfold enumOverrides
  split
  · exact ⟨[], rfl⟩
  · split
    · exact ⟨_, rfl⟩
    · exact ⟨[], rfl⟩

end Extension

namespace Enumeration

open Extension (EnumOverride givenName enumOverrides enumOverrides_ok)

-- The member that a value stands for: its text is the value and stands on the wire, its name is derived
-- from the name given to it, and the description is that of the override.
structure Represents (overrides : Entries EnumOverride) (value : Json) (member : Ir.EnumValue) :
    Prop where
  text : wireText? value = some member.value
  sent : member.name.wireValue = member.value
  name : NameVariants.derive? (givenName overrides member.value) (some member.value) = some member.name
  description : member.description = (Entries.get? member.value overrides).bind EnumOverride.description

inductive Fate where
  | kept (member : Ir.EnumValue)
  | null
  | dropped (finding : Ir.Finding)

namespace Fate

def member? : Fate → Option Ir.EnumValue
  | kept member => some member
  | _ => none

def finding? : Fate → Option Ir.Finding
  | dropped finding => some finding
  | _ => none

def isNull : Fate → Bool
  | null => true
  | _ => false

-- The members so far, after one value more.
def after (earlier : List Ir.EnumValue) : Fate → List Ir.EnumValue
  | kept member => earlier ++ [member]
  | _ => earlier

end Fate

def SameName (a b : Ir.EnumValue) : Prop := a.name.screamingSnakeCase = b.name.screamingSnakeCase

def Collides (earlier : List Ir.EnumValue) (member : Ir.EnumValue) : Prop :=
  ∃ other ∈ earlier, SameName other member

/-- What becomes of a value, after the members that were kept before it. -/
inductive Settles (overrides : Entries EnumOverride) (earlier : List Ir.EnumValue) :
    Json → Fate → Prop where
  | null : Settles overrides earlier .null .null
  | list {items : List Json} :
      Settles overrides earlier (.list items)
        (.dropped ⟨.malformedNode, [], "enum value is an array"⟩)
  | object {entries : List (String × Json)} :
      Settles overrides earlier (.object entries)
        (.dropped ⟨.malformedNode, [], "enum value is an object"⟩)
  | nameless {value : Json} {text : String} (written : wireText? value = some text)
      (empty : givenName overrides text = "") :
      Settles overrides earlier value (.dropped ⟨.invalidIdentifier, [], "enum value is empty"⟩)
  | collides {value : Json} {member : Ir.EnumValue} (represents : Represents overrides value member)
      (before : Collides earlier member) :
      Settles overrides earlier value (.dropped ⟨.duplicateEnumValue, [],
        "enum value " ++ Text.quoted member.value ++ " collides with an earlier value as "
          ++ member.name.screamingSnakeCase⟩)
  | keeps {value : Json} {member : Ir.EnumValue} (represents : Represents overrides value member)
      (fresh : ¬ Collides earlier member) : Settles overrides earlier value (.kept member)

/-- The values are settled one after the other. -/
inductive Accounts (overrides : Entries EnumOverride) :
    List Ir.EnumValue → List Json → List Fate → Prop where
  | nil {earlier : List Ir.EnumValue} : Accounts overrides earlier [] []
  | cons {earlier : List Ir.EnumValue} {value : Json} {fate : Fate} {values : List Json}
      {fates : List Fate} (first : Settles overrides earlier value fate)
      (later : Accounts overrides (fate.after earlier) values fates) :
      Accounts overrides earlier (value :: values) (fate :: fates)

variable {overrides : Entries EnumOverride} {earlier : List Ir.EnumValue} {taken : List String}
  {value : Json} {values rest : List Json} {text : String} {member other : Ir.EnumValue}
  {fate another : Fate} {fates others : List Fate}

theorem represents_unique (one : Represents overrides value member)
    (again : Represents overrides value other) : member = other := by
  obtain ⟨name, wire, description⟩ := member
  obtain ⟨name', wire', description'⟩ := other
  cases one.text.symm.trans again.text
  cases one.name.symm.trans again.name
  cases one.description.trans again.description.symm
  rfl

-- A value that a member stands for is no list and no object, and it has a name.
theorem named_of_represents (represents : Represents overrides value member)
    (written : wireText? value = some text) : givenName overrides text ≠ "" := by
  intro empty
  cases written.symm.trans represents.text
  have unnamed := (NameVariants.derive_none _ (some member.value)).mpr empty
  cases unnamed.symm.trans represents.name

theorem kept_iff (settles : Settles overrides earlier value fate)
    (represents : Represents overrides value member) :
    fate = .kept member ↔ ¬ Collides earlier member := by
  cases settles with
  | null | list | object => cases represents.text
  | nameless written empty => exact absurd empty (named_of_represents represents written)
  | collides same before =>
    cases represents_unique same represents
    exact iff_of_false (fun kept => nomatch kept) (not_not_intro before)
  | keeps same fresh =>
    cases represents_unique same represents
    exact iff_of_true rfl fresh

-- Whether a member collides later does not depend on whether the value was kept or dropped.
theorem collides_after (settles : Settles overrides earlier value fate) :
    Collides (fate.after earlier) member ↔
      Collides earlier member ∨ ∃ other, Represents overrides value other ∧ SameName other member := by
  have unchanged (none : ∀ other, Represents overrides value other → SameName other member →
      Collides earlier member) : Collides earlier member ↔ Collides earlier member ∨
        ∃ other, Represents overrides value other ∧ SameName other member :=
    ⟨.inl, fun either => either.elim id fun ⟨other, stands, same⟩ => none other stands same⟩
  cases settles with
  | null | list | object => exact unchanged fun other stands => nomatch stands.text
  | nameless written empty =>
    exact unchanged fun other stands => absurd empty (named_of_represents stands written)
  | collides represents before =>
    refine unchanged fun other stands same => ?_
    cases represents_unique stands represents
    obtain ⟨first, listed, before⟩ := before
    exact ⟨first, listed, before.trans same⟩
  | @keeps _ kept represents fresh =>
    constructor
    · rintro ⟨first, listed, same⟩
      rcases List.mem_append.mp listed with before | last
      · exact .inl ⟨first, before, same⟩
      · exact .inr ⟨first, List.mem_singleton.mp last ▸ represents, same⟩
    · rintro (⟨first, listed, same⟩ | ⟨other, stands, same⟩)
      · exact ⟨first, List.mem_append_left _ listed, same⟩
      · cases represents_unique stands represents
        exact ⟨kept, List.mem_append_right _ (List.mem_singleton_self _), same⟩

/-- A value is kept just if no value before it has its name. -/
theorem first_kept (accounts : Accounts overrides earlier values fates) {i : Nat}
    (here : values[i]? = some value) (represents : Represents overrides value member) :
    fates[i]? = some (.kept member) ↔ ¬ Collides earlier member ∧
      ∀ v ∈ values.take i, ∀ other, Represents overrides v other → ¬ SameName other member := by
  induction accounts generalizing i with
  | nil => cases here
  | @cons earlier first fate values fates settles later ih =>
    cases i with
    | zero =>
      cases here
      rw [List.getElem?_cons_zero, Option.some.injEq, kept_iff settles represents]
      simp only [List.take_zero, List.not_mem_nil, false_implies, implies_true, and_true]
    | succ i =>
      rw [List.getElem?_cons_succ] at here ⊢
      rw [ih here, collides_after settles, List.take_succ_cons, List.forall_mem_cons, not_or, and_assoc]
      simp only [not_exists, not_and]

theorem settles_unique (one : Settles overrides earlier value fate)
    (again : Settles overrides earlier value another) : fate = another := by
  cases one with
  | null =>
    cases again with
    | null => rfl
    | nameless written _ => cases written
    | collides represents _ | keeps represents _ => cases represents.text
  | list =>
    cases again with
    | list => rfl
    | nameless written _ => cases written
    | collides represents _ | keeps represents _ => cases represents.text
  | object =>
    cases again with
    | object => rfl
    | nameless written _ => cases written
    | collides represents _ | keeps represents _ => cases represents.text
  | nameless written empty =>
    cases again with
    | null | list | object => cases written
    | nameless _ _ => rfl
    | collides represents _ | keeps represents _ =>
      exact absurd empty (named_of_represents represents written)
  | collides represents before =>
    cases again with
    | null | list | object => cases represents.text
    | nameless written empty => exact absurd empty (named_of_represents represents written)
    | collides same _ =>
      cases represents_unique same represents
      rfl
    | keeps same fresh =>
      cases represents_unique same represents
      exact absurd before fresh
  | keeps represents fresh => exact ((kept_iff again represents).mpr fresh).symm

theorem accounts_unique (one : Accounts overrides earlier values fates)
    (again : Accounts overrides earlier values others) : fates = others := by
  induction one generalizing others with
  | nil =>
    cases again
    rfl
  | cons first later ih =>
    cases again with
    | cons same rest =>
      cases settles_unique first same
      rw [ih rest]

theorem null_accounted (accounts : Accounts overrides earlier values fates) :
    fates.any Fate.isNull = true ↔ .null ∈ values := by
  induction accounts with
  | nil => simp only [List.any_nil, Bool.false_eq_true, List.not_mem_nil]
  | cons first later ih =>
    rw [List.any_cons, Bool.or_eq_true, ih, List.mem_cons]
    refine or_congr_left ?_
    cases first with
    | null => exact iff_of_true rfl rfl
    | list | object => exact iff_of_false Bool.false_ne_true nofun
    | nameless written _ =>
      refine iff_of_false Bool.false_ne_true fun null => ?_
      cases null ▸ written
    | collides represents _ | keeps represents _ =>
      refine iff_of_false Bool.false_ne_true fun null => ?_
      cases null ▸ represents.text

-- The names that are taken are those of the members so far.
def Taken (taken : List String) (earlier : List Ir.EnumValue) : Prop :=
  ∀ name, name ∈ taken ↔ ∃ other ∈ earlier, other.name.screamingSnakeCase = name

theorem taken_cons (same : Taken taken earlier) :
    Taken (member.name.screamingSnakeCase :: taken) (earlier ++ [member]) := by
  intro name
  rw [List.mem_cons, same name]
  constructor
  · rintro (rfl | ⟨other, listed, named⟩)
    · exact ⟨member, List.mem_append_right _ (List.mem_singleton_self _), rfl⟩
    · exact ⟨other, List.mem_append_left _ listed, named⟩
  · rintro ⟨other, listed, named⟩
    rcases List.mem_append.mp listed with before | last
    · exact .inr ⟨other, before, named⟩
    · exact .inl (List.mem_singleton.mp last ▸ named.symm)

-- What a run over values reports, with their fates.
def tally (fates : List Fate) : Report (Bool × List Ir.EnumValue) :=
  ⟨fates.filterMap Fate.finding?, [], .ok (fates.any Fate.isNull, fates.filterMap Fate.member?)⟩

theorem tally_dropped (kind : Ir.FindingKind) (message : String) :
    (do
      Report.find kind message
      tally fates) = tally (.dropped ⟨kind, [], message⟩ :: fates) := rfl

theorem tally_null :
    (do
      let more ← tally fates
      return (true, more.2)) = tally (.null :: fates) := by
  rw [Report.bind_of_ok rfl]
  change Report.mk ((tally fates).findings ++ []) [] _ = _
  rw [List.append_nil]
  rfl

theorem tally_kept :
    (do
      let more ← tally fates
      return (more.1, member :: more.2)) = tally (.kept member :: fates) := by
  rw [Report.bind_of_ok rfl]
  change Report.mk ((tally fates).findings ++ []) [] _ = _
  rw [List.append_nil]
  rfl

theorem members_of_text (written : wireText? value = some text) :
    members overrides taken (value :: rest) =
      match NameVariants.derive? (givenName overrides text) (some text) with
      | none => do
        Report.find .invalidIdentifier "enum value is empty"
        members overrides taken rest
      | some name =>
        if taken.contains name.screamingSnakeCase then do
          Report.find .duplicateEnumValue
            ("enum value " ++ Text.quoted text ++ " collides with an earlier value as "
              ++ name.screamingSnakeCase)
          members overrides taken rest
        else do
          let more ← members overrides (name.screamingSnakeCase :: taken) rest
          return (more.1,
            ⟨name, text, (Entries.get? text overrides).bind EnumOverride.description⟩ :: more.2) := by
  cases value with
  | null | list _ | object _ => cases written
  | bool _ | number _ | text _ =>
    rw [members, written]
    · rfl
    · nofun

-- A value that has a text is settled by its name; the rest of the values are settled after it.
theorem text_accounted (same : Taken taken earlier) (written : wireText? value = some text)
    (further : ∀ taken earlier, Taken taken earlier →
      ∃ fates, Accounts overrides earlier rest fates ∧ members overrides taken rest = tally fates) :
    ∃ fates, Accounts overrides earlier (value :: rest) fates ∧
      members overrides taken (value :: rest) = tally fates := by
  rw [members_of_text written]
  cases derived : NameVariants.derive? (givenName overrides text) (some text) with
  | none =>
    obtain ⟨fates, accounts, run⟩ := further taken earlier same
    have empty := (NameVariants.derive_none _ _).mp derived
    refine ⟨_ :: fates, .cons (.nameless written empty) accounts, ?_⟩
    rw [run]
    exact tally_dropped _ _
  | some name =>
    let member : Ir.EnumValue :=
      ⟨name, text, (Entries.get? text overrides).bind EnumOverride.description⟩
    have represents : Represents overrides value member :=
      ⟨written, (NameVariants.derive_ok derived).2.wire, derived, rfl⟩
    have collides : taken.contains name.screamingSnakeCase = true ↔ Collides earlier member :=
      List.contains_iff_mem.trans (same name.screamingSnakeCase)
    dsimp only
    split
    · rename_i known
      obtain ⟨fates, accounts, run⟩ := further taken earlier same
      refine ⟨_ :: fates, .cons (.collides represents (collides.mp known)) accounts, ?_⟩
      rw [run]
      exact tally_dropped _ _
    · rename_i fresh
      have also : Taken (member.name.screamingSnakeCase :: taken) (earlier ++ [member]) := taken_cons same
      obtain ⟨fates, accounts, run⟩ := further _ _ also
      refine ⟨.kept member :: fates, .cons (.keeps represents (mt collides.mpr fresh)) accounts, ?_⟩
      rw [run]
      exact tally_kept

theorem members_accounted (same : Taken taken earlier) :
    ∃ fates, Accounts overrides earlier values fates ∧
      members overrides taken values = tally fates := by
  induction values generalizing taken earlier with
  | nil => exact ⟨[], .nil, rfl⟩
  | cons value rest ih =>
    cases value with
    | null =>
      obtain ⟨fates, accounts, run⟩ := ih same
      refine ⟨.null :: fates, .cons .null accounts, ?_⟩
      rw [members, run]
      exact tally_null
    | list items =>
      obtain ⟨fates, accounts, run⟩ := ih same
      refine ⟨_ :: fates, .cons .list accounts, ?_⟩
      rw [members, wireText?, run]
      · exact tally_dropped _ _
      all_goals nofun
    | object entries =>
      obtain ⟨fates, accounts, run⟩ := ih same
      refine ⟨_ :: fates, .cons .object accounts, ?_⟩
      rw [members, wireText?, run]
      · exact tally_dropped _ _
      all_goals nofun
    | bool _ | number _ | text _ => exact text_accounted same rfl fun _ _ => ih

-- An enumeration is made of the members that are kept, after all values have been settled.
theorem lower_accounted (s : Schema) (values : List Json) (info : Ir.Meta) :
    ∃ overrides fates, (enumOverrides s.extensions).outcome = .ok overrides ∧
      Accounts overrides [] values fates ∧ members overrides [] values = tally fates ∧
      lower s values info =
        ⟨(enumOverrides s.extensions).findings ++ fates.filterMap Fate.finding?, [],
          .ok (.enumeration ⟨none, { info with nullable := info.nullable || fates.any Fate.isNull },
            fates.filterMap Fate.member?⟩)⟩ := by
  obtain ⟨overrides, read⟩ := enumOverrides_ok s.extensions
  have start : Taken [] [] := fun name => by simp only [List.not_mem_nil, false_and, exists_false]
  obtain ⟨fates, accounts, run⟩ : ∃ fates, Accounts overrides [] values fates ∧
      members overrides [] values = tally fates := members_accounted start
  refine ⟨overrides, fates, congrArg Report.outcome read, accounts, run, ?_⟩
  rw [lower, Report.bind_of_ok (congrArg Report.outcome read), run, Report.bind_of_ok rfl]
  change Report.mk (_ ++ ((tally fates).findings ++ [])) (_ ++ []) _ = _
  rw [List.append_nil, List.append_nil, read]
  rfl

/-- The lowering of an enumeration keeps the values that are settled so, finds what it finds in the
overrides and what its values are dropped for, and is nullable if it was before or one of its values is
null. There is only one way to settle the values, and it keeps the first of those whose names collide. -/
theorem values_accounted (s : Schema) (values : List Json) (info : Ir.Meta) :
    ∃ overrides fates nullable, (enumOverrides s.extensions).outcome = .ok overrides ∧
      Accounts overrides [] values fates ∧
      (∀ others, Accounts overrides [] values others → others = fates) ∧
      (nullable = true ↔ info.nullable = true ∨ .null ∈ values) ∧
      lower s values info =
        ⟨(enumOverrides s.extensions).findings ++ fates.filterMap Fate.finding?, [],
          .ok (.enumeration ⟨none, { info with nullable }, fates.filterMap Fate.member?⟩)⟩ ∧
      ∀ i value member, values[i]? = some value → Represents overrides value member →
        (fates[i]? = some (.kept member) ↔
          ∀ v ∈ values.take i, ∀ other, Represents overrides v other → ¬ SameName other member) := by
  obtain ⟨overrides, fates, read, accounts, -, run⟩ := lower_accounted s values info
  refine ⟨overrides, fates, info.nullable || fates.any Fate.isNull, read, accounts,
    fun others again => accounts_unique again accounts, ?_, run, fun i value member here represents => ?_⟩
  · rw [Bool.or_eq_true, null_accounted accounts]
  · rw [first_kept accounts here represents]
    simp only [Collides, List.not_mem_nil, false_and, exists_false, not_false_eq_true, true_and]

-- The second of these collides with the first, and the last one but null has no name.
example :
    (lower Keywords.empty [.text "active", .text "ACTIVE", .text "in-review", .text "", .null]
        Ir.Meta.blank).findings.map Ir.Finding.kind =
      [.duplicateEnumValue, .invalidIdentifier] := by decide +kernel

end Enumeration

end ApiLowering
