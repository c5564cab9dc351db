import ApiLowering.Json.Entry
import ApiLowering.Proofs.Canonical
import ApiLowering.Proofs.Decoding

/-!
Records from both sides. An outline lists the slots of a record, each with what reads it, what writes
it and where its value is kept; reading a JSON object then comes down to its slots one by one.
-/

set_option autoImplicit false

namespace ApiLowering

-- A field that is read and written, with the place where its value is kept. A value that is not left
-- out is written in its form.
structure Slot (α : Type) where
  {value : Type}
  name : String
  absence : Absence
  read : Reader value
  write : value → Option Json
  form : value → Json := fun v => (write v).getD .null
  get : α → value
  set : value → α → α
  write_form : ∀ a json, write (get a) = some json → form (get a) = json := by
    intro a json wrote
    exact congrArg (fun written => written.getD .null) wrote
  get_set : ∀ v a, get (set v a) = v := by intros; rfl

namespace Slot

section

variable {α β : Type} (name : String) (reader : Reader β) (write : β → Json)

@[simp] def required (get : α → β) (set : β → α → α)
    (get_set : ∀ v a, get (set v a) = v := by intros; rfl) : Slot α :=
  { name, absence := .refused, read := reader, write := fun v => some (write v), get, set, get_set }

-- A field that may be missing but is always written.
@[simp] def always (get : α → β) (set : β → α → α)
    (get_set : ∀ v a, get (set v a) = v := by intros; rfl) : Slot α :=
  { name, absence := .defaulted, read := reader, write := fun v => some (write v), get, set, get_set }

@[simp] def optional (get : α → Option β) (set : Option β → α → α)
    (get_set : ∀ v a, get (set v a) = v := by intros; rfl) : Slot α :=
  { name, absence := .omitted, read := Reader.optional reader, write := Option.map write
    get, set, get_set }

-- A field that is left out when its value is one to skip.
@[simp] def skipping (skip : β → Bool) (get : α → β) (set : β → α → α)
    (get_set : ∀ v a, get (set v a) = v := by intros; rfl) : Slot α :=
  { name, absence := .defaulted, read := reader
    write := fun v => if skip v then none else some (write v)
    form := write
    write_form := fun _ _ wrote => Option.some.inj (Option.ite_none_left_eq_some.mp wrote).2
    get, set, get_set }

@[simp] def list (get : α → List β) (set : List β → α → α)
    (get_set : ∀ v a, get (set v a) = v := by intros; rfl) : Slot α :=
  skipping name (Reader.list reader) (fun all => .list (all.map write)) List.isEmpty get set get_set

@[simp] def map (get : α → Entries β) (set : Entries β → α → α)
    (get_set : ∀ v a, get (set v a) = v := by intros; rfl) : Slot α :=
  skipping name (Reader.entries reader) (fun all => .object (Entries.mapValues write all))
    List.isEmpty get set get_set

end

variable {α : Type}

def field (p : Slot α) : Field α :=
  ⟨p.name, p.absence, fun mode node record => (p.read mode node).map fun v => p.set v record⟩

def entry (p : Slot α) (a : α) : Entries Json := Json.optionEntry p.name (p.write (p.get a))

section

variable {β : Type} {name : String} {reader : Reader β} {write : β → Json} {a : α}

theorem required_entry {get : α → β} {set : β → α → α} {get_set : ∀ v a, get (set v a) = v} :
    (required name reader write get set get_set).entry a = [(name, write (get a))] := rfl

theorem always_entry {get : α → β} {set : β → α → α} {get_set : ∀ v a, get (set v a) = v} :
    (always name reader write get set get_set).entry a = [(name, write (get a))] := rfl

theorem optional_entry {get : α → Option β} {set : Option β → α → α}
    {get_set : ∀ v a, get (set v a) = v} :
    (optional name reader write get set get_set).entry a =
      Json.optionEntry name ((get a).map write) := rfl

theorem list_entry {get : α → List β} {set : List β → α → α}
    {get_set : ∀ v a, get (set v a) = v} :
    (list name reader write get set get_set).entry a = Json.listEntry name ((get a).map write) := by
  simp only [entry, list, skipping, Json.listEntry, List.isEmpty_map]
  split <;> rfl

theorem map_entry {get : α → Entries β} {set : Entries β → α → α}
    {get_set : ∀ v a, get (set v a) = v} :
    (map name reader write get set get_set).entry a =
      Json.mapEntry name (Entries.mapValues write (get a)) := by
  simp only [entry, map, skipping, Json.mapEntry, Entries.mapValues, List.isEmpty_map]
  split <;> rfl

end

-- Writing to one of two slots leaves the other as it is.
def Apart (p q : Slot α) : Prop :=
  (∀ v a, q.get (p.set v a) = q.get a) ∧ ∀ v a, p.get (q.set v a) = p.get a

-- The slot was read from a part of the value, or it may be left out and is as in a blank record.
def FoundIn (p : Slot α) (mode : Mode) (value : Json) (blank a : α) : Prop :=
  (∃ v : Json, v.Proper ∧ (Tree.ofJson v).height < (Tree.ofJson value).height ∧
    p.read mode (Tree.ofJson v) = .ok (p.get a)) ∨
  (p.absence ≠ .refused ∧ p.get a = p.get blank)

instance : Std.Symm (@Apart α) := ⟨fun _ _ apart => ⟨apart.2, apart.1⟩⟩

end Slot

-- The slots of a record, and what the record holds beside them.
structure Outline (α ρ : Type) where
  slots : List (Slot α)
  rest : α → ρ
  withRest : ρ → α → α
  distinct : (slots.map Slot.name).Nodup := by simp
  apart : slots.Pairwise Slot.Apart := by simp [Slot.Apart]
  rest_set : ∀ p ∈ slots, ∀ v a, rest (p.set v a) = rest a := by simp
  rest_with : ∀ x a, rest (withRest x a) = x := by intros; rfl
  get_with : ∀ p ∈ slots, ∀ x a, p.get (withRest x a) = p.get a := by simp
  whole : ∀ a b, (∀ p ∈ slots, p.get a = p.get b) → rest a = rest b → a = b := by
    rintro ⟨⟩ ⟨⟩
    simp_all

namespace Outline

variable {α ρ : Type}

def names (o : Outline α ρ) : List String := o.slots.map Slot.name

def fields (o : Outline α ρ) : List (Field α) := o.slots.map Slot.field

def entries (o : Outline α ρ) (a : α) : Entries Json := o.slots.flatMap fun p => p.entry a

-- Whether no slot is named by the entry.
def leaves (o : Outline α ρ) (e : String × Json) : Bool := !o.names.contains e.1

variable {o : Outline α ρ} {mode : Mode} {es : Entries Json} {before after : Record.Progress α}
  {p q : Slot α}

theorem mem_names (known : p ∈ o.slots) : p.name ∈ o.names := List.mem_map.mpr ⟨p, known, rfl⟩

theorem slot_unique (known : p ∈ o.slots) (knownToo : q ∈ o.slots) (same : p.name = q.name) :
    p = q :=
  List.inj_on_of_nodup_map o.distinct known knownToo same

theorem get_other (known : p ∈ o.slots) (knownToo : q ∈ o.slots) (different : p.name ≠ q.name)
    (v : p.value) (a : α) : q.get (p.set v a) = q.get a :=
  (o.apart.forall known knownToo fun same => different (congrArg _ same)).1 v a

theorem field_known (known : p ∈ o.slots) : Record.field? o.fields p.name = some p.field := by
  have found : o.slots.find? (fun q => decide (q.name = p.name)) = some p := by
    cases first : o.slots.find? (fun q => decide (q.name = p.name)) with
    | none => exact absurd (decide_eq_true rfl) (List.find?_eq_none.mp first p known)
    | some q =>
      have called := List.find?_some first
      rw [slot_unique (List.mem_of_find?_eq_some first) known (of_decide_eq_true called)]
  rw [Record.field?, fields, List.find?_map]
  exact congrArg (Option.map Slot.field) found

theorem field_unknown {name : String} (unknown : name ∉ o.names) :
    Record.field? o.fields name = none := by
  refine List.find?_eq_none.mpr fun f here called => unknown ?_
  obtain ⟨p, known, same⟩ := List.mem_map.mp here
  have named : f.name = name := of_decide_eq_true called
  rw [← named, ← same]
  exact mem_names known

theorem missing_none {seen : List String} (all : ∀ p ∈ o.slots, p.absence = .refused → p.name ∈ seen) :
    Record.missing? o.fields seen = none := by
  refine Option.map_eq_none_iff.mpr (List.find?_eq_none.mpr fun f here missed => ?_)
  obtain ⟨p, known, same⟩ := List.mem_map.mp here
  subst same
  obtain ⟨refused, unseen⟩ := Bool.and_eq_true_iff.mp missed
  have here : seen.contains p.field.name = true :=
    List.contains_iff_mem.mpr (all p known (of_decide_eq_true refused))
  rw [here] at unseen
  cases unseen

theorem missing_seen {seen : List String} (full : Record.missing? o.fields seen = none)
    (known : p ∈ o.slots) (refused : p.absence = .refused) : p.name ∈ seen := by
  have closed := List.find?_eq_none.mp (Option.map_eq_none_iff.mp full) p.field
    (List.mem_map.mpr ⟨p, known, rfl⟩)
  by_contra unseen
  refine closed (Bool.and_eq_true_iff.mpr ⟨decide_eq_true refused, ?_⟩)
  rw [Bool.not_eq_true', ← Bool.not_eq_true]
  exact fun here => unseen (List.contains_iff_mem.mp here)

-- What reading the entries of an object does to each slot, and what it sets aside.
structure Took (o : Outline α ρ) (mode : Mode) (es : Entries Json)
    (before after : Record.Progress α) : Prop where
  given : ∀ p ∈ o.slots, ∀ v, (p.name, v) ∈ es →
    p.read mode (Tree.ofJson v) = .ok (p.get after.record)
  absent : ∀ p ∈ o.slots, p.name ∉ Entries.keys es → p.get after.record = p.get before.record
  rest : o.rest after.record = o.rest before.record
  seen : ∀ p ∈ o.slots, p.name ∈ after.seen ↔ p.name ∈ before.seen ∨ p.name ∈ Entries.keys es
  others : after.others = (Tree.ofJsonEntries (es.filter o.leaves)).reverse ++ before.others

theorem filter_known {e : String × Json} (known : e.1 ∈ o.names) :
    (e :: es).filter o.leaves = es.filter o.leaves := by
  rw [List.filter_cons_of_neg]
  rw [leaves, List.contains_iff_mem.mpr known]
  exact Bool.false_ne_true

theorem filter_unknown {e : String × Json} (unknown : e.1 ∉ o.names) :
    (e :: es).filter o.leaves = e :: es.filter o.leaves := by
  rw [List.filter_cons_of_pos]
  rw [leaves, Bool.not_eq_true', ← Bool.not_eq_true]
  exact fun here => unknown (List.contains_iff_mem.mp here)

theorem readField_took {v : Json} {next : Record.Progress α} (known : p ∈ o.slots)
    (fresh : p.name ∉ Entries.keys es)
    (read : Record.readField mode p.field (Tree.ofJson v) before = .ok next)
    (took : o.Took mode es next after) : o.Took mode ((p.name, v) :: es) before after := by
  by_cases again : before.seen.contains p.field.name = true
  · rw [Record.readField, if_pos again] at read
    cases read
  rw [Record.readField, if_neg again] at read
  obtain ⟨record, put, same⟩ := except_map_ok read
  obtain ⟨x, readV, placed⟩ := except_map_ok put
  subst same placed
  have own : p.get after.record = x := (took.absent p known fresh).trans (p.get_set x before.record)
  refine ⟨fun q knownToo w listed => ?_, fun q knownToo missing => ?_, ?_, fun q knownToo => ?_, ?_⟩
  · rcases List.mem_cons.mp listed with first | later
    · obtain ⟨named, written⟩ := Prod.mk.inj first
      cases slot_unique knownToo known named
      rw [written, own]
      exact readV
    · exact took.given q knownToo w later
  · obtain ⟨different, later⟩ := not_or.mp fun here => missing (List.mem_cons.mpr here)
    rw [took.absent q knownToo later]
    exact get_other known knownToo (Ne.symm different) x before.record
  · exact took.rest.trans (o.rest_set p known x before.record)
  · rw [took.seen q knownToo]
    change q.name ∈ p.name :: before.seen ∨ _ ↔ _ ∨ q.name ∈ p.name :: Entries.keys es
    simp only [List.mem_cons]
    exact or_assoc.trans or_left_comm
  · rw [filter_known (mem_names known)]
    exact took.others

theorem readOpen_known {v : Json} (known : p ∈ o.slots) :
    Record.readOpen mode o.fields (Tree.ofJsonEntries ((p.name, v) :: es)) before =
      Record.readField mode p.field (Tree.ofJson v) before >>=
        Record.readOpen mode o.fields (Tree.ofJsonEntries es) := by
  rw [Tree.ofJsonEntries, Record.readOpen]
  simp only [Key.read, field_known known, bind, Except.bind]

theorem readOpen_unknown {name : String} {v : Json} (unknown : name ∉ o.names) :
    Record.readOpen mode o.fields (Tree.ofJsonEntries ((name, v) :: es)) before =
      Record.readOpen mode o.fields (Tree.ofJsonEntries es)
        { before with others := (.text name, Tree.ofJson v) :: before.others } := by
  rw [Tree.ofJsonEntries, Record.readOpen]
  simp only [Key.read, field_unknown unknown, Tree.ofJson_holdIn, bind, Except.bind]

/-- Reading the entries of an object reads the slot that each of them names, and sets the others
aside in their order. -/
theorem readOpen_took (distinct : (Entries.keys es).Nodup)
    (read : Record.readOpen mode o.fields (Tree.ofJsonEntries es) before = .ok after) :
    o.Took mode es before after := by
  induction es generalizing before with
  | nil =>
    cases read
    refine ⟨fun _ _ _ here => absurd here List.not_mem_nil, fun _ _ _ => rfl, rfl, fun p _ => ?_, rfl⟩
    exact (or_iff_left List.not_mem_nil).symm
  | cons e rest ih =>
    obtain ⟨name, v⟩ := e
    obtain ⟨fresh, distinctRest⟩ := List.nodup_cons.mp distinct
    by_cases listed : name ∈ o.names
    · obtain ⟨p, known, rfl⟩ := List.mem_map.mp listed
      rw [readOpen_known known] at read
      obtain ⟨next, first, read⟩ := except_bind_ok read
      exact readField_took known fresh first (ih distinctRest read)
    · rw [readOpen_unknown listed] at read
      have took := ih distinctRest read
      have other {q : Slot α} (known : q ∈ o.slots) : q.name ≠ name :=
        fun same => listed (same ▸ mem_names known)
      refine ⟨fun q known w here => ?_, fun q known missing => ?_, took.rest, fun q known => ?_, ?_⟩
      · rcases List.mem_cons.mp here with same | later
        · exact absurd (Prod.mk.inj same).1 (other known)
        · exact took.given q known w later
      · exact took.absent q known fun later => missing (List.mem_cons_of_mem _ later)
      · rw [took.seen q known]
        exact or_congr_right (List.mem_cons.trans (or_iff_right (other known))).symm
      · rw [took.others, filter_unknown listed, Tree.ofJsonEntries, List.reverse_cons,
          List.append_assoc]
        rfl

/-- Entries whose slots can be read can all be read. -/
theorem readOpen_succeeds (distinct : (Entries.keys es).Nodup)
    (fresh : ∀ name ∈ Entries.keys es, name ∉ before.seen)
    (reads : ∀ p ∈ o.slots, ∀ v, (p.name, v) ∈ es → ∃ x, p.read mode (Tree.ofJson v) = .ok x) :
    ∃ after, Record.readOpen mode o.fields (Tree.ofJsonEntries es) before = .ok after := by
  induction es generalizing before with
  | nil => exact ⟨before, rfl⟩
  | cons e rest ih =>
    obtain ⟨name, v⟩ := e
    obtain ⟨single, distinctRest⟩ := List.nodup_cons.mp distinct
    obtain ⟨unseen, freshRest⟩ := List.forall_mem_cons.mp fresh
    have later : ∀ p ∈ o.slots, ∀ w, (p.name, w) ∈ rest →
        ∃ x, p.read mode (Tree.ofJson w) = .ok x :=
      fun p known w here => reads p known w (List.mem_cons_of_mem _ here)
    by_cases listed : name ∈ o.names
    · obtain ⟨p, known, rfl⟩ := List.mem_map.mp listed
      obtain ⟨x, read⟩ := reads p known v List.mem_cons_self
      have unseenField : ¬before.seen.contains p.field.name = true :=
        fun here => unseen (List.contains_iff_mem.mp here)
      have first : Record.readField mode p.field (Tree.ofJson v) before =
          .ok ⟨p.name :: before.seen, p.set x before.record, before.others⟩ := by
        rw [Record.readField, if_neg unseenField]
        exact congrArg (Except.map _) (congrArg (Except.map _) read)
      rw [readOpen_known known, first]
      refine ih distinctRest (fun name here among => ?_) later
      rcases List.mem_cons.mp among with same | earlier
      · exact single (same ▸ here)
      · exact freshRest name here earlier
    · rw [readOpen_unknown listed]
      exact ih distinctRest freshRest later

-- A closed record reads what an open one does, and passes over the rest.
theorem readClosed_open {fields : List (Field α)} (others : List (Key × Tree)) :
    Record.readClosed mode fields (Tree.ofJsonEntries es) before =
      (Record.readOpen mode fields (Tree.ofJsonEntries es) { before with others }).map
        fun after => { after with others := before.others } := by
  induction es generalizing before others with
  | nil => rfl
  | cons e rest ih =>
    obtain ⟨name, v⟩ := e
    have named : Record.keyField? mode fields (.text name) = .ok (Record.field? fields name) := by
      cases mode <;> rfl
    rw [Tree.ofJsonEntries, Record.readClosed, Record.readOpen]
    simp only [named, Key.read, Tree.ofJson_skipped, Tree.ofJson_holdIn, bind, Except.bind]
    cases Record.field? fields name with
    | none => exact ih _
    | some f =>
      simp only [Record.readField]
      by_cases again : before.seen.contains f.name = true
      · simp only [if_pos again, Except.map]
      · simp only [if_neg again]
        cases f.read mode (Tree.ofJson v) before.record with
        | error e => rfl
        | ok record => exact ih others

theorem mem_entry {name : String} {v : Json} {a : α} :
    (name, v) ∈ p.entry a ↔ name = p.name ∧ p.write (p.get a) = some v := by
  rw [Slot.entry, Json.optionEntry.eq_def]
  cases p.write (p.get a) with
  | none => exact iff_of_false List.not_mem_nil fun both => nomatch both.2
  | some w =>
    rw [List.mem_singleton, Prod.mk.injEq, Option.some.injEq]
    exact and_congr_right fun _ => eq_comm

theorem mem_entries {v : Json} {a : α} (known : p ∈ o.slots) :
    (p.name, v) ∈ o.entries a ↔ p.write (p.get a) = some v := by
  refine List.mem_flatMap.trans ⟨fun ⟨q, knownToo, listed⟩ => ?_, fun written => ?_⟩
  · obtain ⟨same, written⟩ := mem_entry.mp listed
    cases slot_unique known knownToo same
    exact written
  · exact ⟨p, known, mem_entry.mpr ⟨rfl, written⟩⟩

theorem entries_names (a : α) : (Entries.keys (o.entries a)).Sublist o.names := by
  rw [entries, names]
  induction o.slots with
  | nil => exact List.Sublist.slnil
  | cons p rest ih =>
    have first : (Entries.keys (p.entry a)).Sublist [p.name] := by
      rw [Slot.entry, Json.optionEntry.eq_def]
      cases p.write (p.get a) with
      | none => exact List.nil_sublist _
      | some v => exact List.Sublist.refl _
    rw [List.flatMap_cons, keys_append]
    exact first.append ih

-- The entries hold the record: what they give reads back, and what they leave out is blank.
structure Holds (o : Outline α ρ) (mode : Mode) (es : Entries Json) (blank a : α) : Prop where
  distinct : (Entries.keys es).Nodup
  given : ∀ p ∈ o.slots, ∀ v, (p.name, v) ∈ es → p.read mode (Tree.ofJson v) = .ok (p.get a)
  absent : ∀ p ∈ o.slots, p.name ∉ Entries.keys es →
    p.absence ≠ .refused ∧ p.get a = p.get blank

variable {r : Record α} {a : α} {value : Json} {fields : List (Field α)}

theorem complete_ok (full : Record.missing? fields before.seen = none) :
    Record.complete fields none before = .ok before := by
  simp only [Record.complete, full]
  rfl

theorem complete_missing (done : Record.complete fields none before = .ok after) :
    after = before ∧ Record.missing? fields before.seen = none := by
  refine ⟨complete_same done, ?_⟩
  simp only [Record.complete] at done
  obtain ⟨-, -, done⟩ := except_bind_ok done
  cases missed : Record.missing? fields before.seen with
  | none => rfl
  | some name =>
    rw [missed] at done
    cases done

theorem entry_of_name {name : String} (named : name ∈ Entries.keys es) : ∃ v, (name, v) ∈ es := by
  obtain ⟨⟨key, v⟩, listed, same⟩ := List.mem_map.mp named
  exact ⟨v, same ▸ listed⟩

theorem Holds.reads (holds : o.Holds mode es r.blank a) :
    ∃ after, Record.readOpen mode o.fields (Tree.ofJsonEntries es) ⟨[], r.blank, []⟩ = .ok after ∧
      Record.missing? o.fields after.seen = none ∧
      after.record = o.withRest (o.rest r.blank) a ∧
      after.others.reverse = Tree.ofJsonEntries (es.filter o.leaves) := by
  have start : ∀ name ∈ Entries.keys es, name ∉ (⟨[], r.blank, []⟩ : Record.Progress α).seen :=
    fun _ _ => List.not_mem_nil
  obtain ⟨after, opened⟩ := readOpen_succeeds holds.distinct start
    fun p known v here => ⟨_, holds.given p known v here⟩
  have took := readOpen_took holds.distinct opened
  refine ⟨after, opened, ?_, ?_, ?_⟩
  · refine missing_none fun p known refused => ?_
    by_contra unseen
    refine (holds.absent p known fun here => unseen ?_).1 refused
    exact (took.seen p known).mpr (.inr here)
  · apply o.whole
    · intro p known
      rw [o.get_with p known]
      by_cases here : p.name ∈ Entries.keys es
      · obtain ⟨v, listed⟩ := entry_of_name here
        have read := took.given p known v listed
        rw [holds.given p known v listed] at read
        exact (Except.ok.inj read).symm
      · rw [took.absent p known here, (holds.absent p known here).2]
    · rw [took.rest, o.rest_with]
  · rw [took.others, List.append_nil, List.reverse_reverse]

/-- An open record reads back from the entries that hold it. -/
theorem readWith_back {finish : List (Key × Tree) → α → Except DecodeError α}
    (described : r.fields = o.fields) (holds : o.Holds mode es r.blank a)
    (finished : finish (Tree.ofJsonEntries (es.filter o.leaves))
      (o.withRest (o.rest r.blank) a) = .ok a) :
    r.readWith finish mode (Tree.ofJson (.object es)) = .ok a := by
  obtain ⟨after, opened, full, record, others⟩ := holds.reads
  rw [← described] at opened full
  simp only [Tree.ofJson, Record.readWith, Tree.bare, opened, complete_ok full, bind, Except.bind,
    record, others, finished]

/-- A closed record reads back from the entries that hold it. -/
theorem read_back (described : r.fields = o.fields) (holds : o.Holds mode es r.blank a)
    (bare : o.withRest (o.rest r.blank) a = a) :
    r.read mode (Tree.ofJson (.object es)) = .ok a := by
  obtain ⟨after, opened, full, record, -⟩ := holds.reads
  rw [← described] at opened full
  have closed : Record.readClosed mode r.fields (Tree.ofJsonEntries es) ⟨[], r.blank, []⟩ =
      .ok { after with others := [] } := by
    rw [readClosed_open [], opened]
    rfl
  have complete : Record.complete r.fields none { after with others := [] } =
      .ok { after with others := [] } := complete_ok full
  simp only [Tree.ofJson, Record.read, Tree.bare, closed, bind, Except.bind, complete]
  exact congrArg Except.ok (record.trans bare)

theorem Took.present (took : o.Took mode es ⟨[], r.blank, []⟩ after)
    (full : Record.missing? o.fields after.seen = none) (known : p ∈ o.slots)
    (refused : p.absence = .refused) : p.name ∈ Entries.keys es :=
  ((took.seen p known).mp (missing_seen full known refused)).resolve_left List.not_mem_nil

-- What reading an object made of its entries, the object holds.
theorem Took.holds (distinct : (Entries.keys es).Nodup)
    (took : o.Took mode es ⟨[], r.blank, []⟩ after)
    (full : Record.missing? o.fields after.seen = none) : o.Holds mode es r.blank after.record where
  distinct := distinct
  given := took.given
  absent p known missing :=
    ⟨fun refused => missing (took.present full known refused), took.absent p known missing⟩

theorem Holds.found {blank : α} (proper : (Json.object es).Proper) (holds : o.Holds mode es blank a)
    (known : p ∈ o.slots) : p.FoundIn mode (.object es) blank a := by
  by_cases here : p.name ∈ Entries.keys es
  · obtain ⟨v, listed⟩ := entry_of_name here
    cases proper with
    | object _ each =>
      exact .inl ⟨v, each _ listed, Tree.height_entry listed, holds.given p known v listed⟩
  · exact .inr (holds.absent p known here)

theorem mismatch_error {β : Type} {expected : String} {node : Tree} {b : β} :
    node.mismatch expected ≠ .ok b := by
  intro same
  obtain ⟨found, -, same⟩ := except_bind_ok same
  cases same

theorem readWith_holds {finish : List (Key × Tree) → α → Except DecodeError α}
    (described : r.fields = o.fields) (proper : value.Proper)
    (read : r.readWith finish mode (Tree.ofJson value) = .ok a) :
    ∃ es record, value = .object es ∧ o.Holds mode es r.blank record ∧
      finish (Tree.ofJsonEntries (es.filter o.leaves)) record = .ok a := by
  rw [Record.readWith, Tree.ofJson_bare] at read
  cases value with
  | object es =>
    obtain ⟨after, opened, read⟩ := except_bind_ok read
    obtain ⟨next, complete, finished⟩ := except_bind_ok read
    rw [described] at opened complete
    obtain ⟨rfl, full⟩ := complete_missing complete
    cases proper with
    | object ascends _ =>
      have distinct := ascends_nodup ascends
      have took := readOpen_took distinct opened
      rw [took.others, List.append_nil, List.reverse_reverse] at finished
      exact ⟨es, _, rfl, took.holds distinct full, finished⟩
  | _ => exact absurd read mismatch_error

-- A list of fields gives them to the slots in order; those behind its end stay as they are.
theorem readPositions_found {fields : List (Slot α)} {items : List Json} {index : Nat} {record : α}
    (listed : ∀ p ∈ fields, p ∈ o.slots)
    (read : Record.readPositions mode r none (fields.map Slot.field) (Tree.ofJsonList items) index
      record = .ok a) :
    (∀ p ∈ o.slots, (∃ v ∈ items, p.read mode (Tree.ofJson v) = .ok (p.get a)) ∨
      ((p ∈ fields → p.absence ≠ .refused) ∧ p.get a = p.get record)) ∧
    o.rest a = o.rest record := by
  induction fields generalizing items index record with
  | nil =>
    cases items with
    | nil =>
      cases read
      exact ⟨fun p _ => .inr ⟨fun here => absurd here List.not_mem_nil, rfl⟩, rfl⟩
    | cons => cases read
  | cons f fields ih =>
    obtain ⟨known, listed⟩ := List.forall_mem_cons.mp listed
    cases items with
    | nil =>
      rw [List.map_cons, Tree.ofJsonList, Record.readPositions] at read
      by_cases defaulted : f.field.absence = .defaulted
      · rw [if_pos defaulted] at read
        have behind : Record.readPositions mode r none (fields.map Slot.field) (Tree.ofJsonList [])
            index record = .ok a := read
        obtain ⟨found, rest⟩ := ih listed behind
        refine ⟨fun p here => (found p here).imp_right fun ⟨left, same⟩ => ⟨fun among => ?_, same⟩,
          rest⟩
        rcases List.mem_cons.mp among with same | later
        · rw [same, show f.absence = .defaulted from defaulted]
          exact Absence.noConfusion
        · exact left later
      · rw [if_neg defaulted] at read
        cases read
    | cons v items =>
      rw [List.map_cons, Tree.ofJsonList, Record.readPositions] at read
      obtain ⟨next, first, read⟩ := except_bind_ok read
      obtain ⟨x, readV, rfl⟩ := except_map_ok first
      obtain ⟨found, rest⟩ := ih listed read
      refine ⟨fun p here => ?_, rest.trans (o.rest_set f known x record)⟩
      rcases found p here with ⟨w, among, readW⟩ | ⟨left, same⟩
      · exact .inl ⟨w, List.mem_cons_of_mem _ among, readW⟩
      · by_cases first : p.name = f.name
        · cases slot_unique here known first
          rw [f.get_set] at same
          exact .inl ⟨v, List.mem_cons_self, same ▸ readV⟩
        · rw [get_other known here (Ne.symm first)] at same
          refine .inr ⟨fun among => left ((List.mem_cons.mp among).resolve_left ?_), same⟩
          exact fun same => first (congrArg Slot.name same)

theorem read_took (described : r.fields = o.fields) (distinct : (Entries.keys es).Nodup)
    (read : r.read mode (Tree.ofJson (.object es)) = .ok a) :
    ∃ after, o.Took mode es ⟨[], r.blank, []⟩ after ∧ Record.missing? o.fields after.seen = none ∧
      after.record = a := by
  rw [Record.read, Tree.ofJson_bare] at read
  obtain ⟨after, closed, read⟩ := except_bind_ok read
  obtain ⟨next, complete, read⟩ := except_bind_ok read
  cases read
  rw [described] at closed complete
  rw [readClosed_open []] at closed
  obtain ⟨opened, openRead, same⟩ := except_map_ok closed
  obtain ⟨rfl, full⟩ := complete_missing complete
  subst same
  exact ⟨opened, readOpen_took distinct openRead, full, rfl⟩

theorem read_found (described : r.fields = o.fields) (proper : value.Proper)
    (read : r.read mode (Tree.ofJson value) = .ok a) :
    (∀ p ∈ o.slots, p.FoundIn mode value r.blank a) ∧ o.rest a = o.rest r.blank := by
  cases value with
  | object es =>
    cases proper with
    | object ascends each =>
      have distinct := ascends_nodup ascends
      obtain ⟨after, took, full, rfl⟩ := read_took described distinct read
      exact ⟨fun p known => (took.holds distinct full).found (.object ascends each) known, took.rest⟩
  | list items =>
    by_cases positional : mode.isPositional = true
    · simp only [Record.read, Tree.ofJson, Tree.bare, if_pos positional, described] at read
      obtain ⟨found, rest⟩ := readPositions_found (fun p known => known) read
      refine ⟨fun p known => ?_, rest⟩
      rcases found p known with ⟨v, among, readV⟩ | ⟨left, same⟩
      · cases proper with
        | list each => exact .inl ⟨v, each v among, Tree.height_item among, readV⟩
      · exact .inr ⟨left known, same⟩
    · simp only [Record.read, Tree.ofJson, Tree.bare, if_neg positional] at read
      exact absurd read mismatch_error
  | _ => exact nomatch read

end Outline

end ApiLowering
