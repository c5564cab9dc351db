import ApiLowering.Ir.Schema.Decode
import ApiLowering.Proofs.Restoring

/-!
Values that are read back from what is written of them, in the order in which it is written. The law
holds of scalars, lists and maps, and of records once it holds of their fields; entries of a record
that stand for its annotations may stand anywhere between the fields.
-/

set_option autoImplicit false

namespace ApiLowering

-- The values that a text can carry: integers of sixty-four bits and finite doubles.
inductive Json.Sound : Json → Prop where
  | null : Sound .null
  | bool (value : Bool) : Sound (.bool value)
  | integer {n : Int} (word : Number.isWord n = true) : Sound (.number (.integer n))
  | real {x : Binary64} (finite : x.isFinite = true) : Sound (.number (.real x))
  | text (value : String) : Sound (.text value)
  | list {items : List Json} (each : ∀ item ∈ items, Sound item) : Sound (.list items)
  | object {entries : Entries Json} (each : ∀ e ∈ entries, Sound e.2) : Sound (.object entries)

-- What is written of a value is no null, a text can carry it, and the value is read back from it.
structure Reader.Rereads {β : Type} (reader : Reader β) (write : β → Json) (b : β) : Prop where
  back : ∀ mode, reader mode (Tree.ofJson (write b)) = .ok b
  sound : (write b).Sound
  present : write b ≠ .null

namespace Reader

variable {α β : Type} {reader : Reader β} {write : β → Json}

theorem text_rereads (s : String) : text.Rereads .text s where
  back mode := by cases mode <;> rfl
  sound := .text s
  present same := by cases same

theorem bool_rereads (b : Bool) : bool.Rereads .bool b where
  back _ := rfl
  sound := .bool b
  present same := by cases same

theorem ofNat_sound {n : Nat} (small : n < 0x10000000000000000) : (Json.ofNat n).Sound := by
  refine .integer (decide_eq_true ?_)
  omega

theorem uint64_rereads (n : UInt64) : uint64.Rereads Json.ofUInt64 n where
  back mode := uint64_back mode n
  sound := ofNat_sound n.toNat_lt
  present same := by cases same

theorem uint16_rereads (n : UInt16) : uint16.Rereads (fun n => Json.ofNat n.toNat) n where
  back mode := by
    rw [uint16, unsigned_back "u16" mode n.toNat_lt]
    exact congrArg Except.ok UInt16.ofNat_toNat
  sound := ofNat_sound (Nat.lt_trans n.toNat_lt (by decide))
  present same := by cases same

theorem real_rereads {x : Binary64} (finite : x.isFinite = true) : real.Rereads Json.ofReal x := by
  have written : Json.ofReal x = .number (.real x) := by
    rw [Json.ofReal, Number.ofReal?, if_pos finite]
  refine ⟨fun mode => ?_, ?_, fun same => ?_⟩
  · rw [written]
    rfl
  · rw [written]
    exact .real finite
  · cases written.symm.trans same

theorem each_back {mode : Mode} {all : List β} (rereads : ∀ b ∈ all, reader.Rereads write b) :
    each (reader mode) (Tree.ofJsonList (all.map write)) = .ok all := by
  induction all with
  | nil => rfl
  | cons b rest ih =>
    obtain ⟨first, later⟩ := List.forall_mem_cons.mp rereads
    rw [List.map_cons, Tree.ofJsonList, each, first.back mode, ih later]
    rfl

theorem list_rereads {all : List β} (rereads : ∀ b ∈ all, reader.Rereads write b) :
    (list reader).Rereads (fun all => .list (all.map write)) all where
  back mode := (list_ofJson mode _).trans (each_back rereads)
  sound := by
    refine .list fun item listed => ?_
    obtain ⟨b, among, rfl⟩ := List.mem_map.mp listed
    exact (rereads b among).sound
  present same := by cases same

theorem eachEntry_back {mode : Mode} {all : Entries β}
    (rereads : ∀ e ∈ all, reader.Rereads write e.2) :
    eachEntry mode (reader mode) (Tree.ofJsonEntries (Entries.mapValues write all)) = .ok all := by
  induction all with
  | nil => rfl
  | cons e rest ih =>
    obtain ⟨first, later⟩ := List.forall_mem_cons.mp rereads
    have mapped : Entries.mapValues write (e :: rest) =
        (e.1, write e.2) :: Entries.mapValues write rest := rfl
    rw [mapped, Tree.ofJsonEntries, eachEntry, first.back mode, ih later]
    rfl

theorem entries_rereads {all : Entries β} (distinct : (Entries.keys all).Nodup)
    (rereads : ∀ e ∈ all, reader.Rereads write e.2) :
    (entries reader).Rereads (fun all => .object (Entries.mapValues write all)) all where
  back mode := by
    rw [entries_ofJson, eachEntry_back rereads]
    exact congrArg Except.ok (collect_self distinct)
  sound := by
    refine .object fun e listed => ?_
    obtain ⟨pair, among, rfl⟩ := List.mem_map.mp listed
    exact (rereads pair among).sound
  present same := by cases same

section

variable {mode : Mode} {tagName name kind : String} {tag : Reader String} {v : Json}
  {rest others : List (Key × Tree)} {found : Option String}

theorem splitTag_beside (different : name ≠ tagName) :
    splitTag mode tagName tag ((.text name, Tree.ofJson v) :: rest) found others =
      splitTag mode tagName tag rest found ((.text name, Tree.ofJson v) :: others) := by
  have other : ¬ Key.text name = .text tagName := fun same => different (Key.text.inj same)
  rw [splitTag.eq_def]
  cases mode <;>
    simp only [Tree.heldKey, Tree.ofJson_holdIn, pure, Except.pure, bind, Except.bind, if_neg other]

theorem splitTag_here (named : tag mode (.scalar (.text kind)) = .ok kind) :
    splitTag mode tagName tag ((.text tagName, Tree.ofJson (.text kind)) :: rest) none others =
      splitTag mode tagName tag rest (some kind) others := by
  rw [splitTag.eq_def]
  cases mode <;>
    simp only [Tree.heldKey, Tree.ofJson, Tree.ofScalar, named, pure, Except.pure, bind, Except.bind,
      if_true, Option.isSome_none, Bool.false_eq_true, if_false]

end

-- The reader of the entries beside the tag reads back what is written beside it.
theorem tagged_rereads {label tagName kind : String} {known : List String} {fallback : Bool}
    {content : String → Reader β} {es : Entries Json} {b : β}
    (written : write b = .object ((tagName, .text kind) :: es)) (listed : known.contains kind = true)
    (fresh : tagName ∉ Entries.keys es) (sound : ∀ e ∈ es, e.2.Sound)
    (back : content kind .held (Tree.ofJson (.object es)) = .ok b) :
    (tagged label tagName known fallback content).Rereads write b := by
  have named (mode : Mode) : variant known fallback mode (.scalar (.text kind)) = .ok kind := by
    have accepted : (known.contains kind || fallback) = true := by rw [listed, Bool.true_or]
    cases mode <;> simp only [variant, Tree.bare, if_pos accepted]
  -- behind the tag every entry is set aside
  have beside (mode : Mode) (es : Entries Json) (others : List (Key × Tree))
      (fresh : tagName ∉ Entries.keys es) :
      splitTag mode tagName (variant known fallback) (Tree.ofJsonEntries es) (some kind) others =
        .ok (some kind, (Tree.ofJsonEntries es).reverse ++ others) := by
    induction es generalizing others with
    | nil => rfl
    | cons e rest ih =>
      obtain ⟨name, v⟩ := e
      obtain ⟨different, later⟩ := not_or.mp fun here => fresh (List.mem_cons.mpr here)
      rw [Tree.ofJsonEntries, splitTag_beside (Ne.symm different), ih _ later, List.reverse_cons,
        List.append_assoc, List.singleton_append]
  refine ⟨fun mode => ?_, ?_, fun same => ?_⟩
  · rw [written, Tree.ofJson, Tree.ofJsonEntries, tagged]
    have first : splitTag mode tagName (variant known fallback)
        ((.text tagName, Tree.ofJson (.text kind)) :: Tree.ofJsonEntries es) none [] =
        .ok (some kind, (Tree.ofJsonEntries es).reverse ++ []) :=
      (splitTag_here (named mode)).trans (beside mode es [] fresh)
    simp only [first, List.append_nil, List.reverse_reverse, bind, Except.bind]
    exact back
  · rw [written]
    exact .object (List.forall_mem_cons.mpr ⟨.text kind, sound⟩)
  · cases written.symm.trans same

end Reader

namespace Slot

variable {α β : Type} {name : String} {reader : Reader β} {write : β → Json} {blank a : α}

-- An optional field that a list of fields may end before.
@[simp] def lenient (name : String) (reader : Reader β) (write : β → Json) (get : α → Option β)
    (set : Option β → α → α) (get_set : ∀ v a, get (set v a) = v := by intros; rfl) : Slot α :=
  { optional name reader write get set get_set with absence := .defaulted }

-- A flag that is written only when it is set.
@[simp] def flag (name : String) (get : α → Bool) (set : Bool → α → α)
    (get_set : ∀ v a, get (set v a) = v := by intros; rfl) : Slot α :=
  skipping name Reader.bool .bool (fun b => !b) get set get_set

theorem lenient_entry {get : α → Option β} {set : Option β → α → α}
    {get_set : ∀ v a, get (set v a) = v} :
    (lenient name reader write get set get_set).entry a =
      Json.optionEntry name ((get a).map write) := rfl

theorem flag_entry {get : α → Bool} {set : Bool → α → α} {get_set : ∀ v a, get (set v a) = v} :
    (flag name get set get_set).entry a = Json.trueEntry name (get a) := by
  simp only [entry, flag, skipping, Json.trueEntry]
  cases get a <;> rfl

-- What is written in the slot is read back, and what is left out is as in a blank record.
structure Kept (p : Slot α) (blank a : α) : Prop where
  written : ∀ json, p.write (p.get a) = some json →
    json.Sound ∧ ∀ mode, p.read mode (Tree.ofJson json) = .ok (p.get a)
  omitted : p.write (p.get a) = none → p.absence ≠ .refused ∧ p.get a = p.get blank

theorem kept_written {p : Slot α} {json : Json} (wrote : p.write (p.get a) = some json)
    (sound : json.Sound) (back : ∀ mode, p.read mode (Tree.ofJson json) = .ok (p.get a)) :
    p.Kept blank a where
  written other same := by
    cases wrote.symm.trans same
    exact ⟨sound, back⟩
  omitted none := by cases wrote.symm.trans none

theorem kept_omitted {p : Slot α} (none : p.write (p.get a) = none) (left : p.absence ≠ .refused)
    (same : p.get a = p.get blank) : p.Kept blank a where
  written _ wrote := by cases none.symm.trans wrote
  omitted _ := ⟨left, same⟩

theorem required_kept {get : α → β} {set : β → α → α} {get_set : ∀ v a, get (set v a) = v}
    (rereads : reader.Rereads write (get a)) :
    (required name reader write get set get_set).Kept blank a :=
  kept_written rfl rereads.sound rereads.back

theorem optional_back {found : β} (rereads : reader.Rereads write found) (mode : Mode) :
    Reader.optional reader mode (Tree.ofJson (write found)) = .ok (some found) := by
  rw [Reader.optional_present rereads.present, rereads.back mode]
  rfl

theorem optional_kept {get : α → Option β} {set : Option β → α → α}
    {get_set : ∀ v a, get (set v a) = v} (absent : get blank = none)
    (rereads : ∀ b ∈ get a, reader.Rereads write b) :
    (optional name reader write get set get_set).Kept blank a := by
  cases present : get a with
  | none =>
    refine kept_omitted (congrArg (Option.map write) present) Absence.noConfusion ?_
    exact present.trans absent.symm
  | some b =>
    have fine := rereads b present
    refine kept_written (congrArg (Option.map write) present) fine.sound fun mode => ?_
    exact (optional_back fine mode).trans (congrArg Except.ok present.symm)

theorem lenient_kept {get : α → Option β} {set : Option β → α → α}
    {get_set : ∀ v a, get (set v a) = v} (absent : get blank = none)
    (rereads : ∀ b ∈ get a, reader.Rereads write b) :
    (lenient name reader write get set get_set).Kept blank a := by
  have kept : (optional name reader write get set get_set).Kept blank a :=
    optional_kept absent rereads
  exact ⟨kept.written, fun none => ⟨Absence.noConfusion, (kept.omitted none).2⟩⟩

theorem skipping_kept {skip : β → Bool} {get : α → β} {set : β → α → α}
    {get_set : ∀ v a, get (set v a) = v} (skipped : skip (get a) = true → get a = get blank)
    (rereads : reader.Rereads write (get a)) :
    (skipping name reader write skip get set get_set).Kept blank a := by
  by_cases skips : skip (get a) = true
  · exact kept_omitted (if_pos skips) Absence.noConfusion (skipped skips)
  · exact kept_written (if_neg skips) rereads.sound rereads.back

theorem flag_kept {get : α → Bool} {set : Bool → α → α} {get_set : ∀ v a, get (set v a) = v}
    (unset : get blank = false) : (flag name get set get_set).Kept blank a := by
  refine skipping_kept (fun skips => ?_) (Reader.bool_rereads _)
  rw [unset]
  exact (Bool.not_eq_true' _).mp skips

theorem list_kept {get : α → List β} {set : List β → α → α} {get_set : ∀ v a, get (set v a) = v}
    (empty : get blank = []) (rereads : ∀ b ∈ get a, reader.Rereads write b) :
    (list name reader write get set get_set).Kept blank a :=
  skipping_kept (fun skips => (List.isEmpty_iff.mp skips).trans empty.symm)
    (Reader.list_rereads rereads)

end Slot

namespace Outline

variable {α ρ : Type} {o : Outline α ρ} {r : Record α} {a : α} {write : α → Json} {mode : Mode}

theorem entries_sound (kept : ∀ p ∈ o.slots, p.Kept r.blank a) : ∀ e ∈ o.entries a, e.2.Sound := by
  rintro ⟨name, v⟩ listed
  obtain ⟨p, known, here⟩ := List.mem_flatMap.mp listed
  exact ((kept p known).written v (mem_entry.mp here).2).1

theorem fresh_entries {name : String} (fresh : name ∉ o.names) : name ∉ Entries.keys (o.entries a) :=
  fun here => fresh ((entries_names a).subset here)

-- The entries of a record, among others that no slot names, hold the record.
theorem kept_holds {es extra : Entries Json} (kept : ∀ p ∈ o.slots, p.Kept r.blank a)
    (order : es.Perm (o.entries a ++ extra)) (distinct : (Entries.keys extra).Nodup)
    (apart : ∀ name ∈ Entries.keys extra, name ∉ o.names) : o.Holds mode es r.blank a where
  distinct := by
    rw [Entries.keys, (order.map Prod.fst).nodup_iff, List.map_append]
    refine List.nodup_append.mpr ⟨o.distinct.sublist (entries_names a), distinct, ?_⟩
    rintro name own other among rfl
    exact apart name among ((entries_names a).subset own)
  given p known v listed := by
    rcases List.mem_append.mp (order.mem_iff.mp listed) with own | other
    · exact ((kept p known).written v ((mem_entries known).mp own)).2 mode
    · exact absurd (mem_names known) (apart p.name (mem_keys_of_mem other))
  absent p known missing := by
    apply (kept p known).omitted
    cases write : p.write (p.get a) with
    | none => rfl
    | some json =>
      have own := List.mem_append_left extra ((mem_entries known).mpr write)
      exact absurd (mem_keys_of_mem (order.mem_iff.mpr own)) missing

/-- A closed record whose slots are kept is read back from its entries. -/
theorem kept_back (described : r.fields = o.fields) (plain : o.withRest (o.rest r.blank) a = a)
    (kept : ∀ p ∈ o.slots, p.Kept r.blank a) :
    r.read mode (Tree.ofJson (.object (o.entries a))) = .ok a := by
  have order : (o.entries a).Perm (o.entries a ++ []) := by rw [List.append_nil]
  refine read_back described (kept_holds kept order ?_ ?_) plain
  · exact List.nodup_nil
  · exact fun _ here => absurd here List.not_mem_nil

-- A variant whose content is such a record stands beside its tag.
theorem variant_rereads {β : Type} {label tagName : String} {known : List String}
    {fallback : Bool} {content : String → Reader β} {write : β → Json} (kind : String) (make : α → β)
    (reads : ∀ node, content kind .held node = (r.read .held node).map make)
    (written : write (make a) = .object ((tagName, .text kind) :: o.entries a))
    (listed : known.contains kind = true) (fresh : tagName ∉ o.names)
    (described : r.fields = o.fields) (plain : o.withRest (o.rest r.blank) a = a)
    (kept : ∀ p ∈ o.slots, p.Kept r.blank a) :
    (Reader.tagged label tagName known fallback content).Rereads write (make a) := by
  refine Reader.tagged_rereads written listed (fresh_entries fresh) (entries_sound kept) ?_
  rw [reads, kept_back described plain kept]
  rfl

theorem closed_rereads (described : r.fields = o.fields) (plain : o.withRest (o.rest r.blank) a = a)
    (written : ∀ a, write a = .object (o.entries a)) (kept : ∀ p ∈ o.slots, p.Kept r.blank a) :
    r.read.Rereads write a := by
  refine ⟨fun mode => ?_, ?_, fun same => ?_⟩
  · rw [written]
    exact kept_back described plain kept
  · rw [written]
    exact .object (entries_sound kept)
  · cases (written a).symm.trans same

end Outline

namespace Ir

namespace Meta

def outline : Outline Meta Unit where
  slots := [
    .lenient "description" Reader.text .text description fun v m => { m with description := v },
    .flag "nullable" nullable fun v m => { m with nullable := v },
    .flag "optional" optional fun v m => { m with optional := v }]
  rest _ := ()
  withRest _ m := m

theorem entries_outline (m : Meta) : m.entries = outline.entries m := by
  simp only [entries, Outline.entries, outline, List.flatMap_cons, List.flatMap_nil,
    Slot.lenient_entry, Slot.flag_entry, List.append_assoc, List.append_nil]

theorem kept (m : Meta) : ∀ p ∈ outline.slots, p.Kept record.blank m := by
  intro p known
  simp only [outline, List.mem_cons, List.not_mem_nil, or_false] at known
  rcases known with rfl | rfl | rfl
  · exact Slot.lenient_kept rfl fun _ _ => Reader.text_rereads _
  · exact Slot.flag_kept rfl
  · exact Slot.flag_kept rfl

theorem ofEntries_back (m : Meta) : ofEntries (Tree.ofJsonEntries m.entries) = .ok m := by
  rw [entries_outline]
  exact Outline.kept_back rfl rfl m.kept

theorem entries_sound (m : Meta) : ∀ e ∈ m.entries, e.2.Sound := by
  rw [entries_outline]
  exact Outline.entries_sound m.kept

theorem entries_names (m : Meta) :
    (Entries.keys m.entries).Sublist ["description", "nullable", "optional"] := by
  rw [entries_outline]
  exact Outline.entries_names m

end Meta

end Ir

namespace Outline

variable {α : Type} {o : Outline α Ir.Meta} {r : Record α} {a : α}

-- Reading an open record whose other entries are annotations.
def annotate (o : Outline α Ir.Meta) (others : List (Key × Tree)) (a : α) : Except DecodeError α :=
  (Ir.Meta.ofEntries others).map fun info => o.withRest info a

theorem leaves_own {es : Entries Json} (own : ∀ e ∈ es, e ∈ o.entries a) :
    es.filter o.leaves = [] :=
  List.filter_eq_nil_iff.mpr fun e listed =>
    names_leave ((entries_names a).subset (mem_keys_of_mem (own e listed)))

/-- A record whose slots are kept is read back from its entries with the annotations anywhere between
them, and none of these entries is a tag. -/
theorem annotated_back (front : Entries Json) {back : Entries Json} (described : r.fields = o.fields)
    (kept : ∀ p ∈ o.slots, p.Kept r.blank a) (whole : o.entries a = front ++ back)
    (apart : ∀ name ∈ ["type", "description", "nullable", "optional"], name ∉ o.names) :
    "type" ∉ Entries.keys (front ++ (o.rest a).entries ++ back) ∧
      (∀ e ∈ front ++ (o.rest a).entries ++ back, e.2.Sound) ∧
      ∀ mode, r.readWith o.annotate mode
        (Tree.ofJson (.object (front ++ (o.rest a).entries ++ back))) = .ok a := by
  have names := (o.rest a).entries_names
  have beside : ∀ name ∈ Entries.keys (o.rest a).entries, name ∉ o.names :=
    fun name here => apart name (List.mem_cons_of_mem _ (names.subset here))
  have order : (front ++ (o.rest a).entries ++ back).Perm (o.entries a ++ (o.rest a).entries) := by
    rw [whole, List.append_assoc, List.append_assoc]
    exact List.perm_append_comm.append_left front
  refine ⟨fun tagged => ?_, fun e listed => ?_, fun mode => ?_⟩
  · obtain ⟨v, listed⟩ := entry_of_name tagged
    rcases List.mem_append.mp (order.mem_iff.mp listed) with own | info
    · exact fresh_entries (apart "type" List.mem_cons_self) (mem_keys_of_mem own)
    · have among : "type" ∈ ["description", "nullable", "optional"] :=
        names.subset (mem_keys_of_mem info)
      exact absurd among (by decide)
  · rcases List.mem_append.mp (order.mem_iff.mp listed) with own | info
    · exact entries_sound kept e own
    · exact (o.rest a).entries_sound e info
  · refine readWith_back described (kept_holds kept order (names.nodup (by decide)) beside) ?_
    have own : ∀ e ∈ front ++ back, e ∈ o.entries a := fun e here => whole ▸ here
    rw [List.filter_append, List.filter_append,
      leaves_own fun e here => own e (List.mem_append_left _ here),
      leaves_own fun e here => own e (List.mem_append_right _ here), List.nil_append,
      List.append_nil,
      List.filter_eq_self.mpr fun e here => unnamed_leaves (beside e.1 (mem_keys_of_mem here)),
      annotate, Ir.Meta.ofEntries_back]
    refine congrArg Except.ok (o.whole _ _ (fun p known => ?_) ?_)
    · rw [o.get_with p known, o.get_with p known]
    · rw [o.rest_with]

end Outline

end ApiLowering
