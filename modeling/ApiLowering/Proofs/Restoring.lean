import ApiLowering.Proofs.Finite
import ApiLowering.Proofs.Outline

/-!
Decoders that restore what was written. What such a decoder made of a JSON value, it makes of the
written form of the result too, in whatever way it is read; so do lists, maps, records and nodes whose
parts are decoded like that.
-/

set_option autoImplicit false

namespace ApiLowering

-- What is written of what was read from a value: a proper value again, from which the same is read.
-- Null is written only of null.
structure Reader.Restored {β : Type} (reader : Reader β) (write : β → Json) (value : Json) (b : β) :
    Prop where
  proper : (write b).canonical.Proper
  back : ∀ mode, reader mode (Tree.ofJson (write b).canonical) = .ok b
  null : write b = .null → value = .null

-- The decoder restores what it makes of proper values of less than the height.
def Reader.Restores {β : Type} (height : Nat) (reader : Reader β) (write : β → Json) : Prop :=
  ∀ mode (value : Json) b, value.Proper → (Tree.ofJson value).height < height →
    reader mode (Tree.ofJson value) = .ok b → reader.Restored write value b

namespace Reader

variable {β ν : Type} {height : Nat} {reader : Reader β} {write : β → Json}

theorem restored_of {value json : Json} {b : β} (wrote : write b = json)
    (proper : json.canonical.Proper) (back : ∀ mode, reader mode (Tree.ofJson json.canonical) = .ok b)
    (null : json = .null → value = .null) : reader.Restored write value b := by
  subst wrote
  exact ⟨proper, back, null⟩

theorem Restores.lower (restores : reader.Restores (height + 1) write) :
    reader.Restores height write :=
  fun mode value b proper low => restores mode value b proper (Nat.lt_succ_of_lt low)

theorem text_ok {mode : Mode} {value : Json} {s : String}
    (read : text mode (Tree.ofJson value) = .ok s) : value = .text s := by
  cases value <;> cases mode <;> cases read <;> rfl

theorem text_restores : Restores height text .text := by
  intro mode value s _ _ read
  cases text_ok read
  exact ⟨.text s, fun mode => by cases mode <;> rfl, fun same => by cases same⟩

theorem bool_ok {mode : Mode} {value : Json} {b : Bool}
    (read : bool mode (Tree.ofJson value) = .ok b) : value = .bool b := by
  cases value <;> cases read
  rfl

theorem bool_restores : Restores height bool .bool := by
  intro mode value b _ _ read
  cases bool_ok read
  exact ⟨.bool b, fun _ => rfl, fun same => by cases same⟩

theorem value_restores : Restores height value id := by
  intro mode json b proper _ read
  rw [value_proper mode proper] at read
  cases read
  refine ⟨?_, fun mode => ?_, fun same => same⟩
  · rwa [id, proper.canonical]
  · rw [id, proper.canonical, value_proper mode proper]

theorem number_ok {expected : String} {value : Json} {n : Number}
    (read : number expected (Tree.ofJson value) = .ok n) : value = .number n := by
  cases value <;> cases read
  rfl

theorem unsigned_back (expected : String) (mode : Mode) {n bound : Nat} (small : n < bound) :
    unsigned expected bound mode (Tree.ofJson (Json.ofNat n)) = .ok n := by
  have within : 0 ≤ (n : Int) ∧ (n : Int) < bound := by omega
  simp only [unsigned, number, Json.ofNat, Tree.ofJson, Tree.ofScalar, Tree.bare, bind, Except.bind,
    if_pos within, Int.toNat_natCast]

theorem uint64_back (mode : Mode) (n : UInt64) :
    uint64 mode (Tree.ofJson (Json.ofUInt64 n)) = .ok n := by
  rw [uint64, Json.ofUInt64, unsigned_back "u64" mode n.toNat_lt]
  exact congrArg Except.ok UInt64.ofNat_toNat

theorem uint64_proper (n : UInt64) : (Json.ofUInt64 n).Proper := by
  refine .integer (decide_eq_true ?_)
  have := n.toNat_lt
  omega

theorem uint64_restores : Restores height uint64 Json.ofUInt64 :=
  fun _ _ n _ _ _ => ⟨uint64_proper n, fun mode => uint64_back mode n, fun same => by cases same⟩

theorem real_back (mode : Mode) {x : Binary64} (finite : x.isFinite = true) :
    real mode (Tree.ofJson (Json.ofReal x).canonical) = .ok x := by
  rw [Json.ofReal, Number.ofReal?, if_pos finite]
  rfl

theorem real_finite {mode : Mode} {value : Json} {x : Binary64} (proper : value.Proper)
    (read : real mode (Tree.ofJson value) = .ok x) : x.isFinite = true := by
  obtain ⟨n, number, read⟩ := except_bind_ok read
  cases number_ok number
  cases proper with
  | integer word =>
    cases read
    exact Binary64.isFinite_ofInt word
  | real finite =>
    cases read
    exact finite

theorem real_restores : Restores height real Json.ofReal := by
  intro mode value x proper _ read
  have finite := real_finite proper read
  have written : Json.ofReal x = .number (.real x) := by
    rw [Json.ofReal, Number.ofReal?, if_pos finite]
  exact restored_of written (.real finite) (fun mode => written ▸ real_back mode finite)
    fun same => by cases same

theorem canonical_null {value : Json} (null : value.canonical = .null) : value = .null := by
  cases value <;> cases null
  rfl

theorem optional_present {mode : Mode} {value : Json} (present : value ≠ .null) :
    optional reader mode (Tree.ofJson value) = (reader mode (Tree.ofJson value)).map some := by
  cases value with
  | null => exact absurd rfl present
  | _ => rfl

theorem optional_restores (restores : reader.Restores height write) :
    (optional reader).Restores height fun found => (found.map write).getD .null := by
  intro mode value found proper low read
  by_cases absent : value = .null
  · subst absent
    cases read
    exact ⟨.null, fun _ => rfl, fun _ => rfl⟩
  · rw [optional_present absent] at read
    obtain ⟨b, readB, rfl⟩ := except_map_ok read
    have restored := restores mode value b proper low readB
    refine ⟨restored.proper, fun mode => ?_, restored.null⟩
    have written : (write b).canonical ≠ .null :=
      fun same => absent (restored.null (canonical_null same))
    exact (optional_present written).trans (congrArg (Except.map some) (restored.back mode))

theorem list_ofJson (mode : Mode) (items : List Json) :
    list reader mode (Tree.ofJson (.list items)) = each (reader mode) (Tree.ofJsonList items) := by
  simp only [list, Tree.ofJson, Tree.bare]
  cases each (reader mode) (Tree.ofJsonList items) <;> rfl

theorem list_ok {mode : Mode} {value : Json} {all : List β}
    (read : list reader mode (Tree.ofJson value) = .ok all) :
    ∃ items, value = .list items ∧ each (reader mode) (Tree.ofJsonList items) = .ok all := by
  cases value with
  | list items => exact ⟨items, rfl, list_ofJson mode items ▸ read⟩
  | _ => cases read

theorem entries_ofJson (mode : Mode) (es : Entries Json) :
    entries reader mode (Tree.ofJson (.object es)) =
      (eachEntry mode (reader mode) (Tree.ofJsonEntries es)).map Entries.collect := by
  simp only [entries, Tree.ofJson, Tree.bare]
  cases eachEntry mode (reader mode) (Tree.ofJsonEntries es) <;> rfl

theorem entries_ok {mode : Mode} {value : Json} {all : Entries β}
    (read : entries reader mode (Tree.ofJson value) = .ok all) :
    ∃ es found, value = .object es ∧
      eachEntry mode (reader mode) (Tree.ofJsonEntries es) = .ok found ∧
      Entries.collect found = all := by
  cases value with
  | object es =>
    rw [entries_ofJson] at read
    obtain ⟨found, read, same⟩ := except_map_ok read
    exact ⟨es, found, rfl, read, same⟩
  | _ => cases read

theorem each_restores {mode : Mode} {items : List Json} {all : List β}
    (restores : reader.Restores height write)
    (proper : ∀ item ∈ items, item.Proper ∧ (Tree.ofJson item).height < height)
    (read : each (reader mode) (Tree.ofJsonList items) = .ok all) :
    (∀ item ∈ Json.canonicalList (all.map write), item.Proper) ∧ ∀ mode,
      each (reader mode) (Tree.ofJsonList (Json.canonicalList (all.map write))) = .ok all := by
  induction items generalizing all with
  | nil =>
    cases read
    exact ⟨fun _ here => absurd here List.not_mem_nil, fun _ => rfl⟩
  | cons item rest ih =>
    obtain ⟨⟨fine, low⟩, proper⟩ := List.forall_mem_cons.mp proper
    obtain ⟨first, here, read⟩ := except_bind_ok read
    obtain ⟨more, later, read⟩ := except_bind_ok read
    cases read
    have restored := restores _ item first fine low here
    obtain ⟨properRest, again⟩ := ih proper later
    refine ⟨List.forall_mem_cons.mpr ⟨restored.proper, properRest⟩, fun mode => ?_⟩
    rw [List.map_cons, Json.canonicalList, Tree.ofJsonList, each, restored.back mode, again mode]
    rfl

theorem list_restores (restores : reader.Restores height write) :
    (list reader).Restores height fun all => .list (all.map write) := by
  intro mode value all proper low read
  obtain ⟨items, rfl, readItems⟩ := list_ok read
  cases proper with
  | list fine =>
    have parts : ∀ item ∈ items, item.Proper ∧ (Tree.ofJson item).height < height :=
      fun item here => ⟨fine item here, Nat.lt_trans (Tree.height_item here) low⟩
    obtain ⟨properAll, again⟩ := each_restores restores parts readItems
    refine ⟨.list properAll, fun mode => ?_, fun same => by cases same⟩
    rw [Json.canonical, list_ofJson, again mode]

theorem eachEntry_restores {mode : Mode} {entries : Entries Json} {all : Entries β}
    (restores : reader.Restores height write)
    (proper : ∀ e ∈ entries, e.2.Proper ∧ (Tree.ofJson e.2).height < height)
    (read : eachEntry mode (reader mode) (Tree.ofJsonEntries entries) = .ok all) :
    Entries.keys all = Entries.keys entries ∧
      (∀ e ∈ Json.canonicalEntries (Entries.mapValues write all), e.2.Proper) ∧
      ∀ mode, eachEntry mode (reader mode)
        (Tree.ofJsonEntries (Json.canonicalEntries (Entries.mapValues write all))) = .ok all := by
  induction entries generalizing all with
  | nil =>
    cases read
    exact ⟨rfl, fun _ here => absurd here List.not_mem_nil, fun _ => rfl⟩
  | cons e rest ih =>
    obtain ⟨key, item⟩ := e
    obtain ⟨⟨fine, low⟩, proper⟩ := List.forall_mem_cons.mp proper
    obtain ⟨name, named, read⟩ := except_bind_ok read
    obtain ⟨first, here, read⟩ := except_bind_ok read
    obtain ⟨more, later, read⟩ := except_bind_ok read
    cases named
    cases read
    have restored := restores _ item first fine low here
    obtain ⟨keys, properRest, again⟩ := ih proper later
    refine ⟨congrArg (key :: ·) keys, List.forall_mem_cons.mpr ⟨restored.proper, properRest⟩,
      fun mode => ?_⟩
    have mapped : Entries.mapValues write ((key, first) :: more) =
        (key, write first) :: Entries.mapValues write more := rfl
    rw [mapped, Json.canonicalEntries, Tree.ofJsonEntries, eachEntry, restored.back mode, again mode]
    rfl

theorem entries_restores (restores : reader.Restores height write) :
    (entries reader).Restores height fun all => .object (Entries.mapValues write all) := by
  intro mode value all proper low read
  obtain ⟨es, found, rfl, readItems, rfl⟩ := entries_ok read
  cases proper with
  | object ascends fine =>
    have parts : ∀ e ∈ es, e.2.Proper ∧ (Tree.ofJson e.2).height < height :=
      fun e here => ⟨fine e here, Nat.lt_trans (Tree.height_entry here) low⟩
    obtain ⟨keys, properAll, again⟩ := eachEntry_restores restores parts readItems
    have distinct : (Entries.keys found).Nodup := keys ▸ ascends_nodup ascends
    have sorted : (Entries.keys
        (Json.canonicalEntries (Entries.mapValues write found))).Pairwise (· < ·) := by
      rw [canonicalEntries_map, keys_mapValues, keys_mapValues, keys]
      exact ascends
    have canonical : (Json.object (Entries.mapValues write found)).canonical =
        .object (Json.canonicalEntries (Entries.mapValues write found)) := by
      rw [Json.canonical, sort_self sorted]
    rw [collect_self distinct]
    refine ⟨canonical ▸ .object sorted properAll, fun mode => ?_, fun same => by cases same⟩
    rw [canonical, entries_ofJson, again mode, Except.map, collect_self distinct]

end Reader

namespace Slot

variable {α β : Type} {height : Nat} {blank a : α} {name : String} {reader : Reader β}
  {write : β → Json}

-- A value that is written reads back, and one that is left out is the blank one.
structure Survives (p : Slot α) (blank v : p.value) : Prop where
  proper : ∀ json, p.write v = some json → json.canonical.Proper
  written : ∀ json, p.write v = some json → ∀ mode, p.read mode (Tree.ofJson json.canonical) = .ok v
  omitted : p.write v = none → p.absence ≠ .refused ∧ v = blank

-- Whatever the slot can hold after reading a value of less than the height survives.
structure Stable (height : Nat) (blank : α) (p : Slot α) : Prop where
  read : ∀ mode (value : Json) v, value.Proper → (Tree.ofJson value).height < height →
    p.read mode (Tree.ofJson value) = .ok v → p.Survives (p.get blank) v
  blank : p.absence ≠ .refused → p.Survives (p.get blank) (p.get blank)

theorem Stable.found {p : Slot α} {mode : Mode} {value : Json} (stable : p.Stable height blank)
    (low : (Tree.ofJson value).height ≤ height) (found : p.FoundIn mode value blank a) :
    p.Survives (p.get blank) (p.get a) := by
  rcases found with ⟨v, proper, lower, read⟩ | ⟨left, same⟩
  · exact stable.read mode v _ proper (Nat.lt_of_lt_of_le lower low) read
  · rw [same]
    exact stable.blank left

theorem survives_written {p : Slot α} {blank v : p.value} {json : Json} (wrote : p.write v = some json)
    (proper : json.canonical.Proper)
    (back : ∀ mode, p.read mode (Tree.ofJson json.canonical) = .ok v) : p.Survives blank v where
  proper other same := by
    cases wrote.symm.trans same
    exact proper
  written other same := by
    cases wrote.symm.trans same
    exact back
  omitted none := by cases wrote.symm.trans none

theorem survives_omitted {p : Slot α} {blank v : p.value} (none : p.write v = none)
    (left : p.absence ≠ .refused) (same : v = blank) : p.Survives blank v where
  proper _ wrote := by cases none.symm.trans wrote
  written _ wrote := by cases none.symm.trans wrote
  omitted _ := ⟨left, same⟩

theorem required_stable {get : α → β} {set : β → α → α} {get_set : ∀ v a, get (set v a) = v}
    (restores : reader.Restores height write) :
    (required name reader write get set get_set).Stable height blank where
  read mode value v proper low read :=
    have restored := restores mode value v proper low read
    survives_written rfl restored.proper restored.back
  blank left := absurd rfl left

theorem always_stable {get : α → β} {set : β → α → α} {get_set : ∀ v a, get (set v a) = v}
    (restores : reader.Restores height write) (proper : (write (get blank)).canonical.Proper)
    (back : ∀ mode, reader mode (Tree.ofJson (write (get blank)).canonical) = .ok (get blank)) :
    (always name reader write get set get_set).Stable height blank where
  read mode value v proper low read :=
    have restored := restores mode value v proper low read
    survives_written rfl restored.proper restored.back
  blank _ := survives_written rfl proper back

theorem optional_stable {get : α → Option β} {set : Option β → α → α}
    {get_set : ∀ v a, get (set v a) = v} (restores : reader.Restores height write)
    (absent : get blank = none) :
    (optional name reader write get set get_set).Stable height blank where
  read mode value found proper low read := by
    have restored := Reader.optional_restores restores mode value found proper low read
    cases found with
    | none => exact survives_omitted rfl Absence.noConfusion absent.symm
    | some b => exact survives_written rfl restored.proper restored.back
  blank _ := survives_omitted (congrArg (Option.map write) absent) Absence.noConfusion rfl

theorem skipping_stable {skip : β → Bool} {get : α → β} {set : β → α → α}
    {get_set : ∀ v a, get (set v a) = v} (restores : reader.Restores height write)
    (skipped : ∀ v, skip v = true ↔ v = get blank) :
    (skipping name reader write skip get set get_set).Stable height blank where
  read mode value v proper low read := by
    by_cases skips : skip v = true
    · exact survives_omitted (if_pos skips) Absence.noConfusion ((skipped v).mp skips)
    · have restored := restores mode value v proper low read
      exact survives_written (if_neg skips) restored.proper restored.back
  blank _ := survives_omitted (if_pos ((skipped _).mpr rfl)) Absence.noConfusion rfl

theorem list_stable {get : α → List β} {set : List β → α → α}
    {get_set : ∀ v a, get (set v a) = v} (restores : reader.Restores height write)
    (empty : get blank = []) :
    (list name reader write get set get_set).Stable height blank :=
  skipping_stable (Reader.list_restores restores) fun _ => empty ▸ List.isEmpty_iff

theorem map_stable {get : α → Entries β} {set : Entries β → α → α}
    {get_set : ∀ v a, get (set v a) = v} (restores : reader.Restores height write)
    (empty : get blank = []) :
    (map name reader write get set get_set).Stable height blank :=
  skipping_stable (Reader.entries_restores restores) fun _ => empty ▸ List.isEmpty_iff

end Slot

namespace Outline

variable {α ρ : Type} {o : Outline α ρ} {mode : Mode} {extra : Entries Json} {blank a : α}
  {height : Nat} {value : Json} {p : Slot α}

-- The entries of the canonical form of what the slots write and what stands beside them.
def written (o : Outline α ρ) (a : α) (extra : Entries Json) : Entries Json :=
  Entries.sort (Entries.mapValues Json.canonical (o.entries a ++ extra))

theorem written_canonical (a : α) (extra : Entries Json) :
    (Json.object (o.entries a ++ extra)).canonical = .object (o.written a extra) := by
  rw [Json.canonical, canonicalEntries_map]
  rfl

-- Entries that no slot names, as they stand in a proper object.
structure Extra (o : Outline α ρ) (extra : Entries Json) : Prop where
  ascends : (Entries.keys extra).Pairwise (· < ·)
  proper : ∀ e ∈ extra, e.2.Proper
  left : ∀ e ∈ extra, o.leaves e = true

theorem leaves_name {e : String × Json} (left : o.leaves e = true) : e.1 ∉ o.names := by
  rw [leaves, Bool.not_eq_true', ← Bool.not_eq_true] at left
  exact fun here => left (List.contains_iff_mem.mpr here)

theorem written_nodup (beside : o.Extra extra) :
    (Entries.keys (Entries.mapValues Json.canonical (o.entries a ++ extra))).Nodup := by
  rw [keys_mapValues, keys_append]
  refine List.nodup_append.mpr
    ⟨o.distinct.sublist (entries_names a), ascends_nodup beside.ascends, ?_⟩
  rintro name own other among rfl
  obtain ⟨e, listed, same⟩ := List.mem_map.mp among
  exact leaves_name (beside.left e listed) (same ▸ (entries_names a).subset own)

theorem mem_written {v : Json} (known : p ∈ o.slots) (beside : o.Extra extra) :
    (p.name, v) ∈ o.written a extra ↔ ∃ json, p.write (p.get a) = some json ∧ json.canonical = v := by
  rw [written, (sort_perm (written_nodup beside)).mem_iff, Entries.mapValues, List.mem_map]
  constructor
  · rintro ⟨⟨name, json⟩, listed, same⟩
    obtain ⟨rfl, rfl⟩ := Prod.mk.inj same
    rcases List.mem_append.mp listed with own | other
    · exact ⟨json, (mem_entries known).mp own, rfl⟩
    · exact absurd (mem_names known) (leaves_name (beside.left _ other))
  · rintro ⟨json, write, rfl⟩
    exact ⟨(p.name, json), List.mem_append_left _ ((mem_entries known).mpr write), rfl⟩

theorem written_holds (beside : o.Extra extra)
    (survive : ∀ p ∈ o.slots, p.Survives (p.get blank) (p.get a)) :
    o.Holds mode (o.written a extra) blank a where
  distinct := ascends_nodup (sort_ascends _)
  given p known v listed := by
    obtain ⟨json, write, rfl⟩ := (mem_written known beside).mp listed
    exact (survive p known).written json write mode
  absent p known missing := by
    apply (survive p known).omitted
    cases write : p.write (p.get a) with
    | none => rfl
    | some json =>
      exact absurd (mem_keys_of_mem ((mem_written known beside).mpr ⟨json, write, rfl⟩)) missing

theorem unnamed_leaves {e : String × Json} (unnamed : e.1 ∉ o.names) : o.leaves e = true := by
  rw [leaves, Bool.not_eq_true', ← Bool.not_eq_true]
  exact fun here => unnamed (List.contains_iff_mem.mp here)

theorem names_leave {e : String × Json} (named : e.1 ∈ o.names) : ¬ o.leaves e = true :=
  fun left => leaves_name left named

theorem written_leaves (beside : o.Extra extra) : (o.written a extra).filter o.leaves = extra := by
  have order : ((o.written a extra).filter o.leaves).Perm
      ((Entries.mapValues Json.canonical (o.entries a ++ extra)).filter o.leaves) :=
    (sort_perm (written_nodup beside)).filter _
  have own : (Entries.mapValues Json.canonical (o.entries a)).filter o.leaves = [] := by
    refine List.filter_eq_nil_iff.mpr fun e listed => names_leave ?_
    have key := mem_keys_of_mem listed
    rw [keys_mapValues] at key
    exact (entries_names a).subset key
  have split : Entries.mapValues Json.canonical (o.entries a ++ extra) =
      Entries.mapValues Json.canonical (o.entries a) ++ Entries.mapValues Json.canonical extra :=
    List.map_append
  rw [split, List.filter_append, own, List.nil_append, Json.Proper.entries_canonical beside.proper,
    List.filter_eq_self.mpr beside.left] at order
  exact ascends_unique order (filter_ascends _ (sort_ascends _)) beside.ascends

theorem written_proper (beside : o.Extra extra)
    (survive : ∀ p ∈ o.slots, p.Survives (p.get blank) (p.get a)) :
    (Json.object (o.written a extra)).Proper := by
  refine .object (sort_ascends _) fun ⟨name, v⟩ listed => ?_
  by_cases own : name ∈ o.names
  · obtain ⟨p, known, rfl⟩ := List.mem_map.mp own
    obtain ⟨json, write, rfl⟩ := (mem_written known beside).mp listed
    exact (survive p known).proper json write
  · have left : (name, v) ∈ (o.written a extra).filter o.leaves :=
      List.mem_filter.mpr ⟨listed, unnamed_leaves own⟩
    rw [written_leaves beside] at left
    exact beside.proper _ left

theorem extra_nil : o.Extra [] where
  ascends := List.Pairwise.nil
  proper _ here := absurd here List.not_mem_nil
  left _ here := absurd here List.not_mem_nil

variable {r : Record α}

/-- A closed record whose slots are stable restores what it writes. -/
theorem restores_closed {write : α → Json} (described : r.fields = o.fields)
    (plain : ∀ a b, o.rest a = o.rest b) (written : ∀ a, write a = .object (o.entries a))
    (stable : ∀ p ∈ o.slots, p.Stable height r.blank) :
    Reader.Restores (height + 1) r.read write := by
  intro mode value a proper low read
  obtain ⟨found, -⟩ := read_found described proper read
  have survive : ∀ p ∈ o.slots, p.Survives (p.get r.blank) (p.get a) :=
    fun p known => (stable p known).found (Nat.le_of_lt_succ low) (found p known)
  have canonical : (Json.object (o.entries a)).canonical = .object (o.written a []) := by
    rw [← written_canonical, List.append_nil]
  refine Reader.restored_of (written a) (canonical ▸ written_proper extra_nil survive)
    (fun mode => ?_) fun same => by cases same
  rw [canonical]
  apply read_back described (written_holds extra_nil survive)
  apply o.whole
  · exact fun p known => o.get_with p known _ a
  · exact plain _ _

-- What an extended record was read from.
theorem extended_holds {o : Outline α (Entries Json)} (described : r.fields = o.fields)
    (proper : value.Proper) (read : r.readExtended o.withRest mode (Tree.ofJson value) = .ok a) :
    ∃ es, value = .object es ∧ o.Holds mode es r.blank a ∧ o.rest a = es.filter o.leaves ∧
      o.Extra (o.rest a) := by
  obtain ⟨es, record, rfl, holds, finished⟩ := readWith_holds described proper read
  cases proper with
  | object ascends each =>
    have beside : o.Extra (es.filter o.leaves) :=
      ⟨filter_ascends _ ascends, fun e here => each e (List.mem_filter.mp here).1,
        fun e here => (List.mem_filter.mp here).2⟩
    have values : Reader.valueEntries .held (Tree.ofJsonEntries (es.filter o.leaves)) =
        .ok (es.filter o.leaves) :=
      Reader.valueEntries_proper fun e here => Reader.value_proper .held (beside.proper e here)
    rw [values] at finished
    cases finished
    rw [collect_self (ascends_nodup beside.ascends), o.rest_with]
    have same {p : Slot α} (known : p ∈ o.slots) :
        p.get (o.withRest (es.filter o.leaves) record) = p.get record := o.get_with p known _ record
    refine ⟨es, rfl, ⟨holds.distinct, fun p known v here => ?_, fun p known missing => ?_⟩, rfl, beside⟩
    · rw [same known]
      exact holds.given p known v here
    · rw [same known]
      exact holds.absent p known missing

/-- An extended record reads back from entries that hold it, with the others beside them. -/
theorem extended_back {o : Outline α (Entries Json)} {es : Entries Json}
    (described : r.fields = o.fields) (holds : o.Holds mode es r.blank a)
    (left : es.filter o.leaves = o.rest a) (beside : o.Extra (o.rest a)) :
    r.readExtended o.withRest mode (Tree.ofJson (.object es)) = .ok a := by
  refine readWith_back described holds ?_
  have values : Reader.valueEntries .held (Tree.ofJsonEntries (o.rest a)) = .ok (o.rest a) :=
    Reader.valueEntries_proper fun e here => Reader.value_proper .held (beside.proper e here)
  rw [left, values]
  refine congrArg Except.ok (o.whole _ _ (fun p known => ?_) ?_)
  · rw [o.get_with p known, o.get_with p known]
  · rw [o.rest_with, collect_self (ascends_nodup beside.ascends)]

/-- An extended record whose slots are stable restores what it writes. -/
theorem restores_extended {o : Outline α (Entries Json)} {write : α → Json}
    (described : r.fields = o.fields)
    (written : ∀ a, write a = .object (o.entries a ++ o.rest a))
    (stable : ∀ p ∈ o.slots, p.Stable height r.blank) :
    Reader.Restores (height + 1) (r.readExtended o.withRest) write := by
  intro mode value a proper low read
  obtain ⟨es, rfl, holds, -, beside⟩ := extended_holds described proper read
  have survive : ∀ p ∈ o.slots, p.Survives (p.get r.blank) (p.get a) :=
    fun p known => (stable p known).found (Nat.le_of_lt_succ low) (holds.found proper known)
  refine Reader.restored_of (written a) (written_canonical a _ ▸ written_proper beside survive)
    (fun mode => ?_) fun same => by cases same
  rw [written_canonical]
  exact extended_back described (written_holds beside survive) (written_leaves beside) beside

end Outline

end ApiLowering
