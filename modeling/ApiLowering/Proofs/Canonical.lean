import ApiLowering.Proofs.ByteOrder
import ApiLowering.Proofs.Numbers
import ApiLowering.Decode.Lenient

/-!
Canonical JSON values. Sorting arranges the entries of an object and loses none of them; a proper
value is canonical already; and its tree holds no failure, so that it decodes to the value itself.
-/

set_option autoImplicit false

namespace ApiLowering

section

variable {α β : Type} {entries others : Entries α}

theorem keys_mapValues (f : α → β) (entries : Entries α) :
    Entries.keys (Entries.mapValues f entries) = Entries.keys entries := by
  simp only [Entries.keys, Entries.mapValues, List.map_map, Function.comp_def]

theorem keys_append (entries others : Entries α) :
    Entries.keys (entries ++ others) = Entries.keys entries ++ Entries.keys others :=
  List.map_append

theorem mem_keys_of_mem {e : String × α} (listed : e ∈ entries) : e.1 ∈ Entries.keys entries :=
  List.mem_map.mpr ⟨e, listed, rfl⟩

theorem keys_putSorted (key : String) (value : α) (entries : Entries α) :
    Entries.keys (Entries.putSorted key value entries) =
      insertSorted key (Entries.keys entries) := by
  induction entries with
  | nil => rfl
  | cons e rest ih =>
    obtain ⟨k, v⟩ := e
    have cons : Entries.keys ((k, v) :: rest) = k :: Entries.keys rest := rfl
    rw [cons, Entries.putSorted]
    rcases Std.lt_trichotomy key k with before | same | after
    · have different : k ≠ key := fun same => String.lt_irrefl k (same ▸ before)
      rw [if_neg different, if_pos before, insertSorted_pos before]
      rfl
    · subst same
      rw [if_pos rfl, insertSorted_same]
      rfl
    · have different : k ≠ key := fun same => String.lt_irrefl k (same ▸ after)
      rw [if_neg different, if_neg (String.lt_asymm after), insertSorted_neg after, ← ih]
      rfl

theorem get_putSorted {key other : String} {value : α} :
    Entries.get? other (Entries.putSorted key value entries) =
      if other = key then some value else Entries.get? other entries := by
  induction entries with
  | nil =>
    simp only [Entries.putSorted, Entries.get?, eq_comm]
  | cons first rest ih =>
    obtain ⟨k, v⟩ := first
    by_cases replaced : k = key
    · subst replaced
      rw [Entries.putSorted, if_pos rfl, Entries.get?, Entries.get?]
      by_cases same : other = k
      · rw [if_pos same.symm, if_pos same]
      · rw [if_neg (Ne.symm same), if_neg (Ne.symm same), if_neg same]
    · rw [Entries.putSorted, if_neg replaced]
      by_cases before : key < k
      · rw [if_pos before, Entries.get?]
        simp only [eq_comm]
      · rw [if_neg before, Entries.get?, Entries.get?, ih]
        by_cases here : k = other
        · subst here
          rw [if_pos rfl, if_pos rfl, if_neg replaced]
        · rw [if_neg here, if_neg here]

theorem sort_ascends (entries : Entries α) :
    (Entries.keys (Entries.sort entries)).Pairwise (· < ·) := by
  have folded (sorted : Entries α) (ascends : (Entries.keys sorted).Pairwise (· < ·)) :
      (Entries.keys (entries.foldl (fun sorted e => Entries.putSorted e.1 e.2 sorted)
        sorted)).Pairwise (· < ·) := by
    induction entries generalizing sorted with
    | nil => exact ascends
    | cons e rest ih =>
      apply ih
      rw [keys_putSorted]
      exact insertSorted_pairwise ascends
  exact folded [] List.Pairwise.nil

theorem putSorted_perm {key : String} {value : α} (fresh : key ∉ Entries.keys entries) :
    (Entries.putSorted key value entries).Perm ((key, value) :: entries) := by
  induction entries with
  | nil => exact .refl _
  | cons e rest ih =>
    obtain ⟨k, v⟩ := e
    obtain ⟨different, later⟩ := not_or.mp fun here => fresh (List.mem_cons.mpr here)
    rw [Entries.putSorted, if_neg (Ne.symm different)]
    by_cases before : key < k
    · rw [if_pos before]
    · rw [if_neg before]
      exact ((ih later).cons (k, v)).trans (.swap _ _ _)

theorem sort_perm (distinct : (Entries.keys entries).Nodup) :
    (Entries.sort entries).Perm entries := by
  have folded (sorted : Entries α) (apart : (Entries.keys (entries ++ sorted)).Nodup) :
      (entries.foldl (fun sorted e => Entries.putSorted e.1 e.2 sorted) sorted).Perm
        (entries ++ sorted) := by
    clear distinct
    induction entries generalizing sorted with
    | nil => exact .refl _
    | cons e rest ih =>
      obtain ⟨fresh, apart⟩ := List.nodup_cons.mp apart
      have freshHere : e.1 ∉ Entries.keys sorted := by
        intro here
        have later := List.mem_append_right (Entries.keys rest) here
        rw [← keys_append] at later
        exact fresh later
      have moved : (rest ++ Entries.putSorted e.1 e.2 sorted).Perm (e :: (rest ++ sorted)) :=
        ((putSorted_perm freshHere).append_left rest).trans List.perm_middle
      have apartToo : (Entries.keys (rest ++ Entries.putSorted e.1 e.2 sorted)).Nodup :=
        (moved.map Prod.fst).nodup_iff.mpr (List.nodup_cons.mpr ⟨fresh, apart⟩)
      exact (ih _ apartToo).trans moved
  have start := folded [] (by rwa [List.append_nil])
  rwa [List.append_nil] at start

theorem ascends_nodup (ascends : (Entries.keys entries).Pairwise (· < ·)) :
    (Entries.keys entries).Nodup :=
  ascends.imp fun {a b} (less : a < b) (same : a = b) => String.lt_irrefl b (same ▸ less)

-- Entries with ascending keys are determined by which they are.
theorem ascends_unique (order : entries.Perm others)
    (ascends : (Entries.keys entries).Pairwise (· < ·))
    (ascendsToo : (Entries.keys others).Pairwise (· < ·)) : entries = others := by
  refine order.eq_of_pairwise ?_ (List.pairwise_map.mp ascends) (List.pairwise_map.mp ascendsToo)
  intro a b _ _ less more
  exact absurd more (String.lt_asymm less)

-- Entries with ascending keys are determined by what is found in them.
theorem ascends_ext (ascends : (Entries.keys entries).Pairwise (· < ·))
    (ascendsToo : (Entries.keys others).Pairwise (· < ·))
    (same : ∀ key, Entries.get? key entries = Entries.get? key others) : entries = others := by
  have distinct := ascends_nodup ascends
  have distinctToo := ascends_nodup ascendsToo
  refine ascends_unique ?_ ascends ascendsToo
  apply (List.perm_ext_iff_of_nodup (.of_map _ distinct) (.of_map _ distinctToo)).mpr
  rintro ⟨key, value⟩
  constructor
  · intro listed
    exact Resolver.get_mem ((same key).symm.trans (get_of_mem distinct listed))
  · intro listed
    exact Resolver.get_mem ((same key).trans (get_of_mem distinctToo listed))

theorem sort_self (ascends : (Entries.keys entries).Pairwise (· < ·)) :
    Entries.sort entries = entries :=
  ascends_unique (sort_perm (ascends_nodup ascends)) (sort_ascends entries) ascends

theorem put_fresh {key : String} {value : α} (fresh : key ∉ Entries.keys entries) :
    Entries.put key value entries = entries ++ [(key, value)] := by
  induction entries with
  | nil => rfl
  | cons e rest ih =>
    obtain ⟨k, v⟩ := e
    obtain ⟨different, later⟩ := not_or.mp fun here => fresh (List.mem_cons.mpr here)
    rw [Entries.put, if_neg (Ne.symm different), ih later, List.cons_append]

theorem collect_self (distinct : (Entries.keys entries).Nodup) :
    Entries.collect entries = entries := by
  have folded (seen : Entries α) (apart : (Entries.keys (seen ++ entries)).Nodup) :
      entries.foldl (fun seen e => Entries.put e.1 e.2 seen) seen = seen ++ entries := by
    clear distinct
    induction entries generalizing seen with
    | nil => exact (List.append_nil seen).symm
    | cons e rest ih =>
      have whole : seen ++ e :: rest = seen ++ [e] ++ rest := by
        rw [List.append_assoc, List.singleton_append]
      have fresh : e.1 ∉ Entries.keys seen := by
        intro here
        rw [keys_append, List.nodup_append] at apart
        exact apart.2.2 _ here _ List.mem_cons_self rfl
      rw [List.foldl_cons, put_fresh fresh, whole]
      apply ih
      rwa [← whole]
  exact folded [] distinct

theorem filter_ascends (keep : String × α → Bool)
    (ascends : (Entries.keys entries).Pairwise (· < ·)) :
    (Entries.keys (entries.filter keep)).Pairwise (· < ·) :=
  ascends.sublist (List.filter_sublist.map Prod.fst)

end

theorem canonicalList_map (items : List Json) : Json.canonicalList items = items.map .canonical := by
  induction items with
  | nil => rfl
  | cons item rest ih => rw [Json.canonicalList, ih, List.map_cons]

theorem canonicalEntries_map (entries : Entries Json) :
    Json.canonicalEntries entries = Entries.mapValues .canonical entries := by
  induction entries with
  | nil => rfl
  | cons e rest ih =>
    obtain ⟨key, value⟩ := e
    rw [Json.canonicalEntries, ih]
    rfl

theorem ofJsonList_map (items : List Json) : Tree.ofJsonList items = items.map .ofJson := by
  induction items with
  | nil => rfl
  | cons item rest ih => rw [Tree.ofJsonList, ih, List.map_cons]

theorem ofJsonEntries_map (entries : Entries Json) :
    Tree.ofJsonEntries entries = entries.map fun e => (.text e.1, .ofJson e.2) := by
  induction entries with
  | nil => rfl
  | cons e rest ih =>
    obtain ⟨key, value⟩ := e
    rw [Tree.ofJsonEntries, ih, List.map_cons]

-- The values that a JSON text can stand for: every number is finite and in range, and the keys of
-- every object ascend.
inductive Json.Proper : Json → Prop where
  | null : Proper .null
  | bool (value : Bool) : Proper (.bool value)
  | integer {n : Int} (word : Number.isWord n = true) : Proper (.number (.integer n))
  | real {x : Binary64} (finite : x.isFinite = true) : Proper (.number (.real x))
  | text (value : String) : Proper (.text value)
  | list {items : List Json} (each : ∀ item ∈ items, Proper item) : Proper (.list items)
  | object {entries : Entries Json} (ascends : (Entries.keys entries).Pairwise (· < ·))
      (each : ∀ e ∈ entries, Proper e.2) : Proper (.object entries)

namespace Json.Proper

theorem canonical {value : Json} (proper : value.Proper) : value.canonical = value := by
  induction proper with
  | null => rfl
  | bool => rfl
  | integer => rfl
  | real => rfl
  | text => rfl
  | @list items _ ih =>
    rw [Json.canonical, canonicalList_map, List.map_congr_left ih, List.map_id']
  | @object entries ascends _ ih =>
    have same : Entries.mapValues Json.canonical entries = entries := by
      refine (List.map_congr_left fun e here => ?_).trans (List.map_id' entries)
      rw [ih e here]
    rw [Json.canonical, canonicalEntries_map, same, sort_self ascends]

theorem entries_canonical {entries : Entries Json} (each : ∀ e ∈ entries, e.2.Proper) :
    Entries.mapValues Json.canonical entries = entries := by
  refine (List.map_congr_left fun e here => ?_).trans (List.map_id' entries)
  rw [(each e here).canonical]

end Json.Proper

namespace Tree

theorem ofJson_bare (value : Json) : (ofJson value).bare = ofJson value := by
  cases value <;> rfl

mutual
theorem ofJson_hold (value : Json) : (ofJson value).hold = .ok (ofJson value) := by
  match value with
  | .null => rfl
  | .bool _ => rfl
  | .number _ => rfl
  | .text _ => rfl
  | .list items =>
    rw [ofJson, hold, ofJsonList_hold items]
    rfl
  | .object entries =>
    rw [ofJson, hold, ofJsonEntries_hold entries]
    rfl

theorem ofJsonList_hold (items : List Json) :
    holdList (ofJsonList items) = .ok (ofJsonList items) := by
  match items with
  | [] => rfl
  | item :: rest =>
    rw [ofJsonList, holdList, ofJson_hold item, ofJsonList_hold rest]
    rfl

theorem ofJsonEntries_hold (entries : List (String × Json)) :
    holdEntries (ofJsonEntries entries) = .ok (ofJsonEntries entries) := by
  match entries with
  | [] => rfl
  | (key, value) :: rest =>
    rw [ofJsonEntries, holdEntries, ofJson_hold value, ofJsonEntries_hold rest]
    rfl
end

theorem ofJson_holdIn (mode : Mode) (value : Json) :
    (ofJson value).holdIn mode = .ok (ofJson value) := by
  cases mode with
  | streamed _ => exact ofJson_hold value
  | held => rfl

mutual
theorem ofJson_skip (value : Json) : (ofJson value).skipFault = none := by
  match value with
  | .null => rfl
  | .bool _ => rfl
  | .number _ => rfl
  | .text _ => rfl
  | .list items =>
    rw [ofJson, skipFault, ofJsonList_skip items]
    rfl
  | .object entries =>
    rw [ofJson, skipFault, ofJsonEntries_skip entries]
    rfl

theorem ofJsonList_skip (items : List Json) : skipList (ofJsonList items) = none := by
  match items with
  | [] => rfl
  | item :: rest =>
    rw [ofJsonList, skipList, ofJson_skip item, ofJsonList_skip rest]
    rfl

theorem ofJsonEntries_skip (entries : List (String × Json)) :
    skipEntries (ofJsonEntries entries) = none := by
  match entries with
  | [] => rfl
  | (key, value) :: rest =>
    rw [ofJsonEntries, skipEntries, ofJson_skip value, ofJsonEntries_skip rest]
    rfl
end

theorem ofJson_skipped (value : Json) : (ofJson value).skipped = .ok () := by
  rw [skipped, ofJson_skip]
  rfl

theorem height_item {items : List Json} {item : Json} (listed : item ∈ items) :
    (ofJson item).height < (ofJson (.list items)).height := by
  have below : (ofJson item).height ≤ heightList (ofJsonList items) := by
    induction items with
    | nil => cases listed
    | cons first rest ih =>
      rw [ofJsonList, heightList]
      rcases List.mem_cons.mp listed with same | later
      · exact same ▸ Nat.le_max_left _ _
      · exact Nat.le_trans (ih later) (Nat.le_max_right _ _)
  rw [ofJson, height]
  exact Nat.lt_succ_of_le below

theorem height_entry {entries : Entries Json} {e : String × Json} (listed : e ∈ entries) :
    (ofJson e.2).height < (ofJson (.object entries)).height := by
  have below : (ofJson e.2).height ≤ heightEntries (ofJsonEntries entries) := by
    induction entries with
    | nil => cases listed
    | cons first rest ih =>
      rw [ofJsonEntries, heightEntries]
      rcases List.mem_cons.mp listed with same | later
      · exact same ▸ Nat.le_max_left _ _
      · exact Nat.le_trans (ih later) (Nat.le_max_right _ _)
  rw [ofJson, height]
  exact Nat.lt_succ_of_le below

end Tree

namespace Reader

theorem ofScalar_proper {value : Json} (proper : value.Proper)
    (scalar : Tree.ofJson value = .scalar (Tree.ofScalar value)) :
    ofScalar (Tree.ofScalar value) = value := by
  cases proper with
  | null => rfl
  | bool => rfl
  | integer => rfl
  | real finite =>
    rw [Tree.ofScalar, ofScalar, Json.ofReal, Number.ofReal?, if_pos finite]
  | text => rfl
  | list => cases scalar
  | object => cases scalar

theorem valueList_proper {mode : Mode} {items : List Json}
    (each : ∀ item ∈ items, value mode (Tree.ofJson item) = .ok item) :
    valueList mode (Tree.ofJsonList items) = .ok items := by
  induction items with
  | nil => rfl
  | cons item rest ih =>
    obtain ⟨first, later⟩ := List.forall_mem_cons.mp each
    rw [Tree.ofJsonList, valueList, first, ih later]
    rfl

theorem valueEntries_proper {mode : Mode} {entries : Entries Json}
    (each : ∀ e ∈ entries, value mode (Tree.ofJson e.2) = .ok e.2) :
    valueEntries mode (Tree.ofJsonEntries entries) = .ok entries := by
  induction entries with
  | nil => rfl
  | cons e rest ih =>
    obtain ⟨key, item⟩ := e
    obtain ⟨first, later⟩ := List.forall_mem_cons.mp each
    rw [Tree.ofJsonEntries, valueEntries, first, ih later]
    rfl

/-- A proper value decodes to itself. -/
theorem value_proper (mode : Mode) {value : Json} (proper : value.Proper) :
    Reader.value mode (Tree.ofJson value) = .ok value := by
  induction proper with
  | null => rfl
  | bool => rfl
  | integer => rfl
  | @real x finite => exact congrArg Except.ok (ofScalar_proper (.real finite) rfl)
  | text => rfl
  | list _ ih =>
    rw [Tree.ofJson, Reader.value, valueList_proper ih]
    rfl
  | object ascends _ ih =>
    rw [Tree.ofJson, Reader.value, valueEntries_proper ih]
    exact congrArg (fun sorted => Except.ok (Json.object sorted)) (sort_self ascends)

end Reader

end ApiLowering
