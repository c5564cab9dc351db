import ApiLowering.Proofs.Reordering

/-!
Sets of texts in the order of their bytes. Texts compare as their UTF-8 encodings do, so a sorted set
ascends byte by byte.
-/

set_option autoImplicit false

namespace ApiLowering

namespace Text

-- The bytes of a text in UTF-8.
def bytes (s : String) : List UInt8 := s.toByteArray.data.toList

theorem bytes_chars (s : String) : bytes s = s.toList.flatMap String.utf8EncodeChar := by
  have encoded : s.toByteArray = s.toList.utf8Encode := by
    rw [← String.toByteArray_ofList, String.ofList_toList]
  rw [bytes, encoded, List.utf8Encode, List.data_toByteArray]

-- A byte that is not above the one beside it decides, or leaves the decision to what follows.
theorem bytes_lt {m n : Nat} {rest others : List UInt8} (small : n < 256) (most : m ≤ n)
    (later : m = n → rest < others) : UInt8.ofNat m :: rest < UInt8.ofNat n :: others := by
  rw [List.cons_lt_cons_iff]
  rcases Nat.lt_or_eq_of_le most with less | same
  · refine .inl ?_
    rw [UInt8.lt_iff_toNat_lt, UInt8.toNat_ofNat_of_lt' small,
      UInt8.toNat_ofNat_of_lt' (Nat.lt_trans less small)]
    exact less
  · exact .inr ⟨congrArg UInt8.ofNat same, later same⟩

theorem byte_lt {m n : Nat} {rest others : List UInt8} (small : n < 256) (less : m < n) :
    UInt8.ofNat m :: rest < UInt8.ofNat n :: others :=
  bytes_lt small (Nat.le_of_lt less) fun same => absurd same (Nat.ne_of_lt less)

theorem encode_lt {c d : Char} (less : c < d) (rest others : List UInt8) :
    String.utf8EncodeChar c ++ rest < String.utf8EncodeChar d ++ others := by
  have before : c.val.toNat < d.val.toNat := less
  have small : d.val.toNat < 0x110000 := by
    rcases d.valid with low | ⟨-, high⟩
    · exact Nat.lt_trans low (by decide)
    · exact high
  unfold String.utf8EncodeChar
  generalize c.val.toNat = v at before ⊢
  generalize d.val.toNat = w at before small ⊢
  dsimp only
  -- a shorter encoding has a lower first byte; of two that are as long, the first bytes that differ
  -- are in the order of the characters
  split
  · split
    · exact byte_lt (by omega) (by omega)
    · split
      · exact byte_lt (by omega) (by omega)
      · split <;> exact byte_lt (by omega) (by omega)
  · rw [if_neg (show ¬w ≤ 0x7f by omega)]
    split
    · split
      · exact bytes_lt (by omega) (by omega) fun _ => byte_lt (by omega) (by omega)
      · split <;> exact byte_lt (by omega) (by omega)
    · rw [if_neg (show ¬w ≤ 0x7ff by omega)]
      split
      · split
        · refine bytes_lt (by omega) (by omega) fun _ => bytes_lt (by omega) (by omega) fun _ => ?_
          exact byte_lt (by omega) (by omega)
        · exact byte_lt (by omega) (by omega)
      · rw [if_neg (show ¬w ≤ 0xffff by omega)]
        refine bytes_lt (by omega) (by omega) fun _ => bytes_lt (by omega) (by omega) fun _ => ?_
        exact bytes_lt (by omega) (by omega) fun _ => byte_lt (by omega) (by omega)

theorem encode_chars_lt {cs ds : List Char} (less : cs < ds) :
    cs.flatMap String.utf8EncodeChar < ds.flatMap String.utf8EncodeChar := by
  induction less with
  | @nil d rest =>
    rw [List.flatMap_cons]
    cases encoded : String.utf8EncodeChar d with
    | nil => exact absurd encoded String.utf8EncodeChar_ne_nil
    | cons byte more => exact List.nil_lt_cons _ _
  | rel less => exact encode_lt less _ _
  | cons _ ih =>
    rw [List.flatMap_cons, List.flatMap_cons]
    exact List.append_left_lt ih

theorem bytes_lt_of_lt {s t : String} (less : s < t) : bytes s < bytes t := by
  rw [bytes_chars, bytes_chars]
  exact encode_chars_lt less

end Text

-- Texts whose bytes ascend, without repetition.
def Ascending (texts : List String) : Prop :=
  texts.Pairwise fun s t => Text.bytes s < Text.bytes t

theorem insertSorted_pairwise {s : String} {set : List String} (ascends : set.Pairwise (· < ·)) :
    (insertSorted s set).Pairwise (· < ·) := by
  induction set with
  | nil => exact List.pairwise_singleton _ s
  | cons t rest ih =>
    obtain ⟨below, later⟩ := List.pairwise_cons.mp ascends
    rcases Std.lt_trichotomy s t with before | same | after
    · rw [insertSorted_pos before]
      refine List.pairwise_cons.mpr ⟨List.forall_mem_cons.mpr ⟨before, fun u here => ?_⟩, ascends⟩
      exact String.lt_trans before (below u here)
    · subst same
      rwa [insertSorted_same]
    · rw [insertSorted_neg after]
      refine List.pairwise_cons.mpr ⟨fun u here => ?_, ih later⟩
      rcases mem_insertSorted.mp here with same | among
      · exact same ▸ after
      · exact below u among

theorem sortedSet_ascending (texts : List String) : Ascending (sortedSet texts) := by
  have sorted (set : List String) (ascends : set.Pairwise (· < ·)) :
      (texts.foldl (fun set s => insertSorted s set) set).Pairwise (· < ·) := by
    induction texts generalizing set with
    | nil => exact ascends
    | cons s rest ih => exact ih _ (insertSorted_pairwise ascends)
  exact (sorted [] List.Pairwise.nil).imp Text.bytes_lt_of_lt

end ApiLowering
