import ApiLowering.Json.Printer
import ApiLowering.Tree.JsonText

/-!
Literals that are read back from their text: integers of a word, and quoted texts. A number is read
the same whatever stands behind it, as long as that cannot continue the number.
-/

set_option autoImplicit false

namespace ApiLowering.JsonText

-- What may stand behind a number.
def Delimited (rest : List Char) : Prop :=
  ∀ c ∈ rest.head?, c.isDigit = false ∧ c ≠ '.' ∧ isExponentMark c = false

section Following

variable {negative : Bool} {g : Gathered} {n : Number} {cs left rest : List Char}

theorem spanDigits_append (delimited : Delimited rest) :
    spanDigits (cs ++ rest) = ((spanDigits cs).1, (spanDigits cs).2 ++ rest) := by
  induction cs with
  | nil =>
    cases rest with
    | nil => rfl
    | cons c behind =>
      have other : c.isDigit = false := (delimited c rfl).1
      simp only [spanDigits, List.nil_append, List.takeWhile_cons, List.dropWhile_cons, other,
        Bool.false_eq_true, if_false, List.takeWhile_nil, List.dropWhile_nil]
  | cons c more ih =>
    simp only [spanDigits, Prod.mk.injEq] at ih
    by_cases digit : c.isDigit = true
    · simp only [spanDigits, List.cons_append, List.takeWhile_cons, List.dropWhile_cons, digit,
        if_true, ih.1, ih.2]
    · simp only [spanDigits, List.cons_append, List.takeWhile_cons, List.dropWhile_cons, digit,
        Bool.false_eq_true, if_false]

theorem answer_append {found : Except Flaw Number} (done : (found, cs) = (.ok n, left)) :
    (found, cs ++ rest) = (.ok n, left ++ rest) := by
  obtain ⟨same, stops⟩ := Prod.mk.inj done
  rw [same, stops]

theorem readExponent_append (delimited : Delimited rest)
    (done : readExponent negative g cs = (.ok n, left)) :
    readExponent negative g (cs ++ rest) = (.ok n, left ++ rest) := by
  cases cs with
  | nil => cases done
  | cons c more =>
    unfold readExponent at done ⊢
    split at done
    rename_i down digits signed
    split
    rename_i down' digits' signed'
    -- the same sign is taken off
    have same : down' = down ∧ digits' = digits ++ rest := by
      split at signed
      · rename_i first
        cases first
        cases signed
        cases signed'
        exact ⟨rfl, rfl⟩
      · rename_i first
        cases first
        cases signed
        cases signed'
        exact ⟨rfl, rfl⟩
      · rename_i noMinus noPlus
        cases signed
        split at signed'
        · rename_i first
          cases first
          exact (noMinus _ rfl).elim
        · rename_i first
          cases first
          exact (noPlus _ rfl).elim
        · cases signed'
          exact ⟨rfl, rfl⟩
    rw [same.1, same.2, spanDigits_append delimited]
    split at done
    · cases done
    · rename_i span
      simp only [span]
      exact answer_append done

theorem readUnsigned_append (delimited : Delimited rest)
    (done : readUnsigned negative cs = (.ok n, left)) :
    readUnsigned negative (cs ++ rest) = (.ok n, left ++ rest) := by
  unfold readUnsigned at done ⊢
  rw [spanDigits_append delimited]
  split at done
  · cases done
  · cases done
  · rename_i digits behind some padded span
    simp only [span]
    split at done
    · simp only [List.cons_append, spanDigits_append delimited] at done ⊢
      split at done
      · cases done
      · rename_i decimals
        simp only [decimals]
        split at done
        · simp only [List.cons_append] at done ⊢
          split at done
          · rename_i mark
            rw [if_pos mark]
            exact readExponent_append delimited done
          · rename_i mark
            rw [if_neg mark]
            exact answer_append done
        · cases rest with
          | nil => exact answer_append done
          | cons c behind =>
            simp only [List.nil_append, (delimited c rfl).2.2]
            exact answer_append done
    · simp only [List.cons_append]
      split at done
      · rename_i mark
        rw [if_pos mark]
        exact readExponent_append delimited done
      · rename_i mark
        rw [if_neg mark]
        exact answer_append done
    · cases rest with
      | nil => exact answer_append done
      | cons c behind =>
        have point : c = '.' → False := (delimited c rfl).2.1
        simp only [List.nil_append, (delimited c rfl).2.2]
        exact answer_append done

theorem readNumber_append (delimited : Delimited rest) (done : readNumber cs = (.ok n, left)) :
    readNumber (cs ++ rest) = (.ok n, left ++ rest) := by
  cases cs with
  | nil => cases done
  | cons c more =>
    unfold readNumber at done ⊢
    split at done
    · rename_i first
      cases first
      exact readUnsigned_append delimited done
    · rename_i noMinus
      split
      · rename_i first
        cases first
        exact (noMinus _ rfl).elim
      · exact readUnsigned_append delimited done

end Following

section Integers

theorem toDigits_first {n : Nat} (positive : 0 < n) : (Nat.toDigits 10 n).head? ≠ some '0' := by
  induction n using Nat.strongRecOn with
  | ind n ih =>
    rw [Nat.toDigits_eq_if (by decide)]
    by_cases single : n < 10
    · have digits : ∀ d < 10, 0 < d → [d.digitChar].head? ≠ some '0' := by decide
      rw [if_pos single]
      exact digits n single positive
    · have leading := ih (n / 10) (by omega) (by omega)
      rw [if_neg single, List.head?_append]
      cases known : Nat.toDigits 10 (n / 10) with
      | nil => exact absurd known Nat.toDigits_ne_nil
      | cons c more => rwa [known] at leading

theorem toDigits_unpadded {n : Nat} {c : Char} {more : List Char} :
    Nat.toDigits 10 n ≠ '0' :: c :: more := by
  intro padded
  by_cases positive : 0 < n
  · exact toDigits_first positive (congrArg List.head? padded)
  · cases Nat.eq_zero_of_not_pos positive
    cases padded

theorem le_ofDigitChars (cs : List Char) (acc : Nat) : acc ≤ Nat.ofDigitChars 10 cs acc := by
  induction cs generalizing acc with
  | nil => exact Nat.le_refl acc
  | cons c rest ih =>
    rw [Nat.ofDigitChars_cons]
    exact Nat.le_trans (by omega) (ih _)

theorem gatherInteger_of_fits {cs : List Char} {acc : Nat}
    (fit : Nat.ofDigitChars 10 cs acc < UInt64.size) :
    gatherInteger cs acc = ⟨Nat.ofDigitChars 10 cs acc, 0⟩ := by
  induction cs generalizing acc with
  | nil => rfl
  | cons c rest ih =>
    rw [Nat.ofDigitChars_cons] at fit ⊢
    have next : acc * 10 + digitValue c = 10 * acc + (c.toNat - '0'.toNat) := by
      rw [digitValue, Nat.mul_comm]
    have small : fits (10 * acc + (c.toNat - '0'.toNat)) = true :=
      decide_eq_true (Nat.lt_of_le_of_lt (le_ofDigitChars rest _) fit)
    rw [gatherInteger, next]
    simp only [small, if_true]
    exact ih fit

theorem readUnsigned_digits {negative : Bool} {n : Nat} (fit : n < UInt64.size) :
    readUnsigned negative (Nat.toDigits 10 n) =
      (orOutOfRange (integer? negative ⟨n, 0⟩), []) := by
  have digits : ∀ c ∈ Nat.toDigits 10 n, c.isDigit = true := fun c here =>
    Nat.isDigit_of_mem_toDigits (by decide) (by decide) here
  have span : spanDigits (Nat.toDigits 10 n ++ []) = (Nat.toDigits 10 n ++ [], []) := by
    rw [spanDigits, List.takeWhile_append_of_pos digits, List.dropWhile_append_of_pos digits]
    rfl
  rw [List.append_nil] at span
  have value : Nat.ofDigitChars 10 (Nat.toDigits 10 n) 0 = n :=
    Nat.ofDigitChars_toDigits (by decide) (by decide)
  have gathered : gatherInteger (Nat.toDigits 10 n) 0 = ⟨n, 0⟩ := by
    rw [gatherInteger_of_fits (by rwa [value]), value]
  have padded (c : Char) (more : List Char) : Nat.toDigits 10 n = '0' :: c :: more → False :=
    toDigits_unpadded
  have some : Nat.toDigits 10 n = [] → False := Nat.toDigits_ne_nil
  unfold readUnsigned
  simp only [span, gathered]

theorem readNumber_integer {n : Int} (word : Number.isWord n = true) :
    readNumber (toString n).toList = (.ok (.integer n), []) := by
  obtain ⟨least, most⟩ := of_decide_eq_true word
  rw [Int.toString_eq_repr, Int.repr_eq_if]
  by_cases natural : 0 ≤ n
  · obtain ⟨k, rfl⟩ := Int.eq_ofNat_of_zero_le natural
    have fit : k < UInt64.size := by
      simp only [UInt64.size]
      omega
    rw [if_pos natural, Int.toNat_natCast, Nat.toList_repr]
    unfold readNumber
    split
    · rename_i first
      have digit : '-'.isDigit = true :=
        Nat.isDigit_of_mem_toDigits (n := k) (by decide) (by decide) (first ▸ List.mem_cons_self)
      cases digit
    · exact readUnsigned_digits fit
  · have fit : (-n).toNat < UInt64.size := by
      simp only [UInt64.size]
      omega
    have positive : 0 < (-n).toNat := by omega
    have back : -((-n).toNat : Int) = n := by omega
    have taken : integer? true ⟨(-n).toNat, 0⟩ = some (.integer n) := by
      rw [integer?, if_neg (fun other => other rfl), if_neg (by decide),
        if_pos ⟨positive, by rwa [back]⟩, back]
    rw [if_neg natural, String.toList_append, Nat.toList_repr]
    refine (readUnsigned_digits fit).trans ?_
    rw [taken]
    rfl

end Integers

section Texts

open Json (escape quote)

variable {acc rest : List Char}

theorem scanText_simple {mark c : Char} (known : simpleEscape? mark = some c) :
    scanText none false acc ('\\' :: mark :: rest) = scanText none false (c :: acc) rest := by
  have other : mark ≠ 'u' := by
    intro same
    subst same
    cases known
  rw [scanText.eq_def]
  simp only [other, known, if_false]
  rfl

theorem scanText_hex {n : Nat} {digits : List Char} (four : digits.length = 4)
    (value : fourHex digits = .ok n) (low : n < 0xD800) :
    scanText none false acc ('\\' :: 'u' :: (digits ++ rest)) =
      scanText none false (Char.ofNat n :: acc) rest := by
  have taken : fourHex (digits ++ rest) = .ok n := by
    rw [← value, fourHex, fourHex, List.take_left' four, List.take_of_length_le (by omega)]
  have noLead : ¬ (0xD800 ≤ n ∧ n ≤ 0xDBFF) := by omega
  have noTrail : ¬ (0xDC00 ≤ n ∧ n ≤ 0xDFFF) := by omega
  rw [scanText.eq_def]
  simp only [taken, if_neg noLead, if_neg noTrail, List.drop_left' four]
  rfl

theorem scanText_plain {c : Char} (noQuote : c ≠ '"') (noEscape : c ≠ '\\')
    (printed : ¬ c.toNat < 32) :
    scanText none false acc (c :: rest) = scanText none false (c :: acc) rest := by
  rw [scanText.eq_def]
  simp only [noQuote, noEscape, printed, if_false]
  rfl

-- A control character is written by four digits.
theorem control_hex : ∀ n < 32,
    ((if n < 16 then "000" else "00") ++ Text.hexDigits n).toList.length = 4 ∧
    (fourHex ((if n < 16 then "000" else "00") ++ Text.hexDigits n).toList).toOption = some n := by
  decide +kernel

theorem scanText_control {c : Char} {lead : String} (low : c.toNat < 32)
    (same : lead = if c.toNat < 16 then "000" else "00") :
    scanText none false acc ('\\' :: 'u' :: ((lead ++ Text.hexDigits c.toNat).toList ++ rest)) =
      scanText none false (c :: acc) rest := by
  obtain ⟨four, value⟩ := control_hex c.toNat low
  rw [← same] at four value
  cases known : fourHex (lead ++ Text.hexDigits c.toNat).toList with
  | error => simp only [known, Except.toOption, reduceCtorEq] at value
  | ok n =>
    rw [known] at value
    cases value
    rw [scanText_hex four known (by omega), Char.ofNat_toNat]

theorem scanText_escape (c : Char) :
    scanText none false acc ((escape c).toList ++ rest) = scanText none false (c :: acc) rest := by
  unfold escape
  split
  · rename_i same
    exact same ▸ scanText_simple rfl
  split
  · rename_i same
    exact same ▸ scanText_simple rfl
  split
  · rename_i same
    exact same ▸ scanText_simple rfl
  split
  · rename_i same
    exact same ▸ scanText_simple rfl
  split
  · rename_i same
    exact same ▸ scanText_simple rfl
  split
  · rename_i same
    rw [← Char.ofNat_toNat c, same]
    exact scanText_simple rfl
  split
  · rename_i same
    rw [← Char.ofNat_toNat c, same]
    exact scanText_simple rfl
  split
  · rename_i low
    rw [String.toList_append, List.append_assoc]
    refine Eq.trans ?_ (scanText_control (by omega) (if_pos low).symm)
    rw [String.toList_append, List.append_assoc]
    rfl
  split
  · rename_i high low
    rw [String.toList_append, List.append_assoc]
    refine Eq.trans ?_ (scanText_control low (if_neg high).symm)
    rw [String.toList_append, List.append_assoc]
    rfl
  · rename_i noQuote noEscape _ _ _ _ _ _ printed
    have alone : c.toString.toList = [c] := String.toList_singleton c
    rw [alone]
    exact scanText_plain noQuote noEscape printed

theorem scanText_escaped (cs : List Char) :
    scanText none false acc (cs.flatMap (fun c => (escape c).toList) ++ '"' :: rest) =
      ⟨.ok (String.ofList (acc.reverse ++ cs)), rest⟩ := by
  induction cs generalizing acc with
  | nil =>
    rw [List.flatMap_nil, List.nil_append, List.append_nil, scanText.eq_def]
    rfl
  | cons c more ih =>
    rw [List.flatMap_cons, List.append_assoc, scanText_escape, ih, List.reverse_cons,
      List.append_assoc]
    rfl

theorem quote_toList (s : String) : (quote s).toList =
    '"' :: (s.toList.flatMap (fun c => (escape c).toList) ++ ['"']) := by
  simp only [quote, String.toList_append, String.toList_join, List.flatMap_map]
  rfl

theorem nextToken_quote (s : String) :
    nextToken '"' (s.toList.flatMap (fun c => (escape c).toList) ++ '"' :: rest) =
      (.text s, rest) := by
  simp only [nextToken, scanText_escaped, List.reverse_nil, List.nil_append, String.ofList_toList]

end Texts

theorem readNumber_starts {c : Char} {more left : List Char} {n : Number}
    (done : readNumber (c :: more) = (.ok n, left)) : c.isDigit = true ∨ c = '-' := by
  by_cases digit : c.isDigit = true
  · exact .inl digit
  unfold readNumber at done
  split at done
  · rename_i first
    exact .inr (List.cons.inj first).1
  · have span : spanDigits (c :: more) = ([], c :: more) := by
      simp only [spanDigits, List.takeWhile_cons, List.dropWhile_cons, digit]
      rfl
    rw [readUnsigned, span] at done
    cases done

theorem nextToken_number {c : Char} {more left : List Char} {n : Number}
    (done : readNumber (c :: more) = (.ok n, left)) :
    nextToken c more = (.scalar (.number n), left) := by
  have starts : (c.isDigit || c = '-') = true := by
    rw [Bool.or_eq_true, decide_eq_true_iff]
    exact readNumber_starts done
  unfold nextToken
  split
  all_goals first
    | cases starts
    | rw [if_pos starts, done]

end ApiLowering.JsonText
