import Mathlib.Data.List.Basic
import ApiLowering.Name.Words

/-!
The words of an identifier. A word is not empty, it holds nothing but letters and numerals of the
identifier, and no other word starts inside of it.
-/

set_option autoImplicit false

namespace ApiLowering.Name

open Text

variable {next : Option Char} {p c : Char} {w word cs : List Char}

-- No word starts inside of a text that has the character behind it.
def Solid (next : Option Char) : List Char → Prop
  | p :: c :: rest => isBoundary p c (rest.head?.or next) = false ∧ Solid next (c :: rest)
  | _ => True

structure Word (w : List Char) : Prop where
  filled : w ≠ []
  spelled : ∀ c ∈ w, isWordChar c = true
  solid : Solid none w

theorem boundary_false : isBoundary p c next = false ↔
    ¬ (isLowercase p = true ∧ isUppercase c = true) ∧
      ¬ (isUppercase p = true ∧ isUppercase c = true ∧ next.any isLowercase = true) ∧
        isNumeral p = isNumeral c := by
  simp only [isBoundary, Bool.or_eq_false_iff, Bool.and_eq_false_iff, bne_eq_false_iff_eq]
  grind

-- What stands behind a word may only divide it further.
theorem solid_alone (solid : Solid next w) : Solid none w := by
  induction w with
  | nil => trivial
  | cons p rest ih =>
    cases rest with
    | nil => trivial
    | cons c rest =>
      obtain ⟨whole, later⟩ := solid
      refine ⟨?_, ih later⟩
      obtain ⟨hump, acronym, numeral⟩ := boundary_false.mp whole
      refine boundary_false.mpr ⟨hump, fun ⟨upper, again, low⟩ => acronym ⟨upper, again, ?_⟩, numeral⟩
      rw [Option.or_none] at low
      cases behind : rest.head? with
      | none =>
        rw [behind] at low
        cases low
      | some d =>
        rw [behind] at low
        exact low

theorem solid_snoc (solid : Solid (some c) (w ++ [p])) (whole : isBoundary p c next = false) :
    Solid next (w ++ [p] ++ [c]) := by
  induction w with
  | nil => exact ⟨whole, trivial⟩
  | cons first rest ih =>
    cases rest with
    | nil => exact ⟨solid.1, ih trivial⟩
    | cons second rest =>
      obtain ⟨before, later⟩ := solid
      refine ⟨?_, ih later⟩
      have behind : (rest ++ [p] ++ [c]).head?.or next = (rest ++ [p]).head?.or (some c) := by
        cases rest with
        | nil => rfl
        | cons _ _ => rfl
      exact behind ▸ before

-- A text that no word starts inside of is a numeral throughout, or nowhere.
theorem solid_numeral (solid : Solid next w) :
    (∀ c ∈ w, isNumeral c = true) ∨ ∀ c ∈ w, isNumeral c = false := by
  induction w with
  | nil => exact .inl fun c here => nomatch here
  | cons p rest ih =>
    cases rest with
    | nil =>
      rw [List.forall_mem_singleton, List.forall_mem_singleton]
      exact Bool.eq_false_or_eq_true (isNumeral p)
    | cons c rest =>
      obtain ⟨whole, later⟩ := solid
      have same := (boundary_false.mp whole).2.2
      refine (ih later).imp (fun all => ?_) fun all => ?_
      all_goals exact List.forall_mem_cons.mpr ⟨same.trans (all c List.mem_cons_self), all⟩

-- A finished word is one, if the unfinished word was whole before the character behind it.
theorem word_finished (filled : word ≠ []) (spelled : ∀ c ∈ word, isWordChar c = true)
    (solid : Solid next word.reverse) : Word word.reverse where
  filled := mt List.reverse_eq_nil_iff.mp filled
  spelled c here := spelled c (List.mem_reverse.mp here)
  solid := solid_alone solid

theorem splitFrom_word (spelled : ∀ c ∈ word, isWordChar c = true)
    (solid : Solid cs.head? word.reverse) : ∀ w ∈ splitFrom word cs, Word w := by
  fun_induction splitFrom word cs with
  | case1 word empty => exact fun w here => nomatch here
  | case2 word filled =>
    exact List.forall_mem_singleton.mpr (word_finished (by simpa using filled) spelled solid)
  | case3 word c rest breaks empty ih => exact ih (fun _ here => nomatch here) trivial
  | case4 word c rest breaks filled ih =>
    refine List.forall_mem_cons.mpr ⟨word_finished (by simpa using filled) spelled solid, ?_⟩
    exact ih (fun _ here => nomatch here) trivial
  | case5 c rest letter ih => exact ih (List.forall_mem_singleton.mpr (by simpa using letter)) trivial
  | case6 c rest letter previous more boundary ih =>
    refine List.forall_mem_cons.mpr ⟨word_finished (List.cons_ne_nil _ _) spelled solid, ?_⟩
    exact ih (List.forall_mem_singleton.mpr (by simpa using letter)) trivial
  | case7 c rest letter previous more whole ih =>
    refine ih (List.forall_mem_cons.mpr ⟨by simpa using letter, spelled⟩) ?_
    rw [List.reverse_cons] at solid
    rw [List.reverse_cons, List.reverse_cons]
    exact solid_snoc solid (by simpa using whole)

theorem words_word (raw : List Char) : ∀ w ∈ words raw, Word w :=
  splitFrom_word (fun _ here => nomatch here) trivial

-- Together the words are the letters and numerals of the text.
theorem splitFrom_flatten (word cs : List Char) :
    (splitFrom word cs).flatten = word.reverse ++ cs.filter isWordChar := by
  fun_induction splitFrom word cs with
  | case1 word empty => rw [List.isEmpty_iff.mp empty]; rfl
  | case2 word filled => simp
  | case3 word c rest breaks empty ih =>
    rw [ih, List.isEmpty_iff.mp empty, List.filter_cons_of_neg (by simpa using breaks)]
  | case4 word c rest breaks filled ih =>
    rw [List.flatten_cons, ih, List.filter_cons_of_neg (by simpa using breaks)]
    rfl
  | case5 c rest letter ih => rw [ih, List.filter_cons_of_pos (by simpa using letter)]; rfl
  | case6 c rest letter previous more boundary ih =>
    rw [List.flatten_cons, ih, List.filter_cons_of_pos (by simpa using letter)]
    rfl
  | case7 c rest letter previous more whole ih =>
    rw [ih, List.filter_cons_of_pos (by simpa using letter), List.reverse_cons, List.append_assoc]
    rfl

theorem words_flatten (raw : List Char) : (words raw).flatten = raw.filter isWordChar :=
  splitFrom_flatten [] raw

-- A word is of the characters of the text.
theorem words_subset {raw : List Char} (here : w ∈ words raw) (among : c ∈ w) : c ∈ raw := by
  have member := List.mem_flatten_of_mem here among
  rw [words_flatten] at member
  exact (List.mem_filter.mp member).1

end ApiLowering.Name
