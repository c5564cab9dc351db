import ApiLowering.Proofs.Casing

/-!
Where words start. A text of letters and numerals is divided into words in just one way: no word starts
inside of a piece, and one starts behind every piece. So words can be read back from a text into which
they were written one after the other just if they still meet at boundaries there.
-/

set_option autoImplicit false

namespace ApiLowering.Name

open Text

variable {next : Option Char} {p c : Char} {w word rest cs first last : List Char}
  {ws : List (List Char)}

-- A word starts where the second text follows the first one.
def Meets (w cs : List Char) : Prop :=
  ∀ p ∈ w.getLast?, ∀ c ∈ cs.head?, isBoundary p c cs.tail.head? = true

inductive Divided : List (List Char) → Prop where
  | nil : Divided []
  | cons {w : List Char} {rest : List (List Char)} (filled : w ≠ []) (solid : Solid rest.flatten.head? w)
      (meets : Meets w rest.flatten) (more : Divided rest) : Divided (w :: rest)

theorem solid_inside (solid : Solid next (first ++ p :: c :: last)) :
    isBoundary p c (last.head?.or next) = false := by
  induction first with
  | nil => exact solid.1
  | cons d more ih =>
    cases more with
    | nil => exact ih solid.2
    | cons e more => exact ih solid.2

-- A character that is not in lower case divides nothing before it any further.
theorem solid_before (low : next.any isLowercase = false) (solid : Solid none w) : Solid next w := by
  induction w with
  | nil => trivial
  | cons p rest ih =>
    cases rest with
    | nil => trivial
    | cons c rest =>
      obtain ⟨whole, later⟩ := solid
      refine ⟨?_, ih later⟩
      cases rest with
      | nil =>
        obtain ⟨hump, acronym, numeral⟩ := boundary_false.mp whole
        exact boundary_false.mpr ⟨hump, fun divided => by simp [low] at divided, numeral⟩
      | cons d rest => exact whole

-- What no word starts inside of is read as a whole.
theorem splitFrom_append (spelled : ∀ c ∈ w, isWordChar c = true)
    (solid : Solid rest.head? (word.reverse ++ w)) :
    splitFrom word (w ++ rest) = splitFrom (w.reverse ++ word) rest := by
  induction w generalizing word with
  | nil => rfl
  | cons c more ih =>
    obtain ⟨own, later⟩ := List.forall_mem_cons.mp spelled
    have further : splitFrom (c :: word) (more ++ rest) = splitFrom (more.reverse ++ c :: word) rest :=
      ih later (by simpa using solid)
    rw [List.cons_append, List.reverse_cons, List.append_assoc]
    refine Eq.trans ?_ further
    cases word with
    | nil => simp [splitFrom, own]
    | cons previous before =>
      rw [List.reverse_cons, List.append_assoc] at solid
      have whole := solid_inside solid
      simp [splitFrom, own, whole]

theorem splitFrom_word_append (spelled : ∀ c ∈ w, isWordChar c = true) (solid : Solid rest.head? w) :
    splitFrom [] (w ++ rest) = splitFrom w.reverse rest := by
  rw [splitFrom_append spelled solid, List.append_nil]

theorem splitFrom_meets (filled : w ≠ []) (letter : isWordChar c = true) (meets : Meets w (c :: rest)) :
    splitFrom w.reverse (c :: rest) = w :: splitFrom [] (c :: rest) := by
  cases ended : w.reverse with
  | nil => simp_all
  | cons previous before =>
    have final : w.getLast? = some previous := by rw [← List.head?_reverse, ended]; rfl
    have boundary : isBoundary previous c rest.head? = true := meets previous final c rfl
    rw [← List.reverse_reverse w, ended]
    simp [splitFrom, letter, boundary]

theorem splitFrom_divided (spelled : ∀ c ∈ cs, isWordChar c = true)
    (solid : Solid cs.head? word.reverse) : Divided (splitFrom word cs) := by
  fun_induction splitFrom word cs with
  | case1 word empty => exact .nil
  | case2 word filled =>
    have last : Meets word.reverse [] := by simp [Meets]
    exact .cons (by simpa using filled) solid last .nil
  | case3 word c rest breaks empty ih => simp_all
  | case4 word c rest breaks filled ih => simp_all
  | case5 c rest letter ih => exact ih (List.forall_mem_cons.mp spelled).2 trivial
  | case6 c rest letter previous before boundary ih =>
    have later := (List.forall_mem_cons.mp spelled).2
    have behind : (splitFrom [c] rest).flatten = c :: rest := by
      rw [splitFrom_flatten, List.filter_eq_self.mpr later]
      rfl
    refine .cons (by simp) (behind ▸ solid) ?_ (ih later trivial)
    rw [behind]
    intro p ended d started
    simp_all
  | case7 c rest letter previous before whole ih =>
    refine ih (List.forall_mem_cons.mp spelled).2 ?_
    rw [List.reverse_cons] at solid
    rw [List.reverse_cons, List.reverse_cons]
    exact solid_snoc solid (by simpa using whole)

theorem words_of_divided (divided : Divided ws) (spelled : ∀ c ∈ ws.flatten, isWordChar c = true) :
    words ws.flatten = ws := by
  induction divided with
  | nil => rfl
  | @cons w rest filled solid meets more ih =>
    rw [List.flatten_cons] at spelled ⊢
    obtain ⟨own, later⟩ := List.forall_mem_append.mp spelled
    have ahead := ih later
    rw [words] at ahead ⊢
    rw [splitFrom_word_append own solid]
    cases behind : rest.flatten with
    | nil =>
      rw [behind] at ahead
      rw [← ahead]
      simp [splitFrom, filled]
    | cons c cs =>
      rw [behind] at ahead meets later
      rw [splitFrom_meets filled (later c List.mem_cons_self) meets, ahead]

/-- The words of a text of letters and numerals are the only way to divide it. -/
theorem words_iff (spelled : ∀ c ∈ cs, isWordChar c = true) :
    words cs = ws ↔ ws.flatten = cs ∧ Divided ws := by
  constructor
  · rintro rfl
    exact ⟨by rw [words_flatten, List.filter_eq_self.mpr spelled], splitFrom_divided spelled trivial⟩
  · rintro ⟨rfl, divided⟩
    exact words_of_divided divided spelled

/-- Words are read back from a text in which underscores stand between them. -/
theorem words_joined (each : ∀ w ∈ ws, Word w) : words (List.intercalate ['_'] ws) = ws := by
  induction ws with
  | nil => rfl
  | cons w more ih =>
    obtain ⟨word, later⟩ := List.forall_mem_cons.mp each
    cases more with
    | nil =>
      have whole : Solid ([] : List Char).head? w := word.solid
      have alone := splitFrom_word_append word.spelled whole
      rw [List.append_nil] at alone
      rw [List.intercalate_singleton, words, alone]
      simp [splitFrom, word.filled]
    | cons v more =>
      have broken : isWordChar '_' = false := by decide +kernel
      have low : isLowercase '_' = false := by decide +kernel
      have whole : Solid ('_' :: List.intercalate ['_'] (v :: more)).head? w :=
        solid_before (by simpa using low) word.solid
      rw [words] at ih
      rw [List.intercalate_cons_cons, List.append_assoc, List.singleton_append, words,
        splitFrom_word_append word.spelled whole]
      simp [splitFrom, broken, word.filled, ih later]

/-- No word is empty, the words hold nothing but letters and numerals, and no other word starts inside
of one; together they are all the letters and numerals of the text, and they are read back from where
underscores stand between them. -/
theorem words_lossless (raw : List Char) :
    (∀ w ∈ words raw, w ≠ [] ∧ (∀ c ∈ w, isWordChar c = true) ∧ Solid none w) ∧
      (words raw).flatten = raw.filter isWordChar ∧
      words (List.intercalate ['_'] (words raw)) = words raw := by
  have each := words_word raw
  refine ⟨fun w here => ?_, words_flatten raw, words_joined each⟩
  obtain ⟨filled, spelled, solid⟩ := each w here
  exact ⟨filled, spelled, solid⟩

example : words "parseHTTPResponse2-Straße¹".toList =
    ["parse", "HTTP", "Response", "2", "Straße", "¹"].map String.toList := by decide +kernel

end ApiLowering.Name
