import ApiLowering.Proofs.Fused
import ApiLowering.Proofs.StandardCasing

/-!
Names that are derived again from camel case and Pascal case. Nothing stands between the words there, so
they are told apart only where the case of letters or a numeral shows it: numerals that follow one another
run together, and so do letters that stand alone. A name is read back just if it has no such neighbours.
-/

set_option autoImplicit false

namespace ApiLowering

namespace Name

open Text

variable {next : Option Char} {p c : Char} {a v w behind : List Char} {ws : List (List Char)}

-- A letter that stands alone.
def isLetter (w : List Char) : Bool := !isNumber w && w.length == 1

-- No such letter follows another one.
def Spaced (ws : List (List Char)) : Prop :=
  ws.IsChain fun w v => ¬ (isLetter w = true ∧ isLetter v = true)

instance (ws : List (List Char)) : Decidable (Spaced ws) := inferInstanceAs (Decidable (List.IsChain _ ws))

theorem numeral_of_word (word : Word w) (here : c ∈ w) : isNumeral c = isNumber w := by
  rcases solid_numeral word.solid with numeral | letters
  · rw [numeral c here, isNumber, List.all_eq_true.mpr numeral]
  · rw [letters c here, eq_comm, isNumber, List.all_eq_false]
    exact ⟨c, here, by simp [letters c here]⟩

theorem lowered_kind (word : Word w) (ascii : Ascii w) (here : c ∈ lowered w) :
    isNumeral c = isNumber w ∧ isLowercase c = !isNumber w ∧ isUppercase c = false := by
  obtain ⟨d, among, rfl⟩ := List.mem_map.mp here
  rw [← numeral_of_word word among]
  exact ⟨(ascii_cases (ascii d among)).numeral.1, (word.kinds ascii among).lower⟩

-- A capital, or a numeral, starts a word, and the rest of it goes on in lower case.
theorem titled_shape (word : Word w) (ascii : Ascii w) :
    ∃ c rest, titled w = c :: rest ∧ rest.length + 1 = w.length ∧
      (isNumeral c = isNumber w ∧ isLowercase c = false ∧ isUppercase c = !isNumber w) ∧
      ∀ d ∈ rest, isNumeral d = isNumber w ∧ isLowercase d = !isNumber w ∧ isUppercase d = false := by
  cases w with
  | nil => exact absurd rfl word.filled
  | cons c rest =>
    have among := List.mem_cons_self (a := c) (l := rest)
    refine ⟨c.toUpper, lowered rest, rfl, by simp [lowered], ?_, fun d here => ?_⟩
    · rw [← numeral_of_word word among]
      exact ⟨(ascii_cases (ascii c among)).numeral.2, (word.kinds ascii among).upper⟩
    · exact lowered_kind word ascii (List.mem_cons_of_mem _ here)

theorem titled_last (word : Word w) (ascii : Ascii w) :
    ∃ p, (titled w).getLast? = some p ∧ isNumeral p = isNumber w ∧
      isLowercase p = (!isNumber w && !isLetter w) ∧ isUppercase p = isLetter w := by
  obtain ⟨c, rest, shape, length, first, later⟩ := titled_shape word ascii
  rw [shape]
  cases rest with
  | nil =>
    have alone : isLetter w = !isNumber w := by simp [isLetter, ← length]
    refine ⟨c, rfl, first.1, ?_, first.2.2.trans alone.symm⟩
    simp [first.2.1, alone]
  | cons d more =>
    have several : isLetter w = false := by simp [isLetter, ← length]
    have final := List.getLast_mem (List.cons_ne_nil d more)
    obtain ⟨numeral, low, high⟩ := later _ final
    refine ⟨_, List.getLast?_eq_some_getLast (List.cons_ne_nil c (d :: more)), ?_⟩
    rw [List.getLast_cons_cons]
    simp [numeral, low, high, several]

theorem titled_head (each : ∀ w ∈ ws, Word w ∧ Ascii w) :
    (ws.map titled).flatten.head?.any isLowercase = false := by
  cases ws with
  | nil => rfl
  | cons w rest =>
    obtain ⟨word, ascii⟩ := each w List.mem_cons_self
    obtain ⟨c, more, shape, -, first, -⟩ := titled_shape word ascii
    simp [shape, first.2.1]

-- Whether a word that is capitalized starts behind a text is known from the end of the text.
theorem meets_titled (word : Word v) (ascii : Ascii v) (high : behind.head?.any isLowercase = false)
    (final : a.getLast? = some p) :
    Meets a (titled v ++ behind) ↔
      (isLowercase p && !isNumber v || isUppercase p && !isNumber v && !isLetter v ||
        isNumeral p != isNumber v) = true := by
  obtain ⟨c, rest, shape, length, first, later⟩ := titled_shape word ascii
  have next : (rest ++ behind).head?.any isLowercase = (!isNumber v && !isLetter v) := by
    cases rest with
    | nil =>
      have alone : isLetter v = !isNumber v := by simp [isLetter, ← length]
      simp [high, alone]
    | cons d more =>
      have several : isLetter v = false := by simp [isLetter, ← length]
      simp [later d List.mem_cons_self, several]
  have edge : isBoundary p c (rest ++ behind).head? =
      (isLowercase p && !isNumber v || isUppercase p && !isNumber v && !isLetter v ||
        isNumeral p != isNumber v) := by
    simp only [isBoundary, next, first]
    cases isNumber v <;> simp
  rw [← edge, shape]
  simp [Meets, final]

theorem lowered_meets (word : Word w) (ascii : Ascii w) (following : Word v) (plain : Ascii v)
    (high : behind.head?.any isLowercase = false) :
    Meets (lowered w) (titled v ++ behind) ↔ ¬ (isNumber w = true ∧ isNumber v = true) := by
  have filled : lowered w ≠ [] := by simpa [lowered] using word.filled
  obtain ⟨numeral, low, up⟩ := lowered_kind word ascii (List.getLast_mem filled)
  rw [meets_titled following plain high (List.getLast?_eq_some_getLast filled), numeral, low, up]
  cases isNumber w <;> cases isNumber v <;> simp

theorem titled_meets (word : Word w) (ascii : Ascii w) (following : Word v) (plain : Ascii v)
    (high : behind.head?.any isLowercase = false) :
    Meets (titled w) (titled v ++ behind) ↔
      ¬ (isNumber w = true ∧ isNumber v = true) ∧ ¬ (isLetter w = true ∧ isLetter v = true) := by
  obtain ⟨p, final, numeral, low, up⟩ := titled_last word ascii
  rw [meets_titled following plain high final, numeral, low, up, isLetter, isLetter]
  cases isNumber w <;> cases isNumber v <;> grind

-- Without a capital or another kind of character behind the first one, no word starts inside.
theorem solid_low {rest : List Char}
    (low : ∀ d ∈ rest, isNumeral d = isNumeral c ∧ isUppercase d = false) : Solid next (c :: rest) := by
  induction rest generalizing c with
  | nil => trivial
  | cons d more ih =>
    obtain ⟨⟨numeral, small⟩, later⟩ := List.forall_mem_cons.mp low
    refine ⟨boundary_false.mpr ⟨by simp [small], by simp [small], numeral.symm⟩, ih fun e here => ?_⟩
    exact ⟨(later e here).1.trans numeral.symm, (later e here).2⟩

theorem solid_lowered (word : Word w) (ascii : Ascii w) : Solid next (lowered w) := by
  have kind (d : Char) (here : d ∈ lowered w) := lowered_kind word ascii here
  cases cased : lowered w with
  | nil => trivial
  | cons c rest =>
    rw [cased] at kind
    obtain ⟨first, later⟩ := List.forall_mem_cons.mp kind
    exact solid_low fun d here => ⟨(later d here).1.trans first.1.symm, (later d here).2.2⟩

theorem solid_titled (word : Word w) (ascii : Ascii w) : Solid next (titled w) := by
  obtain ⟨c, rest, shape, -, first, later⟩ := titled_shape word ascii
  rw [shape]
  exact solid_low fun d here => ⟨(later d here).1.trans first.1.symm, (later d here).2.2⟩

theorem divided_cons_iff : Divided (a :: ws) ↔
    a ≠ [] ∧ Solid ws.flatten.head? a ∧ Meets a ws.flatten ∧ Divided ws := by
  constructor
  · rintro ⟨⟩
    exact ⟨‹_›, ‹_›, ‹_›, ‹_›⟩
  · rintro ⟨filled, solid, meets, more⟩
    exact .cons filled solid meets more

-- Capitalized words are told apart but for neighbours that run together.
theorem divided_titled (each : ∀ w ∈ ws, Word w ∧ Ascii w) :
    Divided (ws.map titled) ↔ Apart ws ∧ Spaced ws := by
  induction ws with
  | nil => exact ⟨fun _ => ⟨.nil, .nil⟩, fun _ => .nil⟩
  | cons w rest ih =>
    obtain ⟨⟨word, ascii⟩, later⟩ := List.forall_mem_cons.mp each
    have filled : titled w ≠ [] := by
      obtain ⟨c, more, shape, -⟩ := titled_shape word ascii
      simp [shape]
    rw [List.map_cons, divided_cons_iff, ih later]
    cases rest with
    | nil => simp [filled, solid_titled word ascii, Meets, Apart, Spaced]
    | cons v more =>
      obtain ⟨⟨following, plain⟩, others⟩ := List.forall_mem_cons.mp later
      have meets := titled_meets word ascii following plain (titled_head others)
      rw [List.map_cons, List.flatten_cons, meets, Apart, Apart, Spaced, Spaced, List.isChain_cons_cons,
        List.isChain_cons_cons]
      simp only [ne_eq, filled, not_false_eq_true, solid_titled word ascii, true_and]
      tauto

theorem divided_humped (each : ∀ u ∈ w :: ws, Word u ∧ Ascii u) :
    Divided (lowered w :: ws.map titled) ↔ Apart (w :: ws) ∧ Spaced ws := by
  obtain ⟨⟨word, ascii⟩, later⟩ := List.forall_mem_cons.mp each
  have filled : lowered w ≠ [] := by simpa [lowered] using word.filled
  rw [divided_cons_iff, divided_titled later]
  cases ws with
  | nil => simp [filled, solid_lowered word ascii, Meets, Apart, Spaced]
  | cons v more =>
    obtain ⟨⟨following, plain⟩, others⟩ := List.forall_mem_cons.mp later
    have meets := lowered_meets word ascii following plain (titled_head others)
    rw [List.map_cons, List.flatten_cons, meets, Apart, Apart, List.isChain_cons_cons]
    simp only [ne_eq, filled, not_false_eq_true, solid_lowered word ascii, true_and]
    tauto

theorem lowered_titled (ascii : Ascii w) : lowered (titled w) = lowered w := by
  cases w with
  | nil => rfl
  | cons c rest =>
    obtain ⟨own, later⟩ := List.forall_mem_cons.mp ascii
    have again := lowered_lowered later
    simp only [lowered] at again
    simp only [titled, lowered, List.map_cons, (ascii_cases own).lower.1, again]

theorem word_titled (word : Word w) (ascii : Ascii w) : Word (titled w) ∧ Ascii (titled w) := by
  have low := word_lowered word ascii
  have plain := ascii_lowered ascii
  have whole : Solid none (titled w) := solid_titled word ascii
  cases w with
  | nil => exact absurd rfl word.filled
  | cons c rest =>
    have among := List.mem_cons_self (a := c) (l := rest)
    have own := ascii c among
    refine ⟨⟨List.cons_ne_nil _ _, List.forall_mem_cons.mpr ⟨?_, ?_⟩, whole⟩, ?_⟩
    · exact (word.kinds ascii among).spelled.2
    · exact (List.forall_mem_cons.mp low.spelled).2
    · exact List.forall_mem_cons.mpr ⟨(ascii_cases own).ascii.2, (List.forall_mem_cons.mp plain).2⟩

theorem lowered_of_joined {vs : List (List Char)} (words : ∀ w ∈ ws, Word w ∧ Ascii w)
    (others : ∀ v ∈ vs, Word v ∧ Ascii v)
    (same : List.intercalate ['_'] (ws.map lowered) = List.intercalate ['_'] (vs.map lowered)) :
    ws.map lowered = vs.map lowered := by
  have low {us : List (List Char)} (each : ∀ u ∈ us, Word u ∧ Ascii u) :
      us.map lowercase = us.map lowered := List.map_congr_left fun u here => lowered_eq (each u here).2
  rw [← low words, ← low others] at same ⊢
  exact lowercase_of_joined words others same

end Name

namespace NameVariants

open Text Name

variable {raw : String} {ws chunks : List (List Char)} {name : NameVariants}

-- Words that are written one after the other give the same name again just if they are told apart.
theorem derive_chunks (standard : name.Standard ws) (words : ∀ w ∈ ws, Word w ∧ Ascii w) (filled : ws ≠ [])
    (pieces : ∀ w ∈ chunks, Word w ∧ Ascii w) (cased : chunks.map lowered = ws.map lowered) :
    ∃ again, derive? (String.ofList chunks.flatten) none = some again ∧
      (again.SameCasings name ↔ Divided chunks) := by
  have spelled : ∀ c ∈ chunks.flatten, isWordChar c = true := fun c here => by
    obtain ⟨w, among, inside⟩ := List.mem_flatten.mp here
    exact (pieces w among).1.spelled c inside
  have plain : Ascii chunks.flatten := fun c here => by
    obtain ⟨w, among, inside⟩ := List.mem_flatten.mp here
    exact (pieces w among).2 c inside
  have nonempty : chunks.flatten ≠ [] := fun empty => by
    cases chunks with
    | nil => exact filled (by simpa using cased.symm)
    | cons w rest => exact (pieces w List.mem_cons_self).1.filled (List.append_eq_nil_iff.mp empty).1
  have whole : (Name.words chunks.flatten).flatten = chunks.flatten := ((words_iff spelled).mp rfl).1
  have some : Name.words chunks.flatten ≠ [] := fun none => nonempty (by simpa [none] using whole.symm)
  have spoken : String.ofList chunks.flatten ≠ "" := by simpa using nonempty
  obtain ⟨again, derived, also⟩ := derive_standard spoken (by simpa using plain) none
  rw [wordsOf_ofList some rfl] at also
  have each (w : List Char) (here : w ∈ Name.words chunks.flatten) : Word w ∧ Ascii w :=
    ⟨words_word _ w here, fun c among => plain c (words_subset here among)⟩
  refine ⟨again, derived, fun same => ?_, fun divided => ?_⟩
  · have joined := same.snake
    rw [also.snake, standard.snake, String.ofList_inj] at joined
    have low := (lowered_of_joined each words joined).trans cased.symm
    have lengths := congrArg (List.map List.length) low
    simp only [List.map_map, Function.comp_def, lowered, List.length_map] at lengths
    exact ((words_iff spelled).mp (List.eq_iff_flatten_eq.mpr ⟨whole, lengths⟩)).2
  · rw [(words_iff spelled).mpr ⟨rfl, divided⟩] at also
    exact also.same standard (fun w here => (pieces w here).2) (fun w here => (words w here).2) cased

/-- An ASCII name is derived again with the same casings from its Pascal case just if in it no numeral
follows another one, and no single letter another one; and from its camel case just if no numeral follows
another one, and no single letter another one behind the first word. -/
theorem names_read_back (filled : raw ≠ "") (ascii : Ascii raw.toList) (wire : Option String) :
    ∃ name, derive? raw wire = some name ∧
      (∃ again, derive? name.camelCase none = some again ∧
        (again.SameCasings name ↔ Name.Apart (wordsOf raw) ∧ Spaced (wordsOf raw).tail)) ∧
      ∃ again, derive? name.pascalCase none = some again ∧
        (again.SameCasings name ↔ Name.Apart (wordsOf raw) ∧ Spaced (wordsOf raw)) := by
  obtain ⟨name, derived, standard⟩ := derive_standard filled ascii wire
  have words := wordsOf_word ascii
  have some := wordsOf_ne_nil raw
  have titles : ((wordsOf raw).map titled).map lowered = (wordsOf raw).map lowered := by
    rw [List.map_map]
    exact List.map_congr_left fun w here => lowered_titled (words w here).2
  have pieces : ∀ w ∈ (wordsOf raw).map titled, Word w ∧ Ascii w :=
    List.forall_mem_map.mpr fun w here => word_titled (words w here).1 (words w here).2
  refine ⟨name, derived, ?_, ?_⟩
  · rw [standard.camel]
    cases split : wordsOf raw with
    | nil => exact absurd split some
    | cons w rest =>
      rw [split] at words standard titles pieces
      obtain ⟨⟨word, plain⟩, later⟩ := List.forall_mem_cons.mp words
      have first : Word (lowered w) ∧ Ascii (lowered w) := ⟨word_lowered word plain, ascii_lowered plain⟩
      rw [List.tail_cons, ← divided_humped words, humped, List.flatMap_def, ← List.flatten_cons]
      apply derive_chunks standard words (List.cons_ne_nil w rest)
      · exact List.forall_mem_cons.mpr ⟨first, (List.forall_mem_cons.mp pieces).2⟩
      · rw [List.map_cons, lowered_lowered plain, List.map_cons, (List.cons.inj titles).2]
  · rw [standard.pascal, ← divided_titled words, List.flatMap_def]
    exact derive_chunks standard words some pieces titles

-- The letters of an axis stand alone, and camel case runs them together.
def axis : String := "get_x_y"

theorem axis_lost :
    ∃ name, derive? axis none = some name ∧
      (∃ again, derive? name.camelCase none = some again ∧ ¬ again.SameCasings name) ∧
      ∃ again, derive? name.pascalCase none = some again ∧ ¬ again.SameCasings name := by
  have split : wordsOf axis = ["get".toList, ['x'], ['y']] := by decide +kernel
  have joined : ¬ Spaced [['x'], ['y']] ∧ ¬ Spaced ["get".toList, ['x'], ['y']] := by decide +kernel
  obtain ⟨name, derived, ⟨camel, first, camels⟩, pascal, second, pascals⟩ :=
    names_read_back (show axis ≠ "" by decide) (by decide) none
  rw [split] at camels pascals
  refine ⟨name, derived, ⟨camel, first, fun same => joined.1 ?_⟩, pascal, second, fun same => joined.2 ?_⟩
  · exact (camels.mp same).2
  · exact (pascals.mp same).2

end NameVariants

end ApiLowering
