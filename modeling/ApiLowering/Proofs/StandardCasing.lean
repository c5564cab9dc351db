import ApiLowering.Proofs.Boundaries

/-!
The casings of an ASCII name are the standard casings of its words, and the two that put underscores
between the words are canonical: a name that is derived from them again has the same casings.
-/

set_option autoImplicit false

namespace ApiLowering

namespace Name

open Text

variable {c : Char} {w : List Char} {ws vs : List (List Char)}

def lowered (w : List Char) : List Char := w.map Char.toLower

def raised (w : List Char) : List Char := w.map Char.toUpper

def titled : List Char → List Char
  | [] => []
  | c :: rest => c.toUpper :: lowered rest

-- The first word in lower case, and a capital at the start of each one behind it.
def humped : List (List Char) → List Char
  | [] => []
  | first :: rest => lowered first ++ rest.flatMap titled

theorem titled_eq (ascii : Ascii w) : capitalize w = titled w := by
  cases w with
  | nil => rfl
  | cons c rest =>
    obtain ⟨own, later⟩ := List.forall_mem_cons.mp ascii
    rw [capitalize_ascii own later, titled, lowered]

theorem lowered_eq (ascii : Ascii w) : lowercase w = lowered w := lowercase_ascii ascii

theorem raised_eq (ascii : Ascii w) : uppercase w = raised w := uppercase_ascii ascii

theorem titled_lowered (ascii : Ascii w) : titled (lowered w) = titled w := by
  rw [← lowered_eq ascii, ← titled_eq (ascii_lowercase ascii), capitalize_lowercase ascii, titled_eq ascii]

theorem raised_lowered (ascii : Ascii w) : raised (lowered w) = raised w := by
  rw [← lowered_eq ascii, ← raised_eq (ascii_lowercase ascii), uppercase_lowercase ascii, raised_eq ascii]

theorem lowered_lowered (ascii : Ascii w) : lowered (lowered w) = lowered w := by
  rw [lowered, lowered, List.map_map]
  exact List.map_congr_left fun c here => (ascii_cases (ascii c here)).lower.2

theorem lowered_raised (ascii : Ascii w) : lowered (raised w) = lowered w := by
  rw [lowered, raised, List.map_map]
  exact List.map_congr_left fun c here => (ascii_cases (ascii c here)).lower.1

theorem ascii_raised (ascii : Ascii w) : Ascii (raised w) :=
  List.forall_mem_map.mpr fun c here => (ascii_cases (ascii c here)).ascii.2

theorem ascii_lowered (ascii : Ascii w) : Ascii (lowered w) := lowered_eq ascii ▸ ascii_lowercase ascii

-- A casing depends on the words in lower case only.
theorem casing_congr {f : List Char → List Char} (forgets : ∀ w, Ascii w → f (lowered w) = f w)
    (ascii : ∀ w ∈ ws, Ascii w) (too : ∀ v ∈ vs, Ascii v) (same : ws.map lowered = vs.map lowered) :
    ws.map f = vs.map f := by
  have cased {us : List (List Char)} (each : ∀ u ∈ us, Ascii u) : us.map f = (us.map lowered).map f := by
    rw [List.map_map]
    exact List.map_congr_left fun u here => (forgets u (each u here)).symm
  rw [cased ascii, cased too, same]

-- A letter in lower case and in upper case; a numeral is in neither.
structure Kinds (c : Char) : Prop where
  spelled : isWordChar c.toLower = true ∧ isWordChar c.toUpper = true
  lower : isLowercase c.toLower = !isNumeral c ∧ isUppercase c.toLower = false
  upper : isLowercase c.toUpper = false ∧ isUppercase c.toUpper = !isNumeral c

theorem ascii_kinds (ascii : c.val < 128) (letter : isWordChar c = true) : Kinds c := by
  obtain ⟨spelled, lower, upper⟩ := ascii_forall (p := fun c => isWordChar c = true →
    (isWordChar c.toLower = true ∧ isWordChar c.toUpper = true) ∧
      (isLowercase c.toLower = !isNumeral c ∧ isUppercase c.toLower = false) ∧
      (isLowercase c.toUpper = false ∧ isUppercase c.toUpper = !isNumeral c))
    (by decide +kernel) ascii letter
  exact ⟨spelled, lower, upper⟩

theorem Word.kinds (word : Word w) (ascii : Ascii w) (here : c ∈ w) : Kinds c :=
  ascii_kinds (ascii c here) (word.spelled c here)

-- A word stays one in a single case.
theorem word_map {f : Char → Char} (word : Word w) (spelled : ∀ c ∈ w, isWordChar (f c) = true)
    (numeral : ∀ c ∈ w, isNumeral (f c) = isNumeral c)
    (plain : (∀ c ∈ w, isUppercase (f c) = false) ∨ ∀ c ∈ w, isLowercase (f c) = false) :
    Word (w.map f) where
  filled := by simpa using word.filled
  spelled := List.forall_mem_map.mpr spelled
  solid := by
    have solid := word.solid
    clear spelled word
    induction w with
    | nil => trivial
    | cons p rest ih =>
      cases rest with
      | nil => trivial
      | cons c rest =>
        refine ⟨?_, ih (fun d here => numeral d (List.mem_cons_of_mem _ here)) (plain.imp ?_ ?_) solid.2⟩
        · have edge := (boundary_false.mp solid.1).2.2
          refine boundary_false.mpr ⟨?_, ?_, ?_⟩
          · rcases plain with low | high <;> simp_all
          · rcases plain with low | high
            · simp_all
            · cases rest <;> simp_all
          · simp_all
        all_goals exact fun all d here => all d (List.mem_cons_of_mem _ here)

theorem word_lowered (word : Word w) (ascii : Ascii w) : Word (lowered w) :=
  word_map word (fun _ here => (word.kinds ascii here).spelled.1)
    (fun c here => (ascii_cases (ascii c here)).numeral.1)
    (.inl fun _ here => (word.kinds ascii here).lower.2)

theorem word_raised (word : Word w) (ascii : Ascii w) : Word (raised w) :=
  word_map word (fun _ here => (word.kinds ascii here).spelled.2)
    (fun c here => (ascii_cases (ascii c here)).numeral.2)
    (.inr fun _ here => (word.kinds ascii here).upper.1)

end Name

namespace NameVariants

open Text Name

variable {raw : String} {text : List Char} {ws vs : List (List Char)} {name other : NameVariants}

-- The standard casings of words.
structure Standard (ws : List (List Char)) (name : NameVariants) : Prop where
  camel : name.camelCase = String.ofList (humped ws)
  pascal : name.pascalCase = String.ofList (ws.flatMap titled)
  snake : name.snakeCase = String.ofList (List.intercalate ['_'] (ws.map lowered))
  screaming : name.screamingSnakeCase = String.ofList (List.intercalate ['_'] (ws.map raised))

structure SameCasings (name other : NameVariants) : Prop where
  camel : name.camelCase = other.camelCase
  pascal : name.pascalCase = other.pascalCase
  snake : name.snakeCase = other.snakeCase
  screaming : name.screamingSnakeCase = other.screamingSnakeCase

theorem Standard.same (standard : name.Standard ws) (also : other.Standard vs)
    (ascii : ∀ w ∈ ws, Ascii w) (too : ∀ v ∈ vs, Ascii v) (same : ws.map lowered = vs.map lowered) :
    name.SameCasings other where
  camel := by
    rw [standard.camel, also.camel]
    cases ws with
    | nil =>
      cases vs with
      | nil => rfl
      | cons v more => simp at same
    | cons w rest =>
      cases vs with
      | nil => simp at same
      | cons v more =>
        obtain ⟨first, later⟩ := List.cons.inj same
        have titles := casing_congr (fun w => titled_lowered) (List.forall_mem_cons.mp ascii).2
          (List.forall_mem_cons.mp too).2 later
        rw [humped, humped, first, List.flatMap_def, List.flatMap_def, titles]
  pascal := by
    rw [standard.pascal, also.pascal, List.flatMap_def, List.flatMap_def,
      casing_congr (fun w => titled_lowered) ascii too same]
  snake := by rw [standard.snake, also.snake, same]
  screaming := by
    rw [standard.screaming, also.screaming, casing_congr (fun w => raised_lowered) ascii too same]

theorem derive_standard (filled : raw ≠ "") (ascii : Ascii raw.toList) (wire : Option String) :
    ∃ name, derive? raw wire = some name ∧ name.Standard (wordsOf raw) := by
  have each (w : List Char) (here : w ∈ wordsOf raw) : Ascii w := (wordsOf_word ascii w here).2
  rw [derive?, if_neg (by simpa using filled)]
  refine ⟨_, rfl, ?_, ?_, ?_, ?_⟩
  · dsimp only
    rw [Name.camelCase, segments_of_ascii ascii]
    cases split : wordsOf raw with
    | nil => rfl
    | cons first rest =>
      rw [split] at each
      obtain ⟨own, later⟩ := List.forall_mem_cons.mp each
      have titles : rest.flatMap capitalize = rest.flatMap titled :=
        List.flatMap_congr fun w here => titled_eq (later w here)
      simp only [humped, lowered_eq own, titles]
  · dsimp only
    rw [pascalCase_ascii ascii, List.flatMap_congr fun w here => titled_eq (each w here)]
  · dsimp only
    rw [snakeCase_ascii ascii, List.map_congr_left fun w here => lowered_eq (each w here)]
  · dsimp only
    rw [screamingSnakeCase_ascii ascii, List.map_congr_left fun w here => raised_eq (each w here)]

theorem wordsOf_ofList (filled : ws ≠ []) (split : words text = ws) : wordsOf (String.ofList text) = ws := by
  rw [wordsOf, String.toList_ofList, split]
  cases ws with
  | nil => exact absurd rfl filled
  | cons w rest => rfl

-- A text that is divided into the words of a name, in whatever case, gives that name again.
theorem derive_again (standard : name.Standard ws) (ascii : ∀ w ∈ ws, Ascii w) (filled : ws ≠ [])
    (split : words text = vs) (plain : Ascii text) (same : vs.map lowered = ws.map lowered) :
    ∃ again, derive? (String.ofList text) none = some again ∧ again.SameCasings name := by
  have some : vs ≠ [] := fun none => filled (by simpa [none] using same.symm)
  have nonempty : String.ofList text ≠ "" := fun empty => by
    have nothing : text = [] := by simpa using congrArg String.toList empty
    rw [nothing] at split
    exact some split.symm
  obtain ⟨again, derived, also⟩ := derive_standard nonempty (by simpa using plain) none
  rw [wordsOf_ofList some split] at also
  refine ⟨again, derived, also.same standard (fun v here c among => plain c ?_) ascii same⟩
  rw [← split] at here
  exact words_subset here among

theorem wordsOf_ne_nil (raw : String) : wordsOf raw ≠ [] := by
  unfold wordsOf
  split
  · exact List.cons_ne_nil _ _
  · assumption

theorem ascii_joined (ascii : ∀ w ∈ ws, Ascii w) : Ascii (List.intercalate ['_'] ws) := by
  induction ws with
  | nil => exact fun c here => nomatch here
  | cons w more ih =>
    obtain ⟨own, later⟩ := List.forall_mem_cons.mp ascii
    cases more with
    | nil => rwa [List.intercalate_singleton]
    | cons v more =>
      rw [List.intercalate_cons_cons, List.append_assoc, List.singleton_append]
      exact List.forall_mem_append.mpr ⟨own, List.forall_mem_cons.mpr ⟨by decide, ih later⟩⟩

/-- An ASCII name has the standard casings of its words, and whoever derives it again from its snake case
or its screaming snake case gets the same casings. -/
theorem casings_standard (filled : raw ≠ "") (ascii : Ascii raw.toList) (wire : Option String) :
    ∃ name, derive? raw wire = some name ∧ name.Standard (wordsOf raw) ∧
      (∃ again, derive? name.snakeCase none = some again ∧ again.SameCasings name) ∧
      ∃ again, derive? name.screamingSnakeCase none = some again ∧ again.SameCasings name := by
  obtain ⟨name, derived, standard⟩ := derive_standard filled ascii wire
  have each := wordsOf_word ascii
  have plain (w : List Char) (here : w ∈ wordsOf raw) : Ascii w := (each w here).2
  have low : ∀ w ∈ (wordsOf raw).map lowered, Word w ∧ Ascii w :=
    List.forall_mem_map.mpr fun w here =>
      ⟨word_lowered (each w here).1 (plain w here), ascii_lowered (plain w here)⟩
  have high : ∀ w ∈ (wordsOf raw).map raised, Word w ∧ Ascii w :=
    List.forall_mem_map.mpr fun w here =>
      ⟨word_raised (each w here).1 (plain w here), ascii_raised (plain w here)⟩
  refine ⟨name, derived, standard, ?_, ?_⟩
  · rw [standard.snake]
    apply derive_again standard plain (wordsOf_ne_nil raw) (words_joined fun w here => (low w here).1)
      (ascii_joined fun w here => (low w here).2)
    rw [List.map_map]
    exact List.map_congr_left fun w here => lowered_lowered (plain w here)
  · rw [standard.screaming]
    apply derive_again standard plain (wordsOf_ne_nil raw) (words_joined fun w here => (high w here).1)
      (ascii_joined fun w here => (high w here).2)
    rw [List.map_map]
    exact List.map_congr_left fun w here => lowered_raised (plain w here)

-- Humps, an acronym and numerals that follow one another.
theorem protocol_standard :
    ∃ name, derive? "HTTPServer-v2.10" none = some name ∧
      name.Standard ["HTTP".toList, "Server".toList, ['v'], ['2'], ['1', '0']] ∧
      (∃ again, derive? name.snakeCase none = some again ∧ again.SameCasings name) ∧
      ∃ again, derive? name.screamingSnakeCase none = some again ∧ again.SameCasings name := by
  have split : wordsOf "HTTPServer-v2.10" = ["HTTP".toList, "Server".toList, ['v'], ['2'], ['1', '0']] := by
    decide +kernel
  rw [← split]
  exact casings_standard (by decide) (by decide) none

end NameVariants

end ApiLowering
