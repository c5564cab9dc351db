import Mathlib.Data.List.Basic
import Mathlib.Data.List.Infix
import ApiLowering.Name.Variants
import ApiLowering.Proofs.Words

/-!
The casings of ASCII identifiers. There the segments that are cased are the words of the identifier and
nothing else: no word is divided further. A word is a numeral, which no casing changes, or it is of letters,
which every casing changes to upper or to lower case.
-/

set_option autoImplicit false

namespace ApiLowering

namespace Text

def Ascii (cs : List Char) : Prop := ∀ c ∈ cs, c.val < 128

instance (cs : List Char) : Decidable (Ascii cs) := List.decidableBAll (fun c : Char => c.val < 128) cs

-- What holds of the ASCII characters, checked one by one.
theorem ascii_forall {p : Char → Prop} (all : ∀ n, n < 128 → p (Char.ofNat n)) {c : Char}
    (ascii : c.val < 128) : p c := by
  have checked := all c.toNat ascii
  rwa [Char.ofNat_toNat] at checked

end Text

namespace Name

open Text

variable {c : Char} {w piece rest : List Char} {ws : List (List Char)}

-- An ASCII character of a word is a numeral, or a letter of just one case.
theorem ascii_cased (ascii : c.val < 128) (letter : isWordChar c = true) :
    isNumeral c = true ∧ isLowercase c = false ∧ isUppercase c = false ∨
      isNumeral c = false ∧ isLowercase c = !isUppercase c :=
  ascii_forall (p := fun c => isWordChar c = true →
    isNumeral c = true ∧ isLowercase c = false ∧ isUppercase c = false ∨
      isNumeral c = false ∧ isLowercase c = !isUppercase c) (by decide +kernel) ascii letter

theorem after_cased (state : Run) (cased : isLowercase c = !isUppercase c) :
    state.after c = if isUppercase c = true then .upper else .lower := by
  rw [Run.after, cased]
  cases isUppercase c <;> rfl

-- A word whose letters have a case is one hump; what was read last in upper case is the letter before.
theorem humpsFrom_cased {state : Run} {cs : List Char} (solid : Solid none cs)
    (cased : ∀ c ∈ cs, isLowercase c = !isUppercase c)
    (before : state = .upper → ∃ p, isUppercase p = true ∧ Solid none (p :: cs)) :
    humpsFrom state piece cs = [piece.reverse ++ cs] := by
  -- the places where a hump ends are those where a new word would have started
  fun_induction humpsFrom state piece cs with
  | case1 state piece => rw [List.append_nil]
  | case2 state piece c => rw [List.reverse_cons]
  | case3 state piece c next rest divided ih =>
    obtain ⟨low, high⟩ := divided
    have own := cased c List.mem_cons_self
    rw [after_cased state own] at low
    split at low
    · cases low
    · rename_i lower
      refine absurd ⟨?_, high⟩ (boundary_false.mp solid.1).1
      rw [own, Bool.eq_false_iff.mpr lower]
      rfl
  | case4 state piece c next rest undivided divided ih =>
    obtain ⟨high, upper, low⟩ := divided
    obtain ⟨p, first, whole⟩ := before high
    exact absurd ⟨first, upper, low⟩ (boundary_false.mp whole.1).2.1
  | case5 state piece c next rest undivided whole ih =>
    have own := cased c List.mem_cons_self
    rw [ih solid.2 (fun d here => cased d (List.mem_cons_of_mem _ here)) fun high => ⟨c, ?_, solid⟩,
      List.reverse_cons, List.append_assoc]
    · rfl
    · rw [after_cased state own] at high
      split at high
      · assumption
      · cases high

-- So is a word without any letter that has a case.
theorem humpsFrom_caseless {cs : List Char}
    (caseless : ∀ c ∈ cs, isLowercase c = false ∧ isUppercase c = false) :
    humpsFrom .fresh piece cs = [piece.reverse ++ cs] := by
  induction cs generalizing piece with
  | nil => rw [humpsFrom, List.append_nil]
  | cons c rest ih =>
    obtain ⟨own, later⟩ := List.forall_mem_cons.mp caseless
    cases rest with
    | nil => rw [humpsFrom, List.reverse_cons]
    | cons next rest =>
      have still : Run.fresh.after c = .fresh := by
        rw [Run.after, own.1, own.2]
        rfl
      have other := (later next List.mem_cons_self).2
      rw [humpsFrom, still, if_neg (fun divided => nomatch divided.1),
        if_neg (fun divided => nomatch divided.1), ih later, List.reverse_cons, List.append_assoc]
      rfl

theorem humps_word (word : Word w) (ascii : Ascii w) : humpsFrom .fresh [] w = [w] := by
  have each (c : Char) (here : c ∈ w) := ascii_cased (ascii c here) (word.spelled c here)
  rcases solid_numeral word.solid with numeral | letters
  · refine humpsFrom_caseless fun c here => ?_
    rcases each c here with ⟨-, caseless⟩ | ⟨letter, -⟩
    · exact caseless
    · cases (numeral c here).symm.trans letter
  · refine humpsFrom_cased word.solid (fun c here => ?_) fun high => nomatch high
    rcases each c here with ⟨numeral, -⟩ | ⟨-, cased⟩
    · cases (letters c here).symm.trans numeral
    · exact cased

-- What is written between words ends a run and starts the next one.
theorem runsFrom_append (letters : ∀ c ∈ w, isWordChar c = true) (run rest : List Char) :
    runsFrom run (w ++ rest) = runsFrom (w.reverse ++ run) rest := by
  induction w generalizing run with
  | nil => rfl
  | cons c more ih =>
    obtain ⟨own, later⟩ := List.forall_mem_cons.mp letters
    rw [List.cons_append, runsFrom, if_pos own, ih later, List.reverse_cons, List.append_assoc]
    rfl

theorem runs_joined (ws : List (List Char))
    (each : ∀ w ∈ ws, w ≠ [] ∧ ∀ c ∈ w, isWordChar c = true) :
    runsFrom [] (List.intercalate ['_'] ws) = ws := by
  induction ws with
  | nil => rfl
  | cons w more ih =>
    obtain ⟨⟨filled, letters⟩, later⟩ := List.forall_mem_cons.mp each
    have ended : w.reverse.isEmpty = false := by simpa using filled
    cases more with
    | nil =>
      have alone : List.intercalate ['_'] [w] = w ++ [] := by simp [List.intercalate]
      rw [alone, runsFrom_append letters, List.append_nil, runsFrom, ended, List.reverse_reverse]
      rfl
    | cons v more =>
      have broken : isWordChar '_' = false := by decide +kernel
      have joined : List.intercalate ['_'] (w :: v :: more) =
          w ++ '_' :: List.intercalate ['_'] (v :: more) := by simp [List.intercalate]
      rw [joined, runsFrom_append letters, List.append_nil, runsFrom, broken, ended, ih later,
        List.reverse_reverse]
      rfl

/-- The segments of ASCII words that are joined by underscores are the words. -/
theorem segments_joined (words : ∀ w ∈ ws, Word w ∧ Ascii w) :
    segments (List.intercalate ['_'] ws) = ws := by
  rw [segments, runs_joined ws fun w here => ⟨(words w here).1.filled, (words w here).1.spelled⟩]
  induction ws with
  | nil => rfl
  | cons w more ih =>
    obtain ⟨⟨word, ascii⟩, later⟩ := List.forall_mem_cons.mp words
    rw [List.flatMap_cons, humps_word word ascii, ih later]
    rfl

-- What the case maps do to an ASCII character: they forget its case, and leave a numeral as it is.
structure Cases (c : Char) : Prop where
  ascii : c.toLower.val < 128 ∧ c.toUpper.val < 128
  upper : c.toLower.toUpper = c.toUpper
  lower : c.toUpper.toLower = c.toLower ∧ c.toLower.toLower = c.toLower
  spelled : isWordChar c.toLower = isWordChar c
  numeral : isNumeral c.toLower = isNumeral c ∧ isNumeral c.toUpper = isNumeral c
  fixed : isNumeral c = true → c.toUpper = c ∧ c.toLower = c ∧ isLowercase c = false
  letter : isWordChar c = true → isNumeral c = false → isLowercase c.toLower = true
  low : isLowercase c = true → isNumeral c = false ∧ isLowercase c.toUpper = false

theorem ascii_cases (ascii : c.val < 128) : Cases c := by
  obtain ⟨ascii, upper, lower, spelled, numeral, fixed, letter, low⟩ := ascii_forall (p := fun c =>
    (c.toLower.val < 128 ∧ c.toUpper.val < 128) ∧ c.toLower.toUpper = c.toUpper ∧
      (c.toUpper.toLower = c.toLower ∧ c.toLower.toLower = c.toLower) ∧
      isWordChar c.toLower = isWordChar c ∧
      (isNumeral c.toLower = isNumeral c ∧ isNumeral c.toUpper = isNumeral c) ∧
      (isNumeral c = true → c.toUpper = c ∧ c.toLower = c ∧ isLowercase c = false) ∧
      (isWordChar c = true → isNumeral c = false → isLowercase c.toLower = true) ∧
      (isLowercase c = true → isNumeral c = false ∧ isLowercase c.toUpper = false))
    (by decide +kernel) ascii
  exact ⟨ascii, upper, lower, spelled, numeral, fixed, letter, low⟩

theorem lowerChars_ascii (ascii : c.val < 128) : lowerChars c = [c.toLower] := by
  rw [lowerChars, if_pos ascii]

theorem upperChars_ascii (ascii : c.val < 128) : upperChars c = [c.toUpper] := by
  rw [upperChars, if_pos ascii]

theorem lowercase_ascii (ascii : Ascii w) : lowercase w = w.map Char.toLower := by
  fun_induction lowercase w with
  | case1 => rfl
  | case2 => exact absurd (ascii 'Σ' List.mem_cons_self) (by decide)
  | case3 c other => exact lowerChars_ascii (ascii c List.mem_cons_self)
  | case4 c rest several ih =>
    obtain ⟨own, later⟩ := List.forall_mem_cons.mp ascii
    rw [lowerChars_ascii own, ih later]
    rfl

theorem uppercase_ascii (ascii : Ascii w) : uppercase w = w.map Char.toUpper := by
  induction w with
  | nil => rfl
  | cons c rest ih =>
    obtain ⟨own, later⟩ := List.forall_mem_cons.mp ascii
    rw [uppercase, List.flatMap_cons, upperChars_ascii own]
    exact congrArg _ (ih later)

theorem capitalize_ascii (own : c.val < 128) (later : Ascii rest) :
    capitalize (c :: rest) = c.toUpper :: rest.map Char.toLower := by
  rw [capitalize, upperChars_ascii own, lowercase_ascii later]
  rfl

theorem ascii_lowercase (ascii : Ascii w) : Ascii (lowercase w) := by
  rw [lowercase_ascii ascii]
  intro d here
  obtain ⟨c, listed, rfl⟩ := List.mem_map.mp here
  exact (ascii_cases (ascii c listed)).ascii.1

-- A casing does not depend on the case that the letters had before.
theorem uppercase_lowercase (ascii : Ascii w) : uppercase (lowercase w) = uppercase w := by
  rw [uppercase_ascii (ascii_lowercase ascii), lowercase_ascii ascii, uppercase_ascii ascii, List.map_map]
  exact List.map_congr_left fun c here => (ascii_cases (ascii c here)).upper

theorem capitalize_lowercase (ascii : Ascii w) : capitalize (lowercase w) = capitalize w := by
  cases w with
  | nil => rfl
  | cons c rest =>
    obtain ⟨own, later⟩ := List.forall_mem_cons.mp ascii
    have low := ascii_lowercase ascii
    rw [lowercase_ascii ascii] at low ⊢
    obtain ⟨first, behind⟩ := List.forall_mem_cons.mp low
    rw [List.map_cons, capitalize_ascii first behind, capitalize_ascii own later, List.map_map,
      (ascii_cases own).upper]
    congr 1
    exact List.map_congr_left fun d here => (ascii_cases (later d here)).lower.2

-- Words in lower case are told apart when they are joined, and so are they in upper case.
theorem lowercase_of_joined {vs : List (List Char)} (words : ∀ w ∈ ws, Word w ∧ Ascii w)
    (others : ∀ w ∈ vs, Word w ∧ Ascii w)
    (same : List.intercalate ['_'] (ws.map lowercase) = List.intercalate ['_'] (vs.map lowercase)) :
    ws.map lowercase = vs.map lowercase := by
  have spelled {ws : List (List Char)} (words : ∀ w ∈ ws, Word w ∧ Ascii w) :
      ∀ w ∈ ws.map lowercase, w ≠ [] ∧ ∀ c ∈ w, isWordChar c = true := by
    refine List.forall_mem_map.mpr fun w here => ?_
    obtain ⟨word, ascii⟩ := words w here
    rw [lowercase_ascii ascii]
    refine ⟨mt List.map_eq_nil_iff.mp word.filled, List.forall_mem_map.mpr fun c listed => ?_⟩
    rw [(ascii_cases (ascii c listed)).spelled, word.spelled c listed]
  rw [← runs_joined _ (spelled words), same, runs_joined _ (spelled others)]

theorem uppercase_of_joined {vs : List (List Char)} (words : ∀ w ∈ ws, Word w ∧ Ascii w)
    (others : ∀ w ∈ vs, Word w ∧ Ascii w)
    (same : List.intercalate ['_'] (ws.map lowercase) = List.intercalate ['_'] (vs.map lowercase)) :
    ws.map uppercase = vs.map uppercase := by
  have upper {ws : List (List Char)} (words : ∀ w ∈ ws, Word w ∧ Ascii w) :
      (ws.map lowercase).map uppercase = ws.map uppercase := by
    rw [List.map_map]
    exact List.map_congr_left fun w here => uppercase_lowercase (words w here).2
  rw [← upper words, lowercase_of_joined words others same, upper others]

end Name

namespace NameVariants

open Text Name

-- The words that a name is made of; a text without any is called unnamed.
def wordsOf (raw : String) : List (List Char) :=
  match words raw.toList with
  | [] => ["unnamed".toList]
  | words => words

theorem joined_eq (raw : String) : joined raw = List.intercalate ['_'] (wordsOf raw) := by
  unfold joined wordsOf
  cases words raw.toList with
  | nil => exact (List.append_nil _).symm
  | cons _ _ => rfl

theorem wordsOf_word {raw : String} (ascii : Ascii raw.toList) :
    ∀ w ∈ wordsOf raw, Word w ∧ Ascii w := by
  unfold wordsOf
  split
  · have unnamed : words "unnamed".toList = ["unnamed".toList] := by decide +kernel
    refine List.forall_mem_singleton.mpr ⟨words_word "unnamed".toList _ ?_, by decide⟩
    rw [unnamed]
    exact List.mem_singleton_self _
  · exact fun w here => ⟨words_word _ w here, fun c among => ascii c (words_subset here among)⟩

/-- The segments of an ASCII name are its words. -/
theorem segments_of_ascii {raw : String} (ascii : Ascii raw.toList) :
    segments (joined raw) = wordsOf raw := by
  rw [joined_eq, segments_joined (wordsOf_word ascii)]

theorem snakeCase_ascii {raw : String} (ascii : Ascii raw.toList) :
    Name.snakeCase (joined raw) =
      String.ofList (List.intercalate ['_'] ((wordsOf raw).map lowercase)) := by
  rw [Name.snakeCase, segments_of_ascii ascii]

theorem screamingSnakeCase_ascii {raw : String} (ascii : Ascii raw.toList) :
    Name.screamingSnakeCase (joined raw) =
      String.ofList (List.intercalate ['_'] ((wordsOf raw).map uppercase)) := by
  rw [Name.screamingSnakeCase, segments_of_ascii ascii]

theorem pascalCase_ascii {raw : String} (ascii : Ascii raw.toList) :
    Name.pascalCase (joined raw) = String.ofList ((wordsOf raw).flatMap capitalize) := by
  rw [Name.pascalCase, segments_of_ascii ascii]

-- Camel case and Pascal case differ in nothing but the case of the first character.
theorem camelCase_ascii {raw : String} (ascii : Ascii raw.toList) :
    ∃ (c : Char) (rest : List Char), c.val < 128 ∧
      Name.camelCase (joined raw) = String.ofList (c.toLower :: rest) ∧
      Name.pascalCase (joined raw) = String.ofList (c.toUpper :: rest) := by
  have each := wordsOf_word ascii
  rw [pascalCase_ascii ascii, Name.camelCase, segments_of_ascii ascii]
  cases split : wordsOf raw with
  | nil =>
    unfold wordsOf at split
    split at split
    · cases split
    · rename_i filled
      exact absurd split filled
  | cons first more =>
    obtain ⟨word, letters⟩ := each first (split ▸ List.mem_cons_self)
    cases first with
    | nil => exact absurd rfl word.filled
    | cons c rest =>
      obtain ⟨own, later⟩ := List.forall_mem_cons.mp letters
      refine ⟨c, rest.map Char.toLower ++ more.flatMap capitalize, own, ?_, ?_⟩
      · dsimp only
        rw [lowercase_ascii letters]
        rfl
      · rw [List.flatMap_cons, capitalize_ascii own later]
        rfl

end NameVariants

end ApiLowering
