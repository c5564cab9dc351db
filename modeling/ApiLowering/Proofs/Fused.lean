import Mathlib.Data.List.Chain
import ApiLowering.Proofs.Casing

/-!
What camel case and Pascal case tell apart. Every word of letters starts with a capital there, but nothing
stands between numerals, so those that follow one another run together: two ASCII names have the same
Pascal case, and then the same camel case, just if their words are the same once such numerals are fused.
-/

set_option autoImplicit false

namespace ApiLowering.Name

open Text

variable {c : Char} {w v : List Char} {ws vs : List (List Char)}

def isNumber (w : List Char) : Bool := w.all isNumeral

-- Numerals that follow one another become one word.
def fuse : List (List Char) → List (List Char)
  | [] => []
  | w :: rest =>
    match fuse rest with
    | [] => [w]
    | v :: more => if isNumber w && isNumber v then (w ++ v) :: more else w :: v :: more

-- An ASCII word in lower case: a numeral, or letters.
structure Piece (w : List Char) : Prop where
  filled : w ≠ []
  ascii : Ascii w
  fixed : lowercase w = w
  letters : isNumber w = false → ∀ c ∈ w, isLowercase c = true

theorem isNumber_lowercase (ascii : Ascii w) : isNumber (lowercase w) = isNumber w := by
  rw [lowercase_ascii ascii, Bool.eq_iff_iff, isNumber, isNumber, List.all_eq_true, List.all_eq_true,
    List.forall_mem_map]
  exact forall₂_congr fun c here => by rw [(ascii_cases (ascii c here)).numeral.1]

theorem piece_of_word (word : Word w) (ascii : Ascii w) : Piece (lowercase w) where
  filled := by
    rw [lowercase_ascii ascii]
    exact mt List.map_eq_nil_iff.mp word.filled
  ascii := ascii_lowercase ascii
  fixed := by
    rw [lowercase_ascii (ascii_lowercase ascii), lowercase_ascii ascii, List.map_map]
    exact List.map_congr_left fun c here => (ascii_cases (ascii c here)).lower.2
  letters number := by
    rw [isNumber_lowercase ascii] at number
    rw [lowercase_ascii ascii]
    refine List.forall_mem_map.mpr fun c here => ?_
    rcases solid_numeral word.solid with numeral | letters
    · rw [isNumber, List.all_eq_true.mpr numeral] at number
      cases number
    · exact (ascii_cases (ascii c here)).letter (word.spelled c here) (letters c here)

theorem capitalize_number (ascii : Ascii w) (number : isNumber w = true) : capitalize w = w := by
  cases w with
  | nil => rfl
  | cons c rest =>
    obtain ⟨own, later⟩ := List.forall_mem_cons.mp ascii
    obtain ⟨numeral, numerals⟩ := List.forall_mem_cons.mp (List.all_eq_true.mp number)
    rw [capitalize_ascii own later, ((ascii_cases own).fixed numeral).1]
    congr 1
    refine (List.map_congr_left fun d here => ?_).trans (List.map_id rest)
    exact ((ascii_cases (later d here)).fixed (numerals d here)).2.1

theorem lowercase_capitalize (piece : Piece w) : lowercase (capitalize w) = w := by
  obtain ⟨-, ascii, fixed, -⟩ := piece
  cases w with
  | nil => rfl
  | cons c rest =>
    obtain ⟨own, later⟩ := List.forall_mem_cons.mp ascii
    have again : Ascii (c.toUpper :: rest.map Char.toLower) := by
      rw [← lowercase_ascii later]
      exact List.forall_mem_cons.mpr ⟨(ascii_cases own).ascii.2, ascii_lowercase later⟩
    rw [lowercase_ascii ascii] at fixed
    obtain ⟨first, behind⟩ := List.cons.inj fixed
    rw [capitalize_ascii own later, lowercase_ascii again, List.map_cons, (ascii_cases own).lower.1,
      first, behind, behind]

-- What a capitalized word starts with, and how it goes on.
def continues (w : List Char) : Char → Bool := if isNumber w then isNumeral else isLowercase

theorem capitalize_piece (piece : Piece w) :
    ∃ c rest, capitalize w = c :: rest ∧ isLowercase c = false ∧ isNumeral c = isNumber w ∧
      ∀ d ∈ rest, continues w d = true := by
  have ⟨filled, ascii, fixed, letters⟩ := piece
  cases w with
  | nil => exact absurd rfl filled
  | cons c rest =>
    obtain ⟨own, later⟩ := List.forall_mem_cons.mp ascii
    have cases := ascii_cases own
    rw [lowercase_ascii ascii] at fixed
    obtain ⟨-, behind⟩ := List.cons.inj fixed
    refine ⟨c.toUpper, rest, by rw [capitalize_ascii own later, behind], ?_⟩
    unfold continues
    cases number : isNumber (c :: rest) with
    | true =>
      obtain ⟨numeral, numerals⟩ := List.forall_mem_cons.mp (List.all_eq_true.mp number)
      refine ⟨?_, cases.numeral.2.trans numeral, numerals⟩
      rw [(cases.fixed numeral).1, (cases.fixed numeral).2.2]
    | false =>
      obtain ⟨low, others⟩ := List.forall_mem_cons.mp (letters number)
      exact ⟨(cases.low low).2, cases.numeral.2.trans (cases.low low).1, others⟩

-- Where one text ends is known from what it may go on with.
theorem span_unique {p : Char → Bool} {a b x y : List Char} (first : ∀ c ∈ a, p c = true)
    (second : ∀ c ∈ b, p c = true) (ends : ∀ c ∈ x.head?, p c = false)
    (stops : ∀ c ∈ y.head?, p c = false) (same : a ++ x = b ++ y) : a = b ∧ x = y := by
  have taken {a x : List Char} (all : ∀ c ∈ a, p c = true) (ends : ∀ c ∈ x.head?, p c = false) :
      (a ++ x).takeWhile p = a := by
    rw [List.takeWhile_append_of_pos all]
    cases x with
    | nil => exact List.append_nil a
    | cons c rest =>
      rw [List.takeWhile_cons_of_neg (Bool.eq_false_iff.mp (ends c rfl)), List.append_nil]
  have prior : a = b := by rw [← taken first ends, same, taken second stops]
  subst prior
  exact ⟨rfl, List.append_cancel_left same⟩

-- No numeral follows another one.
def Apart (ws : List (List Char)) : Prop :=
  ws.IsChain fun w v => ¬ (isNumber w = true ∧ isNumber v = true)

theorem capitalized_stops (each : ∀ v ∈ vs, Piece v) (apart : Apart (w :: vs)) :
    ∀ c ∈ (vs.flatMap capitalize).head?, continues w c = false := by
  cases vs with
  | nil => exact fun c here => nomatch here
  | cons v more =>
    obtain ⟨c, rest, shape, low, numeral, -⟩ := capitalize_piece (each v List.mem_cons_self)
    intro d here
    rw [List.flatMap_cons, shape] at here
    cases here
    unfold continues
    cases number : isNumber w with
    | true => exact numeral.trans (Bool.eq_false_iff.mpr fun again =>
      (List.isChain_cons_cons.mp apart).1 ⟨number, again⟩)
    | false => exact low

theorem capitalized_injective (each : ∀ w ∈ ws, Piece w) (every : ∀ v ∈ vs, Piece v) (apart : Apart ws)
    (divided : Apart vs) (same : ws.flatMap capitalize = vs.flatMap capitalize) : ws = vs := by
  -- a capitalized word is not empty
  have filled {v : List Char} {more : List (List Char)} (piece : Piece v) :
      (v :: more).flatMap capitalize ≠ [] := by
    obtain ⟨c, rest, shape, -⟩ := capitalize_piece piece
    rw [List.flatMap_cons, shape]
    exact List.cons_ne_nil _ _
  induction ws generalizing vs with
  | nil =>
    cases vs with
    | nil => rfl
    | cons v more => exact absurd same.symm (filled (every v List.mem_cons_self))
  | cons w rest ih =>
    cases vs with
    | nil => exact absurd same (filled (each w List.mem_cons_self))
    | cons v more =>
      obtain ⟨first, others⟩ := List.forall_mem_cons.mp each
      obtain ⟨second, further⟩ := List.forall_mem_cons.mp every
      have ends := capitalized_stops others apart
      have stops := capitalized_stops further divided
      obtain ⟨c, tail, shape, -, kind, goes⟩ := capitalize_piece first
      obtain ⟨d, last, form, -, sort, runs⟩ := capitalize_piece second
      rw [List.flatMap_cons, List.flatMap_cons, shape, form, List.cons_append, List.cons_append] at same
      obtain ⟨head, behind⟩ := List.cons.inj same
      subst head
      -- the first character tells a numeral from letters, so both words go on alike
      have alike : continues v = continues w := by
        rw [continues, continues, ← kind, ← sort]
      rw [alike] at stops runs
      obtain ⟨own, later⟩ := span_unique goes runs ends stops behind
      subst own
      have word : w = v := by
        rw [← lowercase_capitalize first, shape, ← form, lowercase_capitalize second]
      rw [word, ih others further apart.tail divided.tail later]

theorem piece_append (first : Piece w) (second : Piece v) (number : isNumber w = true)
    (numeral : isNumber v = true) : Piece (w ++ v) where
  filled := List.append_ne_nil_of_left_ne_nil first.filled v
  ascii := List.forall_mem_append.mpr ⟨first.ascii, second.ascii⟩
  fixed := by
    have low := first.fixed
    have same := second.fixed
    rw [lowercase_ascii first.ascii] at low
    rw [lowercase_ascii second.ascii] at same
    rw [lowercase_ascii (List.forall_mem_append.mpr ⟨first.ascii, second.ascii⟩),
      List.map_append, low, same]
  letters other := by
    rw [isNumber, List.all_append] at other
    rw [isNumber] at number numeral
    rw [number, numeral] at other
    cases other

theorem fuse_piece (each : ∀ w ∈ ws, Piece w) : ∀ w ∈ fuse ws, Piece w := by
  fun_induction fuse ws with
  | case1 => exact each
  | case2 w rest none ih => exact List.forall_mem_singleton.mpr (each w List.mem_cons_self)
  | case3 w rest v more fused both ih =>
    obtain ⟨own, others⟩ := List.forall_mem_cons.mp each
    obtain ⟨next, later⟩ := List.forall_mem_cons.mp (fused ▸ ih others)
    obtain ⟨number, numeral⟩ := Bool.and_eq_true_iff.mp both
    exact List.forall_mem_cons.mpr ⟨piece_append own next number numeral, later⟩
  | case4 w rest v more fused apart ih =>
    obtain ⟨own, others⟩ := List.forall_mem_cons.mp each
    exact List.forall_mem_cons.mpr ⟨own, fused ▸ ih others⟩

theorem fuse_apart (ws : List (List Char)) : Apart (fuse ws) := by
  fun_induction fuse ws with
  | case1 => exact .nil
  | case2 w rest none ih => exact .singleton w
  | case3 w rest v more fused both ih =>
    rw [fused] at ih
    cases more with
    | nil => exact .singleton _
    | cons u more =>
      obtain ⟨next, later⟩ := List.isChain_cons_cons.mp ih
      have numeral := (Bool.and_eq_true_iff.mp both).2
      exact List.isChain_cons_cons.mpr ⟨fun again => next ⟨numeral, again.2⟩, later⟩
  | case4 w rest v more fused apart ih =>
    rw [fused] at ih
    exact List.isChain_cons_cons.mpr ⟨fun both => apart (Bool.and_eq_true_iff.mpr both), ih⟩

-- Pascal case does not show where numerals are divided.
theorem fuse_capitalized (each : ∀ w ∈ ws, Piece w) :
    (fuse ws).flatMap capitalize = ws.flatMap capitalize := by
  fun_induction fuse ws with
  | case1 => rfl
  | case2 w rest none ih =>
    rw [List.flatMap_cons, ← none, ih fun v here => each v (List.mem_cons_of_mem _ here),
      List.flatMap_cons]
  | case3 w rest v more fused both ih =>
    obtain ⟨own, others⟩ := List.forall_mem_cons.mp each
    have next := fuse_piece others v (fused ▸ List.mem_cons_self)
    obtain ⟨number, numeral⟩ := Bool.and_eq_true_iff.mp both
    have whole := piece_append own next number numeral
    have alone : isNumber (w ++ v) = true := by
      rw [isNumber, List.all_append]
      exact both
    rw [List.flatMap_cons, List.flatMap_cons, ← ih others, fused, List.flatMap_cons,
      capitalize_number whole.ascii alone, capitalize_number own.ascii number,
      capitalize_number next.ascii numeral, List.append_assoc]
  | case4 w rest v more fused apart ih =>
    rw [List.flatMap_cons, ← fused, ih fun v here => each v (List.mem_cons_of_mem _ here),
      List.flatMap_cons]

/-- Pascal case tells ASCII words apart just as far as the numerals that follow one another are fused. -/
theorem capitalized_iff (words : ∀ w ∈ ws, Word w ∧ Ascii w) (others : ∀ v ∈ vs, Word v ∧ Ascii v) :
    ws.flatMap capitalize = vs.flatMap capitalize ↔
      fuse (ws.map lowercase) = fuse (vs.map lowercase) := by
  have pieces {ws : List (List Char)} (words : ∀ w ∈ ws, Word w ∧ Ascii w) :
      ∀ w ∈ ws.map lowercase, Piece w :=
    List.forall_mem_map.mpr fun w here => piece_of_word (words w here).1 (words w here).2
  have shown {ws : List (List Char)} (words : ∀ w ∈ ws, Word w ∧ Ascii w) :
      ws.flatMap capitalize = (fuse (ws.map lowercase)).flatMap capitalize := by
    rw [fuse_capitalized (pieces words), List.flatMap_map]
    exact List.flatMap_congr fun w here => (capitalize_lowercase (words w here).2).symm
  rw [shown words, shown others]
  constructor
  · exact capitalized_injective (fuse_piece (pieces words)) (fuse_piece (pieces others)) (fuse_apart _)
      (fuse_apart _)
  · exact congrArg _

end ApiLowering.Name
