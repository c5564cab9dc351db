import ApiLowering.Proofs.Literals
import ApiLowering.Proofs.Rereading
import Mathlib.Data.List.Forall2

/-!
The text of a JSON value is read as the tree of the value, written on one line or indented, when the
text of each of its numbers is read back. Both layouts are cut into the same tokens, and the builder
makes the tree of these, with a flaw for what nests deeper than a reader goes.
-/

set_option autoImplicit false

namespace ApiLowering

-- A number that is read back from its text.
def Number.Legible (n : Number) : Prop := JsonText.readNumber n.render.toList = (.ok n, [])

instance (n : Number) : Decidable n.Legible := inferInstanceAs (Decidable (_ = _))

namespace Json

mutual
-- The doubles in a value.
def reals : Json → List Binary64
  | .number (.real x) => [x]
  | .list items => realsList items
  | .object entries => realsEntries entries
  | _ => []

def realsList : List Json → List Binary64
  | [] => []
  | item :: rest => reals item ++ realsList rest

def realsEntries : List (String × Json) → List Binary64
  | [] => []
  | (_, value) :: rest => reals value ++ realsEntries rest
end

-- A value whose numbers are all read back from their text.
inductive Legible : Json → Prop where
  | null : Legible .null
  | bool (value : Bool) : Legible (.bool value)
  | number {n : Number} (legible : n.Legible) : Legible (.number n)
  | text (value : String) : Legible (.text value)
  | list {items : List Json} (each : ∀ item ∈ items, Legible item) : Legible (.list items)
  | object {entries : Entries Json} (each : ∀ e ∈ entries, Legible e.2) : Legible (.object entries)

theorem reals_list {items : List Json} {item : Json} {x : Binary64} (listed : item ∈ items)
    (held : x ∈ item.reals) : x ∈ realsList items := by
  induction items with
  | nil => exact absurd listed List.not_mem_nil
  | cons first rest ih =>
    rw [realsList]
    rcases List.mem_cons.mp listed with rfl | later
    · exact List.mem_append_left _ held
    · exact List.mem_append_right _ (ih later)

theorem reals_entries {entries : Entries Json} {e : String × Json} {x : Binary64}
    (listed : e ∈ entries) (held : x ∈ e.2.reals) : x ∈ realsEntries entries := by
  induction entries with
  | nil => exact absurd listed List.not_mem_nil
  | cons first rest ih =>
    rw [realsEntries]
    rcases List.mem_cons.mp listed with rfl | later
    · exact List.mem_append_left _ held
    · exact List.mem_append_right _ (ih later)

theorem Sound.legible {j : Json} (sound : j.Sound)
    (reals : ∀ x ∈ j.reals, (Number.real x).Legible) : j.Legible := by
  induction sound with
  | null => exact .null
  | bool value => exact .bool value
  | integer word => exact .number (JsonText.readNumber_integer word)
  | real _ => exact .number (reals _ (List.mem_singleton.mpr rfl))
  | text value => exact .text value
  | list _ ih =>
    exact .list fun item listed => ih item listed fun x held => reals x (reals_list listed held)
  | object _ ih =>
    exact .object fun e listed => ih e listed fun x held => reals x (reals_entries listed held)

end Json

namespace JsonText

-- The tokens of items with separators between them.
def separated : List (List Token) → List Token
  | [] => []
  | first :: later => first ++ later.flatMap (Token.comma :: ·)

mutual
-- The tokens that a value is spelled with.
def spelled : Json → List Token
  | .text s => [.text s]
  | .list items => .openList :: (separated (spelledList items) ++ [.closeList])
  | .object entries => .openMap :: (separated (spelledEntries entries) ++ [.closeMap])
  | other => [.scalar (Tree.ofScalar other)]

def spelledList : List Json → List (List Token)
  | [] => []
  | item :: rest => spelled item :: spelledList rest

def spelledEntries : List (String × Json) → List (List Token)
  | [] => []
  | (key, value) :: rest => (.text key :: .colon :: spelled value) :: spelledEntries rest
end

-- The text is cut into the tokens, whatever stands behind it within `after`.
structure Cuts (after : List Char → Prop) (text : String) (cut : List Token) : Prop where
  short : cut.length ≤ text.toList.length
  runs : ∀ fuel rest, after rest →
    tokensWithin (cut.length + fuel) (text.toList ++ rest) = cut ++ tokensWithin fuel rest

def Anything (_ : List Char) : Prop := True

namespace Cuts

variable {after behind : List Char → Prop} {a b : String} {s t : List Token}

theorem mono (cuts : Cuts after a s) (within : ∀ rest, behind rest → after rest) :
    Cuts behind a s :=
  ⟨cuts.short, fun fuel rest fits => cuts.runs fuel rest (within rest fits)⟩

theorem append (first : Cuts after a s) (second : Cuts behind b t)
    (fits : ∀ rest, behind rest → after (b.toList ++ rest)) : Cuts behind (a ++ b) (s ++ t) where
  short := by
    rw [List.length_append, String.toList_append, List.length_append]
    exact Nat.add_le_add first.short second.short
  runs fuel rest follows := by
    rw [List.length_append, Nat.add_assoc, String.toList_append, List.append_assoc,
      first.runs _ _ (fits rest follows), second.runs _ _ follows, List.append_assoc]

theorem blank (white : ∀ c ∈ a.toList, isSpace c = true) : Cuts after a [] := by
  refine ⟨Nat.zero_le _, fun fuel rest _ => ?_⟩
  rw [List.length_nil, Nat.zero_add, List.nil_append]
  cases fuel with
  | zero => rfl
  | succ fuel => rw [tokensWithin, tokensWithin, List.dropWhile_append_of_pos white]

theorem padded (cuts : Cuts after a s) (white : ∀ c ∈ b.toList, isSpace c = true)
    (fits : ∀ rest, behind rest → after (b.toList ++ rest)) : Cuts behind (a ++ b) s := by
  have cut := cuts.append (blank white) fits
  rwa [List.append_nil] at cut

theorem token {c : Char} {more : List Char} {token : Token} (spelled : a.toList = c :: more)
    (printed : isSpace c = false)
    (next : ∀ rest, after rest → nextToken c (more ++ rest) = (token, rest)) :
    Cuts after a [token] := by
  refine ⟨spelled ▸ Nat.succ_le_succ (Nat.zero_le _), fun fuel rest fits => ?_⟩
  rw [List.length_singleton, Nat.add_comm, tokensWithin, spelled, List.cons_append,
    List.dropWhile_cons_of_neg (by rw [printed]; decide)]
  simp only [next rest fits]
  rfl

theorem quote (s : String) : Cuts Anything (Json.quote s) [.text s] := by
  refine token (quote_toList s) (by decide) fun rest _ => ?_
  rw [List.append_assoc]
  exact nextToken_quote s

theorem number {n : Number} (legible : n.Legible) :
    Cuts Delimited n.render [.scalar (.number n)] := by
  cases known : n.render.toList with
  | nil =>
    rw [Number.Legible, known] at legible
    cases legible
  | cons c more =>
    have readable : readNumber (c :: more) = (.ok n, []) := known ▸ legible
    have printed : isSpace c = false := by
      rcases readNumber_starts readable with digit | minus
      · refine Bool.eq_false_iff.mpr fun space => ?_
        simp only [isSpace, Bool.or_eq_true, decide_eq_true_iff] at space
        rcases space with ((rfl | rfl) | rfl) | rfl <;> cases digit
      · subst minus
        rfl
    refine token known printed fun rest delimited => ?_
    exact nextToken_number (readNumber_append delimited readable)

end Cuts

-- Separators, closing brackets and white space end a number.
theorem delimited_of {c : Char} (rest : List Char)
    (ends : isSpace c = true ∨ c = ',' ∨ c = ']' ∨ c = '\x7d') : Delimited (c :: rest) := by
  intro first here
  cases here
  simp only [isSpace, Bool.or_eq_true, decide_eq_true_iff] at ends
  rcases ends with (((rfl | rfl) | rfl) | rfl) | rfl | rfl | rfl <;> decide

section Layouts

open Json

variable {opening closing : String} {left right : Token} {lines : List String}
variable {cuts : List (List Token)}

theorem blank_delimited {a : String} {rest : List Char} (white : ∀ c ∈ a.toList, isSpace c = true)
    (delimited : Delimited rest) : Delimited (a.toList ++ rest) := by
  cases known : a.toList with
  | nil => exact delimited
  | cons c more => exact delimited_of _ (.inl (white c (known ▸ List.mem_cons_self)))

theorem separated_cuts {sep : String} (comma : Cuts Anything sep [.comma])
    (ends : ∀ rest, Delimited (sep.toList ++ rest))
    (each : List.Forall₂ (Cuts Delimited) lines cuts) :
    Cuts Delimited (sep.intercalate lines) (separated cuts) := by
  induction each with
  | nil =>
    rw [String.intercalate_nil]
    exact Cuts.blank fun c here => absurd here List.not_mem_nil
  | @cons line cut lines cuts first later ih =>
    cases later with
    | nil =>
      rw [String.intercalate_singleton, separated, List.flatMap_nil, List.append_nil]
      exact first
    | @cons second next lines cuts _ _ =>
      have split : separated (cut :: next :: cuts) =
          cut ++ [.comma] ++ separated (next :: cuts) := by
        simp only [separated, List.flatMap_cons, List.append_assoc, List.cons_append,
          List.nil_append]
      rw [String.intercalate_cons_cons, split]
      exact (first.append comma fun rest _ => ends rest).append ih fun _ _ => trivial

theorem comma_cuts : Cuts Anything "," [.comma] :=
  Cuts.token rfl (by decide) fun _ _ => rfl

theorem colon_cuts : Cuts Anything ":" [.colon] :=
  Cuts.token rfl (by decide) fun _ _ => rfl

-- The brackets of a list or a map.
structure Brackets (opening closing : String) (left right : Token) : Prop where
  opens : Cuts Anything opening [left]
  closes : Cuts Anything closing [right]
  ends : ∀ rest, Delimited (closing.toList ++ rest)

theorem list_brackets : Brackets "[" "]" .openList .closeList where
  opens := Cuts.token rfl (by decide) fun _ _ => rfl
  closes := Cuts.token rfl (by decide) fun _ _ => rfl
  ends rest := delimited_of rest (by decide)

theorem map_brackets : Brackets "\x7b" "\x7d" .openMap .closeMap where
  opens := Cuts.token rfl (by decide) fun _ _ => rfl
  closes := Cuts.token rfl (by decide) fun _ _ => rfl
  ends rest := delimited_of rest (by decide)

theorem Brackets.around (brackets : Brackets opening closing left right) {body : String}
    {cut : List Token} (inside : Cuts Delimited body cut) :
    Cuts Anything (opening ++ body ++ closing) (left :: (cut ++ [right])) :=
  (brackets.opens.append inside fun _ _ => trivial).append brackets.closes
    fun rest _ => brackets.ends rest

theorem indent_blank (depth : Nat) : ∀ c ∈ (indent depth).toList, isSpace c = true := by
  intro c here
  rw [indent, String.toList_append] at here
  rcases List.mem_append.mp here with first | later
  · cases List.mem_singleton.mp first
    rfl
  · rw [String.toList_ofList] at later
    cases (List.mem_replicate.mp later).2
    rfl

theorem Brackets.indented (brackets : Brackets opening closing left right) (depth : Nat)
    (each : List.Forall₂ (Cuts Delimited) lines cuts) :
    Cuts Anything (bracketed opening closing depth lines) (left :: (separated cuts ++ [right])) := by
  cases each with
  | nil => exact brackets.opens.append brackets.closes fun _ _ => trivial
  | cons first later =>
    have comma : Cuts Anything ("," ++ indent (depth + 1)) [.comma] :=
      comma_cuts.padded (indent_blank _) fun _ _ => trivial
    have ends (rest : List Char) : Delimited (("," ++ indent (depth + 1)).toList ++ rest) := by
      rw [String.toList_append]
      exact delimited_of _ (by decide)
    have opens : Cuts Anything (opening ++ indent (depth + 1)) [left] :=
      brackets.opens.padded (indent_blank _) fun _ _ => trivial
    have body := (separated_cuts comma ends (.cons first later)).padded (indent_blank depth)
      fun _ => blank_delimited (indent_blank depth)
    have whole := Brackets.around ⟨opens, brackets.closes, brackets.ends⟩ body
    rw [← String.append_assoc] at whole
    exact whole

theorem renderScalar_cuts {value : Scalar} {j : Json} (legible : j.Legible)
    (scalar : Tree.ofJson j = .scalar value) : Cuts Delimited (renderScalar j) (spelled j) := by
  cases legible with
  | null => exact Cuts.token rfl (by decide) fun _ _ => rfl
  | bool b => cases b <;> exact Cuts.token rfl (by decide) fun _ _ => rfl
  | number legible => exact Cuts.number legible
  | text s => exact (Cuts.quote s).mono fun _ _ => trivial
  | list => cases scalar
  | object => cases scalar

theorem entry_cuts {colon text : String} {cut : List Token} (key : String)
    (between : Cuts Anything colon [.colon]) (value : Cuts Delimited text cut) :
    Cuts Delimited (quote key ++ colon ++ text) (.text key :: .colon :: cut) :=
  ((Cuts.quote key).append between fun _ _ => trivial).append value fun _ _ => trivial

theorem renderList_cuts {items : List Json}
    (each : ∀ item ∈ items, Cuts Delimited item.render (spelled item)) :
    List.Forall₂ (Cuts Delimited) (renderList items) (spelledList items) := by
  induction items with
  | nil => exact .nil
  | cons item rest ih =>
    obtain ⟨first, later⟩ := List.forall_mem_cons.mp each
    exact .cons first (ih later)

theorem renderEntries_cuts {entries : Entries Json}
    (each : ∀ e ∈ entries, Cuts Delimited e.2.render (spelled e.2)) :
    List.Forall₂ (Cuts Delimited) (renderEntries entries) (spelledEntries entries) := by
  induction entries with
  | nil => exact .nil
  | cons e rest ih =>
    obtain ⟨first, later⟩ := List.forall_mem_cons.mp each
    exact .cons (entry_cuts e.1 colon_cuts first) (ih later)

theorem render_cuts {j : Json} (legible : j.Legible) : Cuts Delimited j.render (spelled j) := by
  induction legible with
  | null => exact renderScalar_cuts .null rfl
  | bool value => exact renderScalar_cuts (.bool value) rfl
  | number legible => exact renderScalar_cuts (.number legible) rfl
  | text value => exact renderScalar_cuts (.text value) rfl
  | list _ ih =>
    have inside := separated_cuts comma_cuts (fun rest => delimited_of rest (by decide))
      (renderList_cuts ih)
    exact (list_brackets.around inside).mono fun _ _ => trivial
  | object _ ih =>
    have inside := separated_cuts comma_cuts (fun rest => delimited_of rest (by decide))
      (renderEntries_cuts ih)
    exact (map_brackets.around inside).mono fun _ _ => trivial

theorem indentedList_cuts {items : List Json} {depth : Nat}
    (each : ∀ item ∈ items, Cuts Delimited (item.renderIndented depth) (spelled item)) :
    List.Forall₂ (Cuts Delimited) (indentedList depth items) (spelledList items) := by
  induction items with
  | nil => exact .nil
  | cons item rest ih =>
    obtain ⟨first, later⟩ := List.forall_mem_cons.mp each
    exact .cons first (ih later)

theorem indentedEntries_cuts {entries : Entries Json} {depth : Nat}
    (each : ∀ e ∈ entries, Cuts Delimited (e.2.renderIndented depth) (spelled e.2)) :
    List.Forall₂ (Cuts Delimited) (indentedEntries depth entries) (spelledEntries entries) := by
  have white : ∀ c ∈ " ".toList, isSpace c = true := by
    intro c here
    cases List.mem_singleton.mp here
    rfl
  have colon : Cuts Anything ": " [.colon] := colon_cuts.padded white fun _ _ => trivial
  induction entries with
  | nil => exact .nil
  | cons e rest ih =>
    obtain ⟨first, later⟩ := List.forall_mem_cons.mp each
    exact .cons (entry_cuts e.1 colon first) (ih later)

theorem renderIndented_cuts {j : Json} (legible : j.Legible) (depth : Nat) :
    Cuts Delimited (j.renderIndented depth) (spelled j) := by
  induction legible generalizing depth with
  | null => exact renderScalar_cuts .null rfl
  | bool value => exact renderScalar_cuts (.bool value) rfl
  | number legible => exact renderScalar_cuts (.number legible) rfl
  | text value => exact renderScalar_cuts (.text value) rfl
  | list _ ih =>
    have inside := indentedList_cuts fun item listed => ih item listed (depth + 1)
    exact (list_brackets.indented depth inside).mono fun _ _ => trivial
  | object _ ih =>
    have inside := indentedEntries_cuts fun e listed => ih e listed (depth + 1)
    exact (map_brackets.indented depth inside).mono fun _ _ => trivial

end Layouts

theorem tokensWithin_nil (fuel : Nat) : tokensWithin fuel [] = [] := by
  cases fuel <;> rfl

theorem Cuts.tokens {text : String} {cut : List Token} (cuts : Cuts Delimited text cut) :
    tokens text.toList = cut := by
  obtain ⟨fuel, enough⟩ := Nat.exists_eq_add_of_le cuts.short
  have runs := cuts.runs fuel [] fun _ here => absurd here (Option.not_mem_none _)
  rw [List.append_nil, tokensWithin_nil, List.append_nil, ← enough] at runs
  exact runs

mutual
-- The tree that a value is read as inside of `depth` open brackets: what nests too deep is a flaw.
def clipped (depth : Nat) : Json → Tree
  | .list items =>
    Builder.limited (depth + 1) (.list (clippedList (depth + 1) items) none)
  | .object entries =>
    Builder.limited (depth + 1) (.map (clippedEntries (depth + 1) entries) none)
  | other => .scalar (Tree.ofScalar other)

def clippedList (depth : Nat) : List Json → List Tree
  | [] => []
  | item :: rest => clipped depth item :: clippedList depth rest

def clippedEntries (depth : Nat) : List (String × Json) → List (Key × Tree)
  | [] => []
  | (key, value) :: rest => (.text key, clipped depth value) :: clippedEntries depth rest
end

namespace Builder

variable {outer : List Frame} {root : Option Tree} {rest : List Token}

-- What is expected does not matter to the place where a node is added.
theorem add_expected (frames : List Frame) (expected other : Expected) (node : Tree) :
    add ⟨frames, root, expected⟩ node = add ⟨frames, root, other⟩ node := by
  cases frames with
  | nil => rfl
  | cons frame outer => cases frame <;> rfl

theorem close_eq {frame : Frame} {expected : Expected} (other : Expected) :
    close ⟨frame :: outer, root, expected⟩ none =
      add ⟨outer, root, other⟩ (limited (outer.length + 1) (frame.node none)) :=
  add_expected outer _ _ _

mutual
-- A value that is awaited is added once its tokens are taken.
theorem run_spelled (root : Option Tree) :
    ∀ (j : Json) (frames : List Frame) (expected : Expected) (rest : List Token),
      expected = .value ∨ expected = .valueOrClose →
      run ⟨frames, root, expected⟩ (spelled j ++ rest) =
        run (add ⟨frames, root, expected⟩ (clipped frames.length j)) rest
  | .null, _, _, _, awaited => by rcases awaited with rfl | rfl <;> rfl
  | .bool _, _, _, _, awaited => by rcases awaited with rfl | rfl <;> rfl
  | .number _, _, _, _, awaited => by rcases awaited with rfl | rfl <;> rfl
  | .text _, _, _, _, awaited => by rcases awaited with rfl | rfl <;> rfl
  | .list items, frames, expected, rest, awaited => by
    have opened : run ⟨frames, root, expected⟩ (spelled (.list items) ++ rest) =
        run ⟨.list [] :: frames, root, .valueOrClose⟩
          (separated (spelledList items) ++ .closeList :: rest) := by
      rw [spelled, List.cons_append, List.append_assoc]
      rcases awaited with rfl | rfl <;> rfl
    rw [opened, clipped]
    cases items with
    | nil => exact congrArg (run · rest) (close_eq expected)
    | cons first later =>
      rw [spelledList, separated, List.append_assoc, run_spelled root first _ _ _ (.inr rfl)]
      exact run_items root later [clipped _ first] frames expected rest
  | .object entries, frames, expected, rest, awaited => by
    have opened : run ⟨frames, root, expected⟩ (spelled (.object entries) ++ rest) =
        run ⟨.map [] none :: frames, root, .keyOrClose⟩
          (separated (spelledEntries entries) ++ .closeMap :: rest) := by
      rw [spelled, List.cons_append, List.append_assoc]
      rcases awaited with rfl | rfl <;> rfl
    rw [opened, clipped]
    cases entries with
    | nil => exact congrArg (run · rest) (close_eq expected)
    | cons first later =>
      obtain ⟨key, value⟩ := first
      refine Eq.trans ?_
        (run_entries root later [(.text key, clipped _ value)] frames expected rest)
      rw [spelledEntries, separated, List.append_assoc]
      exact run_spelled root value (.map [] (some (.text key)) :: frames) .value _ (.inl rfl)

-- The items behind the first one, each with the comma in front of it.
theorem run_items (root : Option Tree) :
    ∀ (items : List Json) (held : List Tree) (outer : List Frame) (expected : Expected)
      (rest : List Token),
      run ⟨.list held :: outer, root, .separatorOrClose⟩
          ((spelledList items).flatMap (Token.comma :: ·) ++ .closeList :: rest) =
        run (add ⟨outer, root, expected⟩ (limited (outer.length + 1)
          (.list (held.reverse ++ clippedList (outer.length + 1) items) none))) rest
  | [], held, outer, expected, rest => by
    rw [clippedList, List.append_nil]
    exact congrArg (run · rest) (close_eq expected)
  | item :: more, held, outer, expected, rest => by
    have whole := run_items root more (clipped (outer.length + 1) item :: held) outer expected rest
    rw [List.reverse_cons, List.append_assoc, List.singleton_append] at whole
    refine Eq.trans ?_ whole
    rw [spelledList, List.flatMap_cons, List.append_assoc]
    exact run_spelled root item (.list held :: outer) .value _ (.inl rfl)

theorem run_entries (root : Option Tree) :
    ∀ (entries : List (String × Json)) (held : List (Key × Tree)) (outer : List Frame)
      (expected : Expected) (rest : List Token),
      run ⟨.map held none :: outer, root, .separatorOrClose⟩
          ((spelledEntries entries).flatMap (Token.comma :: ·) ++ .closeMap :: rest) =
        run (add ⟨outer, root, expected⟩ (limited (outer.length + 1)
          (.map (held.reverse ++ clippedEntries (outer.length + 1) entries) none))) rest
  | [], held, outer, expected, rest => by
    rw [clippedEntries, List.append_nil]
    exact congrArg (run · rest) (close_eq expected)
  | (key, value) :: more, held, outer, expected, rest => by
    have whole := run_entries root more ((.text key, clipped (outer.length + 1) value) :: held) outer
      expected rest
    rw [List.reverse_cons, List.append_assoc, List.singleton_append] at whole
    refine Eq.trans ?_ whole
    rw [spelledEntries, List.flatMap_cons, List.append_assoc]
    exact run_spelled root value (.map held (some (.text key)) :: outer) .value _ (.inl rfl)
end

theorem limited_within {depth : Nat} {node : Tree} (near : depth ≤ depthLimit) :
    limited depth node = node :=
  if_neg (Nat.not_lt.mpr near)

end Builder

mutual
theorem clipped_within : ∀ (j : Json) (depth : Nat),
    depth + (Tree.ofJson j).height ≤ depthLimit → clipped depth j = Tree.ofJson j
  | .null, _, _ | .bool _, _, _ | .number _, _, _ | .text _, _, _ => rfl
  | .list items, depth, near => by
    rw [Tree.ofJson, Tree.height] at near
    rw [clipped, Builder.limited_within (by omega),
      clippedList_within items (depth + 1) (by omega), Tree.ofJson]
  | .object entries, depth, near => by
    rw [Tree.ofJson, Tree.height] at near
    rw [clipped, Builder.limited_within (by omega),
      clippedEntries_within entries (depth + 1) (by omega), Tree.ofJson]

theorem clippedList_within : ∀ (items : List Json) (depth : Nat),
    depth + Tree.heightList (Tree.ofJsonList items) ≤ depthLimit →
    clippedList depth items = Tree.ofJsonList items
  | [], _, _ => rfl
  | item :: rest, depth, near => by
    rw [Tree.ofJsonList, Tree.heightList] at near
    rw [clippedList, clipped_within item depth (by omega),
      clippedList_within rest depth (by omega), Tree.ofJsonList]

theorem clippedEntries_within : ∀ (entries : List (String × Json)) (depth : Nat),
    depth + Tree.heightEntries (Tree.ofJsonEntries entries) ≤ depthLimit →
    clippedEntries depth entries = Tree.ofJsonEntries entries
  | [], _, _ => rfl
  | (key, value) :: rest, depth, near => by
    rw [Tree.ofJsonEntries, Tree.heightEntries] at near
    rw [clippedEntries, clipped_within value depth (by omega),
      clippedEntries_within rest depth (by omega), Tree.ofJsonEntries]
end

theorem read_of_cuts {text : String} {j : Json} (cuts : Cuts Delimited text (spelled j)) :
    read text = ⟨clipped 0 j, none⟩ := by
  have taken := Builder.run_spelled none j [] .value [] (.inl rfl)
  rw [List.append_nil] at taken
  rw [read, cuts.tokens]
  exact taken

/-- The text of a value is read as the value, except for what nests deeper than a reader goes. -/
theorem read_render {j : Json} (legible : j.Legible) : read j.render = ⟨clipped 0 j, none⟩ :=
  read_of_cuts (render_cuts legible)

theorem read_renderIndented {j : Json} (legible : j.Legible) (depth : Nat) :
    read (j.renderIndented depth) = ⟨clipped 0 j, none⟩ :=
  read_of_cuts (renderIndented_cuts legible depth)

end JsonText

end ApiLowering
