import ApiLowering.Text.Basic

/-!
The characters of a YAML text with their places. Every way to end a line becomes one character, so
a line break is one cell.
-/

set_option autoImplicit false

namespace ApiLowering.Yaml

-- A character with its line, its column, and the number of characters before it.
structure Cell where
  char : Char
  line : Nat
  column : Nat
  index : Nat
deriving DecidableEq, Repr

def isBreak (c : Char) : Bool := c = '\n' || c = '\u2028' || c = '\u2029'

def isBlank (c : Char) : Bool := c = ' ' || c = '\t'

def byteOrderMark : Char := '\ufeff'

-- Characters that may stand in a text; controls other than tabs and line breaks may not.
def isPrintable (c : Char) : Bool :=
  let n := c.toNat
  n = 0x09 || n = 0x0A || n = 0x0D || (0x20 ≤ n ∧ n ≤ 0x7E) || n = 0x85
    || (0xA0 ≤ n ∧ n ≤ 0xD7FF) || (0xE000 ≤ n ∧ n ≤ 0xFFFD) || 0x10000 ≤ n

-- A carriage return, alone or before a line feed, and the next-line control end a line as a line
-- feed does.
def unifyBreaks : List Char → List Char
  | [] => []
  | '\r' :: '\n' :: rest => '\n' :: unifyBreaks rest
  | c :: rest => (if c = '\r' || c = '\u0085' then '\n' else c) :: unifyBreaks rest

def locate (line column index : Nat) : List Char → List Cell
  | [] => []
  | c :: rest =>
    ⟨c, line, column, index⟩ ::
      if isBreak c then locate (line + 1) 0 (index + 1) rest
      else locate line (column + 1) (index + 1) rest

-- The cells of a text without the mark that may open it.
def cells? (text : String) : Option (List Cell) :=
  let cs :=
    match text.toList with
    | c :: rest => if c = byteOrderMark then rest else c :: rest
    | [] => []
  if cs.all isPrintable then some (locate 0 0 0 (unifyBreaks cs)) else none

-- Whether a blank, a line break or the end of the text comes next.
def atGap : List Cell → Bool
  | [] => true
  | c :: _ => isBlank c.char || isBreak c.char

-- Whether a line that marks the start or the end of a document begins here.
def atDocumentMark : List Cell → Bool
  | a :: b :: c :: rest =>
    a.column = 0 && (a.char = '-' || a.char = '.') && b.char = a.char && c.char = a.char
      && atGap rest
  | _ => false

-- The rest of the text behind a line that holds no more than blanks and a comment.
def behindLine? (cells : List Cell) : Option (List Cell) :=
  let text := cells.dropWhile fun c => isBlank c.char
  let comment := text.head?.any fun c => c.char = '#'
  let rest := if comment then text.dropWhile fun c => !isBreak c.char else text
  match rest with
  | [] => some []
  | c :: more => if isBreak c.char then some more else none

end ApiLowering.Yaml
