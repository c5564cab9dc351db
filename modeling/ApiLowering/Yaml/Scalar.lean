import ApiLowering.Yaml.Cell

/-!
The texts of scalars: quoted, plain, and in blocks of lines. Between two words of a quoted or plain
scalar, blanks are kept, a single line break becomes a space, and of more line breaks the first one
is dropped.
-/

set_option autoImplicit false

namespace ApiLowering.Yaml

inductive Gap where
  | none
  | blanks (text : List Char)
  | breaks (first more : List Char)
deriving DecidableEq, Repr

namespace Gap

def blank (c : Char) : Gap → Gap
  | .none => .blanks [c]
  | .blanks text => .blanks (text ++ [c])
  | .breaks first more => .breaks first more

def lineBreak (c : Char) : Gap → Gap
  | .breaks first more => .breaks first (more ++ [c])
  | _ => .breaks [c] []

def isBreaks : Gap → Bool
  | .breaks _ _ => true
  | _ => false

def fold : Gap → List Char
  | .none => []
  | .blanks text => text
  | .breaks first more =>
    if first = ['\n'] then if more.isEmpty then [' '] else more else first ++ more

-- The scalar so far, the last character first, with the gap behind it.
def join (gap : Gap) (acc : List Char) : List Char := gap.fold.reverse ++ acc

end Gap

-- Scans a text between apostrophes, behind the first one; two apostrophes stand for one.
def scanSingle (gap : Gap) (acc : List Char) (cells : List Cell) : Option (String × List Cell) :=
  match cells with
  | [] => none
  | c :: rest =>
    if isBlank c.char then scanSingle (gap.blank c.char) acc rest
    else if isBreak c.char then scanSingle (gap.lineBreak c.char) acc rest
    else if atDocumentMark (c :: rest) then none
    else if c.char = '\'' then
      match rest with
      | [] => some (String.ofList (gap.join acc).reverse, [])
      | next :: more =>
        if next.char = '\'' then scanSingle .none ('\'' :: gap.join acc) more
        else some (String.ofList (gap.join acc).reverse, next :: more)
    else scanSingle .none (c.char :: gap.join acc) rest
termination_by cells.length

inductive Escape where
  | none
  | begun
  -- So many hexadecimal digits are to come.
  | digits (left value : Nat)
deriving DecidableEq, Repr

def escaped? (c : Char) : Option Char :=
  match c with
  | '0' => some '\x00'
  | 'a' => some '\x07'
  | 'b' => some '\x08'
  | 't' => some '\t'
  | '\t' => some '\t'
  | 'n' => some '\n'
  | 'v' => some '\x0b'
  | 'f' => some '\x0c'
  | 'r' => some '\r'
  | 'e' => some '\x1b'
  | ' ' => some ' '
  | '"' => some '"'
  | '/' => some '/'
  | '\\' => some '\\'
  | 'N' => some '\u0085'
  | '_' => some '\u00a0'
  | 'L' => some '\u2028'
  | 'P' => some '\u2029'
  | _ => none

-- How many hexadecimal digits follow an escaped letter.
def escapeWidth? (c : Char) : Option Nat :=
  match c with
  | 'x' => some 2
  | 'u' => some 4
  | 'U' => some 8
  | _ => none

def charOfCode? (n : Nat) : Option Char := if n.isValidChar then some (Char.ofNat n) else none

-- Scans a text between quotes, behind the first one. A backslash at the end of a line joins the
-- next line without a space.
def scanDouble (gap : Gap) (acc : List Char) : Escape → List Cell → Option (String × List Cell)
  | _, [] => none
  | .digits left value, c :: rest =>
    match Text.hexValue? c.char with
    | none => none
    | some d =>
      if left ≤ 1 then
        match charOfCode? (16 * value + d) with
        | some decoded => scanDouble .none (decoded :: acc) .none rest
        | none => none
      else scanDouble .none acc (.digits (left - 1) (16 * value + d)) rest
  | .begun, c :: rest =>
    if isBreak c.char then scanDouble (.breaks [] []) acc .none rest
    else
      match escaped? c.char, escapeWidth? c.char with
      | some decoded, _ => scanDouble .none (decoded :: acc) .none rest
      | none, some width => scanDouble .none acc (.digits width 0) rest
      | none, none => none
  | .none, c :: rest =>
    if isBlank c.char then scanDouble (gap.blank c.char) acc .none rest
    else if isBreak c.char then scanDouble (gap.lineBreak c.char) acc .none rest
    else if atDocumentMark (c :: rest) then none
    else if c.char = '"' then some (String.ofList (gap.join acc).reverse, rest)
    else if c.char = '\\' then scanDouble .none (gap.join acc) .begun rest
    else scanDouble .none (c.char :: gap.join acc) .none rest

-- A plain scalar: its text, whether a line break followed it, and the cells behind it.
structure PlainScan where
  text : String
  brokenOff : Bool
  rest : List Cell

def isFlowIndicator (c : Char) : Bool :=
  c = ',' || c = '[' || c = ']' || c = '\x7b' || c = '\x7d'

-- A colon that would end a word inside brackets and is followed by an indicator.
def isStrayColon (c : Cell) (rest : List Cell) : Bool :=
  c.char = ':' &&
    match rest with
    | next :: _ => isFlowIndicator next.char || next.char = '?'
    | [] => false

-- Scans a plain scalar. Outside of brackets its further lines start at column `indent` or behind
-- it.
def scanPlain (inFlow : Bool) (indent : Nat) (gap : Gap) (acc : List Char) :
    List Cell → Option PlainScan
  | [] => some ⟨String.ofList acc.reverse, gap.isBreaks, []⟩
  | c :: rest =>
    if isBlank c.char then
      if gap.isBreaks && c.column < indent && c.char = '\t' then none
      else scanPlain inFlow indent (gap.blank c.char) acc rest
    else if isBreak c.char then scanPlain inFlow indent (gap.lineBreak c.char) acc rest
    else
      let done : Option PlainScan := some ⟨String.ofList acc.reverse, gap.isBreaks, c :: rest⟩
      if gap ≠ .none
          && ((!inFlow && c.column < indent) || atDocumentMark (c :: rest) || c.char = '#')
      then done
      else if inFlow && isStrayColon c rest then none
      else if (c.char = ':' && atGap rest) || (inFlow && isFlowIndicator c.char) then done
      else scanPlain inFlow indent .none (c.char :: gap.join acc) rest

inductive Chomping where
  | clip
  | strip
  | keep
deriving DecidableEq, Repr

def chomping? (c : Char) : Option Chomping :=
  match c with
  | '+' => some .keep
  | '-' => some .strip
  | _ => none

-- The header of a block: its chomping, its indentation if given, and the lines below.
structure BlockHeader where
  chomping : Chomping
  indent : Option Nat
  rest : List Cell

def takeChomping (cells : List Cell) : Chomping × List Cell :=
  match cells with
  | c :: rest =>
    match chomping? c.char with
    | some chomping => (chomping, rest)
    | none => (.clip, cells)
  | [] => (.clip, [])

def takeIndent (cells : List Cell) : Option (Option Nat × List Cell) :=
  match cells with
  | c :: rest =>
    if c.char = '0' then none
    else if c.char.isDigit then some (some (c.char.toNat - '0'.toNat), rest)
    else some (none, cells)
  | [] => some (none, [])

-- The indicators may come in either order.
def blockHeader? (cells : List Cell) : Option BlockHeader := do
  let (chomping, rest) := takeChomping cells
  let (indent, rest) ← takeIndent rest
  let (chomping, rest) := if chomping = .clip then takeChomping rest else (chomping, rest)
  let rest ← behindLine? rest
  return ⟨chomping, indent, rest⟩

-- Passes over blank lines to find how deep a block is indented: the line breaks passed, the deepest
-- column reached, and the cells that follow.
def leadingBreaks (deepest : Nat) (acc : List Char) :
    List Cell → Option (List Char × Nat × List Cell)
  | [] => some (acc, deepest, [])
  | c :: rest =>
    if c.char = ' ' then leadingBreaks deepest acc rest
    else if c.char = '\t' then none
    else if isBreak c.char then leadingBreaks (max deepest c.column) (acc ++ [c.char]) rest
    else some (acc, max deepest c.column, c :: rest)

-- The lines of a block as far as they were scanned: the text, the last character first, the break
-- behind its last line, the blank lines behind that, and whether its last line started with a
-- blank.
structure BlockScan where
  acc : List Char
  last : List Char
  blank : List Char
  indented : Bool

namespace BlockScan

-- Starts a line. In a folded block the break between two lines that start with no blank becomes a
-- space, or nothing when blank lines follow it.
def startLine (literal : Bool) (c : Char) (b : BlockScan) : BlockScan :=
  let lead :=
    if !literal && b.last = ['\n'] && !b.indented && !isBlank c then
      if b.blank.isEmpty then [' '] else b.blank
    else b.last ++ b.blank
  ⟨c :: (lead.reverse ++ b.acc), [], [], isBlank c⟩

def chomp (chomping : Chomping) (b : BlockScan) : String :=
  let ending :=
    match chomping with
    | .strip => []
    | .clip => b.last
    | .keep => b.last ++ b.blank
  String.ofList (b.acc.reverse ++ ending)

end BlockScan

def scanBlockLines (literal : Bool) (indent : Nat) (inLine : Bool) (b : BlockScan) :
    List Cell → Option (BlockScan × List Cell)
  | [] => some (b, [])
  | c :: rest =>
    if inLine then
      if isBreak c.char then scanBlockLines literal indent false { b with last := [c.char] } rest
      else scanBlockLines literal indent true { b with acc := c.char :: b.acc } rest
    else if c.column < indent && c.char = ' ' then scanBlockLines literal indent false b rest
    else if c.column < indent && c.char = '\t' then none
    else if isBreak c.char then
      scanBlockLines literal indent false { b with blank := b.blank ++ [c.char] } rest
    else if c.column = indent then
      scanBlockLines literal indent true (b.startLine literal c.char) rest
    else some (b, c :: rest)

-- Scans a block behind its indicator. `base` is the least column that is deeper than the node the
-- block stands in.
def scanBlock (literal : Bool) (base : Nat) (cells : List Cell) : Option (String × List Cell) := do
  let header ← blockHeader? cells
  match header.indent with
  | some more =>
    let indent := base - 1 + more
    let (b, rest) ← scanBlockLines literal indent false ⟨[], [], [], false⟩ header.rest
    return (b.chomp header.chomping, rest)
  | none =>
    let (breaks, deepest, rest) ← leadingBreaks 0 [] header.rest
    let indent := max (max deepest base) 1
    let (b, rest) ← scanBlockLines literal indent false ⟨[], [], breaks, false⟩ rest
    return (b.chomp header.chomping, rest)

end ApiLowering.Yaml
