import ApiLowering.Json.Basic
import ApiLowering.Tree.PlainScalar
import ApiLowering.Yaml.Cell

/-!
The block form of a value: an entry or an item a line, nested ones indented by two spaces, and the
items of a list no deeper than the key in front of them. A text is written so that it reads back as
that text: as it is where nothing else could be meant, otherwise in quotes or as a block of lines.
-/

set_option autoImplicit false

namespace ApiLowering.Yaml

inductive ScalarStyle where
  | plain
  | single
  | double
  | literal
deriving DecidableEq, Repr

-- Words that some readers take for truth values, for a number or for nothing, in any case.
def loadedWords : List String :=
  ["y", "yes", "n", "no", "on", "off", "true", "false", "null", "nil", "~", "nan"]

-- A number by its form, of any size.
def looksNumeric (cs : List Char) : Bool :=
  (PlainScalar.integer? cs).isSome
    || (PlainScalar.decimal? false (PlainScalar.unsigned cs)).isSome

def isAmbiguous (s : String) : Bool :=
  let other :=
    match PlainScalar.resolve s with
    | some (.text _) => false
    | _ => true
  other || looksNumeric s.toList || loadedWords.contains (Text.lowerAscii s)

def isVisible (c : Char) : Bool :=
  let n := c.toNat
  n = 0x0A || (0x20 ≤ n ∧ n ≤ 0x7E) || (0xA0 ≤ n ∧ n ≤ 0xFFFD ∧ n ≠ 0xFEFF)

def gapNext (rest : List Char) : Bool :=
  match rest with
  | [] => true
  | c :: _ => isBlank c || isBreak c

-- Whether the first character has a meaning of its own there.
def opensIndicator : List Char → Bool
  | [] => false
  | c :: rest =>
    "#,[]\x7b\x7d&*!|>'\"%@".toList.contains c || c.toNat = 0x60
      || ((c = '?' || c = ':' || c = '-') && gapNext rest)

-- Whether a later character has a meaning of its own: a colon before a gap, a number sign behind
-- one.
def holdsIndicator : (behindGap : Bool) → List Char → Bool
  | _, [] => false
  | behindGap, c :: rest =>
    (c = ':' && gapNext rest) || (c = '#' && behindGap)
      || holdsIndicator (isBlank c || isBreak c) rest

def opensDocumentMark (cs : List Char) : Bool :=
  Text.startsWith "---".toList cs || Text.startsWith "...".toList cs

-- Whether a character of the first kind stands right before one of the second.
def holdsPair (first second : Char → Bool) : List Char → Bool
  | c :: d :: rest => (first c && second d) || holdsPair first second (d :: rest)
  | _ => false

def isSpace (c : Char) : Bool := c = ' '

-- Texts that only escapes can hold on lines: a space before a line break would be lost.
def needsEscapes (cs : List Char) : Bool :=
  !cs.all isVisible || holdsPair isSpace isBreak cs

def allowsPlain (cs : List Char) : Bool :=
  !(opensDocumentMark cs || opensIndicator cs || holdsIndicator (gapNext cs) cs.tail
    || cs.head?.any isSpace || cs.getLast?.any isSpace || cs.any isBreak || needsEscapes cs)

def allowsSingle (cs : List Char) : Bool := !(needsEscapes cs || holdsPair isBreak isSpace cs)

def allowsLiteral (cs : List Char) : Bool := !(needsEscapes cs || cs.getLast?.any isSpace)

-- The style of a text: lines as a block, ambiguous texts in quotes.
def styleOf (s : String) : ScalarStyle :=
  let cs := s.toList
  if cs.contains '\n' then (if allowsLiteral cs then .literal else .double)
  else if !isAmbiguous s && allowsPlain cs then .plain
  else if allowsSingle cs then .single
  else .double

def spaces (n : Nat) : List Char := List.replicate n ' '

-- Indentation in front of every line that is not empty, the first one if it starts `fresh`.
def indentLines (indent : Nat) : (fresh : Bool) → List Char → List Char
  | _, [] => []
  | fresh, c :: rest =>
    if isBreak c then c :: indentLines indent true rest
    else (if fresh then spaces indent else []) ++ c :: indentLines indent false rest

def singleQuoted (indent : Nat) (cs : List Char) : String :=
  let lines := indentLines indent false (Text.expand '\'' ['\'', '\''] cs)
  let ending := if cs.getLast?.any isBreak then spaces indent else []
  "'" ++ String.ofList (lines ++ ending) ++ "'"

def paddedCode (width n : Nat) : String :=
  let digits := (Nat.toDigits 16 n).map Char.toUpper
  String.ofList (List.replicate (width - digits.length) '0' ++ digits)

def escapeLetter? (c : Char) : Option Char :=
  match c.toNat with
  | 0x00 => some '0'
  | 0x07 => some 'a'
  | 0x08 => some 'b'
  | 0x09 => some 't'
  | 0x0A => some 'n'
  | 0x0B => some 'v'
  | 0x0C => some 'f'
  | 0x0D => some 'r'
  | 0x1B => some 'e'
  | 0x22 => some '"'
  | 0x5C => some '\\'
  | 0x85 => some 'N'
  | 0x2028 => some 'L'
  | 0x2029 => some 'P'
  | _ => none

def escape (c : Char) : String :=
  match escapeLetter? c with
  | some letter => "\\" ++ letter.toString
  | none =>
    let n := c.toNat
    if isVisible c then c.toString
    else if n ≤ 0xFF then "\\x" ++ paddedCode 2 n
    else if n ≤ 0xFFFF then "\\u" ++ paddedCode 4 n
    else "\\U" ++ paddedCode 8 n

def doubleQuoted (cs : List Char) : String := "\"" ++ String.join (cs.map escape) ++ "\""

-- Which line breaks at the end of a block belong to the text: none, one or all.
def chompingMark (cs : List Char) : String :=
  match cs.reverse with
  | [] => "-"
  | [c] => if isBreak c then "+" else "-"
  | c :: d :: _ => if !isBreak c then "-" else if isBreak d then "+" else ""

-- The width of the indentation is told where the text itself starts with a gap.
def indentMark (cs : List Char) : String :=
  if cs.head?.any fun c => isSpace c || isBreak c then "2" else ""

def literal (indent : Nat) (cs : List Char) : String :=
  let lines := String.ofList (indentLines indent true cs)
  let ending := if cs.getLast?.any isBreak then "" else "\n"
  "|" ++ indentMark cs ++ chompingMark cs ++ "\n" ++ lines ++ ending

def textLines (indent : Nat) (s : String) : String :=
  match styleOf s with
  | .plain => s ++ "\n"
  | .single => singleQuoted indent s.toList ++ "\n"
  | .double => doubleQuoted s.toList ++ "\n"
  | .literal => literal indent s.toList

def keyText (key : String) : String :=
  match styleOf key with
  | .plain => key
  | .single => if key.toList.any isBreak then doubleQuoted key.toList else singleQuoted 0 key.toList
  | .double | .literal => doubleQuoted key.toList

def scalarLines (indent : Nat) : Json → String
  | .null => "null\n"
  | .bool b => if b then "true\n" else "false\n"
  | .number n => n.render ++ "\n"
  | .text s => textLines indent s
  | .list _ => "[]\n"
  | .object _ => "\x7b\x7d\n"

-- Lines at an indentation behind a lead that ends with the indentation of the first; a word of its
-- own stands for no lines.
def block (lead none : String) (indent : Nat) (lines : List String) : String :=
  if lines.isEmpty then none
  else lead ++ (String.ofList (spaces indent)).intercalate lines

def newLine (indent : Nat) : String := "\n" ++ String.ofList (spaces indent)

mutual
def afterDash (indent : Nat) : Json → String
  | .list all => block " " " []\n" (indent + 2) (items (indent + 2) all)
  | .object all => block " " " \x7b\x7d\n" (indent + 2) (entries (indent + 2) all)
  | scalar => " " ++ scalarLines (indent + 2) scalar

def afterColon (indent : Nat) : Json → String
  | .list all => block (newLine indent) " []\n" indent (items indent all)
  | .object all =>
    block (newLine (indent + 2)) " \x7b\x7d\n" (indent + 2) (entries (indent + 2) all)
  | scalar => " " ++ scalarLines (indent + 2) scalar

def items (indent : Nat) : List Json → List String
  | [] => []
  | item :: rest => ("-" ++ afterDash indent item) :: items indent rest

def entries (indent : Nat) : List (String × Json) → List String
  | [] => []
  | (key, value) :: rest =>
    (keyText key ++ ":" ++ afterColon indent value) :: entries indent rest
end

def render : Json → String
  | .list all => block "" "[]\n" 0 (items 0 all)
  | .object all => block "" "\x7b\x7d\n" 0 (entries 0 all)
  | scalar => scalarLines 2 scalar

end ApiLowering.Yaml
