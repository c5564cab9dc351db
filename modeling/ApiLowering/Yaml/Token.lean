import ApiLowering.Yaml.Scalar

/-!
The tokens of a YAML text. Where blocks begin and end is found from the columns of their lines; a
node turns out to be a key when a colon follows it on its line, and the token that says so is put
in front of it then.
-/

set_option autoImplicit false

namespace ApiLowering.Yaml

inductive Token where
  | version (major minor : Nat)
  | tagHandle (handle lead : String)
  | documentStart
  | documentEnd
  | openBlockList
  | openBlockMap
  | closeBlock
  | openList
  | closeList
  | openMap
  | closeMap
  | item
  | comma
  | key
  | value
  | anchor (name : String)
  | alias (name : String)
  | tag (handle suffix : String)
  | scalar (text : String) (isPlain : Bool)
deriving DecidableEq, Repr

-- A node that may turn out to be a key: the number of tokens before it, its place, and whether it
-- must be one because nothing else may stand at its column.
structure PossibleKey where
  position : Nat
  cell : Cell
  required : Bool
deriving DecidableEq, Repr

structure Lexer where
  -- The tokens found, the last one first.
  tokens : List Token
  count : Nat
  -- The columns of the open blocks, the innermost first.
  indents : List Nat
  -- The possible key of each open bracket, the innermost first, and of the blocks around them.
  keys : List (Option PossibleKey)
  keyAllowed : Bool
deriving Repr

namespace Lexer

def start : Lexer := ⟨[], 0, [], [none], true⟩

def inFlow (l : Lexer) : Bool := 1 < l.keys.length

-- The least column that is deeper than the innermost block.
def base (l : Lexer) : Nat :=
  match l.indents with
  | [] => 0
  | column :: _ => column + 1

def emit (token : Token) (l : Lexer) : Lexer :=
  { l with tokens := token :: l.tokens, count := l.count + 1 }

-- Puts a token behind the first `position` ones.
def emitAt (position : Nat) (token : Token) (l : Lexer) : Lexer :=
  let behind := l.count - position
  { l with
    tokens := l.tokens.take behind ++ token :: l.tokens.drop behind
    count := l.count + 1 }

def allowKey (keyAllowed : Bool) (l : Lexer) : Lexer := { l with keyAllowed }

-- Closes the blocks that start at column `base` or behind it; brackets keep them open.
def closeBlocks (base : Nat) (l : Lexer) : Lexer :=
  if l.inFlow then l
  else
    let closed := l.indents.takeWhile fun column => base ≤ column
    { l with
      tokens := List.replicate closed.length .closeBlock ++ l.tokens
      count := l.count + closed.length
      indents := l.indents.drop closed.length }

def openBlock (column position : Nat) (token : Token) (l : Lexer) : Lexer :=
  if l.inFlow || column < l.base then l
  else { l.emitAt position token with indents := column :: l.indents }

-- A key that was not to be: an error when it was required.
def forget? : Option PossibleKey → Option Unit
  | some key => if key.required then none else some ()
  | none => some ()

def setKey (key : Option PossibleKey) (l : Lexer) : Lexer := { l with keys := key :: l.keys.tail }

def currentKey (l : Lexer) : Option PossibleKey := l.keys.head?.bind id

def dropKey? (l : Lexer) : Option Lexer := do
  forget? l.currentKey
  return l.setKey none

def saveKey? (c : Cell) (l : Lexer) : Option Lexer :=
  if l.keyAllowed then do
    let l ← l.dropKey?
    let required := !l.inFlow && l.indents.head? == some c.column
    return l.setKey (some ⟨l.count, c, required⟩)
  else some l

-- A key stays on its line and within so many characters.
def keyLength : Nat := 1024

def isStale (c : Cell) (key : PossibleKey) : Bool :=
  key.cell.line < c.line || key.cell.index + keyLength < c.index

-- Gives up the possible keys that are too far from the cell reached.
def dropStale? (c : Cell) (l : Lexer) : Option Lexer := do
  let keys ← l.keys.mapM fun key =>
    if key.any (isStale c) then (forget? key).map fun _ => none else some key
  return { l with keys }

def blockItem? (c : Cell) (l : Lexer) : Option Lexer :=
  if l.inFlow then do
    let l ← l.dropKey?
    return (l.allowKey true).emit .item
  else if l.keyAllowed then do
    let l ← (l.openBlock c.column l.count .openBlockList).dropKey?
    return (l.allowKey true).emit .item
  else none

-- A key that is announced by a question mark.
def explicitKey? (c : Cell) (l : Lexer) : Option Lexer :=
  if l.inFlow then do
    let l ← l.dropKey?
    return (l.allowKey false).emit .key
  else if l.keyAllowed then do
    let l ← (l.openBlock c.column l.count .openBlockMap).dropKey?
    return (l.allowKey true).emit .key
  else none

-- A colon makes the node before it a key, if that is possible.
def colon? (c : Cell) (l : Lexer) : Option Lexer :=
  match l.currentKey with
  | some key =>
    let l := l.emitAt key.position .key
    let l := l.openBlock key.cell.column key.position .openBlockMap
    some (((l.setKey none).allowKey false).emit .value)
  | none =>
    if l.inFlow then some ((l.allowKey false).emit .value)
    else if l.keyAllowed then
      some (((l.openBlock c.column l.count .openBlockMap).allowKey true).emit .value)
    else none

def openBracket? (c : Cell) (token : Token) (l : Lexer) : Option Lexer := do
  let l ← l.saveKey? c
  return ({ l with keys := none :: l.keys }.allowKey true).emit token

def closeBracket? (token : Token) (l : Lexer) : Option Lexer := do
  let l ← l.dropKey?
  let l := if l.inFlow then { l with keys := l.keys.tail } else l
  return (l.allowKey false).emit token

def comma? (l : Lexer) : Option Lexer := do
  let l ← l.dropKey?
  return (l.allowKey true).emit .comma

def documentMark? (token : Token) (l : Lexer) : Option Lexer := do
  let l ← (l.closeBlocks 0).dropKey?
  return (l.allowKey false).emit token

end Lexer

def isWordChar (c : Char) : Bool := c.isAlphanum || c = '_' || c = '-'

def textOf (cells : List Cell) : String := String.ofList (cells.map Cell.char)

def scanName? (cells : List Cell) : Option (String × List Cell) :=
  let name := cells.takeWhile fun c => isWordChar c.char
  let rest := cells.dropWhile fun c => isWordChar c.char
  let ends := atGap rest || rest.head?.any fun c => "?:,]\x7d%@`".toList.contains c.char
  if name.isEmpty || !ends then none else some (textOf name, rest)

def isTagChar (verbatim : Bool) (c : Char) : Bool :=
  isWordChar c || ";/?:@&=+$.%!~*'()".toList.contains c || (verbatim && ",[]".toList.contains c)

def hexPair? (high low : Char) : Option Nat := do
  return 16 * (← Text.hexValue? high) + (← Text.hexValue? low)

-- The characters of a tag, with the escaped bytes in place of their escape sequences.
def tagBytes? : List Char → Option (List UInt8)
  | [] => some []
  | '%' :: high :: low :: rest => do
    let byte ← hexPair? high low
    return UInt8.ofNat byte :: (← tagBytes? rest)
  | c :: rest => if c = '%' then none else (tagBytes? rest).map (c.toString.toUTF8.toList ++ ·)

def unescapeTag? (cs : List Char) : Option String := do
  String.fromUTF8? ⟨(← tagBytes? cs).toArray⟩

-- The run of characters that a tag may hold.
def scanTagText? (verbatim : Bool) (cells : List Cell) : Option (String × List Cell) := do
  let text := cells.takeWhile fun c => isTagChar verbatim c.char
  let decoded ← unescapeTag? (text.map Cell.char)
  return (decoded, cells.dropWhile fun c => isTagChar verbatim c.char)

-- A handle: an exclamation mark, or a word between two of them. The word is given back when the
-- second mark is missing.
structure HandleScan where
  handle : String
  word : String
  rest : List Cell

def scanHandle? (cells : List Cell) : Option HandleScan :=
  match cells with
  | [] => none
  | mark :: more =>
    if mark.char = '!' then
      let word := textOf (more.takeWhile fun c => isWordChar c.char)
      match more.dropWhile fun c => isWordChar c.char with
      | [] => some ⟨"!", word, []⟩
      | c :: rest =>
        if c.char = '!' then some ⟨"!" ++ word ++ "!", "", rest⟩ else some ⟨"!", word, c :: rest⟩
    else none

-- A tag behind its exclamation mark: given in full between angle brackets, or by a handle and a
-- suffix. A mark alone has no handle.
def scanTag? (inFlow : Bool) (cells : List Cell) : Option (Token × List Cell) := do
  let (token, rest) ←
    match cells with
    | mark :: next :: more =>
      if next.char = '<' then do
        let (text, rest) ← scanTagText? true more
        match rest with
        | c :: rest =>
          if c.char = '>' && !text.isEmpty then pure (Token.tag "" text, rest) else none
        | [] => none
      else do
        let scan ← scanHandle? (mark :: next :: more)
        let (text, rest) ← scanTagText? false scan.rest
        let suffix := scan.word ++ text
        if suffix.isEmpty then
          if scan.handle = "!" then pure (Token.tag "" "!", rest) else none
        else pure (Token.tag scan.handle suffix, rest)
    | _ => pure (Token.tag "" "!", cells.tail)
  let ends := atGap rest || (inFlow && rest.head?.any fun c => c.char = ',')
  if ends then return (token, rest) else none

def scanNumber? (cells : List Cell) : Option (Nat × List Cell) :=
  let digits := cells.takeWhile fun c => c.char.isDigit
  if digits.isEmpty || 9 < digits.length then none
  else
    some (digits.foldl (fun n c => 10 * n + (c.char.toNat - '0'.toNat)) 0,
      cells.drop digits.length)

def skipBlanks (cells : List Cell) : List Cell := cells.dropWhile fun c => isBlank c.char

def scanDirective? (cells : List Cell) : Option (Token × List Cell) := do
  let name := textOf (cells.takeWhile fun c => isWordChar c.char)
  let rest := cells.dropWhile fun c => isWordChar c.char
  if !atGap rest then none
  else
    match name with
    | "YAML" => do
      let (major, rest) ← scanNumber? (skipBlanks rest)
      match rest with
      | dot :: rest => do
        let (minor, rest) ← scanNumber? rest
        if dot.char = '.' then return (.version major minor, ← behindLine? rest) else none
      | [] => none
    | "TAG" => do
      let scan ← scanHandle? (skipBlanks rest)
      if scan.word.isEmpty && atGap scan.rest && !scan.rest.isEmpty then
        let (lead, rest) ← scanTagText? true (skipBlanks scan.rest)
        if lead.isEmpty || !atGap rest then none
        else return (.tagHandle scan.handle lead, ← behindLine? rest)
      else none
    | _ => none

-- Passes over blanks, comments and line breaks; a line break lets a key start, outside of brackets.
def toNextToken (inFlow keyAllowed inComment : Bool) : List Cell → Bool × List Cell
  | [] => (keyAllowed, [])
  | c :: rest =>
    if isBreak c.char then toNextToken inFlow (keyAllowed || !inFlow) false rest
    else if inComment || c.char = ' ' || (c.char = '\t' && (inFlow || !keyAllowed))
        || (c.char = byteOrderMark && c.column = 0) then
      toNextToken inFlow keyAllowed inComment rest
    else if c.char = '#' then toNextToken inFlow keyAllowed true rest
    else (keyAllowed, c :: rest)

-- Characters that a plain scalar starts with under conditions or never.
def indicators : List Char := "-?:,[]\x7b\x7d#&*!|>'\"%@`".toList

-- Whether a plain scalar starts with the character, which no other token starts with here.
def startsPlain (inFlow : Bool) (c : Char) (rest : List Cell) : Bool :=
  (!isBlank c && !indicators.contains c)
    || (c = '-' && !(rest.head?.any fun next => isBlank next.char))
    || (!inFlow && (c = '?' || c = ':') && !atGap rest)

namespace Lexer

def node? (c : Cell) (scan : Option (Token × List Cell)) (l : Lexer) :
    Option (Lexer × List Cell) := do
  let l ← l.saveKey? c
  let (token, rest) ← scan
  return ((l.allowKey false).emit token, rest)

def next? (c : Cell) (rest : List Cell) (l : Lexer) : Option (Lexer × List Cell) :=
  let quoted (scan : Option (String × List Cell)) : Option (Token × List Cell) :=
    scan.map fun s => (.scalar s.1 false, s.2)
  if c.column = 0 && c.char = '%' then do
    let l ← (l.closeBlocks 0).dropKey?
    let (token, rest) ← scanDirective? rest
    return ((l.allowKey false).emit token, rest)
  else if atDocumentMark (c :: rest) then
    let mark := if c.char = '-' then Token.documentStart else Token.documentEnd
    (l.documentMark? mark).map fun l => (l, rest.drop 2)
  else
    let here (result : Option Lexer) : Option (Lexer × List Cell) := result.map fun l => (l, rest)
    let inFlow := l.inFlow
    match c.char with
    | '[' => here (l.openBracket? c .openList)
    | '\x7b' => here (l.openBracket? c .openMap)
    | ']' => here (l.closeBracket? .closeList)
    | '\x7d' => here (l.closeBracket? .closeMap)
    | ',' => here l.comma?
    | '*' => l.node? c ((scanName? rest).map fun s => (.alias s.1, s.2))
    | '&' => l.node? c ((scanName? rest).map fun s => (.anchor s.1, s.2))
    | '!' => l.node? c (scanTag? inFlow (c :: rest))
    | '\'' => l.node? c (quoted (scanSingle .none [] rest))
    | '"' => l.node? c (quoted (scanDouble .none [] .none rest))
    | char =>
      if char = '-' && atGap rest then here (l.blockItem? c)
      else if char = '?' && (inFlow || atGap rest) then here (l.explicitKey? c)
      else if char = ':' && (inFlow || atGap rest) then here (l.colon? c)
      else if (char = '|' || char = '>') && !inFlow then do
        let l ← l.dropKey?
        let (text, rest) ← scanBlock (char = '|') l.base rest
        return ((l.allowKey true).emit (.scalar text false), rest)
      else if startsPlain inFlow char rest then do
        let l ← l.saveKey? c
        let scan ← scanPlain inFlow l.base .none [] (c :: rest)
        return ((l.allowKey scan.brokenOff).emit (.scalar scan.text true), scan.rest)
      else none

-- The end of the text closes every block.
def finish? (l : Lexer) : Option (List Token) := do
  let l ← (l.closeBlocks 0).dropKey?
  return l.tokens.reverse

def runWithin : Nat → Lexer → List Cell → Option (List Token)
  | 0, _, _ => none
  | fuel + 1, l, cells =>
    let (keyAllowed, cells) := toNextToken l.inFlow l.keyAllowed false cells
    let l := l.allowKey keyAllowed
    match cells with
    | [] => l.finish?
    | c :: rest => do
      let l ← l.dropStale? c
      let (l, rest) ← (l.closeBlocks (c.column + 1)).next? c rest
      runWithin fuel l rest

end Lexer

-- The tokens of a text; a text has no more of them than characters.
def tokens? (cells : List Cell) : Option (List Token) :=
  Lexer.runWithin (cells.length + 1) Lexer.start cells

end ApiLowering.Yaml
