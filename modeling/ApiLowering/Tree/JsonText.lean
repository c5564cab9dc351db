import ApiLowering.Tree.JsonNumber
import ApiLowering.Text.Basic

/-!
The tree of a JSON text. Tokens are cut from the text first; then a stack of open lists and maps
takes one token after another. The first token that does not fit, or the end of the text, leaves its
mark where it was met.
-/

set_option autoImplicit false

namespace ApiLowering.JsonText

inductive Token where
  | text (value : String)
  | scalar (value : Scalar)
  | brokenText (flaw : Flaw)
  | broken (flaw : Flaw)
  | openList
  | closeList
  | openMap
  | closeMap
  | comma
  | colon
deriving Repr

structure Scanned where
  result : Except Flaw String
  rest : List Char

-- Four hexadecimal digits; the text is truncated when fewer than four bytes are left.
def fourHex (cs : List Char) : Except Fault Nat :=
  match cs.take 4 |>.mapM Text.hexValue? with
  | some [a, b, c, d] => .ok (((a * 16 + b) * 16 + c) * 16 + d)
  | _ => .error (if (String.ofList (cs.take 4)).utf8ByteSize < 4 then .truncated else .malformed)

def simpleEscape? (c : Char) : Option Char :=
  match c with
  | '"' => some '"'
  | '\\' => some '\\'
  | '/' => some '/'
  | 'b' => some '\x08'
  | 'f' => some '\x0c'
  | 'n' => some '\n'
  | 'r' => some '\r'
  | 't' => some '\t'
  | _ => none

-- A failure behind an unpaired surrogate counts only for a reader that passes over the text.
def failure (unpaired : Bool) (fault : Fault) (rest : List Char) : Scanned :=
  if unpaired then ⟨.error ⟨.malformed, some fault⟩, rest⟩
  else ⟨.error ⟨fault, some fault⟩, rest⟩

-- Scans a quoted text behind its opening quote. `high` is a leading surrogate that waits for its
-- partner, `unpaired` tells that some surrogate had none, and `acc` holds the characters read, the
-- last one first.
def scanText (high : Option Nat) (unpaired : Bool) (acc : List Char) (cs : List Char) : Scanned :=
  let alone := unpaired || high.isSome
  match cs with
  | [] => failure unpaired .truncated []
  | c :: rest =>
    if c = '"' then
      if alone then ⟨.error ⟨.malformed, none⟩, rest⟩ else ⟨.ok (String.ofList acc.reverse), rest⟩
    else if c = '\\' then
      match rest with
      | [] => failure unpaired .truncated []
      | e :: more =>
        if e = 'u' then
          match fourHex more with
          | .error fault => failure unpaired fault more
          | .ok n =>
            let behind := more.drop 4
            match high with
            | some h =>
              if 0xDC00 ≤ n ∧ n ≤ 0xDFFF then
                let code := 0x10000 + (h - 0xD800) * 0x400 + (n - 0xDC00)
                scanText none unpaired (Char.ofNat code :: acc) behind
              else scanText none true acc behind
            | none =>
              if 0xD800 ≤ n ∧ n ≤ 0xDBFF then scanText (some n) unpaired acc behind
              else if 0xDC00 ≤ n ∧ n ≤ 0xDFFF then scanText none true acc behind
              else scanText none unpaired (Char.ofNat n :: acc) behind
        else
          match simpleEscape? e with
          | some plain => scanText none alone (plain :: acc) more
          | none => failure alone .malformed more
    else if c.toNat < 32 then failure alone .malformed rest
    else scanText none alone (c :: acc) rest
termination_by cs.length

def isSpace (c : Char) : Bool := c = ' ' || c = '\n' || c = '\r' || c = '\t'

def scanWord : List Char → List Char → Except Fault (List Char)
  | [], rest => .ok rest
  | _ :: _, [] => .error .truncated
  | w :: word, c :: rest => if w = c then scanWord word rest else .error .malformed

def wordToken (word : String) (value : Scalar) (cs : List Char) : Token × List Char :=
  match scanWord word.toList cs with
  | .ok rest => (.scalar value, rest)
  | .error fault => (.broken ⟨fault, some fault⟩, [])

-- The token at the start of a text that does not start with white space.
def nextToken (c : Char) (rest : List Char) : Token × List Char :=
  match c with
  | '[' => (.openList, rest)
  | ']' => (.closeList, rest)
  | '\x7b' => (.openMap, rest)
  | '\x7d' => (.closeMap, rest)
  | ',' => (.comma, rest)
  | ':' => (.colon, rest)
  | '"' =>
    let scanned := scanText none false [] rest
    match scanned.result with
    | .ok s => (.text s, scanned.rest)
    | .error flaw => (.brokenText flaw, scanned.rest)
  | 't' => wordToken "true" (.bool true) (c :: rest)
  | 'f' => wordToken "false" (.bool false) (c :: rest)
  | 'n' => wordToken "null" .null (c :: rest)
  | _ =>
    if c.isDigit || c = '-' then
      match readNumber (c :: rest) with
      | (.ok n, rest) => (.scalar (.number n), rest)
      | (.error flaw, rest) => (.broken flaw, rest)
    else (.broken ⟨.malformed, some .malformed⟩, rest)

-- The tokens of a text, up to `fuel` of them; a text has no more tokens than characters.
def tokensWithin : Nat → List Char → List Token
  | 0, _ => []
  | fuel + 1, cs =>
    match cs.dropWhile isSpace with
    | [] => []
    | c :: rest =>
      let next := nextToken c rest
      next.1 :: tokensWithin fuel next.2

def tokens (cs : List Char) : List Token := tokensWithin cs.length cs

-- An open list or map with what it holds so far, the last first.
inductive Frame where
  | list (items : List Tree)
  | map (entries : List (Key × Tree)) (key : Option Key)

def Frame.node (stop : Option Fault) : Frame → Tree
  | .list items => .list items.reverse stop
  | .map entries _ => .map entries.reverse stop

inductive Expected where
  | value
  | valueOrClose
  | separatorOrClose
  | key
  | keyOrClose
  | colon
  | nothing
deriving DecidableEq, Repr

-- Deeper nesting is refused by a reader.
def depthLimit : Nat := 127

-- The state of the builder: the open frames, innermost first, or the finished root.
structure Builder where
  frames : List Frame
  root : Option Tree
  expected : Expected

namespace Builder

def empty : Builder := ⟨[], none, .value⟩

def add (b : Builder) (node : Tree) : Builder :=
  match b.frames with
  | [] => ⟨[], some node, .nothing⟩
  | .list items :: outer => ⟨.list (node :: items) :: outer, b.root, .separatorOrClose⟩
  | .map entries key :: outer =>
    ⟨.map ((key.getD .unreadable, node) :: entries) none :: outer, b.root, .separatorOrClose⟩

def limited (depth : Nat) (node : Tree) : Tree :=
  if depthLimit < depth then .flawed ⟨.malformed, node.skipFault⟩ else node

def close (b : Builder) (stop : Option Fault) : Builder :=
  match b.frames with
  | [] => b
  | frame :: outer =>
    add { b with frames := outer } (limited (outer.length + 1) (Frame.node stop frame))

def closeAll : Nat → Builder → Builder
  | 0, b => b
  | more + 1, b => if b.frames.isEmpty then b else closeAll more (b.close none)

def fail (b : Builder) (flaw : Flaw) : Reading :=
  let atValue (b : Builder) : Builder := b.add (.flawed flaw)
  let marked :=
    match b.expected with
    | .value | .valueOrClose | .colon => atValue b
    | _ => if b.frames.isEmpty then b else b.close (some flaw.read)
  let finished := closeAll marked.frames.length marked
  match b.root with
  | some root => ⟨root, some flaw.read⟩
  | none => ⟨finished.root.getD (.flawed flaw), none⟩

def take (b : Builder) (token : Token) : Except Flaw Builder :=
  let misplaced : Except Flaw Builder := .error ⟨.malformed, some .malformed⟩
  match b.expected with
  | .value | .valueOrClose =>
    match token with
    | .text s => .ok (b.add (.scalar (.text s)))
    | .scalar s => .ok (b.add (.scalar s))
    | .brokenText flaw | .broken flaw =>
      match flaw.skip with
      | none => .ok (b.add (.flawed flaw))
      | some _ => .error flaw
    | .openList => .ok { b with frames := .list [] :: b.frames, expected := .valueOrClose }
    | .openMap => .ok { b with frames := .map [] none :: b.frames, expected := .keyOrClose }
    | .closeList => if b.expected = .valueOrClose then .ok (b.close none) else misplaced
    | _ => misplaced
  | .separatorOrClose =>
    match token, b.frames with
    | .comma, .list _ :: _ => .ok { b with expected := .value }
    | .comma, .map _ _ :: _ => .ok { b with expected := .key }
    | .closeList, .list _ :: _ => .ok (b.close none)
    | .closeMap, .map _ _ :: _ => .ok (b.close none)
    | _, _ => misplaced
  | .key | .keyOrClose =>
    let named (key : Key) : Except Flaw Builder :=
      match b.frames with
      | .map entries _ :: outer =>
        .ok { b with frames := .map entries (some key) :: outer, expected := .colon }
      | _ => misplaced
    match token with
    | .text s => named (.text s)
    | .brokenText flaw =>
      match flaw.skip with
      | none => named .unreadable
      | some _ => .error flaw
    | .closeMap => if b.expected = .keyOrClose then .ok (b.close none) else misplaced
    | _ => misplaced
  | .colon =>
    match token with
    | .colon => .ok { b with expected := .value }
    | _ => misplaced
  | .nothing => misplaced

def run : Builder → List Token → Reading
  | b, [] =>
    match b.root with
    | some root => ⟨root, none⟩
    | none => b.fail ⟨.truncated, some .truncated⟩
  | b, token :: rest =>
    match b.take token with
    | .ok next => run next rest
    | .error flaw => b.fail flaw

end Builder

def read (text : String) : Reading := Builder.run Builder.empty (tokens text.toList)

end ApiLowering.JsonText
