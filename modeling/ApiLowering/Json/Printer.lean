import ApiLowering.Json.Basic
import ApiLowering.Text.Basic

/-!
The text of a JSON value, on one line or indented by two spaces. Entries are written in their order.
-/

set_option autoImplicit false

namespace ApiLowering.Json

-- Quotes, backslashes and control characters are escaped, everything else is written as it is.
def escape (c : Char) : String :=
  if c = '"' then "\\\""
  else if c = '\\' then "\\\\"
  else if c = '\n' then "\\n"
  else if c = '\r' then "\\r"
  else if c = '\t' then "\\t"
  else if c.toNat = 8 then "\\b"
  else if c.toNat = 12 then "\\f"
  else if c.toNat < 16 then "\\u000" ++ Text.hexDigits c.toNat
  else if c.toNat < 32 then "\\u00" ++ Text.hexDigits c.toNat
  else c.toString

def quote (s : String) : String := "\"" ++ String.join (s.toList.map escape) ++ "\""

def renderScalar : Json → String
  | .null => "null"
  | .bool b => if b then "true" else "false"
  | .number n => n.render
  | .text s => quote s
  | .list _ => "[]"
  | .object _ => "\x7b\x7d"

mutual
def render : Json → String
  | .list items => "[" ++ ",".intercalate (renderList items) ++ "]"
  | .object entries => "\x7b" ++ ",".intercalate (renderEntries entries) ++ "\x7d"
  | scalar => renderScalar scalar

def renderList : List Json → List String
  | [] => []
  | item :: rest => render item :: renderList rest

def renderEntries : List (String × Json) → List String
  | [] => []
  | (key, value) :: rest => (quote key ++ ":" ++ render value) :: renderEntries rest
end

def indent (depth : Nat) : String := "\n" ++ String.ofList (List.replicate (2 * depth) ' ')

-- Lines between brackets, one level deeper than the brackets; nothing between them when empty.
def bracketed (opening closing : String) (depth : Nat) (lines : List String) : String :=
  if lines.isEmpty then opening ++ closing
  else
    opening ++ indent (depth + 1) ++ ("," ++ indent (depth + 1)).intercalate lines
      ++ indent depth ++ closing

mutual
def renderIndented (depth : Nat) : Json → String
  | .list items => bracketed "[" "]" depth (indentedList (depth + 1) items)
  | .object entries => bracketed "\x7b" "\x7d" depth (indentedEntries (depth + 1) entries)
  | scalar => renderScalar scalar

def indentedList (depth : Nat) : List Json → List String
  | [] => []
  | item :: rest => renderIndented depth item :: indentedList depth rest

def indentedEntries (depth : Nat) : List (String × Json) → List String
  | [] => []
  | (key, value) :: rest =>
    (quote key ++ ": " ++ renderIndented depth value) :: indentedEntries depth rest
end

end ApiLowering.Json
