import ApiLowering.Text.Basic
import ApiLowering.Text.Hidden

/-!
A text in double quotes, with everything that a reader could not see written by its number.
-/

set_option autoImplicit false

namespace ApiLowering.Text

def quotedChar (c : Char) : String :=
  if c = '"' then "\\\""
  else if c = '\\' then "\\\\"
  else if c = '\n' then "\\n"
  else if c = '\r' then "\\r"
  else if c = '\t' then "\\t"
  else if c.toNat = 0 then "\\0"
  else if isHidden c then "\\u\x7b" ++ hexDigits c.toNat ++ "\x7d"
  else c.toString

def quoted (s : String) : String :=
  "\"" ++ String.join (s.toList.map quotedChar) ++ "\""

end ApiLowering.Text
