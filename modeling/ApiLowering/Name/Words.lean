import ApiLowering.Text.Alphabetic
import ApiLowering.Text.LetterCase
import ApiLowering.Text.Numeral

/-!
The words of an identifier. A word ends at a character that is neither letter nor numeral, before
the upper case letter after a lower case one, before the last letter of an acronym, and where
letters and numerals meet.
-/

set_option autoImplicit false

namespace ApiLowering.Name

open Text

def isWordChar (c : Char) : Bool := isAlphabetic c || isNumeral c

-- Whether a new word starts at `c` after `previous`, given the character behind `c`.
def isBoundary (previous c : Char) (next : Option Char) : Bool :=
  let hump := isLowercase previous && isUppercase c
  let acronymEnd := isUppercase previous && isUppercase c && next.any isLowercase
  let numeralEdge := isNumeral previous != isNumeral c
  hump || acronymEnd || numeralEdge

-- Splits the rest of a text; `word` is the unfinished word, last character first.
def splitFrom (word : List Char) : List Char → List (List Char)
  | [] => if word.isEmpty then [] else [word.reverse]
  | c :: rest =>
    if !isWordChar c then
      if word.isEmpty then splitFrom [] rest else word.reverse :: splitFrom [] rest
    else
      match word with
      | [] => splitFrom [c] rest
      | previous :: _ =>
        if isBoundary previous c rest.head? then word.reverse :: splitFrom [c] rest
        else splitFrom (c :: word) rest

def words (raw : List Char) : List (List Char) := splitFrom [] raw

end ApiLowering.Name
