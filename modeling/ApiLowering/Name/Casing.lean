import ApiLowering.Name.Words
import ApiLowering.Text.CaseMapping
import ApiLowering.Text.Basic

/-!
The standard casings of an identifier: camel case, Pascal case, snake case and screaming snake case.
Segments are the maximal runs of letters and numerals, divided again at changes of letter case.
-/

set_option autoImplicit false

namespace ApiLowering.Name

open Text

-- The case of the letters read last in a segment.
inductive Run where
  | fresh
  | lower
  | upper
deriving DecidableEq, Repr

def Run.after (run : Run) (c : Char) : Run :=
  if isLowercase c then .lower else if isUppercase c then .upper else run

-- Divides a run of word characters; `piece` is the unfinished piece, last character first.
def humpsFrom (run : Run) (piece : List Char) : List Char → List (List Char)
  | [] => [piece.reverse]
  | [c] => [(c :: piece).reverse]
  | c :: next :: rest =>
    if run.after c = .lower ∧ isUppercase next then
      (c :: piece).reverse :: humpsFrom .fresh [] (next :: rest)
    else if run = .upper ∧ isUppercase c ∧ isLowercase next then
      piece.reverse :: humpsFrom .fresh [c] (next :: rest)
    else humpsFrom (run.after c) (c :: piece) (next :: rest)

def runsFrom (run : List Char) : List Char → List (List Char)
  | [] => if run.isEmpty then [] else [run.reverse]
  | c :: rest =>
    if isWordChar c then runsFrom (c :: run) rest
    else if run.isEmpty then runsFrom [] rest
    else run.reverse :: runsFrom [] rest

def segments (cs : List Char) : List (List Char) :=
  (runsFrom [] cs).flatMap (humpsFrom .fresh [])

-- Lower case, where a word's last sigma takes its final form.
def lowercase : List Char → List Char
  | [] => []
  | [c] => if c = 'Σ' then ['ς'] else lowerChars c
  | c :: rest => lowerChars c ++ lowercase rest

def uppercase (cs : List Char) : List Char := cs.flatMap upperChars

def capitalize : List Char → List Char
  | [] => []
  | c :: rest => upperChars c ++ lowercase rest

def camelCase (cs : List Char) : String :=
  match segments cs with
  | [] => ""
  | first :: rest => String.ofList (lowercase first ++ rest.flatMap capitalize)

def pascalCase (cs : List Char) : String :=
  String.ofList ((segments cs).flatMap capitalize)

def snakeCase (cs : List Char) : String :=
  String.ofList (List.intercalate ['_'] ((segments cs).map lowercase))

def screamingSnakeCase (cs : List Char) : String :=
  String.ofList (List.intercalate ['_'] ((segments cs).map uppercase))

end ApiLowering.Name
