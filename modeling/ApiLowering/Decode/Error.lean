import ApiLowering.Tree.Basic
import ApiLowering.Text.Quoted

/-!
Why a tree does not decode, and the message that says so.
-/

set_option autoImplicit false

namespace ApiLowering

-- Whether a decoder sees its tree while the text is being read, or a part that was held first. The
-- format of a text tells whether a list of fields may stand for a record in it; held it always may.
inductive Mode where
  | streamed (positional : Bool)
  | held
deriving DecidableEq, Repr

namespace Mode

def json : Mode := .streamed true

def yaml : Mode := .streamed false

def isStreamed : Mode → Bool
  | .streamed _ => true
  | .held => false

def isPositional : Mode → Bool
  | .streamed positional => positional
  | .held => true

end Mode

inductive Found where
  | null
  | bool (value : Bool)
  | integer (value : Int)
  | real (value : Binary64)
  | text (value : String)
  | sequence
  | map
deriving DecidableEq, Repr

inductive DecodeError where
  | invalidType (found : Found) (expected : String)
  | invalidValue (found : Found) (expected : String)
  | invalidLength (count : Nat) (expected : String)
  -- A list that stands for a record goes on behind its last field.
  | surplus (count fields : Nat) (mode : Mode)
  | unknownVariant (name : String) (known : List String)
  | notVariant (found : Found) (mode : Mode)
  | notSingleKey (mode : Mode)
  | missingField (name : String)
  | duplicateField (name : String)
  | fault (fault : Fault)
  | unreadable
deriving DecidableEq, Repr

namespace Found

def ofScalar : Scalar → Found
  | .null => .null
  | .bool b => .bool b
  | .number (.integer n) => .integer n
  | .number (.real x) => .real x
  | .text s => .text s

def message : Found → String
  | .null => "null"
  | .bool b => "boolean `" ++ toString b ++ "`"
  | .integer n => "integer `" ++ toString n ++ "`"
  | .real x => "floating point `" ++ x.render ++ "`"
  | .text s => "string " ++ Text.quoted s
  | .sequence => "sequence"
  | .map => "map"

end Found

namespace DecodeError

def ticked (name : String) : String := "`" ++ name ++ "`"

def oneOf (known : List String) : String :=
  match known with
  | [only] => ticked only
  | [first, second] => ticked first ++ " or " ++ ticked second
  | many => "one of " ++ ", ".intercalate (many.map ticked)

def elements (n : Nat) : String := toString n ++ if n = 1 then " element" else " elements"

def message : DecodeError → String
  | .invalidType found expected => "invalid type: " ++ found.message ++ ", expected " ++ expected
  | .invalidValue found expected => "invalid value: " ++ found.message ++ ", expected " ++ expected
  | .invalidLength count expected =>
    "invalid length " ++ toString count ++ ", expected " ++ expected
  | .surplus count _ (.streamed _) =>
    "invalid length " ++ toString count ++ ", expected fewer elements in array"
  | .surplus count fields .held =>
    "invalid length " ++ toString count ++ ", expected " ++ elements fields ++ " in sequence"
  | .unknownVariant name known => "unknown variant " ++ ticked name ++ ", expected " ++ oneOf known
  | .notVariant found _ => "invalid type: " ++ found.message ++ ", expected string or map"
  | .notSingleKey _ => "invalid value: map, expected map with a single key"
  | .missingField name => "missing field " ++ ticked name
  | .duplicateField name => "duplicate field " ++ ticked name
  | .fault .truncated => "the text ended too early"
  | .fault .malformed => "the text is malformed"
  | .unreadable => "the node cannot be decoded"

-- The fault of the text that an error amounts to; none when the text is well formed and only of the
-- wrong shape. A list for a record that goes on, and a stray token for a variant, are faults of the
-- text while it is being read.
def textFault? : DecodeError → Option Fault
  | .fault f => some f
  | .surplus _ _ (.streamed _) => some .malformed
  | .notVariant _ (.streamed _) => some .malformed
  | .notSingleKey (.streamed _) => some .malformed
  | _ => none

end DecodeError

end ApiLowering
