import ApiLowering.Decode.Record

/-!
Nodes that are read leniently: a map with one text under `$ref` is a reference whatever stands
beside it, a node of the right shape is what it describes, and any other node is kept as it is.
-/

set_option autoImplicit false

namespace ApiLowering.Reader

def referenceRecord : Record String :=
  { name := "reference"
    fields := [Field.required "$ref" text fun target _ => target]
    blank := "" }

def referenceTarget? (held : Tree) : Option String := (referenceRecord.readMap .held held).toOption

def lenient {α ν : Type} (reference : String → ν) (inline : Reader α) (wrap : α → ν)
    (invalid : Json → ν) : Reader ν := fun mode node => do
  let held ← node.holdIn mode
  match referenceTarget? held with
  | some target => return reference target
  | none =>
    match inline .held held with
    | .ok a => return wrap a
    | .error _ => (value .held held).map invalid

end ApiLowering.Reader
