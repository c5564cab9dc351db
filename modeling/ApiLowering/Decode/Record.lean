import ApiLowering.Decode.Reader

/-!
Decoders for objects with named fields. A closed record passes over keys that it does not know, and
may also be given as a list of its fields in order. An open record hands the entries that it does
not know to its owner, and is a map always.
-/

set_option autoImplicit false

namespace ApiLowering

inductive Absence where
  | refused
  -- A map may leave the field out, a list of fields may not.
  | omitted
  | defaulted
deriving DecidableEq, Repr

structure Field (α : Type) where
  name : String
  absence : Absence
  read : Mode → Tree → α → Except DecodeError α

namespace Field

variable {α β : Type}

def required (name : String) (reader : Reader β) (set : β → α → α) : Field α :=
  ⟨name, .refused, fun mode node record => (reader mode node).map fun v => set v record⟩

def optional (name : String) (reader : Reader β) (set : Option β → α → α) : Field α :=
  ⟨name, .omitted, fun mode node record =>
    (Reader.optional reader mode node).map fun v => set v record⟩

def defaulted (name : String) (reader : Reader β) (set : β → α → α) : Field α :=
  ⟨name, .defaulted, fun mode node record => (reader mode node).map fun v => set v record⟩

-- An optional field that a list of fields may end before.
def lenient (name : String) (reader : Reader β) (set : Option β → α → α) : Field α :=
  { optional name reader set with absence := .defaulted }

end Field

structure Record (α : Type) where
  name : String
  fields : List (Field α)
  blank : α

namespace Record

variable {α : Type}

def field? (fields : List (Field α)) (name : String) : Option (Field α) :=
  fields.find? fun f => f.name = name

def label (r : Record α) : String := "struct " ++ r.name

-- The state of reading a map: the names of the fields seen, the record, and the other entries, the
-- last one first.
structure Progress (α : Type) where
  seen : List String
  record : α
  others : List (Key × Tree)

def readField (mode : Mode) (f : Field α) (node : Tree) (p : Progress α) :
    Except DecodeError (Progress α) :=
  if p.seen.contains f.name then .error (.duplicateField f.name)
  else (f.read mode node p.record).map fun record => { p with seen := f.name :: p.seen, record }

-- The first required field that was not seen, in the order of declaration.
def missing? (fields : List (Field α)) (seen : List String) : Option String :=
  (fields.find? fun f => f.absence = .refused && !seen.contains f.name).map Field.name

def complete (fields : List (Field α)) (stop : Option Fault) (p : Progress α) :
    Except DecodeError (Progress α) := do
  Tree.stopped stop
  match missing? fields p.seen with
  | some name => .error (.missingField name)
  | none => .ok p

-- The field that the key of a closed record names. A held key may also be a field's number.
def keyField? (mode : Mode) (fields : List (Field α)) (key : Key) :
    Except DecodeError (Option (Field α)) :=
  match key, mode with
  | .written _ (some (.number (.integer n))), .held =>
    if n < 0 then .error .unreadable else .ok fields[n.toNat]?
  | key, mode => (key.read mode).map (field? fields)

def readClosed (mode : Mode) (fields : List (Field α)) :
    List (Key × Tree) → Progress α → Except DecodeError (Progress α)
  | [], p => .ok p
  | (key, node) :: rest, p => do
    match ← keyField? mode fields key with
    | some f => readClosed mode fields rest (← readField mode f node p)
    | none =>
      Tree.skipped node
      readClosed mode fields rest p

-- Reads a list of fields in order; `index` fields are read so far.
def readPositions (mode : Mode) (r : Record α) (stop : Option Fault) :
    List (Field α) → List Tree → Nat → α → Except DecodeError α
  | [], [], _, record => (Tree.stopped stop).map fun _ => record
  | [], more, index, _ => .error (.surplus (index + more.length) index mode)
  | f :: fields, [], index, record => do
    Tree.stopped stop
    if f.absence = .defaulted then readPositions mode r stop fields [] index record
    else
      .error (.invalidLength index (r.label ++ " with " ++ DecodeError.elements r.fields.length))
  | f :: fields, node :: nodes, index, record => do
    let record ← f.read mode node record
    readPositions mode r stop fields nodes (index + 1) record

def read (r : Record α) : Reader α := fun mode node =>
  match node.bare with
  | .map entries stop => do
    let p ← readClosed mode r.fields entries ⟨[], r.blank, []⟩
    let p ← complete r.fields stop p
    return p.record
  | .list items stop =>
    if mode.isPositional then readPositions mode r stop r.fields items 0 r.blank
    else node.mismatch r.label
  | other =>
    if Reader.isVoid other then (complete r.fields none ⟨[], r.blank, []⟩).map fun p => p.record
    else other.mismatch r.label

def readMap (r : Record α) : Reader α := fun mode node =>
  match node with
  | .map entries stop => do
    let p ← readClosed mode r.fields entries ⟨[], r.blank, []⟩
    let p ← complete r.fields stop p
    return p.record
  | other => other.mismatch r.label

def readOpen (mode : Mode) (fields : List (Field α)) :
    List (Key × Tree) → Progress α → Except DecodeError (Progress α)
  | [], p => .ok p
  | (key, node) :: rest, p => do
    let name ← key.read mode
    match field? fields name with
    | some f => readOpen mode fields rest (← readField mode f node p)
    | none =>
      let held ← node.holdIn mode
      readOpen mode fields rest { p with others := (.text name, held) :: p.others }

-- Reads an open record; `finish` gets the entries that no field names, in their order.
def readWith (r : Record α) (finish : List (Key × Tree) → α → Except DecodeError α) : Reader α :=
  fun mode node =>
    match node.bare with
    | .map entries stop => do
      let p ← readOpen mode r.fields entries ⟨[], r.blank, []⟩
      let p ← complete r.fields stop p
      finish p.others.reverse p.record
    | other =>
      if Reader.isVoid other then
        (complete r.fields none ⟨[], r.blank, []⟩).bind fun p => finish [] p.record
      else other.mismatch r.label

def readExtended (r : Record α) (extend : Entries Json → α → α) : Reader α :=
  readWith r fun others record => do
    let extensions ← Reader.valueEntries .held others
    return extend (Entries.collect extensions) record

end Record

end ApiLowering
