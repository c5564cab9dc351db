import ApiLowering.Decode.Record
import ApiLowering.Json.Basic

/-!
Options of the lowering.
-/

set_option autoImplicit false

namespace ApiLowering

inductive ConflictPolicy where
  | preferMultipart
  | preferJson
deriving DecidableEq, Repr

structure Options where
  contentConflict : ConflictPolicy
  maxReferenceDepth : Nat
deriving DecidableEq, Repr

namespace ConflictPolicy

def name : ConflictPolicy → String
  | .preferMultipart => "prefer_multipart"
  | .preferJson => "prefer_json"

def all : List ConflictPolicy := [.preferMultipart, .preferJson]

def read : Reader ConflictPolicy := fun mode node =>
  (Reader.choice (all.map name) false mode node).map fun n =>
    if n = "prefer_json" then .preferJson else .preferMultipart

end ConflictPolicy

namespace Options

def default : Options := ⟨.preferMultipart, 64⟩

def record : Record Options :=
  { name := "ConvertOptions"
    fields := [
      Field.defaulted "content_conflict" ConflictPolicy.read
        fun v o => { o with contentConflict := v },
      Field.defaulted "max_reference_depth" Reader.size
        fun v o => { o with maxReferenceDepth := v }]
    blank := default }

def read : Reader Options := record.read

def toJson (o : Options) : Json :=
  .object [("content_conflict", .text o.contentConflict.name),
    ("max_reference_depth", Json.ofNat o.maxReferenceDepth)]

end Options

end ApiLowering
