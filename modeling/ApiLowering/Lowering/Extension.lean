import ApiLowering.Decode.Record
import ApiLowering.Lowering.Report

/-!
Vendor extensions: the ones that the lowering understands, and how their values are read.
-/

set_option autoImplicit false

namespace ApiLowering.Extension

def ignoreKey : String := "x-fern-ignore"
def webhookKey : String := "x-fern-webhook"
def internalKey : String := "x-internal"
def methodNameKey : String := "x-fern-sdk-method-name"
def groupNameKey : String := "x-fern-sdk-group-name"
def audiencesKey : String := "x-fern-audiences"
def typeNameKey : String := "x-fern-type-name"
def propertyNameKey : String := "x-fern-property-name"
def parameterNameKey : String := "x-fern-parameter-name"
def enumKey : String := "x-fern-enum"
def variablesKey : String := "x-fern-sdk-variables"
def variableKey : String := "x-fern-sdk-variable"
def serverNameKey : String := "x-fern-server-name"
def headerKey : String := "x-fern-header"

def knownKeys : List String :=
  [ignoreKey, webhookKey, methodNameKey, groupNameKey, audiencesKey, typeNameKey, propertyNameKey,
    parameterNameKey, enumKey, variablesKey, variableKey, serverNameKey, headerKey]

def isUnknown (key : String) : Bool :=
  Text.startsWith "x-fern-".toList key.toList && !knownKeys.contains key

-- Only an explicit boolean sets a flag.
def flag (extensions : Entries Json) (key : String) : Bool :=
  match Entries.get? key extensions with
  | some (.bool true) => true
  | _ => false

def text? (extensions : Entries Json) (key : String) : Option String :=
  (Entries.get? key extensions).bind Json.text?

-- A text or a list of texts; other items are left out.
def texts (extensions : Entries Json) (key : String) : List String :=
  match Entries.get? key extensions with
  | some (.text s) => [s]
  | some (.list items) => items.filterMap Json.text?
  | _ => []

def checkUnknown (extensions : Entries Json) : Report Unit :=
  ⟨((Entries.keys extensions).filter isUnknown).map fun key =>
    ⟨.unknownExtension, [], "unknown extension " ++ key⟩, [], .ok ()⟩

structure EnumOverride where
  name : Option String
  description : Option String
deriving DecidableEq, Repr

def EnumOverride.record : Record EnumOverride :=
  { name := "EnumValueOverride"
    fields := [
      Field.lenient "name" Reader.text fun v o => { o with name := v },
      Field.lenient "description" Reader.text fun v o => { o with description := v }]
    blank := ⟨none, none⟩ }

-- The overrides by value; a malformed extension is reported and has none.
def enumOverrides (extensions : Entries Json) : Report (Entries EnumOverride) :=
  match Entries.get? enumKey extensions with
  | none => .ok []
  | some value =>
    match Reader.entries EnumOverride.record.read .json (Tree.ofJson value) with
    | .ok overrides => .ok overrides
    | .error e => do
      Report.find .malformedNode ("invalid " ++ enumKey ++ ": " ++ e.message)
      return []

structure HeaderOverride where
  name : Option String
  lead : Option String
deriving DecidableEq, Repr

def HeaderOverride.record : Record HeaderOverride :=
  { name := "HeaderOverride"
    fields := [
      Field.lenient "name" Reader.text fun v o => { o with name := v },
      Field.lenient "prefix" Reader.text fun v o => { o with lead := v }]
    blank := ⟨none, none⟩ }

def headerOverride (extensions : Entries Json) : HeaderOverride :=
  ((Entries.get? headerKey extensions).bind fun value =>
    (HeaderOverride.record.read .json (Tree.ofJson value)).toOption).getD ⟨none, none⟩

end ApiLowering.Extension
