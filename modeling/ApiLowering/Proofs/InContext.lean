import ApiLowering.Proofs.Procedure
import ApiLowering.Proofs.Turns

/-!
Schemas lowered in a context. The lowering as a procedure opens and closes references in the context
that it is given, records what it finds as it goes, and flattens a composition member by member; any
of its steps may fail. It does to every context what running the report of the lowering does.
-/

set_option autoImplicit false

namespace ApiLowering.InContext

open Procedure (Performs entering leaf mark record withResolver)
open SchemaLowering (Form Label Merged Parts form ownInfo unionMembers)

abbrev Handler : Type := Bool → List String → SchemaNode → Procedure Ir.Schema

abbrev Absorber : Type := List String → Bool → SchemaNode → Merged → Procedure Merged

section

variable (lower : Handler) (keys : List String)

def property (required : List String) (key : String) (node : SchemaNode) :
    Procedure (Option (Ir.Property Ir.Schema)) :=
  match SchemaLowering.propertyName? key node with
  | some name => do
    let required := required.contains key
    let schema ← lower required (keys ++ [key]) node
    return some ⟨key, name, schema, required⟩
  | none => do
    record ⟨.invalidIdentifier, keys ++ [key], "property key is empty"⟩
    return none

def properties (required : List String) (exclude : Option String) :
    List (String × SchemaNode) → Procedure (List (Ir.Property Ir.Schema))
  | [] => pure []
  | (key, node) :: rest =>
    if exclude = some key then properties required exclude rest
    else do
      let first ← property lower keys required key node
      let more ← properties required exclude rest
      return first.toList ++ more

def members (keyword : String) (label : SchemaNode → Report Label) :
    Nat → List SchemaNode → Procedure (List (Ir.Variant Ir.Schema))
  | _, [] => pure []
  | index, member :: rest => do
    let position := keys ++ [keyword, toString index]
    let variant ← (do
      match ← leaf position (label member) with
      | some value =>
        let schema ← lower true position member
        return some ⟨value, schema⟩
      | none => return none : Procedure (Option (Ir.Variant Ir.Schema)))
    let more ← members keyword label (index + 1) rest
    return variant.toList ++ more

structure Tasks where
  items : Procedure Ir.Schema
  additional : Procedure Ir.Schema
  properties : Procedure (List (Ir.Property Ir.Schema))

def tasksOf (s : Schema) : Tasks where
  items :=
    match s.items with
    | some node => lower true (keys ++ ["items"]) node
    | none => pure (.unknown Ir.Meta.blank)
  additional :=
    match s.additionalProperties with
    | some (.schema node) => lower true (keys ++ ["additionalProperties"]) node
    | _ => pure (.unknown Ir.Meta.blank)
  properties := properties lower keys s.required none s.properties

def object (s : Schema) (tasks : Tasks) (info : Ir.Meta) : Procedure Ir.Schema :=
  if s.properties.isEmpty then
    match s.additionalProperties with
    | some (.allowed false) => pure (.object ⟨none, info, [], [], [], false⟩)
    | _ => do
      let value ← tasks.additional
      return .map info value
  else do
    let properties ← tasks.properties
    return .object ⟨none, info, properties, [], [], s.allowsAdditional⟩

-- Types other than lists and objects have no parts.
def typed (s : Schema) (tasks : Tasks) (info : Ir.Meta) : SchemaType → Procedure Ir.Schema
  | .array => do
    let items ← tasks.items
    return .array info items
  | .object => object s tasks info
  | type =>
    let none : Parts := ⟨fun _ => .ok (.unknown info), fun _ => .ok (.unknown info), fun _ => .ok []⟩
    leaf keys (SchemaLowering.lowerTyped s none info type)

def alternatives (s : Schema) (tasks : Tasks) : List SchemaType → Procedure (List Ir.Schema)
  | [] => pure []
  | type :: rest => do
    let first ← typed keys s tasks Ir.Meta.blank type
    let more ← alternatives s tasks rest
    return first :: more

def byType (s : Schema) (tasks : Tasks) (info : Ir.Meta) : Procedure Ir.Schema :=
  match s.type with
  | some (.single type) => typed keys s tasks info type
  | some (.multiple types) =>
    match types.filter (· ≠ .null) with
    | [] => pure (.unknown info)
    | [type] => typed keys s tasks info type
    | many => do
      let variants ← alternatives keys s tasks many
      return .union ⟨none, info, none, [], variants.map fun v => ⟨none, v⟩⟩
  | none =>
    if s.isObjectLike then object s tasks info
    else if s.items.isSome then typed keys s tasks info .array
    else pure (.unknown info)

def amended (member : SchemaNode) (description : Option String) (nullable : Bool) :
    Procedure Ir.Schema := do
  let inner ← lower true keys member
  return SchemaLowering.amend description nullable inner

def declaration (key : String) (node : SchemaNode) (m : Merged) : Procedure Merged :=
  match SchemaLowering.propertyName? key node with
  | some name => do
    let schema ← lower true (keys ++ [key]) node
    return m.declare key name schema
  | none => do
    record ⟨.invalidIdentifier, keys ++ [key], "property key is empty"⟩
    return m

def declarations : List (String × SchemaNode) → Merged → Procedure Merged
  | [], m => pure m
  | (key, node) :: rest, m => do
    let next ← declaration lower keys key node m
    declarations rest next

def absorbOwn (s : Schema) (m : Merged) : Procedure Merged :=
  declarations lower keys s.properties (m.constrain s.required s.allowsAdditional)

end

def noticeShape (keys : List String) (s : Schema) (m : Merged) : Procedure Merged :=
  match Composition.otherShape? s with
  | some shape => do
    record ⟨.malformedNode, keys,
      "allOf member is " ++ shape ++ "; only its object properties are merged"⟩
    return m
  | none => pure m

def absorbMembers (absorb : Absorber) (keys : List String) (direct : Bool) :
    Nat → List SchemaNode → Merged → Procedure Merged
  | _, [], m => pure m
  | index, member :: rest, m => do
    let next ← absorb (keys ++ ["allOf", toString index]) direct member m
    absorbMembers absorb keys direct (index + 1) rest next

section

variable (absorb : Absorber) (lower : Handler) (keys : List String)

def formed (s : Schema) : Form → Procedure Ir.Schema
  | .reduced index member =>
    amended lower (keys ++ ["allOf", toString index]) member
      (SchemaLowering.annotate (ownInfo s) s.allOf).1 (SchemaLowering.annotate (ownInfo s) s.allOf).2
  | .composed => do
    let merged ← absorbMembers absorb keys true 0 s.allOf .empty
    let merged ← absorbOwn lower keys s merged
    return merged.finish (ownInfo s)
  | .tagged d => do
    let variants ←
      members lower keys (unionMembers s).1 (SchemaLowering.taggedLabel d) 0 (unionMembers s).2
    let mapped ← withResolver fun r => leaf keys
      (SchemaLowering.mappedVariants r ((unionMembers s).2.filterMap SchemaNode.target?) d.mapping)
    let base ← properties lower keys s.required (some d.propertyName) s.properties
    return .union ⟨none, ownInfo s, some d.propertyName, base, variants ++ mapped⟩
  | .collapsed index member =>
    amended lower (keys ++ [(unionMembers s).1, toString index]) member
      (ownInfo s).description (SchemaLowering.unionNullable s)
  | .union => do
    let variants ←
      members lower keys (unionMembers s).1 SchemaLowering.plainLabel 0 (unionMembers s).2
    let base ← properties lower keys s.required none s.properties
    return .union
      ⟨none, { ownInfo s with nullable := SchemaLowering.unionNullable s }, none, base, variants⟩
  | .enumeration values => leaf keys (Enumeration.lower s values (ownInfo s))
  | .typed => byType keys s (tasksOf lower keys s) (ownInfo s)

def lowerNode (required : Bool) (node : SchemaNode) : Procedure Ir.Schema := do
  let schema ← (do
    match node with
    | .reference target => withResolver fun r => leaf keys (SchemaLowering.lowerReference r target)
    | .inline s =>
      leaf keys (Extension.checkUnknown s.extensions)
      formed absorb lower keys s (form s)
    | .invalid value =>
      record ⟨.malformedNode, keys, "expected a schema object, found " ++ value.kind⟩
      return .unknown Ir.Meta.blank : Procedure Ir.Schema)
  return schema.unlessRequired required

-- A member of a composition: a reference is opened for as long as its component is absorbed.
def absorbNode (direct : Bool) (node : SchemaNode) (m : Merged) : Procedure Merged :=
  match node with
  | .reference target =>
    withResolver fun r =>
      match r.lookupSchema target with
      | .found id component => do
        mark id
        entering (Pointer.ofSchema id) (absorb keys false component (m.follow id direct))
      | .missing id => do
        record ⟨.danglingReference, keys,
          "allOf member " ++ target ++ " points at missing schema " ++ id⟩
        return m
      | .unsupported => do
        record ⟨.unsupportedReference, keys,
          "allOf member " ++ target ++ " does not point into components.schemas"⟩
        return m
  | .inline s => do
    let noticed ← noticeShape keys s m
    let merged ← absorbMembers absorb keys false 0 s.allOf noticed
    absorbOwn lower keys s merged
  | .invalid value => do
    record ⟨.malformedNode, keys, "allOf member is " ++ value.kind ++ ", not a schema"⟩
    return m

end

mutual
-- How deep calls may be nested; when they are deeper, the procedure fails with what it is given.
def absorbWithin (exhausted : LoweringError) : Nat → Absorber
  | 0 => fun _ _ _ _ => throw exhausted
  | fuel + 1 => absorbNode (absorbWithin exhausted fuel) (lowerWithin exhausted fuel)

def lowerWithin (exhausted : LoweringError) : Nat → Handler
  | 0 => fun _ _ _ => throw exhausted
  | fuel + 1 => fun required keys =>
    lowerNode (absorbWithin exhausted fuel) (lowerWithin exhausted fuel) keys required
end

def named (id : String) (node : SchemaNode) (schema : Ir.Schema) : Procedure Ir.Schema :=
  match NameVariants.derive? (SchemaLowering.componentTitle id node) none with
  | some name => pure (schema.setName name)
  | none => do
    record ⟨.invalidIdentifier, [id], LoweringError.emptyNameMessage⟩
    return schema

def componentWithin (exhausted : LoweringError) (fuel : Nat) (id : String) (node : SchemaNode) :
    Procedure Ir.Schema := do
  let schema ← entering (Pointer.ofSchema id) (lowerWithin exhausted fuel true [id] node)
  named id node schema

end ApiLowering.InContext
