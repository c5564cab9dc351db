import ApiLowering.Lowering.Composition
import ApiLowering.Lowering.Discriminant
import ApiLowering.Lowering.Enumeration

/-!
Lowering of schemas. References stay references; compositions are flattened into one object or
reduced to the only member that has a shape; unions keep their members in order. The findings of a
report lie under the keys that lead from the lowered node to the place they are about.
-/

set_option autoImplicit false

namespace ApiLowering

namespace SchemaLowering

def unknown (info : Ir.Meta) : Report Ir.Schema := .ok (.unknown info)

def lowerReference (r : Resolver) (target : String) : Report Ir.Schema :=
  match r.lookupSchema target with
  | .found id _ => do
    Report.mark id
    return .reference Ir.Meta.blank id
  | .missing id => do
    Report.find .danglingReference ("reference " ++ target ++ " points at missing schema " ++ id)
    return .unknown Ir.Meta.blank
  | .unsupported => do
    Report.find .unsupportedReference
      ("reference " ++ target ++ " does not point into components.schemas")
    return .unknown Ir.Meta.blank

def propertyName? (key : String) (node : SchemaNode) : Option NameVariants :=
  let override := node.inline?.bind fun s => Extension.text? s.extensions Extension.propertyNameKey
  NameVariants.derive? (override.getD key) (some key)

structure Parts where
  items : Unit → Report Ir.Schema
  additional : Unit → Report Ir.Schema
  properties : Unit → Report (List (Ir.Property Ir.Schema))

def lowerObject (s : Schema) (parts : Parts) (info : Ir.Meta) : Report Ir.Schema :=
  if s.properties.isEmpty then
    match s.additionalProperties with
    | some (.allowed false) => .ok (.object ⟨none, info, [], [], [], false⟩)
    | _ => do
      let value ← parts.additional ()
      return .map info value
  else do
    let properties ← parts.properties ()
    return .object ⟨none, info, properties, [], [], s.allowsAdditional⟩

def stringType (s : Schema) : Ir.PrimitiveType :=
  match s.format with
  | some "date-time" => .dateTime
  | some "date" => .date
  | some "byte" => .base64
  | some "binary" => .binary
  | _ => .string ⟨s.format, s.pattern, s.minLength, s.maxLength⟩

def lowerTyped (s : Schema) (parts : Parts) (info : Ir.Meta) (type : SchemaType) :
    Report Ir.Schema :=
  let bounds : Ir.NumberConstraints := ⟨s.minimum, s.maximum⟩
  let primitive (value : Ir.PrimitiveType) : Report Ir.Schema := .ok (.primitive ⟨info, value⟩)
  match type with
  | .string => primitive (stringType s)
  | .integer => primitive (if s.format = some "int64" then .int64 bounds else .int bounds)
  | .number => primitive (if s.format = some "float" then .float bounds else .double bounds)
  | .boolean => primitive .boolean
  | .array => do
    let items ← parts.items ()
    return .array info items
  | .object => lowerObject s parts info
  | .null => unknown { info with nullable := true }
  | .unsupported => do
    Report.find .malformedNode "unsupported schema type"
    return .unknown info

def lowerByType (s : Schema) (parts : Parts) (info : Ir.Meta) : Report Ir.Schema :=
  match s.type with
  | some (.single type) => lowerTyped s parts info type
  | some (.multiple types) =>
    match types.filter (· ≠ .null) with
    | [] => unknown info
    | [type] => lowerTyped s parts info type
    | many => do
      let variants ← Report.forEach (lowerTyped s parts Ir.Meta.blank) many
      return .union ⟨none, info, none, [], variants.map fun v => ⟨none, v⟩⟩
  | none =>
    if s.isObjectLike then lowerObject s parts info
    else if s.items.isSome then lowerTyped s parts info .array
    else unknown info

-- The index of the member that a composition reduces to: its only member, or the only one that is
-- more than annotations.
def soleShaped? (members : List SchemaNode) : Option Nat :=
  if members.length = 1 then some 0
  else
    match members.zipIdx.filter fun m => !m.1.annotates with
    | [m] => some m.2
    | _ => none

-- The description and nullability that annotating members add to a composition's own.
def annotate (info : Ir.Meta) (members : List SchemaNode) : Option String × Bool :=
  let annotations := (members.filterMap SchemaNode.inline?).filter Keywords.isAnnotationOnly
  (annotations.foldl (fun found s => found.or s.description) info.description,
    info.nullable || annotations.any fun s => s.nullable == some true || s.isNullOnly)

-- A description in front of the schema's own, and nullability added to it.
def amend (description : Option String) (nullable : Bool) (s : Ir.Schema) : Ir.Schema :=
  s.mapInfo fun m =>
    { m with description := description.or m.description, nullable := m.nullable || nullable }

structure Merged where
  properties : List (Ir.Property Ir.Schema)
  required : List String
  parents : List String
  conflicts : List (Ir.PropertyConflict Ir.Schema)
  additional : Bool

namespace Merged

def empty : Merged := ⟨[], [], [], [], false⟩

def follow (m : Merged) (id : String) (direct : Bool) : Merged :=
  if direct && !m.parents.contains id then { m with parents := m.parents ++ [id] } else m

def constrain (m : Merged) (required : List String) (additional : Bool) : Merged :=
  { m with required := m.required ++ required, additional := m.additional || additional }

-- The first declaration of a key stays; a later one of another shape is a conflict.
def declare (m : Merged) (key : String) (name : NameVariants) (schema : Ir.Schema) : Merged :=
  match m.properties.find? fun p => p.key = key with
  | some existing =>
    if existing.schema.sameShape schema then m
    else { m with conflicts := m.conflicts ++ [⟨key, existing.schema, schema⟩] }
  | none => { m with properties := m.properties ++ [⟨key, name, schema, false⟩] }

-- Which properties are required is known when every member has been seen.
def finish (m : Merged) (info : Ir.Meta) : Ir.Schema :=
  .object {
    name := none
    info
    properties := m.properties.map fun p =>
      let required := m.required.contains p.key
      { p with required, schema := p.schema.setOptional (!required) }
    parents := m.parents
    conflicts := m.conflicts
    additionalProperties := m.additional }

end Merged

open ApiLowering.Composition (Step)

abbrev Change : Type := Merged → Merged

-- The change that one step makes; `part` lowers what the step declares.
def changeOf (step : Step)
    (part : {reached breadcrumbs : List String} → {key : String} → {node : SchemaNode} →
      step = .declare reached breadcrumbs key node → Report Ir.Schema) : Report Change :=
  match step with
  | .found finding => ⟨[finding], [], .ok id⟩
  | .follow id direct => do
    Report.mark id
    return fun m => m.follow id direct
  | .constrain required additional => .ok fun m => m.constrain required additional
  | .declare _ breadcrumbs key node =>
    (match propertyName? key node with
      | some name => do
        let schema ← part rfl
        return fun m => m.declare key name schema
      | none => do
        Report.find .invalidIdentifier "property key is empty"
        return id : Report Change).under breadcrumbs

def Merged.ofChanges (changes : List Change) : Merged :=
  changes.foldl (fun m change => change m) empty

-- A constant, or the only value of an enumeration, on the discriminant of an inline member.
def discriminantLiteral? (s : Schema) (discriminant : String) : Option String := do
  let node ← Entries.get? discriminant s.properties
  let target ← node.inline?
  match target.constValue with
  | some (.text value) => some value
  | _ =>
    match target.enumValues with
    | [.text value] => some value
    | _ => none

-- The value that tells a member of a union from the others: for a reference its key in the mapping
-- or its id, for an inline schema its title or the literal on the discriminant.
def discriminantValue? (d : Discriminator) : SchemaNode → Option String
  | .reference target =>
    ((d.mapping.find? fun e => Discriminant.target e.2 = target).map Prod.fst).or
      (Pointer.componentId? "schemas" target)
  | .inline s => s.title.or (discriminantLiteral? s d.propertyName)
  | .invalid _ => none

-- How a member enters a union: not at all, or with a discriminant value if there is one.
abbrev Label : Type := Option (Option NameVariants)

def discriminantLabel (value : String) : Report Label :=
  match NameVariants.derive? value none with
  | some name => .ok (some (some name))
  | none => do
    Report.find .invalidIdentifier "discriminant value is empty"
    return none

def taggedLabel (d : Discriminator) (member : SchemaNode) : Report Label :=
  match discriminantValue? d member with
  | some value => discriminantLabel value
  | none => do
    Report.find .missingDiscriminantValue
      ("union member has no value for discriminant " ++ d.propertyName)
    return none

def plainLabel (member : SchemaNode) : Report Label :=
  .ok (if member.isNullType then none else some none)

-- The variants for mapped references that no member stands for.
def mappedVariants (r : Resolver) :
    List String → List (String × String) → Report (List (Ir.Variant Ir.Schema))
  | _, [] => .ok []
  | covered, (value, name) :: rest =>
    let target := Discriminant.target name
    if covered.contains target then mappedVariants r covered rest
    else do
      let variant ← (do
        match ← discriminantLabel value with
        | some label =>
          let schema ← lowerReference r target
          return some ⟨label, schema⟩
        | none => return none : Report (Option (Ir.Variant Ir.Schema))).under
          ["discriminator", "mapping", value]
      let more ← mappedVariants r (target :: covered) rest
      return variant.toList ++ more

def unionMembers (s : Schema) : String × List SchemaNode :=
  if s.oneOf.isEmpty then ("anyOf", s.anyOf) else ("oneOf", s.oneOf)

theorem sizeOf_unionMembers_lt (s : Schema) : sizeOf (unionMembers s).2 < sizeOf s := by
  unfold unionMembers
  cases s
  split <;> simp only [Keywords.mk.sizeOf_spec] <;> omega

theorem sizeOf_items_lt {s : Schema} {node : SchemaNode} (present : s.items = some node) :
    sizeOf node < sizeOf s := by
  cases s
  simp only at present
  subst present
  simp only [Keywords.mk.sizeOf_spec, Option.some.sizeOf_spec]
  omega

theorem sizeOf_additional_lt {s : Schema} {node : SchemaNode}
    (present : s.additionalProperties = some (.schema node)) : sizeOf node < sizeOf s := by
  cases s
  simp only at present
  subst present
  simp only [Keywords.mk.sizeOf_spec, Option.some.sizeOf_spec, Additional.schema.sizeOf_spec]
  omega

def memberAt? (members : List SchemaNode) (choice : Option Nat) : Option (Nat × SchemaNode) :=
  choice.bind fun index => members[index]?.map fun member => (index, member)

theorem memberAt_mem {members : List SchemaNode} {choice : Option Nat} {index : Nat}
    {member : SchemaNode} (chosen : memberAt? members choice = some (index, member)) :
    member ∈ members := by
  cases choice with
  | none => cases chosen
  | some i =>
    simp only [memberAt?, Option.bind_some, Option.map_eq_some_iff, Prod.mk.injEq] at chosen
    obtain ⟨m, present, _, same⟩ := chosen
    subst same
    exact List.mem_of_getElem? present

-- The only member of a union that is not null, when nothing else needs a union.
def soleMember? (s : Schema) : Option Nat :=
  if s.properties.isEmpty then
    match (unionMembers s).2.zipIdx.filter fun m => !m.1.isNullType with
    | [m] => some m.2
    | _ => none
  else none

inductive Form where
  | reduced (index : Nat) (member : SchemaNode)
  | composed
  | tagged (discriminator : Discriminator)
  | collapsed (index : Nat) (member : SchemaNode)
  | union
  | enumeration (values : List Json)
  | typed

-- Compositions come first, then unions, enumerations and constants; the type decides last.
def form (s : Schema) : Form :=
  if !s.allOf.isEmpty then
    match memberAt? s.allOf (if s.properties.isEmpty then soleShaped? s.allOf else none) with
    | some (index, member) => .reduced index member
    | none => .composed
  else if !s.oneOf.isEmpty || !s.anyOf.isEmpty then
    match s.discriminator with
    | some d => .tagged d
    | none =>
      match memberAt? (unionMembers s).2 (soleMember? s) with
      | some (index, member) => .collapsed index member
      | none => .union
  else if !s.enumValues.isEmpty then .enumeration s.enumValues
  else
    match s.constValue with
    | some (.text value) => .enumeration [.text value]
    | _ => .typed

theorem reduced_mem {s : Schema} {index : Nat} {member : SchemaNode}
    (reduces : form s = .reduced index member) : member ∈ s.allOf := by
  unfold form at reduces
  repeat' split at reduces
  all_goals cases reduces
  exact memberAt_mem ‹_›

theorem collapsed_mem {s : Schema} {index : Nat} {member : SchemaNode}
    (collapses : form s = .collapsed index member) : member ∈ (unionMembers s).2 := by
  unfold form at collapses
  repeat' split at collapses
  all_goals cases collapses
  exact memberAt_mem ‹_›

theorem unionMember_lt {s : Schema} {member : SchemaNode} (listed : member ∈ (unionMembers s).2) :
    sizeOf member < sizeOf s :=
  Nat.lt_trans (List.sizeOf_lt_of_mem listed) (sizeOf_unionMembers_lt s)

def ownInfo (s : Schema) : Ir.Meta :=
  ⟨s.description, s.nullable == some true || s.typeIncludesNull, false⟩

def unionNullable (s : Schema) : Bool :=
  (ownInfo s).nullable || (unionMembers s).2.any SchemaNode.isNullType

mutual
def lower (r : Resolver) (path : List String) (node : SchemaNode) : Report Ir.Schema :=
  match node with
  | .reference target => lowerReference r target
  | .inline s => lowerInline r path s
  | .invalid value => do
    Report.find .malformedNode ("expected a schema object, found " ++ value.kind)
    return .unknown Ir.Meta.blank
termination_by r.pending path + sizeOf node
decreasing_by
  simp only [SchemaNode.inline.sizeOf_spec]
  omega

def lowerInline (r : Resolver) (path : List String) (s : Schema) : Report Ir.Schema := do
  Extension.checkUnknown s.extensions
  let info := ownInfo s
  match _form : form s with
  | .reduced index member =>
    let (description, nullable) := annotate info s.allOf
    let inner ← (lower r path member).under ["allOf", toString index]
    return amend description nullable inner
  | .composed =>
    let trail := Composition.walkAll r path s
    let changes ← Report.forEach
      (fun step => changeOf step.1 fun {reached _ _ node} _declared => lower r reached node)
      trail.steps.attach
    match trail.failure with
    | some e => Report.fail (.resolve e)
    | none => return (Merged.ofChanges changes).finish info
  | .tagged d =>
    let variants ← lowerMembers r path (unionMembers s).1 (taggedLabel d) 0 (unionMembers s).2
    let covered := (unionMembers s).2.filterMap SchemaNode.target?
    let mapped ← mappedVariants r covered d.mapping
    let base ← lowerProperties r path s.required (some d.propertyName) s.properties
    return .union ⟨none, info, some d.propertyName, base, variants ++ mapped⟩
  | .collapsed index member =>
    let inner ← (lower r path member).under [(unionMembers s).1, toString index]
    return amend info.description (unionNullable s) inner
  | .union =>
    let variants ← lowerMembers r path (unionMembers s).1 plainLabel 0 (unionMembers s).2
    let base ← lowerProperties r path s.required none s.properties
    return .union ⟨none, { info with nullable := unionNullable s }, none, base, variants⟩
  | .enumeration values => Enumeration.lower s values info
  | .typed =>
    lowerByType s
      { items := fun _ =>
          match _present : s.items with
          | some node => (lower r path node).under ["items"]
          | none => unknown Ir.Meta.blank
        additional := fun _ =>
          match _present : s.additionalProperties with
          | some (.schema node) => (lower r path node).under ["additionalProperties"]
          | _ => unknown Ir.Meta.blank
        properties := fun _ => lowerProperties r path s.required none s.properties }
      info
termination_by r.pending path + sizeOf s
decreasing_by
  · have less := Composition.member_lt (reduced_mem _form)
    omega
  · obtain ⟨step, here⟩ := step
    subst _declared
    obtain ⟨t, visited, listed⟩ := Composition.walkAll_declares here
    exact Composition.declared_lt visited listed
  · have members := sizeOf_unionMembers_lt s
    omega
  · have properties := Composition.sizeOf_properties_lt s
    omega
  · have less := unionMember_lt (collapsed_mem _form)
    omega
  · have members := sizeOf_unionMembers_lt s
    omega
  · have properties := Composition.sizeOf_properties_lt s
    omega
  · have items := sizeOf_items_lt _present
    omega
  · have additional := sizeOf_additional_lt _present
    omega
  · have properties := Composition.sizeOf_properties_lt s
    omega

def lowerMembers (r : Resolver) (path : List String) (keyword : String)
    (label : SchemaNode → Report Label) (index : Nat) (members : List SchemaNode) :
    Report (List (Ir.Variant Ir.Schema)) :=
  match members with
  | [] => .ok []
  | member :: rest => do
    let variant ← (do
      match ← label member with
      | some value =>
        let schema ← lower r path member
        return some ⟨value, schema⟩
      | none => return none : Report (Option (Ir.Variant Ir.Schema))).under
        [keyword, toString index]
    let more ← lowerMembers r path keyword label (index + 1) rest
    return variant.toList ++ more
termination_by r.pending path + sizeOf members
decreasing_by
  · simp only [List.cons.sizeOf_spec]
    omega
  · simp only [List.cons.sizeOf_spec]
    omega

def lowerProperties (r : Resolver) (path : List String) (required : List String)
    (exclude : Option String) (properties : List (String × SchemaNode)) :
    Report (List (Ir.Property Ir.Schema)) :=
  match properties with
  | [] => .ok []
  | (key, node) :: rest =>
    if exclude = some key then lowerProperties r path required exclude rest
    else do
      let property ← (match propertyName? key node with
        | some name => do
          let schema ← lower r path node
          let required := required.contains key
          return some ⟨key, name, schema.unlessRequired required, required⟩
        | none => do
          Report.find .invalidIdentifier "property key is empty"
          return none : Report (Option (Ir.Property Ir.Schema))).under [key]
      let more ← lowerProperties r path required exclude rest
      return property.toList ++ more
termination_by r.pending path + sizeOf properties
decreasing_by
  · simp only [List.cons.sizeOf_spec]
    omega
  · simp only [List.cons.sizeOf_spec, Prod.mk.sizeOf_spec]
    omega
  · simp only [List.cons.sizeOf_spec]
    omega
end

def lowerAs (r : Resolver) (path : List String) (required : Bool) (node : SchemaNode) :
    Report Ir.Schema := do
  let schema ← lower r path node
  return schema.unlessRequired required

def lowerOption (r : Resolver) (path : List String) (required : Bool) :
    Option SchemaNode → Report Ir.Schema
  | some node => lowerAs r path required node
  | none => unknown ⟨none, false, !required⟩

-- The text that a component is named after: an extension, its title, or its id.
def componentTitle (id : String) (node : SchemaNode) : String :=
  (node.inline?.bind fun s =>
    (Extension.text? s.extensions Extension.typeNameKey).or s.title).getD id

def lowerComponent (r : Resolver) (path : List String) (id : String) (node : SchemaNode) :
    Report Ir.Schema :=
  match r.enter path (Pointer.ofSchema id) with
  | .error e => .fail (.resolve e)
  | .ok deeper =>
    (do
      let schema ← lower r deeper node
      match NameVariants.derive? (componentTitle id node) none with
      | some name => return schema.setName name
      | none => do
        Report.find .invalidIdentifier LoweringError.emptyNameMessage
        return schema : Report Ir.Schema).under [id]

end SchemaLowering

end ApiLowering
