import ApiLowering.Name.Variants
import ApiLowering.Numeric.Binary64
import ApiLowering.Entries

/-!
Schemas of the intermediate representation. Every schema carries a description and two flags, nested
schemas are held in place, and component schemas are referred to by their id alone.
-/

set_option autoImplicit false

namespace ApiLowering.Ir

structure Meta where
  description : Option String
  nullable : Bool
  optional : Bool
deriving DecidableEq, Repr

def Meta.blank : Meta := ⟨none, false, false⟩

structure Property (σ : Type) where
  key : String
  name : NameVariants
  schema : σ
  required : Bool

-- A key that two members of a composition declare with different shapes.
structure PropertyConflict (σ : Type) where
  propertyKey : String
  existing : σ
  conflicting : σ

structure ObjectSchema (σ : Type) where
  name : Option NameVariants
  info : Meta
  properties : List (Property σ)
  parents : List String
  conflicts : List (PropertyConflict σ)
  additionalProperties : Bool

structure Variant (σ : Type) where
  discriminantValue : Option NameVariants
  schema : σ

structure UnionSchema (σ : Type) where
  name : Option NameVariants
  info : Meta
  discriminant : Option String
  baseProperties : List (Property σ)
  variants : List (Variant σ)

structure EnumValue where
  name : NameVariants
  value : String
  description : Option String
deriving DecidableEq, Repr

structure EnumSchema where
  name : Option NameVariants
  info : Meta
  values : List EnumValue
deriving DecidableEq, Repr

structure StringConstraints where
  format : Option String
  pattern : Option String
  minLength : Option UInt64
  maxLength : Option UInt64
deriving DecidableEq, Repr

structure NumberConstraints where
  minimum : Option Binary64
  maximum : Option Binary64
deriving DecidableEq, Repr

inductive PrimitiveType where
  | string (constraints : StringConstraints)
  | int (constraints : NumberConstraints)
  | int64 (constraints : NumberConstraints)
  | float (constraints : NumberConstraints)
  | double (constraints : NumberConstraints)
  | boolean
  | date
  | dateTime
  | base64
  | binary
deriving DecidableEq, Repr

structure PrimitiveSchema where
  info : Meta
  value : PrimitiveType
deriving DecidableEq, Repr

inductive Schema where
  | object (schema : ObjectSchema Schema)
  | union (schema : UnionSchema Schema)
  | enumeration (schema : EnumSchema)
  | primitive (schema : PrimitiveSchema)
  | array (info : Meta) (items : Schema)
  | map (info : Meta) (value : Schema)
  | reference (info : Meta) (schemaId : String)
  | unknown (info : Meta)

namespace Schema

def info : Schema → Meta
  | .object o => o.info
  | .union u => u.info
  | .enumeration e => e.info
  | .primitive p => p.info
  | .array info _ => info
  | .map info _ => info
  | .reference info _ => info
  | .unknown info => info

def mapInfo (f : Meta → Meta) : Schema → Schema
  | .object o => .object { o with info := f o.info }
  | .union u => .union { u with info := f u.info }
  | .enumeration e => .enumeration { e with info := f e.info }
  | .primitive p => .primitive { p with info := f p.info }
  | .array info items => .array (f info) items
  | .map info value => .map (f info) value
  | .reference info schemaId => .reference (f info) schemaId
  | .unknown info => .unknown (f info)

def setOptional (optional : Bool) : Schema → Schema := mapInfo fun m => { m with optional }

def unlessRequired (required : Bool) (s : Schema) : Schema :=
  if required then s else s.setOptional true

def name? : Schema → Option NameVariants
  | .object o => o.name
  | .union u => u.name
  | .enumeration e => e.name
  | _ => none

-- Names an object, a union or an enumeration. Other schemas have no name.
def setName (name : NameVariants) : Schema → Schema
  | .object o => .object { o with name := some name }
  | .union u => .union { u with name := some name }
  | .enumeration e => .enumeration { e with name := some name }
  | other => other

def kind : Schema → String
  | .object _ => "object"
  | .union _ => "union"
  | .enumeration _ => "enum"
  | .primitive _ => "primitive"
  | .array _ _ => "array"
  | .map _ _ => "map"
  | .reference _ _ => "reference"
  | .unknown _ => "unknown"

-- Descriptions and the optional flag do not belong to the shape.
def shapeInfo (m : Meta) : Meta := ⟨none, m.nullable, false⟩

mutual
-- The shape of a schema: without descriptions, names, optional flags and recorded conflicts.
def shape : Schema → Schema
  | .object { info, properties, parents, additionalProperties, .. } =>
    .object ⟨none, shapeInfo info, shapeProperties properties, parents, [], additionalProperties⟩
  | .union { info, discriminant, baseProperties, variants, .. } =>
    .union ⟨none, shapeInfo info, discriminant, shapeProperties baseProperties,
      shapeVariants variants⟩
  | .enumeration e =>
    .enumeration ⟨none, shapeInfo e.info, e.values.map fun v => { v with description := none }⟩
  | .primitive p => .primitive { p with info := shapeInfo p.info }
  | .array info items => .array (shapeInfo info) (shape items)
  | .map info value => .map (shapeInfo info) (shape value)
  | .reference info schemaId => .reference (shapeInfo info) schemaId
  | .unknown info => .unknown (shapeInfo info)

def shapeProperties : List (Property Schema) → List (Property Schema)
  | [] => []
  | ⟨key, name, schema, required⟩ :: rest =>
    ⟨key, name, shape schema, required⟩ :: shapeProperties rest

def shapeVariants : List (Variant Schema) → List (Variant Schema)
  | [] => []
  | ⟨value, schema⟩ :: rest => ⟨value, shape schema⟩ :: shapeVariants rest
end

end Schema

def sameNumber (a b : Option Binary64) : Bool :=
  match a, b with
  | none, none => true
  | some x, some y => x.equal y
  | _, _ => false

def NumberConstraints.equal (a b : NumberConstraints) : Bool :=
  sameNumber a.minimum b.minimum && sameNumber a.maximum b.maximum

def PrimitiveType.equal : PrimitiveType → PrimitiveType → Bool
  | .int a, .int b => a.equal b
  | .int64 a, .int64 b => a.equal b
  | .float a, .float b => a.equal b
  | .double a, .double b => a.equal b
  | a, b => a == b

namespace Schema

mutual
-- Equality of schemas; bounds compare by value, and one that is no number equals nothing.
def equal : Schema → Schema → Bool
  | .object { name, info, properties, parents, conflicts, additionalProperties }, .object o =>
    name == o.name && info == o.info && equalProperties properties o.properties
      && parents == o.parents && equalConflicts conflicts o.conflicts
      && additionalProperties == o.additionalProperties
  | .union { name, info, discriminant, baseProperties, variants }, .union u =>
    name == u.name && info == u.info && discriminant == u.discriminant
      && equalProperties baseProperties u.baseProperties && equalVariants variants u.variants
  | .enumeration a, .enumeration b => a == b
  | .primitive a, .primitive b => a.info == b.info && a.value.equal b.value
  | .array a items, .array b others => a == b && equal items others
  | .map a value, .map b other => a == b && equal value other
  | .reference a target, .reference b other => a == b && target == other
  | .unknown a, .unknown b => a == b
  | _, _ => false

def equalProperties : List (Property Schema) → List (Property Schema) → Bool
  | [], [] => true
  | ⟨key, name, schema, required⟩ :: rest, p :: others =>
    key == p.key && name == p.name && equal schema p.schema && required == p.required
      && equalProperties rest others
  | _, _ => false

def equalVariants : List (Variant Schema) → List (Variant Schema) → Bool
  | [], [] => true
  | ⟨value, schema⟩ :: rest, v :: others =>
    value == v.discriminantValue && equal schema v.schema && equalVariants rest others
  | _, _ => false

def equalConflicts : List (PropertyConflict Schema) → List (PropertyConflict Schema) → Bool
  | [], [] => true
  | ⟨key, existing, conflicting⟩ :: rest, c :: others =>
    key == c.propertyKey && equal existing c.existing && equal conflicting c.conflicting
      && equalConflicts rest others
  | _, _ => false
end

def sameShape (a b : Schema) : Bool := equal (shape a) (shape b)

end Schema

end ApiLowering.Ir
