import ApiLowering.Json.Basic

/-!
Schemas of an API document. A schema stands inline, is referred to by a pointer, or is a node that
is no schema at all. Subschemas nest inside the keywords of an inline schema.
-/

set_option autoImplicit false

namespace ApiLowering

inductive SchemaType where
  | string
  | number
  | integer
  | boolean
  | array
  | object
  | null
  | unsupported
deriving DecidableEq, Repr

inductive TypeSet where
  | single (type : SchemaType)
  | multiple (types : List SchemaType)
deriving DecidableEq, Repr

structure Discriminator where
  propertyName : String
  mapping : Entries String
deriving DecidableEq, Repr

inductive Additional (α : Type) where
  | allowed (value : Bool)
  | schema (value : α)

-- The keywords of a schema with subschemas in `α`; keywords that mean nothing to the lowering are
-- kept as extensions.
structure Keywords (α : Type) where
  type : Option TypeSet
  format : Option String
  title : Option String
  description : Option String
  nullable : Option Bool
  properties : List (String × α)
  required : List String
  additionalProperties : Option (Additional α)
  items : Option α
  allOf : List α
  oneOf : List α
  anyOf : List α
  discriminator : Option Discriminator
  enumValues : List Json
  constValue : Option Json
  minimum : Option Binary64
  maximum : Option Binary64
  minLength : Option UInt64
  maxLength : Option UInt64
  pattern : Option String
  extensions : List (String × Json)

inductive SchemaNode where
  | reference (target : String)
  | inline (schema : Keywords SchemaNode)
  | invalid (value : Json)

abbrev Schema : Type := Keywords SchemaNode

namespace Keywords

def empty {α : Type} : Keywords α :=
  { type := none, format := none, title := none, description := none, nullable := none
    properties := [], required := [], additionalProperties := none, items := none
    allOf := [], oneOf := [], anyOf := [], discriminator := none, enumValues := []
    constValue := none, minimum := none, maximum := none, minLength := none, maxLength := none
    pattern := none, extensions := [] }

variable {α : Type}

def typeIncludesNull (s : Keywords α) : Bool :=
  match s.type with
  | some (.multiple types) => types.contains .null
  | _ => false

def isObjectLike (s : Keywords α) : Bool :=
  match s.type with
  | some (.single type) => type = .object
  | some (.multiple types) => types.contains .object
  | none => !s.properties.isEmpty || s.additionalProperties.isSome

-- Whether every type given is null; a schema without types has none that is not.
def isNullOrUntyped (s : Keywords α) : Bool :=
  match s.type with
  | none => true
  | some (.single type) => type = .null
  | some (.multiple types) => types.all (· = .null)

-- Whether the schema annotates only and declares no shape of its own.
def isAnnotationOnly (s : Keywords α) : Bool :=
  s.isNullOrUntyped && s.format.isNone && s.properties.isEmpty && s.required.isEmpty
    && s.additionalProperties.isNone && s.items.isNone && s.allOf.isEmpty && s.oneOf.isEmpty
    && s.anyOf.isEmpty && s.discriminator.isNone && s.enumValues.isEmpty && s.constValue.isNone

def isNullOnly (s : Keywords α) : Bool :=
  match s.type with
  | some (.single type) => type = .null
  | some (.multiple types) => !types.isEmpty && types.all (· = .null)
  | none => false

def allowsAdditional (s : Keywords α) : Bool :=
  match s.additionalProperties with
  | some (.allowed allowed) => allowed
  | some (.schema _) => true
  | none => false

end Keywords

namespace SchemaNode

def inline? : SchemaNode → Option Schema
  | .inline s => some s
  | _ => none

def target? : SchemaNode → Option String
  | .reference target => some target
  | _ => none

-- Whether the node is an inline schema whose types, if it lists several, are all null.
def isNullType : SchemaNode → Bool
  | .inline s =>
    match s.type with
    | some (.single type) => type = .null
    | some (.multiple types) => types.all (· = .null)
    | none => false
  | _ => false

def annotates : SchemaNode → Bool
  | .inline s => s.isAnnotationOnly
  | _ => false

mutual
-- The inline schemas at and under a node, each before those nested in it. References are not
-- followed.
def inlineSchemas : SchemaNode → List Schema
  | .reference _ => []
  | .inline s => s :: nestedSchemas s
  | .invalid _ => []

def nestedSchemas : Keywords SchemaNode → List Schema
  | { properties, additionalProperties, items, allOf, oneOf, anyOf, .. } =>
    entrySchemas properties ++ optionSchemas items ++ additionalSchemas additionalProperties
      ++ listSchemas allOf ++ listSchemas oneOf ++ listSchemas anyOf

def entrySchemas : List (String × SchemaNode) → List Schema
  | [] => []
  | (_, node) :: rest => inlineSchemas node ++ entrySchemas rest

def listSchemas : List SchemaNode → List Schema
  | [] => []
  | node :: rest => inlineSchemas node ++ listSchemas rest

def optionSchemas : Option SchemaNode → List Schema
  | none => []
  | some node => inlineSchemas node

def additionalSchemas : Option (Additional SchemaNode) → List Schema
  | some (.schema node) => inlineSchemas node
  | _ => []
end

end SchemaNode

def sameOption {α : Type} (same : α → α → Bool) : Option α → Option α → Bool
  | none, none => true
  | some a, some b => same a b
  | _, _ => false

def Keywords.sameScalars {α : Type} (s t : Keywords α) : Bool :=
  s.type == t.type && s.format == t.format && s.title == t.title && s.description == t.description
    && s.nullable == t.nullable && s.required == t.required
    && sameOption (fun d e => d.propertyName == e.propertyName
      && Entries.agree (· == ·) d.mapping e.mapping) s.discriminator t.discriminator
    && Json.equalList s.enumValues t.enumValues
    && sameOption Json.equal s.constValue t.constValue
    && sameOption Binary64.equal s.minimum t.minimum
    && sameOption Binary64.equal s.maximum t.maximum
    && s.minLength == t.minLength && s.maxLength == t.maxLength && s.pattern == t.pattern
    && Entries.agree Json.equal s.extensions t.extensions

namespace SchemaNode

mutual
-- Equality of schema nodes. The order of properties and extensions does not count, and numbers
-- compare by value.
def equal : SchemaNode → SchemaNode → Bool
  | .reference a, .reference b => a == b
  | .inline s, .inline t => s.sameScalars t && equalNested s t
  | .invalid a, .invalid b => a.equal b
  | _, _ => false

def equalNested : Keywords SchemaNode → Keywords SchemaNode → Bool
  | { properties, additionalProperties, items, allOf, oneOf, anyOf, .. }, t =>
    properties.length == t.properties.length && equalEntries properties t.properties
      && equalAdditional additionalProperties t.additionalProperties
      && equalOption items t.items && equalList allOf t.allOf && equalList oneOf t.oneOf
      && equalList anyOf t.anyOf

def equalEntries : List (String × SchemaNode) → List (String × SchemaNode) → Bool
  | [], _ => true
  | (key, node) :: rest, others =>
    (match Entries.get? key others with
      | some other => equal node other
      | none => false) && equalEntries rest others

def equalList : List SchemaNode → List SchemaNode → Bool
  | [], [] => true
  | a :: as, b :: bs => equal a b && equalList as bs
  | _, _ => false

def equalOption : Option SchemaNode → Option SchemaNode → Bool
  | none, none => true
  | some a, some b => equal a b
  | _, _ => false

def equalAdditional : Option (Additional SchemaNode) → Option (Additional SchemaNode) → Bool
  | none, none => true
  | some (.allowed a), some (.allowed b) => a == b
  | some (.schema a), some (.schema b) => equal a b
  | _, _ => false
end

end SchemaNode

end ApiLowering
