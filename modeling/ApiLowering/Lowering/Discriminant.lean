import ApiLowering.Document.Basic
import ApiLowering.Ir.Schema.Basic
import ApiLowering.Pointer

/-!
Discriminants of unions. A schema that is a member of a union with a discriminant does not declare
the discriminant as a property of its own.
-/

set_option autoImplicit false

namespace ApiLowering.Discriminant

-- The pointer that a mapping value stands for; a bare name stands for a component schema.
def target (value : String) : String :=
  let cs := value.toList
  if Text.startsWith ['#'] cs || cs.contains '/' || cs.contains '.' then value
  else Pointer.ofSchema value

def memberPointers (s : Schema) (d : Discriminator) : List String :=
  (s.oneOf ++ s.anyOf).filterMap SchemaNode.target? ++ (Entries.values d.mapping).map target

-- By pointer, the ascending discriminants of the unions that it is a member of.
abbrev Table : Type := Entries (List String)

def addMember (discriminant : String) (table : Table) (pointer : String) : Table :=
  Entries.put pointer (insertSorted discriminant ((Entries.get? pointer table).getD [])) table

def addSchema (table : Table) (s : Schema) : Table :=
  match s.discriminator with
  | none => table
  | some d => (memberPointers s d).foldl (addMember d.propertyName) table

def ofDocument (d : ApiDocument) : Table := d.inlineSchemas.foldl addSchema []

def of (table : Table) (pointer : String) : List String := (Entries.get? pointer table).getD []

def strip (table : Table) (id : String) : Ir.Schema → Ir.Schema
  | .object o =>
    let dropped := of table (Pointer.ofSchema id)
    .object { o with
      properties := o.properties.filter fun p => !dropped.contains p.key
      conflicts := o.conflicts.filter fun c => !dropped.contains c.propertyKey }
  | other => other

def stripAll (table : Table) (schemas : Entries Ir.Schema) : Entries Ir.Schema :=
  schemas.map fun e => (e.1, strip table e.1 e.2)

end ApiLowering.Discriminant
