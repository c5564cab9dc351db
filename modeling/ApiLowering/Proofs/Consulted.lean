import ApiLowering.Proofs.Forms
import ApiLowering.Proofs.Unrolled

/-!
Which nodes are lowered for a schema. This depends on its form: a composition that reduces to a member
leaves everything else aside, one that is merged lowers the properties that its members bring and not
the members, and a type lowers its own keywords only.
-/

set_option autoImplicit false

namespace ApiLowering

-- Only an empty text gives no name.
theorem NameVariants.derive_none (raw : String) (wire : Option String) :
    derive? raw wire = none ↔ raw = "" := by
  unfold derive?
  constructor
  · intro unnamed
    split at unnamed
    · rename_i empty
      exact String.isEmpty_iff.mp empty
    · cases unnamed
  · intro empty
    rw [empty]
    rfl

theorem NameVariants.derive_some {raw : String} (named : raw ≠ "") (wire : Option String) :
    ∃ name, derive? raw wire = some name :=
  Option.ne_none_iff_exists'.mp fun unnamed => named ((derive_none raw wire).mp unnamed)

namespace SchemaLowering

open ApiLowering.Composition (Declaration Leads)

-- The text that a property is named after: an extension of its schema, or its key.
def namedAfter (d : Declaration) : String :=
  (d.2.inline?.bind fun s => Extension.text? s.extensions Extension.propertyNameKey).getD d.1

theorem propertyName_none (d : Declaration) : propertyName? d.1 d.2 = none ↔ namedAfter d = "" :=
  NameVariants.derive_none (namedAfter d) (some d.1)

theorem namedAfter_some {d : Declaration} {name : NameVariants}
    (derived : propertyName? d.1 d.2 = some name) : namedAfter d ≠ "" :=
  fun empty => nomatch derived.symm.trans ((propertyName_none d).mpr empty)

-- The types that a schema is lowered as.
def types (s : Schema) : List SchemaType :=
  match s.type with
  | some (.single type) => [type]
  | some (.multiple types) => types.filter (· ≠ .null)
  | none => if s.isObjectLike then [.object] else if s.items.isSome then [.array] else []

/-- The nodes that are lowered when an inline schema is. -/
inductive Consults (r : Resolver) (s : Schema) : SchemaNode → Prop where
  | reduced {index : Nat} {member : SchemaNode} (shape : form s = .reduced index member) :
      Consults r s member
  | declared {t : Schema} {key : String} {node : SchemaNode} (shape : form s = .composed)
      (led : Leads r (.inline s) (.inline t)) (listed : (key, node) ∈ t.properties)
      (named : namedAfter (key, node) ≠ "") : Consults r s node
  | tagged {d : Discriminator} {member : SchemaNode} {value : String} (shape : form s = .tagged d)
      (listed : member ∈ (unionMembers s).2) (told : discriminantValue? d member = some value)
      (named : value ≠ "") : Consults r s member
  | base {d : Discriminator} {key : String} {node : SchemaNode} (shape : form s = .tagged d)
      (listed : (key, node) ∈ s.properties) (other : key ≠ d.propertyName)
      (named : namedAfter (key, node) ≠ "") : Consults r s node
  | collapsed {index : Nat} {member : SchemaNode} (shape : form s = .collapsed index member) :
      Consults r s member
  | variant {member : SchemaNode} (shape : form s = .union) (listed : member ∈ (unionMembers s).2)
      (shaped : member.isNullType = false) : Consults r s member
  | shared {key : String} {node : SchemaNode} (shape : form s = .union)
      (listed : (key, node) ∈ s.properties) (named : namedAfter (key, node) ≠ "") : Consults r s node
  | items {node : SchemaNode} (shape : form s = .typed) (typed : .array ∈ types s)
      (present : s.items = some node) : Consults r s node
  | property {key : String} {node : SchemaNode} (shape : form s = .typed)
      (typed : .object ∈ types s) (listed : (key, node) ∈ s.properties)
      (named : namedAfter (key, node) ≠ "") : Consults r s node
  | value {node : SchemaNode} (shape : form s = .typed) (typed : .object ∈ types s)
      (bare : s.properties = []) (present : s.additionalProperties = some (.schema node)) :
      Consults r s node

/-- The schemas that are lowered when a node is, by themselves or for one another. -/
inductive Lowered (r : Resolver) : SchemaNode → Schema → Prop where
  | here {s : Schema} : Lowered r (.inline s) s
  | part {s t : Schema} {node : SchemaNode} (consults : Consults r s node)
      (further : Lowered r node t) : Lowered r (.inline s) t

end SchemaLowering

end ApiLowering
