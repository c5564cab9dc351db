import ApiLowering.Proofs.Throughout

/-!
Lowered schemas are grounded in what they were lowered from. A reference and a parent lead to
components that there are, and a union with a discriminant comes from lowering one of the inline
schemas that the lowering was given.
-/

set_option autoImplicit false

namespace ApiLowering.SchemaLowering

open Ir.Schema (Throughout)
open Report (Certified)

/-- A union that comes from lowering a schema with a discriminator, up to a name and annotations that
it was given afterwards. -/
structure Arises (r : Resolver) (path : List String) (s : Schema) (d : Discriminator)
    (u : Ir.UnionSchema Ir.Schema) : Prop where
  shape : form s = .tagged d
  lowered : ∃ name info, (lowerTagged r path s d).outcome = .ok (.union { u with name, info })

/-- A schema that is grounded in the components of the resolver and in some inline schemas. -/
def Grounded (r : Resolver) (given : List Schema) : Ir.Schema → Prop
  | .reference _ id => Known r id
  | .object o => ∀ id ∈ o.parents, Known r id
  | .union u => ∀ key ∈ u.discriminant, ∃ s ∈ given, ∃ d path, Arises r path s d u
  | _ => True

variable {r : Resolver} {given : List Schema} {node : SchemaNode} {schema : Ir.Schema}

theorem grounded_mapInfo (f : Ir.Meta → Ir.Meta) (grounded : Grounded r given schema) :
    Grounded r given (schema.mapInfo f) := by
  cases schema with
  | union u =>
    intro key tagged
    obtain ⟨s, listed, d, path, shape, lowered⟩ := grounded key tagged
    exact ⟨s, listed, d, path, shape, lowered⟩
  | object _ | reference _ _ => exact grounded
  | enumeration _ | primitive _ | array _ _ | map _ _ | unknown _ => trivial

theorem grounded_setName (name : NameVariants) (grounded : Grounded r given schema) :
    Grounded r given (schema.setName name) := by
  cases schema with
  | union u =>
    intro key tagged
    obtain ⟨s, listed, d, path, shape, lowered⟩ := grounded key tagged
    exact ⟨s, listed, d, path, shape, lowered⟩
  | object _ | reference _ _ => exact grounded
  | enumeration _ | primitive _ | array _ _ | map _ _ | unknown _ => trivial

theorem grounded_forms (r : Resolver) (given : List Schema) :
    EachForm r (fun place => Inside given place.2) (Known r) (Grounded r given) where
  unknown _ := trivial
  reference known := known
  primitive _ _ := trivial
  enumeration _ := trivial
  array _ _ := trivial
  map _ _ := trivial
  object _ _ _ _ here := absurd here List.not_mem_nil
  composed _ parents := parents
  union {path s u} inside _ tagged _ _ key here := by
    obtain ⟨d, shape, lowered⟩ := tagged key here
    exact ⟨s, inside_here inside, d, path, shape, u.name, u.info, lowered⟩
  annotated f _ grounded := grounded_mapInfo f grounded

/-- What is lowered from the given schemas is grounded in them, and the references that are noted on
the way lead to components that there are. -/
theorem lower_grounded (components : ∀ e ∈ r.schemas, Inside given e.2) (path : List String)
    (inside : Inside given node) :
    Certified (Throughout (Grounded r given)) (Known r) (lower r path node) :=
  (grounded_forms r given).certified (fun _ => id) (inside_closed components) path node inside

end ApiLowering.SchemaLowering
