import ApiLowering.Ir.File

/-!
Occurrences of schemas in the intermediate representation: the schemas that a schema holds, at any
depth, and those that a file holds in its components, its endpoints and its webhooks.
-/

set_option autoImplicit false

namespace ApiLowering.Ir

namespace Schema

-- The schemas that a schema holds directly, those of its conflicts included.
def parts : Schema → List Schema
  | .object o =>
    o.properties.map Property.schema ++ o.conflicts.flatMap fun c => [c.existing, c.conflicting]
  | .union u => u.baseProperties.map Property.schema ++ u.variants.map Variant.schema
  | .array _ items => [items]
  | .map _ value => [value]
  | _ => []

/-- The first schema stands somewhere in the second one. -/
inductive Occurs (t : Schema) : Schema → Prop where
  | here : Occurs t t
  | inside {s part : Schema} (held : part ∈ s.parts) (deeper : Occurs t part) : Occurs t s

theorem occurs_trans {s t u : Schema} (first : Occurs s t) (second : Occurs t u) : Occurs s u := by
  induction second with
  | here => exact first
  | inside held _ ih => exact .inside held ih

def Throughout (good : Schema → Prop) (s : Schema) : Prop := ∀ t, Occurs t s → good t

section

variable {good : Schema → Prop} {s : Schema}

theorem throughout_iff : Throughout good s ↔ good s ∧ ∀ part ∈ s.parts, Throughout good part := by
  constructor
  · intro all
    exact ⟨all s .here, fun part held t occurs => all t (.inside held occurs)⟩
  · rintro ⟨own, parts⟩ t occurs
    cases occurs with
    | here => exact own
    | inside held deeper => exact parts _ held t deeper

theorem throughout_leaf (own : good s) (none : s.parts = []) : Throughout good s :=
  throughout_iff.mpr ⟨own, fun _ held => absurd (none ▸ held) List.not_mem_nil⟩

theorem throughout_object {o : ObjectSchema Schema} (own : good (.object o))
    (properties : ∀ p ∈ o.properties, Throughout good p.schema)
    (conflicts : ∀ c ∈ o.conflicts, Throughout good c.existing ∧ Throughout good c.conflicting) :
    Throughout good (.object o) := by
  refine throughout_iff.mpr ⟨own, fun part held => ?_⟩
  rcases List.mem_append.mp held with declared | recorded
  · obtain ⟨p, listed, same⟩ := List.mem_map.mp declared
    subst same
    exact properties p listed
  · obtain ⟨c, listed, among⟩ := List.mem_flatMap.mp recorded
    obtain ⟨existing, conflicting⟩ := conflicts c listed
    rcases List.mem_cons.mp among with same | rest
    · subst same
      exact existing
    · cases List.mem_singleton.mp rest
      exact conflicting

theorem throughout_union {u : UnionSchema Schema} (own : good (.union u))
    (base : ∀ p ∈ u.baseProperties, Throughout good p.schema)
    (variants : ∀ v ∈ u.variants, Throughout good v.schema) : Throughout good (.union u) := by
  refine throughout_iff.mpr ⟨own, fun part held => ?_⟩
  rcases List.mem_append.mp held with declared | alternative
  · obtain ⟨p, listed, same⟩ := List.mem_map.mp declared
    subst same
    exact base p listed
  · obtain ⟨v, listed, same⟩ := List.mem_map.mp alternative
    subst same
    exact variants v listed

@[simp] theorem parts_mapInfo (f : Meta → Meta) (s : Schema) : (s.mapInfo f).parts = s.parts := by
  cases s <;> rfl

@[simp] theorem parts_setName (name : NameVariants) (s : Schema) :
    (s.setName name).parts = s.parts := by
  cases s <;> rfl

theorem throughout_mapInfo {f : Meta → Meta} (all : Throughout good s)
    (own : good s → good (s.mapInfo f)) : Throughout good (s.mapInfo f) := by
  obtain ⟨fine, parts⟩ := throughout_iff.mp all
  exact throughout_iff.mpr ⟨own fine, by rwa [parts_mapInfo]⟩

theorem throughout_setName {name : NameVariants} (all : Throughout good s)
    (own : good s → good (s.setName name)) : Throughout good (s.setName name) := by
  obtain ⟨fine, parts⟩ := throughout_iff.mp all
  exact throughout_iff.mpr ⟨own fine, by rwa [parts_setName]⟩

end

end Schema

def MultipartKind.schemas : MultipartKind → List Schema
  | .file _ _ => []
  | .field schema => [schema]

def Request.schemas : Request → List Schema
  | .json _ schema _ _ => [schema]
  | .multipart _ properties _ _ => properties.flatMap fun p => p.kind.schemas
  | .bytes _ _ _ => []

def Response.schemas : Response → List Schema
  | .json _ schema _ => [schema]
  | .streaming _ schema _ => [schema]
  | .file _ _ => []
  | .text _ _ => []

def Endpoint.schemas (e : Endpoint) : List Schema :=
  (e.pathParameters ++ e.queryParameters ++ e.headers).map Parameter.schema
    ++ e.request.toList.flatMap Request.schemas
    ++ e.response.toList.flatMap Response.schemas
    ++ e.errorResponses.flatMap fun e => e.schema.toList

def Webhook.schemas (w : Webhook) : List Schema := w.headers.map Parameter.schema ++ [w.payload]

/-- The schema occurs in a file: in a component, an endpoint or a webhook. -/
def File.Holds (f : File) (s : Schema) : Prop :=
  ∃ root ∈ Entries.values f.schemas ++ f.endpoints.flatMap Endpoint.schemas
    ++ f.webhooks.flatMap Webhook.schemas, Schema.Occurs s root

end ApiLowering.Ir
