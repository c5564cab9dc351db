import ApiLowering.Proofs.Everywhere
import ApiLowering.Proofs.Recursion
import ApiLowering.Proofs.Retention

/-!
Inline schemas in the values that documents are read from. Every inline schema of a document that was
read stands somewhere in the value, however deep it is nested, and has the extensions of the object
that stands there.
-/

set_option autoImplicit false

namespace ApiLowering

namespace Codec

-- Whatever is read as the value, the schema stands somewhere in it.
def Reaches {α : Type} (c : Codec α) (a : α) (t : Schema) : Prop :=
  ∀ (mode : Mode) (value : Json), value.Proper → c.read mode (Tree.ofJson value) = .ok a →
    ∃ (place : Json.Place) (β : Type) (part : Codec β) (wrap : Schema → β) (put : β → α),
      part.Wraps SchemaNode.extended wrap ∧ Part c a place part (wrap t) put

variable {α β : Type} {c : Codec α} {t : Schema}

theorem reaches_below {a : α} {step : Json.Step} {inner : Codec β} {b : β} {put : β → α}
    (child : Child c a step inner b put) (below : inner.Reaches b t) : c.Reaches a t := by
  intro mode value proper read
  obtain ⟨next, found, stands⟩ := child.stands proper read
  obtain ⟨place, γ, part, wrap, set, wraps, holds⟩ :=
    below next found (proper.at_step stands.here) stands.read
  exact ⟨step :: place, γ, part, wrap, _, wraps, .deeper child holds⟩

theorem reaches_item {all : List α} {a : α} (listed : a ∈ all) (below : c.Reaches a t) :
    c.list.Reaches all t := by
  obtain ⟨index, here⟩ := List.mem_iff_getElem?.mp listed
  exact reaches_below (.item here) below

theorem reaches_entry {all : Entries α} {e : String × α} (listed : e ∈ all)
    (below : c.Reaches e.2 t) : c.entries.Reaches all t := by
  intro mode value proper read
  have distinct : (Entries.keys all).Nodup :=
    entries_distinct c.read mode (Tree.ofJson value) all proper.inRange read
  exact reaches_below (.entry (get_of_mem distinct listed)) below mode value proper read

theorem reaches_some {found : Option α} {a : α} (present : found = some a)
    (below : c.optional.Reaches (some a) t) : found ≠ none ∧ c.optional.Reaches found t := by
  subst present
  exact ⟨Option.some_ne_none a, below⟩

end Codec

namespace Extended

variable {σ : Type} {r : Extended σ} {a : σ} {t : Schema}

-- The schema is reached from the record, however that is held.
def Reaches (r : Extended σ) (a : σ) (t : Schema) : Prop :=
  ∀ ⦃α : Type⦄ ⦃c : Codec α⦄ ⦃wrap : σ → α⦄, c.Wraps r wrap → c.Reaches (wrap a) t

theorem reaches_slot (r : Extended σ) (a : σ) {p : Slot σ} (known : p ∈ r.outline.slots)
    (given : p.get a ≠ p.get r.record.blank) (below : p.codec.Reaches (p.get a) t) : r.Reaches a t :=
  fun _ _ _ wraps => Codec.reaches_below (.slot wraps known given) below

end Extended

variable {t : Schema}

namespace SchemaNode

theorem inline_reaches (s : Schema) (here : t ∈ (inline s).inlineSchemas) : extended.Reaches s t := by
  rcases inlineSchemas_cases here with rfl | ⟨node, part, among⟩
  · exact fun _ _ _ wraps _ _ _ _ => ⟨[], _, _, _, id, wraps, .whole _ _⟩
  · cases node with
    | reference | invalid => cases among
    | inline inner =>
      have less := SchemaLowering.part_lt part
      have below : extended.Reaches inner t := inline_reaches inner among
      cases part with
      | items present =>
        obtain ⟨given, within⟩ := Codec.reaches_some present (below (.optional .schema))
        exact extended.reaches_slot s (List.get_mem _ ⟨8, by decide⟩) given within
      | additional present =>
        obtain ⟨given, within⟩ := Codec.reaches_some present (below (.optional .additional))
        exact extended.reaches_slot s (List.get_mem _ ⟨7, by decide⟩) given within
      | property listed =>
        exact extended.reaches_slot s (List.get_mem _ ⟨5, by decide⟩) (List.ne_nil_of_mem listed)
          (Codec.reaches_entry listed (below .schema))
      | all listed =>
        exact extended.reaches_slot s (List.get_mem _ ⟨9, by decide⟩) (List.ne_nil_of_mem listed)
          (Codec.reaches_item listed (below .schema))
      | one listed =>
        exact extended.reaches_slot s (List.get_mem _ ⟨10, by decide⟩) (List.ne_nil_of_mem listed)
          (Codec.reaches_item listed (below .schema))
      | any listed =>
        exact extended.reaches_slot s (List.get_mem _ ⟨11, by decide⟩) (List.ne_nil_of_mem listed)
          (Codec.reaches_item listed (below .schema))
termination_by sizeOf s
decreasing_by
  simp only [inline.sizeOf_spec] at less
  omega

theorem reaches {node : SchemaNode} (here : t ∈ node.inlineSchemas) : codec.Reaches node t := by
  cases node with
  | reference | invalid => cases here
  | inline s => exact inline_reaches s here .schema

theorem optional_reaches {found : Option SchemaNode} (here : t ∈ optionSchemas found) :
    found ≠ none ∧ codec.optional.Reaches found t := by
  cases found with
  | none => cases here
  | some node =>
    refine ⟨Option.some_ne_none node, ?_⟩
    cases node with
    | reference | invalid => cases here
    | inline s => exact inline_reaches s here (.optional .schema)

end SchemaNode

theorem MediaType.reaches {m : MediaType} (here : t ∈ SchemaNode.optionSchemas m.schema) :
    extended.Reaches m t := by
  obtain ⟨given, below⟩ := SchemaNode.optional_reaches here
  exact extended.reaches_slot m (List.get_mem _ ⟨0, by decide⟩) given below

theorem MediaType.content_reaches {content : Entries MediaType} (here : t ∈ contentSchemas content) :
    content ≠ [] ∧ extended.codec.entries.Reaches content t := by
  obtain ⟨e, listed, among⟩ := List.mem_flatMap.mp here
  exact ⟨List.ne_nil_of_mem listed, Codec.reaches_entry listed (reaches among (.record _))⟩

theorem RequestBody.reaches {b : RequestBody} (here : t ∈ MediaType.contentSchemas b.content) :
    extended.Reaches b t := by
  obtain ⟨given, below⟩ := MediaType.content_reaches here
  exact extended.reaches_slot b (List.get_mem _ ⟨1, by decide⟩) given below

theorem Response.reaches {r : Response} (here : t ∈ MediaType.contentSchemas r.content) :
    extended.Reaches r t := by
  obtain ⟨given, below⟩ := MediaType.content_reaches here
  exact extended.reaches_slot r (List.get_mem _ ⟨1, by decide⟩) given below

theorem Parameter.reaches {p : Parameter} (here : t ∈ SchemaNode.optionSchemas p.schema) :
    extended.Reaches p t := by
  obtain ⟨given, below⟩ := SchemaNode.optional_reaches here
  exact extended.reaches_slot p (List.get_mem _ ⟨5, by decide⟩) given below

theorem ParameterNode.reaches {node : ParameterNode} (here : t ∈ node.schemas) :
    codec.Reaches node t := by
  cases node with
  | reference | invalid => cases here
  | inline p => exact p.reaches here .parameter

theorem ResponseNode.reaches {node : ResponseNode} (here : t ∈ node.schemas) :
    codec.Reaches node t := by
  cases node with
  | reference | invalid => cases here
  | inline r => exact r.reaches here .response

theorem RequestBodyNode.reaches {node : RequestBodyNode} (here : t ∈ node.schemas) :
    codec.Reaches node t := by
  cases node with
  | reference | invalid => cases here
  | inline b => exact b.reaches here .requestBody

theorem Operation.reaches {o : Operation} (here : t ∈ o.schemas) : extended.Reaches o t := by
  simp only [schemas, Entries.values, List.mem_append, List.mem_flatMap, List.mem_map,
    Option.mem_toList] at here
  rcases here with (⟨node, listed, among⟩ | ⟨node, present, among⟩) | ⟨_, ⟨e, listed, rfl⟩, among⟩
  · exact extended.reaches_slot o (List.get_mem _ ⟨4, by decide⟩) (List.ne_nil_of_mem listed)
      (Codec.reaches_item listed (ParameterNode.reaches among))
  · cases node with
    | reference | invalid => cases among
    | inline b =>
      obtain ⟨given, below⟩ := Codec.reaches_some present (b.reaches among (.optional .requestBody))
      exact extended.reaches_slot o (List.get_mem _ ⟨5, by decide⟩) given below
  · exact extended.reaches_slot o (List.get_mem _ ⟨6, by decide⟩) (List.ne_nil_of_mem listed)
      (Codec.reaches_entry listed (ResponseNode.reaches among))

theorem PathItem.reaches {item : PathItem} (here : t ∈ item.schemas) : extended.Reaches item t := by
  simp only [schemas, List.mem_append, List.mem_flatMap] at here
  rcases here with ⟨node, listed, among⟩ | ⟨e, listed, among⟩
  · exact extended.reaches_slot item (List.get_mem _ ⟨2, by decide⟩) (List.ne_nil_of_mem listed)
      (Codec.reaches_item listed (ParameterNode.reaches among))
  · obtain ⟨name, get, set, get_set, known, blank, present⟩ := operation_slot listed
    obtain ⟨given, below⟩ :=
      Codec.reaches_some present (Operation.reaches among (.optional (.record _)))
    rw [← blank] at given
    exact extended.reaches_slot item known given below

theorem Components.reaches {c : Components} (here : t ∈ c.inlineSchemas) : extended.Reaches c t := by
  simp only [inlineSchemas, Entries.values, List.mem_append, List.mem_flatMap, List.mem_map] at here
  rcases here with ((⟨_, ⟨e, listed, rfl⟩, among⟩ | ⟨_, ⟨e, listed, rfl⟩, among⟩) |
    ⟨_, ⟨e, listed, rfl⟩, among⟩) | ⟨_, ⟨e, listed, rfl⟩, among⟩
  · exact extended.reaches_slot c (List.get_mem _ ⟨0, by decide⟩) (List.ne_nil_of_mem listed)
      (Codec.reaches_entry listed (SchemaNode.reaches among))
  · exact extended.reaches_slot c (List.get_mem _ ⟨2, by decide⟩) (List.ne_nil_of_mem listed)
      (Codec.reaches_entry listed (ParameterNode.reaches among))
  · exact extended.reaches_slot c (List.get_mem _ ⟨3, by decide⟩) (List.ne_nil_of_mem listed)
      (Codec.reaches_entry listed (RequestBodyNode.reaches among))
  · exact extended.reaches_slot c (List.get_mem _ ⟨1, by decide⟩) (List.ne_nil_of_mem listed)
      (Codec.reaches_entry listed (ResponseNode.reaches among))

namespace ApiDocument

variable {value : Json} {d : ApiDocument}

theorem reaches (here : t ∈ d.inlineSchemas) : codec.Reaches d t := by
  have items {all : Entries (Option PathItem)} {e : String × Option PathItem} {item : PathItem}
      (listed : e ∈ all) (present : e.2 = some item) (among : t ∈ item.schemas) :
      PathItem.extended.codec.optional.entries.Reaches all t := by
    refine Codec.reaches_entry listed ?_
    rw [present]
    exact PathItem.reaches among (.optional (.record _))
  have whole : extended.Reaches d t := by
    simp only [inlineSchemas, Entries.values, List.mem_append, List.mem_flatMap, List.mem_map,
      Option.mem_toList] at here
    rcases here with ⟨_, ⟨e, listed, rfl⟩ | ⟨e, listed, rfl⟩, item, present, among⟩ |
      ⟨c, present, among⟩
    · exact extended.reaches_slot d (List.get_mem _ ⟨3, by decide⟩) (List.ne_nil_of_mem listed)
        (items listed present among)
    · exact extended.reaches_slot d (List.get_mem _ ⟨4, by decide⟩) (List.ne_nil_of_mem listed)
        (items listed present among)
    · obtain ⟨given, below⟩ :=
        Codec.reaches_some present (Components.reaches among (.optional (.record _)))
      exact extended.reaches_slot d (List.get_mem _ ⟨5, by decide⟩) given below
  exact whole (.record _)

/-- Every inline schema of a document stands at a place of the value that the document was read from,
and has just the extensions of the object there. -/
theorem schema_placed (proper : value.Proper) (parsed : ofJson value = .ok d)
    (here : t ∈ d.inlineSchemas) :
    ∃ place entries, value.at? place = some (.object entries) ∧
      ∀ key v, isExtension key = true → ((key, v) ∈ t.extensions ↔ (key, v) ∈ entries) := by
  have decoded := supported_ok parsed
  obtain ⟨place, β, part, wrap, put, wraps, holds⟩ := reaches here .json value proper decoded
  obtain ⟨entries, there, kept⟩ := holds.extensions wraps proper decoded
  exact ⟨place, entries, there, kept⟩

end ApiDocument

end ApiLowering
