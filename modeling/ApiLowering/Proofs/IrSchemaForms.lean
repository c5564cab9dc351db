import ApiLowering.Ir.File
import ApiLowering.Proofs.Rules
import ApiLowering.Proofs.Rereading

/-!
Schemas of the intermediate representation are read back from their JSON form, however deep they are
nested, as long as the bounds of their numbers are finite.
-/

set_option autoImplicit false

namespace ApiLowering

namespace NameVariants

def outline : Outline NameVariants Unit where
  slots := [
    .required "originalValue" Reader.text .text originalValue
      fun v n => { n with originalValue := v },
    .required "wireValue" Reader.text .text wireValue fun v n => { n with wireValue := v },
    .required "camelCase" Reader.text .text camelCase fun v n => { n with camelCase := v },
    .required "pascalCase" Reader.text .text pascalCase fun v n => { n with pascalCase := v },
    .required "snakeCase" Reader.text .text snakeCase fun v n => { n with snakeCase := v },
    .required "screamingSnakeCase" Reader.text .text screamingSnakeCase
      fun v n => { n with screamingSnakeCase := v }]
  rest _ := ()
  withRest _ n := n

theorem rereads (n : NameVariants) : read.Rereads toJson n := by
  refine Outline.closed_rereads (o := outline) rfl rfl (fun _ => rfl) fun p known => ?_
  simp only [outline, List.mem_cons, List.not_mem_nil, or_false] at known
  rcases known with rfl | rfl | rfl | rfl | rfl | rfl <;>
    exact Slot.required_kept (Reader.text_rereads _)

end NameVariants

namespace Ir

def NumberConstraints.Finite (c : NumberConstraints) : Prop :=
  (∀ x ∈ c.minimum, x.isFinite = true) ∧ ∀ x ∈ c.maximum, x.isFinite = true

def PrimitiveType.Finite (t : PrimitiveType) : Prop :=
  ∀ bounds ∈ SchemaLowering.bounds? t, bounds.Finite

-- The bounds of the schema itself are finite; `Throughout` says so of the schemas in it too.
def Schema.FiniteHere : Schema → Prop
  | .primitive p => p.value.Finite
  | _ => True

namespace StringConstraints

def outline : Outline StringConstraints Unit where
  slots := [
    .lenient "format" Reader.text .text format fun v c => { c with format := v },
    .lenient "pattern" Reader.text .text pattern fun v c => { c with pattern := v },
    .lenient "minLength" Reader.uint64 Json.ofUInt64 minLength fun v c => { c with minLength := v },
    .lenient "maxLength" Reader.uint64 Json.ofUInt64 maxLength fun v c => { c with maxLength := v }]
  rest _ := ()
  withRest _ c := c

theorem entries_outline (c : StringConstraints) : c.entries = outline.entries c := by
  simp only [entries, Outline.entries, outline, List.flatMap_cons, List.flatMap_nil,
    Slot.lenient_entry, List.append_assoc, List.append_nil]

theorem kept (c : StringConstraints) : ∀ p ∈ outline.slots, p.Kept record.blank c := by
  intro p known
  simp only [outline, List.mem_cons, List.not_mem_nil, or_false] at known
  rcases known with rfl | rfl | rfl | rfl
  · exact Slot.lenient_kept rfl fun _ _ => Reader.text_rereads _
  · exact Slot.lenient_kept rfl fun _ _ => Reader.text_rereads _
  · exact Slot.lenient_kept rfl fun _ _ => Reader.uint64_rereads _
  · exact Slot.lenient_kept rfl fun _ _ => Reader.uint64_rereads _

end StringConstraints

namespace NumberConstraints

def outline : Outline NumberConstraints Unit where
  slots := [
    .lenient "minimum" Reader.real Json.ofReal minimum fun v c => { c with minimum := v },
    .lenient "maximum" Reader.real Json.ofReal maximum fun v c => { c with maximum := v }]
  rest _ := ()
  withRest _ c := c

theorem entries_outline (c : NumberConstraints) : c.entries = outline.entries c := by
  simp only [entries, Outline.entries, outline, List.flatMap_cons, List.flatMap_nil,
    Slot.lenient_entry, List.append_nil]

theorem kept {c : NumberConstraints} (finite : c.Finite) :
    ∀ p ∈ outline.slots, p.Kept record.blank c := by
  intro p known
  simp only [outline, List.mem_cons, List.not_mem_nil, or_false] at known
  rcases known with rfl | rfl
  · exact Slot.lenient_kept rfl fun x here => Reader.real_rereads (finite.1 x here)
  · exact Slot.lenient_kept rfl fun x here => Reader.real_rereads (finite.2 x here)

end NumberConstraints

namespace PrimitiveType

theorem rereads {t : PrimitiveType} (finite : t.Finite) : read.Rereads toJson t := by
  have written {kind : String} (c : NumberConstraints) :
      Json.object (("kind", .text kind) :: c.entries) =
        .object (("kind", .text kind) :: NumberConstraints.outline.entries c) := by
    rw [c.entries_outline]
  have empty : ∀ e ∈ ([] : Entries Json), e.2.Sound := fun _ here => absurd here List.not_mem_nil
  cases t with
  | string c =>
    refine Outline.variant_rereads "string" string (fun _ => rfl) ?_ rfl (by decide) rfl rfl c.kept
    rw [← c.entries_outline]
    rfl
  | int c =>
    exact Outline.variant_rereads "int" int (fun _ => rfl) (written c) rfl (by decide) rfl rfl
      (NumberConstraints.kept (finite c rfl))
  | int64 c =>
    exact Outline.variant_rereads "int64" int64 (fun _ => rfl) (written c) rfl (by decide) rfl rfl
      (NumberConstraints.kept (finite c rfl))
  | float c =>
    exact Outline.variant_rereads "float" float (fun _ => rfl) (written c) rfl (by decide) rfl rfl
      (NumberConstraints.kept (finite c rfl))
  | double c =>
    exact Outline.variant_rereads "double" double (fun _ => rfl) (written c) rfl (by decide) rfl rfl
      (NumberConstraints.kept (finite c rfl))
  | boolean | date | dateTime | base64 | binary =>
    exact Reader.tagged_rereads rfl rfl List.not_mem_nil empty rfl

end PrimitiveType

namespace PrimitiveSchema

def outline : Outline PrimitiveSchema Meta where
  slots := [.required "value" PrimitiveType.read PrimitiveType.toJson value
    fun v p => { p with value := v }]
  rest := info
  withRest info p := { p with info }

theorem kept {p : PrimitiveSchema} (finite : p.value.Finite) :
    ∀ slot ∈ outline.slots, slot.Kept record.blank p := by
  intro slot known
  cases List.mem_singleton.mp known
  exact Slot.required_kept (PrimitiveType.rereads finite)

theorem annotated_back {p : PrimitiveSchema} (finite : p.value.Finite) :
    "type" ∉ Entries.keys p.entries ∧ (∀ e ∈ p.entries, e.2.Sound) ∧
      ∀ mode, read mode (Tree.ofJson (.object p.entries)) = .ok p :=
  outline.annotated_back [] rfl (kept finite) rfl (by decide)

theorem rereads {p : PrimitiveSchema} (finite : p.value.Finite) : read.Rereads toJson p where
  back := (annotated_back finite).2.2
  sound := .object (annotated_back finite).2.1
  present same := by cases same

end PrimitiveSchema

namespace EnumValue

def outline : Outline EnumValue Unit where
  slots := [
    .required "name" NameVariants.read NameVariants.toJson name fun v e => { e with name := v },
    .required "value" Reader.text .text value fun v e => { e with value := v },
    .lenient "description" Reader.text .text description fun v e => { e with description := v }]
  rest _ := ()
  withRest _ e := e

theorem toJson_entries (e : EnumValue) : e.toJson = .object (outline.entries e) := by
  simp only [toJson, Outline.entries, outline, List.flatMap_cons, List.flatMap_nil,
    Slot.required_entry, Slot.lenient_entry, List.append_nil, List.cons_append, List.nil_append]

theorem rereads (e : EnumValue) : record.read.Rereads toJson e := by
  refine Outline.closed_rereads (o := outline) rfl rfl toJson_entries fun p known => ?_
  simp only [outline, List.mem_cons, List.not_mem_nil, or_false] at known
  rcases known with rfl | rfl | rfl
  · exact Slot.required_kept (NameVariants.rereads _)
  · exact Slot.required_kept (Reader.text_rereads _)
  · exact Slot.lenient_kept rfl fun _ _ => Reader.text_rereads _

end EnumValue

namespace EnumSchema

def outline : Outline EnumSchema Meta where
  slots := [
    .lenient "name" NameVariants.read NameVariants.toJson name fun v e => { e with name := v },
    .required "values" (Reader.list EnumValue.record.read)
      (fun all => .list (all.map EnumValue.toJson)) values fun v e => { e with values := v }]
  rest := info
  withRest info e := { e with info }

theorem kept (e : EnumSchema) : ∀ p ∈ outline.slots, p.Kept record.blank e := by
  intro p known
  simp only [outline, List.mem_cons, List.not_mem_nil, or_false] at known
  rcases known with rfl | rfl
  · exact Slot.lenient_kept rfl fun _ _ => NameVariants.rereads _
  · exact Slot.required_kept (Reader.list_rereads fun v _ => v.rereads)

theorem entries_outline (e : EnumSchema) :
    outline.entries e = nameEntry e.name ++ [("values", .list (e.values.map EnumValue.toJson))] := by
  simp only [Outline.entries, outline, nameEntry, List.flatMap_cons, List.flatMap_nil,
    Slot.lenient_entry, Slot.required_entry, List.append_nil]

end EnumSchema

namespace Schema

section

variable {schema : Reader Schema}

def propertyJson (p : Property Schema) : Json :=
  .object [("key", .text p.key), ("name", p.name.toJson), ("schema", p.schema.toJson),
    ("required", .bool p.required)]

theorem propertiesToJson_map (ps : List (Property Schema)) :
    propertiesToJson ps = ps.map propertyJson := by
  induction ps with
  | nil => rw [propertiesToJson, List.map_nil]
  | cons p rest ih =>
    obtain ⟨key, name, schema, required⟩ := p
    rw [propertiesToJson, ih, List.map_cons, propertyJson]

def conflictJson (c : PropertyConflict Schema) : Json :=
  .object [("propertyKey", .text c.propertyKey), ("existing", c.existing.toJson),
    ("conflicting", c.conflicting.toJson)]

theorem conflictsToJson_map (cs : List (PropertyConflict Schema)) :
    conflictsToJson cs = cs.map conflictJson := by
  induction cs with
  | nil => rw [conflictsToJson, List.map_nil]
  | cons c rest ih =>
    obtain ⟨key, existing, conflicting⟩ := c
    rw [conflictsToJson, ih, List.map_cons, conflictJson]

def variantJson (v : Variant Schema) : Json :=
  .object (Json.optionEntry "discriminantValue" (v.discriminantValue.map NameVariants.toJson)
    ++ [("schema", v.schema.toJson)])

theorem variantsToJson_map (vs : List (Variant Schema)) :
    variantsToJson vs = vs.map variantJson := by
  induction vs with
  | nil => rw [variantsToJson, List.map_nil]
  | cons v rest ih =>
    obtain ⟨value, schema⟩ := v
    rw [variantsToJson, ih, List.map_cons, variantJson]

def propertyOutline (schema : Reader Schema) : Outline (Property Schema) Unit where
  slots := [
    .required "key" Reader.text .text Property.key fun v p => { p with key := v },
    .required "name" NameVariants.read NameVariants.toJson Property.name
      fun v p => { p with name := v },
    .required "schema" schema toJson Property.schema fun v p => { p with schema := v },
    .required "required" Reader.bool .bool Property.required fun v p => { p with required := v }]
  rest _ := ()
  withRest _ p := p

theorem property_rereads {p : Property Schema} (inner : schema.Rereads toJson p.schema) :
    (propertyRecord schema).read.Rereads propertyJson p := by
  refine Outline.closed_rereads (o := propertyOutline schema) rfl rfl (fun _ => rfl)
    fun slot known => ?_
  simp only [propertyOutline, List.mem_cons, List.not_mem_nil, or_false] at known
  rcases known with rfl | rfl | rfl | rfl
  · exact Slot.required_kept (Reader.text_rereads _)
  · exact Slot.required_kept (NameVariants.rereads _)
  · exact Slot.required_kept inner
  · exact Slot.required_kept (Reader.bool_rereads _)

def conflictOutline (schema : Reader Schema) : Outline (PropertyConflict Schema) Unit where
  slots := [
    .required "propertyKey" Reader.text .text PropertyConflict.propertyKey
      fun v c => { c with propertyKey := v },
    .required "existing" schema toJson PropertyConflict.existing
      fun v c => { c with existing := v },
    .required "conflicting" schema toJson PropertyConflict.conflicting
      fun v c => { c with conflicting := v }]
  rest _ := ()
  withRest _ c := c

theorem conflict_rereads {c : PropertyConflict Schema} (existing : schema.Rereads toJson c.existing)
    (conflicting : schema.Rereads toJson c.conflicting) :
    (conflictRecord schema).read.Rereads conflictJson c := by
  refine Outline.closed_rereads (o := conflictOutline schema) rfl rfl (fun _ => rfl)
    fun slot known => ?_
  simp only [conflictOutline, List.mem_cons, List.not_mem_nil, or_false] at known
  rcases known with rfl | rfl | rfl
  · exact Slot.required_kept (Reader.text_rereads _)
  · exact Slot.required_kept existing
  · exact Slot.required_kept conflicting

def variantOutline (schema : Reader Schema) : Outline (Variant Schema) Unit where
  slots := [
    .lenient "discriminantValue" NameVariants.read NameVariants.toJson Variant.discriminantValue
      fun v u => { u with discriminantValue := v },
    .required "schema" schema toJson Variant.schema fun v u => { u with schema := v }]
  rest _ := ()
  withRest _ u := u

theorem variant_rereads {v : Variant Schema} (inner : schema.Rereads toJson v.schema) :
    (variantRecord schema).read.Rereads variantJson v := by
  refine Outline.closed_rereads (o := variantOutline schema) rfl rfl (fun _ => rfl)
    fun slot known => ?_
  simp only [variantOutline, List.mem_cons, List.not_mem_nil, or_false] at known
  rcases known with rfl | rfl
  · exact Slot.lenient_kept rfl fun _ _ => NameVariants.rereads _
  · exact Slot.required_kept inner

def objectOutline (schema : Reader Schema) : Outline (ObjectSchema Schema) Meta where
  slots := [
    .lenient "name" NameVariants.read NameVariants.toJson ObjectSchema.name
      fun v o => { o with name := v },
    .required "properties" (Reader.list (propertyRecord schema).read)
      (fun all => .list (all.map propertyJson)) ObjectSchema.properties
      fun v o => { o with properties := v },
    .required "extends" (Reader.list Reader.text) Json.texts ObjectSchema.parents
      fun v o => { o with parents := v },
    .required "allOfPropertyConflicts" (Reader.list (conflictRecord schema).read)
      (fun all => .list (all.map conflictJson)) ObjectSchema.conflicts
      fun v o => { o with conflicts := v },
    .flag "additionalProperties" ObjectSchema.additionalProperties
      fun v o => { o with additionalProperties := v }]
  rest := ObjectSchema.info
  withRest info o := { o with info }

theorem object_kept {o : ObjectSchema Schema}
    (inner : ∀ part ∈ parts (.object o), schema.Rereads toJson part) :
    ∀ p ∈ (objectOutline schema).slots, p.Kept (objectRecord schema).blank o := by
  have property : ∀ p ∈ o.properties, schema.Rereads toJson p.schema :=
    fun p listed => inner _ (List.mem_append_left _ (List.mem_map_of_mem listed))
  have conflict : ∀ c ∈ o.conflicts, ∀ s ∈ [c.existing, c.conflicting], schema.Rereads toJson s :=
    fun c listed s here =>
      inner s (List.mem_append_right _ (List.mem_flatMap.mpr ⟨c, listed, here⟩))
  intro slot known
  simp only [objectOutline, List.mem_cons, List.not_mem_nil, or_false] at known
  rcases known with rfl | rfl | rfl | rfl | rfl
  · exact Slot.lenient_kept rfl fun _ _ => NameVariants.rereads _
  · exact Slot.required_kept (Reader.list_rereads fun p listed => property_rereads (property p listed))
  · exact Slot.required_kept (Reader.list_rereads fun _ _ => Reader.text_rereads _)
  · refine Slot.required_kept (Reader.list_rereads fun c listed => ?_)
    obtain ⟨existing, conflicting⟩ := List.forall_mem_cons.mp (conflict c listed)
    exact conflict_rereads existing (conflicting _ List.mem_cons_self)
  · exact Slot.flag_kept rfl

def unionOutline (schema : Reader Schema) : Outline (UnionSchema Schema) Meta where
  slots := [
    .lenient "name" NameVariants.read NameVariants.toJson UnionSchema.name
      fun v u => { u with name := v },
    .lenient "discriminant" Reader.text .text UnionSchema.discriminant
      fun v u => { u with discriminant := v },
    .list "baseProperties" (propertyRecord schema).read propertyJson UnionSchema.baseProperties
      fun v u => { u with baseProperties := v },
    .required "variants" (Reader.list (variantRecord schema).read)
      (fun all => .list (all.map variantJson)) UnionSchema.variants
      fun v u => { u with variants := v }]
  rest := UnionSchema.info
  withRest info u := { u with info }

theorem union_kept {u : UnionSchema Schema}
    (inner : ∀ part ∈ parts (.union u), schema.Rereads toJson part) :
    ∀ p ∈ (unionOutline schema).slots, p.Kept (unionRecord schema).blank u := by
  intro slot known
  simp only [unionOutline, List.mem_cons, List.not_mem_nil, or_false] at known
  rcases known with rfl | rfl | rfl | rfl
  · exact Slot.lenient_kept rfl fun _ _ => NameVariants.rereads _
  · exact Slot.lenient_kept rfl fun _ _ => Reader.text_rereads _
  · exact Slot.list_kept rfl fun p listed =>
      property_rereads (inner _ (List.mem_append_left _ (List.mem_map_of_mem listed)))
  · exact Slot.required_kept (Reader.list_rereads fun v listed =>
      variant_rereads (inner _ (List.mem_append_right _ (List.mem_map_of_mem listed))))

-- The one field of a record beside its annotations; it is none until it has been read.
def singleOutline {α : Type} (field : String) (reader : Reader α) (write : α → Json) :
    Outline (Meta × Option α) Meta where
  slots := [{
    name := field
    absence := .refused
    read := fun mode node => (reader mode node).map some
    write := Option.map write
    get := Prod.snd
    set := fun v p => (p.1, v)
    get_set := fun _ _ => rfl }]
  rest := Prod.fst
  withRest info p := (info, p.2)

theorem single_back {α : Type} {reader : Reader α} {write : α → Json} {v : α}
    (name field : String) (make : Meta → α → Schema) (info : Meta)
    (rereads : reader.Rereads write v)
    (apart : ∀ name ∈ ["type", "description", "nullable", "optional"], name ≠ field) :
    "type" ∉ Entries.keys (info.entries ++ [(field, write v)]) ∧
      (∀ e ∈ info.entries ++ [(field, write v)], e.2.Sound) ∧
      single name field reader make .held
        (Tree.ofJson (.object (info.entries ++ [(field, write v)]))) = .ok (make info v) := by
  let record : Record (Meta × Option α) :=
    { name, fields := [Field.required field reader fun v p => (p.1, some v)]
      blank := (Meta.blank, none) }
  have described : record.fields = (singleOutline field reader write).fields := by
    refine congrArg (fun read => [(⟨field, .refused, read⟩ : Field (Meta × Option α))]) ?_
    have twice (found : Except DecodeError α) (p : Meta × Option α) :
        found.map (fun v => (p.1, some v)) = (found.map some).map fun v => (p.1, v) := by
      cases found <;> rfl
    funext mode node p
    exact twice (reader mode node) p
  have kept : ∀ p ∈ (singleOutline field reader write).slots, p.Kept record.blank (info, some v) := by
    intro p known
    cases List.mem_singleton.mp known
    exact Slot.kept_written rfl rereads.sound
      fun mode => congrArg (Except.map some) (rereads.back mode)
  have beside : ∀ name ∈ ["type", "description", "nullable", "optional"],
      name ∉ (singleOutline field reader write).names :=
    fun name here among => apart name here (List.mem_singleton.mp among)
  obtain ⟨fresh, sound, back⟩ := Outline.annotated_back [] described kept rfl beside
  have finished : single name field reader make .held =
      fun node => record.readWith (singleOutline field reader write).annotate .held node >>= fun p =>
        p.2.elim (.error (.missingField field)) fun v => .ok (make p.1 v) := by
    funext node
    unfold single
    refine bind_congr fun p => ?_
    obtain ⟨info, _ | v⟩ := p <;> rfl
  refine ⟨fresh, sound, ?_⟩
  rw [finished]
  exact congrArg (fun found => found >>= _) (back .held)

-- The entries of an object and of a union behind their annotations.
def objectEntries (o : ObjectSchema Schema) : Entries Json :=
  [("properties", .list (o.properties.map propertyJson)), ("extends", Json.texts o.parents),
    ("allOfPropertyConflicts", .list (o.conflicts.map conflictJson))]
    ++ Json.trueEntry "additionalProperties" o.additionalProperties

def unionEntries (u : UnionSchema Schema) : Entries Json :=
  Json.optionEntry "discriminant" (u.discriminant.map .text)
    ++ Json.listEntry "baseProperties" (u.baseProperties.map propertyJson)
    ++ [("variants", .list (u.variants.map variantJson))]

theorem toJson_object (o : ObjectSchema Schema) :
    toJson (.object o) = .object
      (("type", .text "object") :: (nameEntry o.name ++ o.info.entries ++ objectEntries o)) := by
  obtain ⟨name, info, properties, parents, conflicts, more⟩ := o
  rw [toJson, propertiesToJson_map, conflictsToJson_map]
  simp only [objectEntries, List.append_assoc, List.cons_append, List.nil_append]

theorem toJson_union (u : UnionSchema Schema) :
    toJson (.union u) = .object
      (("type", .text "union") :: (nameEntry u.name ++ u.info.entries ++ unionEntries u)) := by
  obtain ⟨name, info, discriminant, base, variants⟩ := u
  rw [toJson, propertiesToJson_map, variantsToJson_map]
  simp only [unionEntries, List.append_assoc, List.cons_append, List.nil_append]

theorem object_entries (o : ObjectSchema Schema) :
    (objectOutline schema).entries o = nameEntry o.name ++ objectEntries o := by
  simp only [Outline.entries, objectOutline, nameEntry, objectEntries, List.flatMap_cons,
    List.flatMap_nil, Slot.lenient_entry, Slot.required_entry, Slot.flag_entry, List.append_nil,
    List.cons_append, List.nil_append]

theorem union_entries (u : UnionSchema Schema) :
    (unionOutline schema).entries u = nameEntry u.name ++ unionEntries u := by
  simp only [Outline.entries, unionOutline, nameEntry, unionEntries, List.flatMap_cons,
    List.flatMap_nil, Slot.lenient_entry, Slot.required_entry, Slot.list_entry, List.append_nil,
    List.append_assoc]

theorem object_apart (schema : Reader Schema) :
    ∀ name ∈ ["type", "description", "nullable", "optional"],
      name ∉ (objectOutline schema).names := by
  have names : (objectOutline schema).names =
      ["name", "properties", "extends", "allOfPropertyConflicts", "additionalProperties"] := rfl
  rw [names]
  decide

theorem union_apart (schema : Reader Schema) :
    ∀ name ∈ ["type", "description", "nullable", "optional"],
      name ∉ (unionOutline schema).names := by
  have names : (unionOutline schema).names =
      ["name", "discriminant", "baseProperties", "variants"] := rfl
  rw [names]
  decide

-- A record of nothing but its annotations.
def bareOutline : Outline Meta Meta where
  slots := []
  rest := id
  withRest info _ := info

theorem unknown_back (info : Meta) :
    "type" ∉ Entries.keys info.entries ∧
      unknownRecord.readWith (fun others _ => Meta.ofEntries others) .held
        (Tree.ofJson (.object info.entries)) = .ok info := by
  have names := info.entries_names
  have kept : ∀ p ∈ bareOutline.slots, p.Kept unknownRecord.blank info :=
    fun _ here => absurd here List.not_mem_nil
  refine ⟨fun here => absurd (names.subset here) (by decide), ?_⟩
  refine Outline.readWith_back (o := bareOutline) rfl
    (Outline.kept_holds kept (.refl _) (names.nodup (by decide)) fun _ _ => List.not_mem_nil) ?_
  have all : info.entries.filter bareOutline.leaves = info.entries :=
    List.filter_eq_self.mpr fun _ _ => rfl
  rw [all]
  exact Meta.ofEntries_back info

theorem part_low {s part : Schema} (held : part ∈ parts s) :
    (Tree.ofJson part.toJson).height < (Tree.ofJson s.toJson).height := by
  have property {p : Property Schema} :
      (Tree.ofJson p.schema.toJson).height < (Tree.ofJson (propertyJson p)).height :=
    Tree.height_entry (e := ("schema", p.schema.toJson))
      (by simp only [List.mem_cons, true_or, or_true])
  have listed (name : String) {json : Json} {items : List Json} {es : Entries Json}
      (item : json ∈ items) (entry : (name, Json.list items) ∈ es) :
      (Tree.ofJson json).height < (Tree.ofJson (.object es)).height :=
    Nat.lt_trans (Tree.height_item item) (Tree.height_entry entry)
  cases s with
  | object o =>
    rw [toJson_object]
    rcases List.mem_append.mp held with own | clash
    · obtain ⟨p, among, rfl⟩ := List.mem_map.mp own
      refine Nat.lt_trans property (listed "properties" (List.mem_map_of_mem among) ?_)
      simp only [objectEntries, List.mem_cons, List.mem_append, true_or, or_true]
    · obtain ⟨c, among, side⟩ := List.mem_flatMap.mp clash
      have inner : (Tree.ofJson part.toJson).height < (Tree.ofJson (conflictJson c)).height := by
        rcases List.mem_cons.mp side with rfl | side
        · exact Tree.height_entry (e := ("existing", c.existing.toJson)) (by simp)
        · cases List.mem_singleton.mp side
          exact Tree.height_entry (e := ("conflicting", c.conflicting.toJson)) (by simp)
      refine Nat.lt_trans inner
        (listed "allOfPropertyConflicts" (List.mem_map_of_mem among) ?_)
      simp only [objectEntries, List.mem_cons, List.mem_append, true_or, or_true]
  | union u =>
    rw [toJson_union]
    rcases List.mem_append.mp held with base | alternative
    · obtain ⟨p, among, rfl⟩ := List.mem_map.mp base
      refine Nat.lt_trans property (listed "baseProperties" (List.mem_map_of_mem among) ?_)
      have some : ¬ (u.baseProperties.map propertyJson).isEmpty = true :=
        fun none => List.ne_nil_of_mem (List.mem_map_of_mem among) (List.isEmpty_iff.mp none)
      simp only [unionEntries, Json.listEntry, if_neg some, List.mem_cons, List.mem_append, true_or,
        or_true]
    · obtain ⟨v, among, rfl⟩ := List.mem_map.mp alternative
      have inner : (Tree.ofJson v.schema.toJson).height < (Tree.ofJson (variantJson v)).height :=
        Tree.height_entry (e := ("schema", v.schema.toJson)) (by simp)
      refine Nat.lt_trans inner (listed "variants" (List.mem_map_of_mem among) ?_)
      simp only [unionEntries, List.mem_cons, List.mem_append, true_or, or_true]
  | array info items =>
    cases List.mem_singleton.mp held
    rw [toJson]
    exact Tree.height_entry (e := ("items", part.toJson)) (by simp)
  | map info value =>
    cases List.mem_singleton.mp held
    rw [toJson]
    exact Tree.height_entry (e := ("value", part.toJson)) (by simp)
  | enumeration _ | primitive _ | reference _ _ | unknown _ => cases held

end

theorem readWithin_rereads {levels : Nat} {s : Schema} (finite : Throughout FiniteHere s)
    (low : (Tree.ofJson s.toJson).height < levels) : (readWithin levels).Rereads toJson s := by
  induction levels generalizing s with
  | zero => exact absurd low (Nat.not_lt_zero _)
  | succ levels ih =>
    obtain ⟨own, parts⟩ := throughout_iff.mp finite
    have inner : ∀ part ∈ s.parts, (readWithin levels).Rereads toJson part := fun part held =>
      ih (parts part held) (Nat.lt_of_lt_of_le (part_low held) (Nat.le_of_lt_succ low))
    rw [readWithin]
    cases s with
    | object o =>
      obtain ⟨fresh, sound, back⟩ := Outline.annotated_back (nameEntry o.name)
        (r := objectRecord (readWithin levels)) rfl (object_kept inner) (object_entries o)
        (object_apart _)
      exact Reader.tagged_rereads (toJson_object o) rfl fresh sound
        (congrArg (Except.map object) (back .held))
    | union u =>
      obtain ⟨fresh, sound, back⟩ := Outline.annotated_back (nameEntry u.name)
        (r := unionRecord (readWithin levels)) rfl (union_kept inner) (union_entries u)
        (union_apart _)
      exact Reader.tagged_rereads (toJson_union u) rfl fresh sound
        (congrArg (Except.map union) (back .held))
    | enumeration e =>
      obtain ⟨fresh, sound, back⟩ := Outline.annotated_back (nameEntry e.name)
        (r := EnumSchema.record) rfl e.kept e.entries_outline (by decide)
      exact Reader.tagged_rereads rfl rfl fresh sound
        (congrArg (Except.map enumeration) (back .held))
    | primitive p =>
      obtain ⟨fresh, sound, back⟩ := PrimitiveSchema.annotated_back own
      exact Reader.tagged_rereads rfl rfl fresh sound (congrArg (Except.map primitive) (back .held))
    | array info items =>
      obtain ⟨fresh, sound, back⟩ := single_back "IrArraySchema" "items" array info
        (inner items List.mem_cons_self) (by decide)
      exact Reader.tagged_rereads rfl rfl fresh sound back
    | map info value =>
      obtain ⟨fresh, sound, back⟩ := single_back "IrMapSchema" "value" map info
        (inner value List.mem_cons_self) (by decide)
      exact Reader.tagged_rereads rfl rfl fresh sound back
    | reference info id =>
      obtain ⟨fresh, sound, back⟩ := single_back "IrReferenceSchema" "schemaId" reference info
        (Reader.text_rereads id) (by decide)
      exact Reader.tagged_rereads rfl rfl fresh sound back
    | unknown info =>
      obtain ⟨fresh, back⟩ := unknown_back info
      exact Reader.tagged_rereads rfl rfl fresh info.entries_sound (congrArg (Except.map unknown) back)

/-- Schemas with finite bounds are read back from what is written of them. -/
theorem rereads {s : Schema} (finite : Throughout FiniteHere s) : read.Rereads toJson s :=
  have within := readWithin_rereads finite (Nat.lt_succ_self _)
  ⟨within.back, within.sound, within.present⟩

end Schema

end Ir

end ApiLowering
