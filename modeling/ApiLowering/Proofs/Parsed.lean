import ApiLowering.Lowering.Document
import ApiLowering.Proofs.DocumentForms

/-!
What a document holds that was read from JSON, as a text or as a value. Every bound of a schema in it
is finite, no map in it repeats a key, and its extensions hold proper values.
-/

set_option autoImplicit false

namespace ApiLowering

theorem Json.Proper.inRange {value : Json} (proper : value.Proper) : (Tree.ofJson value).InRange := by
  induction proper with
  | null | bool | text =>
    refine .scalar fun n same => ?_
    cases same
  | integer word =>
    refine .scalar fun n same => ?_
    cases same
    exact word
  | real finite =>
    refine .scalar fun n same => ?_
    cases same
    exact finite
  | @list items _ ih =>
    rw [Tree.ofJson, ofJsonList_map]
    refine .list fun node here => ?_
    obtain ⟨item, listed, rfl⟩ := List.mem_map.mp here
    exact ih item listed
  | @object entries _ _ ih =>
    rw [Tree.ofJson, ofJsonEntries_map]
    refine .map fun e here => ?_
    obtain ⟨entry, listed, rfl⟩ := List.mem_map.mp here
    exact ih entry listed

section

variable {α β ν : Type} {kind : Number → Prop} {p q : α → Prop}

theorem gives_mono {reader : Reader α} (gives : reader.Gives kind p) (imp : ∀ a, p a → q a) :
    reader.Gives kind q :=
  fun mode node a within done => imp a (gives mode node a within done)

theorem gives_and {reader : Reader α} (gives : reader.Gives kind p) (too : reader.Gives kind q) :
    reader.Gives kind fun a => p a ∧ q a :=
  fun mode node a within done => ⟨gives mode node a within done, too mode node a within done⟩

theorem lenient_gives {reference : String → ν} {inline : Reader α} {wrap : α → ν}
    {invalid : Json → ν} {good : ν → Prop} (gives : inline.Gives kind p)
    (references : ∀ target, good (reference target)) (wraps : ∀ a, p a → good (wrap a))
    (invalids : ∀ value, good (invalid value)) :
    (Reader.lenient reference inline wrap invalid).Gives kind good := by
  intro mode node a within done
  obtain ⟨held, holding, done⟩ := except_bind_ok done
  split at done
  · cases done
    exact references _
  · split at done
    · rename_i inner read
      cases done
      exact wraps inner (gives .held held inner (holdIn_over within holding) read)
    · obtain ⟨value, -, same⟩ := except_map_ok done
      exact same ▸ invalids value

theorem putSorted_values {entries : Entries α} {key : String} {a : α} (fine : p a)
    (all : ∀ e ∈ entries, p e.2) : ∀ e ∈ Entries.putSorted key a entries, p e.2 := by
  induction entries with
  | nil => exact List.forall_mem_singleton.mpr fine
  | cons first rest ih =>
    obtain ⟨firstFine, restFine⟩ := List.forall_mem_cons.mp all
    rw [Entries.putSorted.eq_def]
    dsimp only
    split
    · exact List.forall_mem_cons.mpr ⟨fine, restFine⟩
    · split
      · exact List.forall_mem_cons.mpr ⟨fine, all⟩
      · exact List.forall_mem_cons.mpr ⟨firstFine, ih restFine⟩

theorem sort_values {entries : Entries α} (all : ∀ e ∈ entries, p e.2) :
    ∀ e ∈ Entries.sort entries, p e.2 := by
  have folded (sorted : Entries α) (before : ∀ e ∈ sorted, p e.2) :
      ∀ e ∈ entries.foldl (fun sorted e => Entries.putSorted e.1 e.2 sorted) sorted, p e.2 := by
    induction entries generalizing sorted with
    | nil => exact before
    | cons first rest ih =>
      obtain ⟨firstFine, restFine⟩ := List.forall_mem_cons.mp all
      exact ih restFine _ (putSorted_values firstFine before)
  exact folded [] fun _ here => absurd here List.not_mem_nil

end

theorem ofScalar_inRange {s : Scalar} (within : s.Over Number.InRange) :
    (Reader.ofScalar s).Proper := by
  cases s with
  | null => exact .null
  | bool b => exact .bool b
  | text s => exact .text s
  | number n =>
    cases n with
    | integer n => exact .integer (within _ rfl)
    | real x =>
      have finite : x.isFinite = true := within _ rfl
      rw [Reader.ofScalar, Json.ofReal, Number.ofReal?, if_pos finite]
      exact .real finite

mutual
theorem value_inRange {mode : Mode} (node : Tree) {value : Json} (within : node.InRange)
    (done : Reader.value mode node = .ok value) : value.Proper := by
  match node with
  | .scalar s =>
    cases done
    cases within with
    | scalar fine => exact ofScalar_inRange fine
  | .plain _ _ | .tagged _ => cases within
  | .list items stop =>
    rw [Reader.value] at done
    obtain ⟨inner, each, done⟩ := except_bind_ok done
    obtain ⟨-, -, done⟩ := except_bind_ok done
    cases done
    cases within with
    | list fine => exact .list (valueList_inRange items fine each)
  | .map entries stop =>
    rw [Reader.value] at done
    obtain ⟨inner, each, done⟩ := except_bind_ok done
    obtain ⟨-, -, done⟩ := except_bind_ok done
    cases done
    cases within with
    | map fine =>
      exact .object (sort_ascends inner) (sort_values (valueEntries_inRange entries fine each))
  | .flawed flaw => cases done

theorem valueList_inRange {mode : Mode} (items : List Tree) {values : List Json}
    (within : ∀ node ∈ items, node.InRange) (done : Reader.valueList mode items = .ok values) :
    ∀ value ∈ values, value.Proper := by
  match items with
  | [] =>
    cases done
    exact fun _ here => absurd here List.not_mem_nil
  | item :: rest =>
    rw [Reader.valueList] at done
    obtain ⟨first, one, done⟩ := except_bind_ok done
    obtain ⟨more, others, done⟩ := except_bind_ok done
    cases done
    obtain ⟨here, later⟩ := List.forall_mem_cons.mp within
    exact List.forall_mem_cons.mpr ⟨value_inRange item here one, valueList_inRange rest later others⟩

theorem valueEntries_inRange {mode : Mode} (entries : List (Key × Tree))
    {values : List (String × Json)} (within : ∀ e ∈ entries, e.2.InRange)
    (done : Reader.valueEntries mode entries = .ok values) : ∀ e ∈ values, e.2.Proper := by
  match entries with
  | [] =>
    cases done
    exact fun _ here => absurd here List.not_mem_nil
  | (key, item) :: rest =>
    rw [Reader.valueEntries] at done
    obtain ⟨name, -, done⟩ := except_bind_ok done
    obtain ⟨first, one, done⟩ := except_bind_ok done
    obtain ⟨more, others, done⟩ := except_bind_ok done
    cases done
    obtain ⟨here, later⟩ := List.forall_mem_cons.mp within
    exact List.forall_mem_cons.mpr
      ⟨value_inRange item here one, valueEntries_inRange rest later others⟩
end

namespace Outline

variable {α : Type} {kind : Number → Prop} {o : Outline α (Entries Json)} {r : Record α}

/-- An extended record holds in a slot what the slot was read as, or what is blank there. -/
theorem slot_gives (described : r.fields = o.fields) {p : Slot α} (known : p ∈ o.slots)
    (q : p.value → Prop) (blank : q (p.get r.blank)) (reads : p.read.Gives kind q) :
    (r.readExtended o.withRest).Gives kind fun a => q (p.get a) := by
  refine readExtended_gives blank (fun f here => ?_) fun more a fine => ?_
  · rw [described] at here
    obtain ⟨other, knownToo, rfl⟩ := List.mem_map.mp here
    intro mode node record next within before done
    obtain ⟨v, read, rfl⟩ := except_map_ok done
    by_cases same : other.name = p.name
    · cases slot_unique knownToo known same
      rw [p.get_set]
      exact reads mode node v within read
    · rw [get_other knownToo known same]
      exact before
  · rw [o.get_with p known]
    exact fine

theorem readOpen_others {mode : Mode} {fields : List (Field α)} {entries : List (Key × Tree)}
    {before after : Record.Progress α} (within : ∀ e ∈ entries, e.2.Over kind)
    (start : ∀ e ∈ before.others, e.2.Over kind)
    (done : Record.readOpen mode fields entries before = .ok after) :
    ∀ e ∈ after.others, e.2.Over kind := by
  induction entries generalizing before with
  | nil =>
    cases done
    exact start
  | cons e rest ih =>
    obtain ⟨key, item⟩ := e
    obtain ⟨first, later⟩ := List.forall_mem_cons.mp within
    rw [Record.readOpen] at done
    obtain ⟨name, -, done⟩ := except_bind_ok done
    split at done
    · rename_i f known
      obtain ⟨next, read, done⟩ := except_bind_ok done
      refine ih later ?_ done
      rw [Record.readField] at read
      split at read
      · cases read
      · obtain ⟨record, -, rfl⟩ := except_map_ok read
        exact start
    · obtain ⟨held, holding, done⟩ := except_bind_ok done
      refine ih later (fun e here => ?_) done
      rcases List.mem_cons.mp here with same | before
      · exact same ▸ holdIn_over first holding
      · exact start e before

/-- What an extended record holds beside its slots are proper values. -/
theorem rest_proper : (r.readExtended o.withRest).Gives Number.InRange
    fun a => ∀ e ∈ o.rest a, e.2.Proper := by
  intro mode node a within done
  have extended {others : List (Key × Tree)} {record : α} (within : ∀ e ∈ others, e.2.InRange)
      (done : (do
        let extensions ← Reader.valueEntries .held others
        return o.withRest (Entries.collect extensions) record : Except DecodeError α) = .ok a) :
      ∀ e ∈ o.rest a, e.2.Proper := by
    obtain ⟨extensions, read, done⟩ := except_bind_ok done
    cases done
    rw [o.rest_with]
    exact collect_values (valueEntries_inRange others within read)
  have none : ∀ e ∈ ([] : List (Key × Tree)), e.2.InRange :=
    fun _ here => absurd here List.not_mem_nil
  unfold Record.readExtended Record.readWith at done
  rw [within.bare] at done
  split at done
  · obtain ⟨before, read, done⟩ := except_bind_ok done
    obtain ⟨after, whole, done⟩ := except_bind_ok done
    cases complete_same whole
    cases within with
    | map within =>
      have others := readOpen_others within none read
      exact extended (fun e here => others e (List.mem_reverse.mp here)) done
  · split at done
    · obtain ⟨after, whole, done⟩ := except_bind_ok done
      exact extended none done
    · obtain ⟨found, -, done⟩ := except_bind_ok done
      cases done

end Outline

abbrev Schema.Bounded (s : Schema) : Prop := s.Bounds fun x => x.isFinite = true

theorem SchemaNode.read_bounded :
    read.Gives Number.InRange fun node => ∀ s ∈ node.inlineSchemas, s.Bounded :=
  schemaNode_gives (real_gives (fun _ word => Binary64.isFinite_ofInt word) fun _ finite => finite)

section

-- What holds of every inline schema in a schema node that is read holds of every inline schema in
-- whatever such nodes are read into.
variable {kind : Number → Prop} {good : Schema → Prop}
  (reads : SchemaNode.read.Gives kind fun node => ∀ s ∈ node.inlineSchemas, good s)

include reads

theorem SchemaNode.optional_schemas : (Reader.optional read).Gives kind
    fun found => ∀ s ∈ optionSchemas found, good s := by
  refine gives_mono (optional_gives reads) fun found each s here => ?_
  cases found with
  | none => cases here
  | some node => exact each node rfl s here

theorem MediaType.read_schemas :
    read.Gives kind fun m => ∀ s ∈ SchemaNode.optionSchemas m.schema, good s :=
  Outline.slot_gives rfl (List.get_mem outline.slots ⟨0, by decide⟩)
    (fun found => ∀ s ∈ SchemaNode.optionSchemas found, good s)
    (fun _ here => absurd here List.not_mem_nil) (SchemaNode.optional_schemas reads)

theorem MediaType.content_schemas : (Reader.entries read).Gives kind
    fun content => ∀ s ∈ contentSchemas content, good s := by
  refine gives_mono (entries_gives (read_schemas reads)) fun content each s here => ?_
  obtain ⟨e, listed, among⟩ := List.mem_flatMap.mp here
  exact each e listed s among

theorem RequestBodyNode.read_schemas : read.Gives kind fun node => ∀ s ∈ node.schemas, good s :=
  lenient_gives
    (Outline.slot_gives rfl (List.get_mem RequestBody.outline.slots ⟨1, by decide⟩)
      (fun content => ∀ s ∈ MediaType.contentSchemas content, good s)
      (fun _ here => absurd here List.not_mem_nil) (MediaType.content_schemas reads))
    (fun _ _ here => absurd here List.not_mem_nil) (fun _ each => each)
    fun _ _ here => absurd here List.not_mem_nil

theorem ResponseNode.read_schemas : read.Gives kind fun node => ∀ s ∈ node.schemas, good s :=
  lenient_gives
    (Outline.slot_gives rfl (List.get_mem Response.outline.slots ⟨1, by decide⟩)
      (fun content => ∀ s ∈ MediaType.contentSchemas content, good s)
      (fun _ here => absurd here List.not_mem_nil) (MediaType.content_schemas reads))
    (fun _ _ here => absurd here List.not_mem_nil) (fun _ each => each)
    fun _ _ here => absurd here List.not_mem_nil

theorem ParameterNode.read_schemas : read.Gives kind fun node => ∀ s ∈ node.schemas, good s :=
  lenient_gives
    (Outline.slot_gives rfl (List.get_mem Parameter.outline.slots ⟨5, by decide⟩)
      (fun found => ∀ s ∈ SchemaNode.optionSchemas found, good s)
      (fun _ here => absurd here List.not_mem_nil) (SchemaNode.optional_schemas reads))
    (fun _ _ here => absurd here List.not_mem_nil) (fun _ each => each)
    fun _ _ here => absurd here List.not_mem_nil

theorem Operation.read_schemas : read.Gives kind fun o => ∀ s ∈ o.schemas, good s := by
  intro mode node o within done s here
  have parameters := Outline.slot_gives rfl (List.get_mem outline.slots ⟨4, by decide⟩)
    (fun all : List ParameterNode => ∀ node ∈ all, ∀ s ∈ node.schemas, good s)
    (fun _ here => absurd here List.not_mem_nil) (list_gives (ParameterNode.read_schemas reads))
    mode node o within done
  have body := Outline.slot_gives rfl (List.get_mem outline.slots ⟨5, by decide⟩)
    (fun found : Option RequestBodyNode => ∀ node ∈ found, ∀ s ∈ node.schemas, good s)
    (fun _ here => absurd here (Option.not_mem_none _))
    (optional_gives (RequestBodyNode.read_schemas reads)) mode node o within done
  have responses := Outline.slot_gives rfl (List.get_mem outline.slots ⟨6, by decide⟩)
    (fun all : Entries ResponseNode => ∀ e ∈ all, ∀ s ∈ e.2.schemas, good s)
    (fun _ here => absurd here List.not_mem_nil) (entries_gives (ResponseNode.read_schemas reads))
    mode node o within done
  simp only [schemas, Entries.values, List.mem_append, List.mem_flatMap, List.mem_map,
    Option.mem_toList] at here
  rcases here with (⟨node, listed, among⟩ | ⟨node, present, among⟩) | ⟨node, ⟨e, listed, rfl⟩, among⟩
  · exact parameters node listed s among
  · exact body node present s among
  · exact responses e listed s among

omit reads in
-- Every operation of an item is what one of its slots holds.
theorem PathItem.operation_slot {item : PathItem} {e : HttpMethod × Operation}
    (here : e ∈ item.operations) :
    ∃ (name : String) (get : PathItem → Option Operation)
      (set : Option Operation → PathItem → PathItem) (get_set : ∀ v item, get (set v item) = v),
      .optional name Operation.read Operation.toJson get set get_set ∈ outline.slots ∧
        get record.blank = none ∧ get item = some e.2 := by
  simp only [operations, List.mem_filterMap, List.mem_cons, List.not_mem_nil, or_false] at here
  obtain ⟨⟨method, found⟩, listed, made⟩ := here
  obtain ⟨o, rfl, rfl⟩ := Option.map_eq_some_iff.mp made
  rcases listed with same | same | same | same | same | same | same | same <;>
    rcases Prod.mk.inj same with ⟨rfl, present⟩
  · exact ⟨_, _, _, _, List.get_mem outline.slots ⟨3, by decide⟩, rfl, present.symm⟩
  · exact ⟨_, _, _, _, List.get_mem outline.slots ⟨4, by decide⟩, rfl, present.symm⟩
  · exact ⟨_, _, _, _, List.get_mem outline.slots ⟨5, by decide⟩, rfl, present.symm⟩
  · exact ⟨_, _, _, _, List.get_mem outline.slots ⟨6, by decide⟩, rfl, present.symm⟩
  · exact ⟨_, _, _, _, List.get_mem outline.slots ⟨7, by decide⟩, rfl, present.symm⟩
  · exact ⟨_, _, _, _, List.get_mem outline.slots ⟨8, by decide⟩, rfl, present.symm⟩
  · exact ⟨_, _, _, _, List.get_mem outline.slots ⟨9, by decide⟩, rfl, present.symm⟩
  · exact ⟨_, _, _, _, List.get_mem outline.slots ⟨10, by decide⟩, rfl, present.symm⟩

omit reads in
theorem PathItem.operations_give {q : Operation → Prop} (each : Operation.read.Gives kind q) :
    read.Gives kind fun item => ∀ e ∈ item.operations, q e.2 := by
  intro mode node item within done e here
  obtain ⟨name, get, set, get_set, known, blank, present⟩ := operation_slot here
  have none : ∀ o ∈ get record.blank, q o := by
    rw [blank]
    exact fun o here => absurd here (Option.not_mem_none o)
  exact Outline.slot_gives rfl known (fun found : Option Operation => ∀ o ∈ found, q o) none
    (optional_gives each) mode node item within done e.2 present

theorem PathItem.read_schemas : read.Gives kind fun item => ∀ s ∈ item.schemas, good s := by
  intro mode node item within done s here
  have parameters := Outline.slot_gives rfl (List.get_mem outline.slots ⟨2, by decide⟩)
    (fun all : List ParameterNode => ∀ node ∈ all, ∀ s ∈ node.schemas, good s)
    (fun _ here => absurd here List.not_mem_nil) (list_gives (ParameterNode.read_schemas reads))
    mode node item within done
  have operations := operations_give (Operation.read_schemas reads) mode node item within done
  simp only [schemas, List.mem_append, List.mem_flatMap] at here
  rcases here with ⟨node, listed, among⟩ | ⟨e, listed, among⟩
  · exact parameters node listed s among
  · exact operations e listed s among

theorem Components.read_schemas : read.Gives kind fun c => ∀ s ∈ c.inlineSchemas, good s := by
  intro mode node c within done s here
  have none {α : Type} {p : String × α → Prop} : ∀ e ∈ ([] : Entries α), p e :=
    fun _ here => absurd here List.not_mem_nil
  have schemas := Outline.slot_gives (r := record) rfl (List.get_mem outline.slots ⟨0, by decide⟩)
    (fun all : Entries SchemaNode => ∀ e ∈ all, ∀ s ∈ e.2.inlineSchemas, good s) none
    (entries_gives reads) mode node c within done
  have responses := Outline.slot_gives (r := record) rfl (List.get_mem outline.slots ⟨1, by decide⟩)
    (fun all : Entries ResponseNode => ∀ e ∈ all, ∀ s ∈ e.2.schemas, good s) none
    (entries_gives (ResponseNode.read_schemas reads)) mode node c within done
  have parameters := Outline.slot_gives (r := record) rfl (List.get_mem outline.slots ⟨2, by decide⟩)
    (fun all : Entries ParameterNode => ∀ e ∈ all, ∀ s ∈ e.2.schemas, good s) none
    (entries_gives (ParameterNode.read_schemas reads)) mode node c within done
  have bodies := Outline.slot_gives (r := record) rfl (List.get_mem outline.slots ⟨3, by decide⟩)
    (fun all : Entries RequestBodyNode => ∀ e ∈ all, ∀ s ∈ e.2.schemas, good s) none
    (entries_gives (RequestBodyNode.read_schemas reads)) mode node c within done
  simp only [inlineSchemas, Entries.values, List.mem_append, List.mem_flatMap, List.mem_map] at here
  rcases here with ((⟨node, ⟨e, listed, rfl⟩, among⟩ | ⟨node, ⟨e, listed, rfl⟩, among⟩) |
    ⟨node, ⟨e, listed, rfl⟩, among⟩) | ⟨node, ⟨e, listed, rfl⟩, among⟩
  · exact schemas e listed s among
  · exact parameters e listed s among
  · exact bodies e listed s among
  · exact responses e listed s among

theorem ApiDocument.read_schemas : read.Gives kind fun d => ∀ s ∈ d.inlineSchemas, good s := by
  intro mode node d within done s here
  have none {α : Type} {p : α → Prop} : ∀ e ∈ ([] : List α), p e :=
    fun _ here => absurd here List.not_mem_nil
  have items := entries_gives (optional_gives (PathItem.read_schemas reads))
  have paths := Outline.slot_gives (r := record) rfl (List.get_mem outline.slots ⟨3, by decide⟩)
    (fun all : Entries (Option PathItem) => ∀ e ∈ all, ∀ item ∈ e.2, ∀ s ∈ item.schemas, good s)
    none items mode node d within done
  have webhooks := Outline.slot_gives (r := record) rfl (List.get_mem outline.slots ⟨4, by decide⟩)
    (fun all : Entries (Option PathItem) => ∀ e ∈ all, ∀ item ∈ e.2, ∀ s ∈ item.schemas, good s)
    none items mode node d within done
  have components := Outline.slot_gives (r := record) rfl (List.get_mem outline.slots ⟨5, by decide⟩)
    (fun found : Option Components => ∀ c ∈ found, ∀ s ∈ c.inlineSchemas, good s)
    (fun _ here => absurd here (Option.not_mem_none _))
    (optional_gives (Components.read_schemas reads)) mode node d within done
  simp only [inlineSchemas, Entries.values, List.mem_append, List.mem_flatMap, List.mem_map,
    Option.mem_toList] at here
  rcases here with ⟨found, ⟨e, listed, rfl⟩ | ⟨e, listed, rfl⟩, item, present, among⟩ |
    ⟨c, present, among⟩
  · exact paths e listed item present s among
  · exact webhooks e listed item present s among
  · exact components c present s among

end

-- No requirement repeats the name of a scheme.
def SecurityRequirement.Distinct (all : List SecurityRequirement) : Prop :=
  ∀ r ∈ all, (Entries.keys r).Nodup

theorem SecurityRequirement.optional_distinct {kind : Number → Prop} :
    (Reader.optional (Reader.list read)).Gives kind fun found => ∀ all ∈ found, Distinct all :=
  optional_gives (list_gives (entries_distinct _))

namespace Operation

structure Sound (o : Operation) : Prop where
  schemas : ∀ s ∈ o.schemas, s.Bounded
  security : ∀ all ∈ o.security, SecurityRequirement.Distinct all

theorem read_sound : read.Gives Number.InRange Sound := by
  intro mode node o within done
  refine ⟨read_schemas SchemaNode.read_bounded mode node o within done, ?_⟩
  exact Outline.slot_gives rfl (List.get_mem outline.slots ⟨8, by decide⟩)
    (fun found : Option (List SecurityRequirement) =>
      ∀ all ∈ found, SecurityRequirement.Distinct all)
    (fun _ here => absurd here (Option.not_mem_none _)) SecurityRequirement.optional_distinct
    mode node o within done

end Operation

namespace PathItem

structure Sound (item : PathItem) : Prop where
  schemas : ∀ s ∈ item.schemas, s.Bounded
  operations : ∀ e ∈ item.operations, e.2.Sound

theorem read_sound : read.Gives Number.InRange Sound := by
  intro mode node item within done
  exact ⟨read_schemas SchemaNode.read_bounded mode node item within done,
    operations_give Operation.read_sound mode node item within done⟩

end PathItem

namespace Components

structure Sound (c : Components) : Prop where
  schemas : ∀ s ∈ c.inlineSchemas, s.Bounded
  schemaKeys : (Entries.keys c.schemas).Nodup
  schemeKeys : (Entries.keys c.securitySchemes).Nodup

theorem read_sound : read.Gives Number.InRange Sound := by
  intro mode node c within done
  refine ⟨read_schemas SchemaNode.read_bounded mode node c within done, ?_, ?_⟩
  · exact Outline.slot_gives (r := record) rfl (List.get_mem outline.slots ⟨0, by decide⟩)
      (fun all : Entries SchemaNode => (Entries.keys all).Nodup) List.nodup_nil
      (entries_distinct _) mode node c within done
  · exact Outline.slot_gives (r := record) rfl (List.get_mem outline.slots ⟨4, by decide⟩)
      (fun all : Entries SecuritySchemeNode => (Entries.keys all).Nodup) List.nodup_nil
      (entries_distinct _) mode node c within done

end Components

namespace ApiDocument

/-- A document that was read from a JSON text, or from a proper JSON value. -/
inductive Parsed (d : ApiDocument) : Prop where
  | text {text : String} (read : ofJsonText text = .ok d)
  | value {value : Json} (proper : value.Proper) (read : ofJson value = .ok d)

-- A document whose bounds are finite, whose maps repeat no key, and whose extensions are proper.
structure Sound (d : ApiDocument) : Prop where
  schemas : ∀ s ∈ d.inlineSchemas, s.Bounded
  schemaKeys : (Entries.keys d.componentSchemas).Nodup
  schemeKeys : (Entries.keys (DocumentLowering.securitySchemes d)).Nodup
  security : ∀ all ∈ d.security, SecurityRequirement.Distinct all
  operations : ∀ e ∈ d.paths, ∀ item ∈ e.2, ∀ o ∈ item.operations, o.2.Sound
  extensions : ∀ e ∈ d.extensions, e.2.Proper

theorem read_sound : read.Gives Number.InRange Sound := by
  intro mode node d within done
  have none {α : Type} {p : α → Prop} : ∀ e ∈ ([] : List α), p e :=
    fun _ here => absurd here List.not_mem_nil
  have items : (Reader.entries (Reader.optional PathItem.read)).Gives Number.InRange fun all =>
      ∀ e ∈ all, ∀ item ∈ e.2, item.Sound := entries_gives (optional_gives PathItem.read_sound)
  have paths := Outline.slot_gives (r := record) rfl (List.get_mem outline.slots ⟨3, by decide⟩)
    (fun all : Entries (Option PathItem) => ∀ e ∈ all, ∀ item ∈ e.2, item.Sound) none items
    mode node d within done
  have components := Outline.slot_gives (r := record) rfl (List.get_mem outline.slots ⟨5, by decide⟩)
    (fun found : Option Components => ∀ c ∈ found, c.Sound)
    (fun _ here => absurd here (Option.not_mem_none _)) (optional_gives Components.read_sound)
    mode node d within done
  have security := Outline.slot_gives (r := record) rfl (List.get_mem outline.slots ⟨7, by decide⟩)
    (fun found : Option (List SecurityRequirement) =>
      ∀ all ∈ found, SecurityRequirement.Distinct all)
    (fun _ here => absurd here (Option.not_mem_none _)) SecurityRequirement.optional_distinct
    mode node d within done
  have extensions : ∀ e ∈ d.extensions, e.2.Proper :=
    Outline.rest_proper (o := outline) mode node d within done
  refine ⟨read_schemas SchemaNode.read_bounded mode node d within done, ?_, ?_, security,
    fun e listed item present => (paths e listed item present).operations, extensions⟩
  · cases present : d.components with
    | some c =>
      simp only [componentSchemas, present]
      exact (components c present).schemaKeys
    | none =>
      simp only [componentSchemas, present]
      exact List.nodup_nil
  · cases present : d.components with
    | some c =>
      simp only [DocumentLowering.securitySchemes, present]
      exact (components c present).schemeKeys
    | none =>
      simp only [DocumentLowering.securitySchemes, present]
      exact List.nodup_nil

theorem Parsed.sound {d : ApiDocument} (parsed : d.Parsed) : d.Sound := by
  cases parsed with
  | text done => exact read_sound _ _ _ (JsonText.read_inRange _) (ofJsonText_root done)
  | value proper done => exact read_sound _ _ _ proper.inRange (supported_ok done)

end ApiDocument

end ApiLowering
