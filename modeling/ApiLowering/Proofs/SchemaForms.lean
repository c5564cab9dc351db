import ApiLowering.Document.Schema.Encode
import ApiLowering.Proofs.Agreement

/-!
Schema nodes restore what they write, by induction on how deep they nest.
-/

set_option autoImplicit false

namespace ApiLowering

-- A word reads back; one that was not known reads back as such.
theorem SchemaType.read_back (mode : Mode) (type : SchemaType) :
    SchemaType.read mode (Tree.ofJson (.text type.name)) = .ok type := by
  cases type <;> cases mode <;> rfl

variable {height : Nat}

theorem SchemaType.restores : Reader.Restores height SchemaType.read fun type => .text type.name :=
  fun _ _ type _ _ _ =>
    ⟨.text type.name, fun mode => SchemaType.read_back mode type, fun same => nomatch same⟩

theorem SchemaType.read_list (mode : Mode) (items : List Json) :
    ∃ e, SchemaType.read mode (Tree.ofJson (.list items)) = .error e := by
  cases mode <;> exact ⟨_, rfl⟩

theorem TypeSet.restores : Reader.Restores height TypeSet.read TypeSet.toJson := by
  intro mode value types proper low read
  unfold TypeSet.read at read
  cases single : SchemaType.read mode (Tree.ofJson value) with
  | ok type =>
    simp only [single] at read
    cases read
    refine ⟨.text type.name, fun mode => ?_, fun same => nomatch same⟩
    have back : SchemaType.read mode (Tree.ofJson (toJson (.single type)).canonical) = .ok type :=
      SchemaType.read_back mode type
    simp only [TypeSet.read, back]
  | error e =>
    simp only [single] at read
    obtain ⟨all, several, rfl⟩ := except_map_ok read
    have restored := Reader.list_restores SchemaType.restores mode value all proper low several
    refine ⟨restored.proper, fun mode => ?_, fun same => nomatch same⟩
    obtain ⟨e, list⟩ := SchemaType.read_list mode
      (Json.canonicalList (all.map fun type => .text type.name))
    have refused : SchemaType.read mode (Tree.ofJson (toJson (.multiple all)).canonical) =
        .error e := list
    simp only [TypeSet.read, refused]
    exact congrArg (Except.map multiple) (restored.back mode)

namespace Discriminator

def outline : Outline Discriminator Unit where
  slots := [
    .required "propertyName" Reader.text .text propertyName fun v d => { d with propertyName := v },
    .map "mapping" Reader.text .text mapping fun v d => { d with mapping := v }]
  rest _ := ()
  withRest _ d := d

theorem toJson_entries (d : Discriminator) : d.toJson = .object (outline.entries d) := by
  simp only [toJson, Outline.entries, outline, List.flatMap_cons, List.flatMap_nil,
    Slot.required_entry, Slot.map_entry, List.append_nil]

theorem restores : record.read.Restores height toJson := by
  refine (Outline.restores_closed rfl (fun _ _ => rfl) toJson_entries fun p known => ?_).lower
  simp only [outline, List.mem_cons, List.not_mem_nil, or_false] at known
  rcases known with rfl | rfl
  · exact Slot.required_stable Reader.text_restores
  · exact Slot.map_stable Reader.text_restores rfl

end Discriminator

namespace SchemaNode

def additionalJson : Additional SchemaNode → Json
  | .allowed b => .bool b
  | .schema node => toJson node

def outline (node : Reader SchemaNode) : Outline Schema (Entries Json) where
  slots := [
    .optional "type" TypeSet.read TypeSet.toJson Keywords.type fun v s => { s with type := v },
    .optional "format" Reader.text .text Keywords.format fun v s => { s with format := v },
    .optional "title" Reader.text .text Keywords.title fun v s => { s with title := v },
    .optional "description" Reader.text .text Keywords.description
      fun v s => { s with description := v },
    .optional "nullable" Reader.bool .bool Keywords.nullable fun v s => { s with nullable := v },
    .map "properties" node toJson Keywords.properties fun v s => { s with properties := v },
    .list "required" Reader.text .text Keywords.required fun v s => { s with required := v },
    .optional "additionalProperties" (readAdditional node) additionalJson
      Keywords.additionalProperties fun v s => { s with additionalProperties := v },
    .optional "items" node toJson Keywords.items fun v s => { s with items := v },
    .list "allOf" node toJson Keywords.allOf fun v s => { s with allOf := v },
    .list "oneOf" node toJson Keywords.oneOf fun v s => { s with oneOf := v },
    .list "anyOf" node toJson Keywords.anyOf fun v s => { s with anyOf := v },
    .optional "discriminator" Discriminator.record.read Discriminator.toJson
      Keywords.discriminator fun v s => { s with discriminator := v },
    .list "enum" Reader.value id Keywords.enumValues fun v s => { s with enumValues := v },
    .optional "const" Reader.value id Keywords.constValue fun v s => { s with constValue := v },
    .optional "minimum" Reader.real Json.ofReal Keywords.minimum fun v s => { s with minimum := v },
    .optional "maximum" Reader.real Json.ofReal Keywords.maximum fun v s => { s with maximum := v },
    .optional "minLength" Reader.uint64 Json.ofUInt64 Keywords.minLength
      fun v s => { s with minLength := v },
    .optional "maxLength" Reader.uint64 Json.ofUInt64 Keywords.maxLength
      fun v s => { s with maxLength := v },
    .optional "pattern" Reader.text .text Keywords.pattern fun v s => { s with pattern := v }]
  rest := Keywords.extensions
  withRest extensions s := { s with extensions }

theorem entriesToJson_map (entries : Entries SchemaNode) :
    entriesToJson entries = Entries.mapValues toJson entries := by
  induction entries with
  | nil => rfl
  | cons e rest ih =>
    obtain ⟨key, node⟩ := e
    rw [entriesToJson, ih]
    rfl

theorem listToJson_map (nodes : List SchemaNode) : listToJson nodes = nodes.map toJson := by
  induction nodes with
  | nil => rfl
  | cons node rest ih => rw [listToJson, ih, List.map_cons]

theorem optionToJson_map (node : Option SchemaNode) : optionToJson node = node.map toJson := by
  cases node <;> rfl

theorem additionalToJson_map (additional : Option (Additional SchemaNode)) :
    additionalToJson additional = additional.map additionalJson := by
  cases additional with
  | none => rfl
  | some found => cases found <;> rfl

-- The entries of a schema, field by field. The equations that come with the definition are found
-- by unfolding all of its recursion, which takes far too long.
theorem keywordEntries_fields (s : Schema) : keywordEntries s =
    Json.optionEntry "type" (s.type.map TypeSet.toJson)
      ++ Json.optionEntry "format" (s.format.map .text)
      ++ Json.optionEntry "title" (s.title.map .text)
      ++ Json.optionEntry "description" (s.description.map .text)
      ++ Json.optionEntry "nullable" (s.nullable.map .bool)
      ++ Json.mapEntry "properties" (entriesToJson s.properties)
      ++ Json.listEntry "required" (s.required.map .text)
      ++ Json.optionEntry "additionalProperties" (additionalToJson s.additionalProperties)
      ++ Json.optionEntry "items" (optionToJson s.items)
      ++ Json.listEntry "allOf" (listToJson s.allOf)
      ++ Json.listEntry "oneOf" (listToJson s.oneOf)
      ++ Json.listEntry "anyOf" (listToJson s.anyOf)
      ++ Json.optionEntry "discriminator" (s.discriminator.map Discriminator.toJson)
      ++ Json.listEntry "enum" s.enumValues
      ++ Json.optionEntry "const" s.constValue
      ++ Json.optionEntry "minimum" (s.minimum.map Json.ofReal)
      ++ Json.optionEntry "maximum" (s.maximum.map Json.ofReal)
      ++ Json.optionEntry "minLength" (s.minLength.map Json.ofUInt64)
      ++ Json.optionEntry "maxLength" (s.maxLength.map Json.ofUInt64)
      ++ Json.optionEntry "pattern" (s.pattern.map .text)
      ++ s.extensions := by
  cases s
  rfl

theorem inline_entries (node : Reader SchemaNode) (s : Schema) :
    toJson (.inline s) = .object ((outline node).entries s ++ (outline node).rest s) := by
  have inline : toJson (.inline s) = .object (keywordEntries s) := rfl
  rw [inline, keywordEntries_fields]
  simp only [entriesToJson_map, listToJson_map, optionToJson_map, additionalToJson_map,
    Outline.entries, outline, List.flatMap_cons, List.flatMap_nil, Slot.optional_entry,
    Slot.list_entry, Slot.map_entry, List.map_id_fun, Option.map_id_fun, List.append_assoc,
    List.append_nil, id_eq]

theorem node_object {mode : Mode} {value : Json} {node : SchemaNode} (proper : value.Proper)
    (done : read mode (Tree.ofJson value) = .ok node) :
    node.toJson = value ∨ ∃ entries, node.toJson = .object entries := by
  rw [read_lenient] at done
  cases Reader.lenient_cases proper done with
  | reference => exact .inr ⟨_, rfl⟩
  | inline => exact .inr ⟨_, rfl⟩
  | invalid => exact .inl rfl

theorem additional_restores (restores : read.Restores height toJson) :
    (readAdditional read).Restores height additionalJson := by
  intro mode value additional proper low done
  unfold readAdditional at done
  cases flag : Reader.bool mode (Tree.ofJson value) with
  | ok b =>
    simp only [flag] at done
    cases done
    exact ⟨.bool b, fun _ => rfl, fun same => nomatch same⟩
  | error e =>
    simp only [flag] at done
    obtain ⟨node, readNode, rfl⟩ := except_map_ok done
    have restored := restores mode value node proper low readNode
    refine ⟨restored.proper, fun mode => ?_, restored.null⟩
    -- what a node writes is no flag, unless the node was one
    have none : ∃ e, Reader.bool mode (Tree.ofJson node.toJson.canonical) = .error e := by
      rcases node_object proper readNode with same | ⟨entries, same⟩
      · rw [same, proper.canonical]
        exact ⟨e, flag⟩
      · rw [same]
        exact ⟨_, rfl⟩
    obtain ⟨e, none⟩ := none
    have none : Reader.bool mode (Tree.ofJson (additionalJson (.schema node)).canonical) =
        .error e := none
    simp only [readAdditional, none]
    exact congrArg (Except.map Additional.schema) (restored.back mode)

theorem slots_stable (restores : read.Restores height toJson) :
    ∀ p ∈ (outline read).slots, p.Stable height Keywords.empty := by
  intro p known
  simp only [outline, List.mem_cons, List.not_mem_nil, or_false] at known
  rcases known with rfl | rfl | rfl | rfl | rfl | rfl | rfl | rfl | rfl | rfl | rfl | rfl | rfl |
    rfl | rfl | rfl | rfl | rfl | rfl | rfl
  · exact Slot.optional_stable TypeSet.restores rfl
  · exact Slot.optional_stable Reader.text_restores rfl
  · exact Slot.optional_stable Reader.text_restores rfl
  · exact Slot.optional_stable Reader.text_restores rfl
  · exact Slot.optional_stable Reader.bool_restores rfl
  · exact Slot.map_stable restores rfl
  · exact Slot.list_stable Reader.text_restores rfl
  · exact Slot.optional_stable (additional_restores restores) rfl
  · exact Slot.optional_stable restores rfl
  · exact Slot.list_stable restores rfl
  · exact Slot.list_stable restores rfl
  · exact Slot.list_stable restores rfl
  · exact Slot.optional_stable Discriminator.restores rfl
  · exact Slot.list_stable Reader.value_restores rfl
  · exact Slot.optional_stable Reader.value_restores rfl
  · exact Slot.optional_stable Reader.real_restores rfl
  · exact Slot.optional_stable Reader.real_restores rfl
  · exact Slot.optional_stable Reader.uint64_restores rfl
  · exact Slot.optional_stable Reader.uint64_restores rfl
  · exact Slot.optional_stable Reader.text_restores rfl

/-- Schema nodes restore what they write. -/
theorem restores (height : Nat) : read.Restores height toJson := by
  induction height with
  | zero => exact fun _ _ _ _ low => absurd low (Nat.not_lt_zero _)
  | succ height ih =>
    have schemas : (schema read).Restores (height + 1) fun s => toJson (.inline s) :=
      Outline.restores_extended rfl (inline_entries read) (slots_stable ih)
    have carries : Reader.Carries "$ref" (schema read) fun s => toJson (.inline s) :=
      Outline.extended_carries rfl (inline_entries read) (by decide)
    have nodes : (Reader.lenient reference (schema read) inline invalid).Restores (height + 1) toJson :=
      Reader.lenient_restores schemas carries (fun _ => rfl) (fun _ => rfl) fun _ => rfl
    intro mode value node proper low done
    rw [read_lenient] at done
    have restored := nodes mode value node proper low done
    exact ⟨restored.proper, fun mode => (read_lenient mode _).trans (restored.back mode),
      restored.null⟩

end SchemaNode

end ApiLowering
