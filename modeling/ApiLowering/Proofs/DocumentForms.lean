import ApiLowering.Document.Source
import ApiLowering.Proofs.OperationForms

/-!
Documents restore what they write: parsing inverts serialization on every document that was parsed.
-/

set_option autoImplicit false

namespace ApiLowering

variable {height : Nat}

namespace Info

def outline : Outline Info (Entries Json) where
  slots := [
    .optional "title" Reader.text .text title fun v i => { i with title := v },
    .optional "description" Reader.text .text description fun v i => { i with description := v },
    .optional "version" Reader.text .text version fun v i => { i with version := v }]
  rest := extensions
  withRest extensions i := { i with extensions }

theorem toJson_entries (i : Info) : i.toJson = .object (outline.entries i ++ outline.rest i) := by
  simp only [toJson, Outline.entries, outline, List.flatMap_cons, List.flatMap_nil,
    Slot.optional_entry, List.append_assoc, List.append_nil]

theorem restores : read.Restores height toJson := by
  refine (Outline.restores_extended rfl toJson_entries fun p known => ?_).lower
  simp only [outline, List.mem_cons, List.not_mem_nil, or_false] at known
  rcases known with rfl | rfl | rfl <;> exact Slot.optional_stable Reader.text_restores rfl

end Info

namespace Server

def outline : Outline Server (Entries Json) where
  slots := [
    .optional "url" Reader.text .text url fun v s => { s with url := v },
    .optional "description" Reader.text .text description fun v s => { s with description := v }]
  rest := extensions
  withRest extensions s := { s with extensions }

theorem toJson_entries (s : Server) : s.toJson = .object (outline.entries s ++ outline.rest s) := by
  simp only [toJson, Outline.entries, outline, List.flatMap_cons, List.flatMap_nil,
    Slot.optional_entry, List.append_nil]

theorem restores : read.Restores height toJson := by
  refine (Outline.restores_extended rfl toJson_entries fun p known => ?_).lower
  simp only [outline, List.mem_cons, List.not_mem_nil, or_false] at known
  rcases known with rfl | rfl <;> exact Slot.optional_stable Reader.text_restores rfl

end Server

namespace Tag

def outline : Outline Tag Unit where
  slots := [
    .optional "name" Reader.text .text name fun v t => { t with name := v },
    .optional "description" Reader.text .text description fun v t => { t with description := v }]
  rest _ := ()
  withRest _ t := t

theorem toJson_entries (t : Tag) : t.toJson = .object (outline.entries t) := by
  simp only [toJson, Outline.entries, outline, List.flatMap_cons, List.flatMap_nil,
    Slot.optional_entry, List.append_nil]

theorem restores : record.read.Restores height toJson := by
  refine (Outline.restores_closed rfl (fun _ _ => rfl) toJson_entries fun p known => ?_).lower
  simp only [outline, List.mem_cons, List.not_mem_nil, or_false] at known
  rcases known with rfl | rfl <;> exact Slot.optional_stable Reader.text_restores rfl

end Tag

namespace Components

def outline : Outline Components (Entries Json) where
  slots := [
    .map "schemas" SchemaNode.read SchemaNode.toJson schemas fun v c => { c with schemas := v },
    .map "responses" ResponseNode.read ResponseNode.toJson responses
      fun v c => { c with responses := v },
    .map "parameters" ParameterNode.read ParameterNode.toJson parameters
      fun v c => { c with parameters := v },
    .map "requestBodies" RequestBodyNode.read RequestBodyNode.toJson requestBodies
      fun v c => { c with requestBodies := v },
    .map "securitySchemes" SecuritySchemeNode.read SecuritySchemeNode.toJson securitySchemes
      fun v c => { c with securitySchemes := v }]
  rest := extensions
  withRest extensions c := { c with extensions }

theorem toJson_entries (c : Components) :
    c.toJson = .object (outline.entries c ++ outline.rest c) := by
  simp only [toJson, Outline.entries, outline, List.flatMap_cons, List.flatMap_nil,
    Slot.map_entry, List.append_assoc, List.append_nil]

theorem restores : read.Restores height toJson := by
  refine (Outline.restores_extended rfl toJson_entries fun p known => ?_).lower
  simp only [outline, List.mem_cons, List.not_mem_nil, or_false] at known
  rcases known with rfl | rfl | rfl | rfl | rfl
  · exact Slot.map_stable (SchemaNode.restores height) rfl
  · exact Slot.map_stable ResponseNode.restores rfl
  · exact Slot.map_stable ParameterNode.restores rfl
  · exact Slot.map_stable RequestBodyNode.restores rfl
  · exact Slot.map_stable SecuritySchemeNode.restores rfl

end Components

namespace ApiDocument

def outline : Outline ApiDocument (Entries Json) where
  slots := [
    .required "openapi" Reader.text .text openapi fun v d => { d with openapi := v },
    .optional "info" Info.read Info.toJson info fun v d => { d with info := v },
    .list "servers" Server.read Server.toJson servers fun v d => { d with servers := v },
    .map "paths" (Reader.optional PathItem.read) (fun item => (item.map PathItem.toJson).getD .null)
      paths fun v d => { d with paths := v },
    .map "webhooks" (Reader.optional PathItem.read)
      (fun item => (item.map PathItem.toJson).getD .null) webhooks
      fun v d => { d with webhooks := v },
    .optional "components" Components.read Components.toJson components
      fun v d => { d with components := v },
    .list "tags" Tag.record.read Tag.toJson tags fun v d => { d with tags := v },
    .optional "security" (Reader.list SecurityRequirement.read)
      (fun all => .list (all.map SecurityRequirement.toJson)) security
      fun v d => { d with security := v }]
  rest := extensions
  withRest extensions d := { d with extensions }

theorem toJson_entries (d : ApiDocument) :
    d.toJson = .object (outline.entries d ++ outline.rest d) := by
  simp only [toJson, pathsToJson, Outline.entries, outline, List.flatMap_cons, List.flatMap_nil,
    Slot.required_entry, Slot.optional_entry, Slot.list_entry, Slot.map_entry, List.append_assoc,
    List.append_nil]

theorem restores : read.Restores height toJson := by
  refine (Outline.restores_extended rfl toJson_entries fun p known => ?_).lower
  simp only [outline, List.mem_cons, List.not_mem_nil, or_false] at known
  rcases known with rfl | rfl | rfl | rfl | rfl | rfl | rfl | rfl
  · exact Slot.required_stable Reader.text_restores
  · exact Slot.optional_stable Info.restores rfl
  · exact Slot.list_stable Server.restores rfl
  · exact Slot.map_stable (Reader.optional_restores PathItem.restores) rfl
  · exact Slot.map_stable (Reader.optional_restores PathItem.restores) rfl
  · exact Slot.optional_stable Components.restores rfl
  · exact Slot.list_stable Tag.restores rfl
  · exact Slot.optional_stable (Reader.list_restores SecurityRequirement.restores) rfl

/-- Parsing inverts serialization: whatever a document was parsed from, its serialized form is a
proper value again, is parsed to the same document, and is serialized to itself. -/
theorem serialized_parsed {value : Json} {d : ApiDocument} (proper : value.Proper)
    (parsed : ofJson value = .ok d) :
    d.toJson.canonical.Proper ∧ ofJson d.toJson.canonical = .ok d ∧
      (ofJson d.toJson.canonical).map (fun again => again.toJson.canonical) =
        .ok d.toJson.canonical := by
  have decoded := supported_ok parsed
  have restored := restores .json value d proper (Nat.lt_succ_self _) decoded
  have again : ofJson d.toJson.canonical = .ok d := by
    rw [ofJson, restored.back .json, ← decoded]
    exact parsed
  exact ⟨restored.proper, again, by rw [again]; rfl⟩

-- A node of each kind, an unknown word, nulls, a list for a record, and keys that no field has.
def strayValue : Json :=
  .object [
    ("components", .object [
      ("schemas", .object [
        ("Cat", .object [("minimum", .number (.integer 0)), ("nullable", .null),
          ("type", .text "feline"), ("x-note", .bool true)]),
        ("Five", .number (.integer 5)),
        ("Pet", .object [("$ref", .text "#/components/schemas/Cat"), ("title", .text "beside")])])]),
    ("info", .null),
    ("openapi", .text "3.0.3"),
    ("paths", .object [("/cats", .null)]),
    ("tags", .list [.list [.text "cats", .null]]),
    ("x-own", .list [])]

theorem strayValue_proper : strayValue.Proper := by
  have none : ∀ e ∈ ([] : Entries Json), e.2.Proper := fun _ here => absurd here List.not_mem_nil
  have entry {key : String} {value : Json} {rest : Entries Json} (proper : value.Proper)
      (others : ∀ e ∈ rest, e.2.Proper) : ∀ e ∈ (key, value) :: rest, e.2.Proper :=
    List.forall_mem_cons.mpr ⟨proper, others⟩
  have items : ∀ item ∈ [Json.text "cats", .null], item.Proper :=
    List.forall_mem_cons.mpr ⟨.text _, List.forall_mem_singleton.mpr .null⟩
  have cat : (Json.object [("minimum", .number (.integer 0)), ("nullable", .null),
      ("type", .text "feline"), ("x-note", .bool true)]).Proper :=
    .object (by decide) (entry (.integer rfl) (entry .null (entry (.text _) (entry (.bool _) none))))
  have pet : (Json.object [("$ref", .text "#/components/schemas/Cat"),
      ("title", .text "beside")]).Proper :=
    .object (by decide) (entry (.text _) (entry (.text _) none))
  refine .object (by decide) (entry (.object (by decide) (entry (.object (by decide)
    (entry cat (entry (.integer rfl) (entry pet none)))) none)) (entry .null (entry (.text _)
    (entry (.object (by decide) (entry .null none))
    (entry (.list (List.forall_mem_singleton.mpr (.list items)))
    (entry (.list fun _ here => absurd here List.not_mem_nil) none))))))

theorem strayValue_serialized :
    ∃ d, ofJson strayValue = .ok d ∧ d.toJson.canonical.equal strayValue = false ∧
      d.toJson.canonical.Proper ∧ ofJson d.toJson.canonical = .ok d := by
  have changed : ((ofJson strayValue).toOption.any fun d =>
      !d.toJson.canonical.equal strayValue) = true := by decide +kernel
  cases parsed : ofJson strayValue with
  | error e =>
    rw [parsed] at changed
    cases changed
  | ok d =>
    rw [parsed] at changed
    obtain ⟨proper, again, -⟩ := serialized_parsed strayValue_proper parsed
    exact ⟨d, rfl, (Bool.not_eq_true' _).mp changed, proper, again⟩

end ApiDocument

end ApiLowering
