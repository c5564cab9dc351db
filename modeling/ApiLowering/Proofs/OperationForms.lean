import ApiLowering.Document.Operation
import ApiLowering.Proofs.SchemaForms

/-!
Operations, their parameters, bodies and responses, and security schemes restore what they write.
-/

set_option autoImplicit false

namespace ApiLowering

variable {height : Nat}

namespace PartEncoding

def outline : Outline PartEncoding (Entries Json) where
  slots := [.optional "contentType" Reader.text .text contentType fun v e => { e with contentType := v }]
  rest := extensions
  withRest extensions e := { e with extensions }

theorem toJson_entries (e : PartEncoding) :
    e.toJson = .object (outline.entries e ++ outline.rest e) := by
  simp only [toJson, Outline.entries, outline, List.flatMap_cons, List.flatMap_nil,
    Slot.optional_entry, List.append_nil]

theorem restores : read.Restores height toJson := by
  refine (Outline.restores_extended rfl toJson_entries fun p known => ?_).lower
  rcases List.mem_singleton.mp known with rfl
  exact Slot.optional_stable Reader.text_restores rfl

end PartEncoding

namespace MediaType

def outline : Outline MediaType (Entries Json) where
  slots := [
    .optional "schema" SchemaNode.read SchemaNode.toJson schema fun v m => { m with schema := v },
    .map "encoding" PartEncoding.read PartEncoding.toJson encoding
      fun v m => { m with encoding := v }]
  rest := extensions
  withRest extensions m := { m with extensions }

theorem toJson_entries (m : MediaType) :
    m.toJson = .object (outline.entries m ++ outline.rest m) := by
  simp only [toJson, Outline.entries, outline, List.flatMap_cons, List.flatMap_nil,
    Slot.optional_entry, Slot.map_entry, List.append_nil]

theorem restores : read.Restores height toJson := by
  refine (Outline.restores_extended rfl toJson_entries fun p known => ?_).lower
  simp only [outline, List.mem_cons, List.not_mem_nil, or_false] at known
  rcases known with rfl | rfl
  · exact Slot.optional_stable (SchemaNode.restores height) rfl
  · exact Slot.map_stable PartEncoding.restores rfl

end MediaType

namespace RequestBody

def outline : Outline RequestBody (Entries Json) where
  slots := [
    .optional "description" Reader.text .text description fun v b => { b with description := v },
    .always "content" (Reader.entries MediaType.read)
      (fun content => .object (Entries.mapValues MediaType.toJson content)) content
      fun v b => { b with content := v },
    .always "required" Reader.bool .bool required fun v b => { b with required := v }]
  rest := extensions
  withRest extensions b := { b with extensions }

theorem toJson_entries (b : RequestBody) :
    b.toJson = .object (outline.entries b ++ outline.rest b) := by
  simp only [toJson, Outline.entries, outline, List.flatMap_cons, List.flatMap_nil,
    Slot.optional_entry, Slot.always_entry, List.append_assoc, List.cons_append, List.nil_append]

theorem restores : read.Restores height toJson := by
  refine (Outline.restores_extended rfl toJson_entries fun p known => ?_).lower
  simp only [outline, List.mem_cons, List.not_mem_nil, or_false] at known
  rcases known with rfl | rfl | rfl
  · exact Slot.optional_stable Reader.text_restores rfl
  · exact Slot.always_stable (Reader.entries_restores MediaType.restores)
      (.object List.Pairwise.nil fun _ here => absurd here List.not_mem_nil) fun _ => rfl
  · exact Slot.always_stable Reader.bool_restores (.bool false) fun _ => rfl

end RequestBody

theorem RequestBodyNode.restores :
    RequestBodyNode.read.Restores height RequestBodyNode.toJson :=
  Reader.lenient_restores RequestBody.restores
    (Outline.extended_carries rfl RequestBody.toJson_entries (by decide))
    (fun _ => rfl) (fun _ => rfl) fun _ => rfl

namespace Response

def outline : Outline Response (Entries Json) where
  slots := [
    .optional "description" Reader.text .text description fun v r => { r with description := v },
    .map "content" MediaType.read MediaType.toJson content fun v r => { r with content := v }]
  rest := extensions
  withRest extensions r := { r with extensions }

theorem toJson_entries (r : Response) :
    r.toJson = .object (outline.entries r ++ outline.rest r) := by
  simp only [toJson, Outline.entries, outline, List.flatMap_cons, List.flatMap_nil,
    Slot.optional_entry, Slot.map_entry, List.append_nil]

theorem restores : read.Restores height toJson := by
  refine (Outline.restores_extended rfl toJson_entries fun p known => ?_).lower
  simp only [outline, List.mem_cons, List.not_mem_nil, or_false] at known
  rcases known with rfl | rfl
  · exact Slot.optional_stable Reader.text_restores rfl
  · exact Slot.map_stable MediaType.restores rfl

end Response

theorem ResponseNode.restores : ResponseNode.read.Restores height ResponseNode.toJson :=
  Reader.lenient_restores Response.restores
    (Outline.extended_carries rfl Response.toJson_entries (by decide))
    (fun _ => rfl) (fun _ => rfl) fun _ => rfl

theorem ParameterLocation.restores :
    ParameterLocation.read.Restores height fun location => .text location.name := by
  refine fun _ _ location _ _ _ => ⟨.text location.name, fun mode => ?_, fun same => nomatch same⟩
  cases location <;> cases mode <;> rfl

namespace Parameter

def outline : Outline Parameter (Entries Json) where
  slots := [
    .required "name" Reader.text .text name fun v p => { p with name := v },
    .required "in" ParameterLocation.read (fun location => .text location.name) location
      fun v p => { p with location := v },
    .optional "description" Reader.text .text description fun v p => { p with description := v },
    .always "required" Reader.bool .bool required fun v p => { p with required := v },
    .optional "deprecated" Reader.bool .bool deprecated fun v p => { p with deprecated := v },
    .optional "schema" SchemaNode.read SchemaNode.toJson schema fun v p => { p with schema := v }]
  rest := extensions
  withRest extensions p := { p with extensions }

theorem toJson_entries (p : Parameter) :
    p.toJson = .object (outline.entries p ++ outline.rest p) := by
  simp only [toJson, Outline.entries, outline, List.flatMap_cons, List.flatMap_nil,
    Slot.required_entry, Slot.optional_entry, Slot.always_entry, List.append_assoc,
    List.cons_append, List.nil_append, List.append_nil]

theorem restores : read.Restores height toJson := by
  refine (Outline.restores_extended rfl toJson_entries fun p known => ?_).lower
  simp only [outline, List.mem_cons, List.not_mem_nil, or_false] at known
  rcases known with rfl | rfl | rfl | rfl | rfl | rfl
  · exact Slot.required_stable Reader.text_restores
  · exact Slot.required_stable ParameterLocation.restores
  · exact Slot.optional_stable Reader.text_restores rfl
  · exact Slot.always_stable Reader.bool_restores (.bool false) fun _ => rfl
  · exact Slot.optional_stable Reader.bool_restores rfl
  · exact Slot.optional_stable (SchemaNode.restores height) rfl

end Parameter

theorem ParameterNode.restores : ParameterNode.read.Restores height ParameterNode.toJson :=
  Reader.lenient_restores Parameter.restores
    (Outline.extended_carries rfl Parameter.toJson_entries (by decide))
    (fun _ => rfl) (fun _ => rfl) fun _ => rfl

theorem SecuritySchemeType.read_back (mode : Mode) (type : SecuritySchemeType) :
    SecuritySchemeType.read mode (Tree.ofJson (.text type.name)) = .ok type := by
  cases type <;> cases mode <;> rfl

theorem SecuritySchemeType.restores :
    SecuritySchemeType.read.Restores height fun type => .text type.name :=
  fun _ _ type _ _ _ =>
    ⟨.text type.name, fun mode => read_back mode type, fun same => nomatch same⟩

theorem ApiKeyLocation.restores :
    ApiKeyLocation.read.Restores height fun location => .text location.name := by
  refine fun _ _ location _ _ _ => ⟨.text location.name, fun mode => ?_, fun same => nomatch same⟩
  cases location <;> cases mode <;> rfl

namespace OAuthFlow

def outline : Outline OAuthFlow Unit where
  slots := [
    .optional "authorizationUrl" Reader.text .text authorizationUrl
      fun v f => { f with authorizationUrl := v },
    .optional "tokenUrl" Reader.text .text tokenUrl fun v f => { f with tokenUrl := v },
    .always "scopes" (Reader.entries Reader.text)
      (fun scopes => .object (Entries.mapValues .text scopes)) scopes
      fun v f => { f with scopes := v }]
  rest _ := ()
  withRest _ f := f

theorem toJson_entries (f : OAuthFlow) : f.toJson = .object (outline.entries f) := by
  simp only [toJson, Outline.entries, outline, List.flatMap_cons, List.flatMap_nil,
    Slot.optional_entry, Slot.always_entry, List.append_assoc, List.append_nil]

theorem restores : record.read.Restores height toJson := by
  refine (Outline.restores_closed rfl (fun _ _ => rfl) toJson_entries fun p known => ?_).lower
  simp only [outline, List.mem_cons, List.not_mem_nil, or_false] at known
  rcases known with rfl | rfl | rfl
  · exact Slot.optional_stable Reader.text_restores rfl
  · exact Slot.optional_stable Reader.text_restores rfl
  · exact Slot.always_stable (Reader.entries_restores Reader.text_restores)
      (.object List.Pairwise.nil fun _ here => absurd here List.not_mem_nil) fun _ => rfl

end OAuthFlow

namespace OAuthFlows

def outline : Outline OAuthFlows Unit where
  slots := [
    .optional "implicit" OAuthFlow.record.read OAuthFlow.toJson implicitFlow
      fun v f => { f with implicitFlow := v },
    .optional "password" OAuthFlow.record.read OAuthFlow.toJson password
      fun v f => { f with password := v },
    .optional "clientCredentials" OAuthFlow.record.read OAuthFlow.toJson clientCredentials
      fun v f => { f with clientCredentials := v },
    .optional "authorizationCode" OAuthFlow.record.read OAuthFlow.toJson authorizationCode
      fun v f => { f with authorizationCode := v }]
  rest _ := ()
  withRest _ f := f

theorem toJson_entries (f : OAuthFlows) : f.toJson = .object (outline.entries f) := by
  simp only [toJson, Outline.entries, outline, List.flatMap_cons, List.flatMap_nil,
    Slot.optional_entry, List.append_assoc, List.append_nil]

theorem restores : record.read.Restores height toJson := by
  refine (Outline.restores_closed rfl (fun _ _ => rfl) toJson_entries fun p known => ?_).lower
  simp only [outline, List.mem_cons, List.not_mem_nil, or_false] at known
  rcases known with rfl | rfl | rfl | rfl <;> exact Slot.optional_stable OAuthFlow.restores rfl

end OAuthFlows

namespace SecurityScheme

def outline : Outline SecurityScheme (Entries Json) where
  slots := [
    .always "type" SecuritySchemeType.read (fun type => .text type.name) type
      fun v s => { s with type := v },
    .optional "description" Reader.text .text description fun v s => { s with description := v },
    .optional "name" Reader.text .text name fun v s => { s with name := v },
    .optional "in" ApiKeyLocation.read (fun location => .text location.name) location
      fun v s => { s with location := v },
    .optional "scheme" Reader.text .text scheme fun v s => { s with scheme := v },
    .optional "bearerFormat" Reader.text .text bearerFormat fun v s => { s with bearerFormat := v },
    .optional "flows" OAuthFlows.record.read OAuthFlows.toJson flows
      fun v s => { s with flows := v }]
  rest := extensions
  withRest extensions s := { s with extensions }

theorem toJson_entries (s : SecurityScheme) :
    s.toJson = .object (outline.entries s ++ outline.rest s) := by
  simp only [toJson, Outline.entries, outline, List.flatMap_cons, List.flatMap_nil,
    Slot.optional_entry, Slot.always_entry, List.append_assoc, List.append_nil]

theorem restores : read.Restores height toJson := by
  refine (Outline.restores_extended rfl toJson_entries fun p known => ?_).lower
  simp only [outline, List.mem_cons, List.not_mem_nil, or_false] at known
  rcases known with rfl | rfl | rfl | rfl | rfl | rfl | rfl
  · exact Slot.always_stable SecuritySchemeType.restores (.text "unsupported")
      fun mode => SecuritySchemeType.read_back mode .unsupported
  · exact Slot.optional_stable Reader.text_restores rfl
  · exact Slot.optional_stable Reader.text_restores rfl
  · exact Slot.optional_stable ApiKeyLocation.restores rfl
  · exact Slot.optional_stable Reader.text_restores rfl
  · exact Slot.optional_stable Reader.text_restores rfl
  · exact Slot.optional_stable OAuthFlows.restores rfl

end SecurityScheme

-- A security scheme is read like a lenient node that is never a reference.
theorem SecuritySchemeNode.restores :
    SecuritySchemeNode.read.Restores height SecuritySchemeNode.toJson := by
  intro mode value node proper low done
  simp only [read, Tree.ofJson_holdIn, bind, Except.bind] at done
  cases inner : SecurityScheme.read .held (Tree.ofJson value) with
  | ok scheme =>
    simp only [inner] at done
    cases done
    have restored := SecurityScheme.restores .held value scheme proper low inner
    refine ⟨restored.proper, fun mode => ?_, restored.null⟩
    have back : SecurityScheme.read .held
        (Tree.ofJson (toJson (.inline scheme)).canonical) = .ok scheme := restored.back .held
    simp only [read, Tree.ofJson_holdIn, bind, Except.bind, back, pure, Except.pure]
  | error e =>
    simp only [inner, Reader.value_proper .held proper] at done
    cases done
    refine ⟨proper.canonical.symm ▸ proper, fun mode => ?_, fun same => same⟩
    simp only [toJson, proper.canonical, read, Tree.ofJson_holdIn, bind, Except.bind, inner,
      Reader.value_proper .held proper]
    rfl

theorem SecurityRequirement.restores :
    SecurityRequirement.read.Restores height SecurityRequirement.toJson :=
  Reader.entries_restores (Reader.list_restores Reader.text_restores)

namespace Operation

def outline : Outline Operation (Entries Json) where
  slots := [
    .optional "operationId" Reader.text .text operationId fun v o => { o with operationId := v },
    .optional "summary" Reader.text .text summary fun v o => { o with summary := v },
    .optional "description" Reader.text .text description fun v o => { o with description := v },
    .list "tags" Reader.text .text tags fun v o => { o with tags := v },
    .list "parameters" ParameterNode.read ParameterNode.toJson parameters
      fun v o => { o with parameters := v },
    .optional "requestBody" RequestBodyNode.read RequestBodyNode.toJson requestBody
      fun v o => { o with requestBody := v },
    .map "responses" ResponseNode.read ResponseNode.toJson responses
      fun v o => { o with responses := v },
    .optional "deprecated" Reader.bool .bool deprecated fun v o => { o with deprecated := v },
    .optional "security" (Reader.list SecurityRequirement.read)
      (fun all => .list (all.map SecurityRequirement.toJson)) security
      fun v o => { o with security := v }]
  rest := extensions
  withRest extensions o := { o with extensions }

theorem toJson_entries (o : Operation) :
    o.toJson = .object (outline.entries o ++ outline.rest o) := by
  simp only [toJson, Outline.entries, outline, List.flatMap_cons, List.flatMap_nil,
    Slot.optional_entry, Slot.list_entry, Slot.map_entry, List.append_assoc, List.append_nil]

theorem restores : read.Restores height toJson := by
  refine (Outline.restores_extended rfl toJson_entries fun p known => ?_).lower
  simp only [outline, List.mem_cons, List.not_mem_nil, or_false] at known
  rcases known with rfl | rfl | rfl | rfl | rfl | rfl | rfl | rfl | rfl
  · exact Slot.optional_stable Reader.text_restores rfl
  · exact Slot.optional_stable Reader.text_restores rfl
  · exact Slot.optional_stable Reader.text_restores rfl
  · exact Slot.list_stable Reader.text_restores rfl
  · exact Slot.list_stable ParameterNode.restores rfl
  · exact Slot.optional_stable RequestBodyNode.restores rfl
  · exact Slot.map_stable ResponseNode.restores rfl
  · exact Slot.optional_stable Reader.bool_restores rfl
  · exact Slot.optional_stable (Reader.list_restores SecurityRequirement.restores) rfl

end Operation

namespace PathItem

def outline : Outline PathItem (Entries Json) where
  slots := [
    .optional "summary" Reader.text .text summary fun v p => { p with summary := v },
    .optional "description" Reader.text .text description fun v p => { p with description := v },
    .list "parameters" ParameterNode.read ParameterNode.toJson parameters
      fun v p => { p with parameters := v },
    .optional "get" Operation.read Operation.toJson get fun v p => { p with get := v },
    .optional "put" Operation.read Operation.toJson put fun v p => { p with put := v },
    .optional "post" Operation.read Operation.toJson post fun v p => { p with post := v },
    .optional "patch" Operation.read Operation.toJson patch fun v p => { p with patch := v },
    .optional "delete" Operation.read Operation.toJson delete fun v p => { p with delete := v },
    .optional "options" Operation.read Operation.toJson options fun v p => { p with options := v },
    .optional "head" Operation.read Operation.toJson head fun v p => { p with head := v },
    .optional "trace" Operation.read Operation.toJson trace fun v p => { p with trace := v }]
  rest := extensions
  withRest extensions p := { p with extensions }

theorem toJson_entries (p : PathItem) :
    p.toJson = .object (outline.entries p ++ outline.rest p) := by
  simp only [toJson, Outline.entries, outline, List.flatMap_cons, List.flatMap_nil,
    Slot.optional_entry, Slot.list_entry, List.append_assoc, List.append_nil]

theorem restores : read.Restores height toJson := by
  refine (Outline.restores_extended rfl toJson_entries fun p known => ?_).lower
  simp only [outline, List.mem_cons, List.not_mem_nil, or_false] at known
  rcases known with rfl | rfl | rfl | rest
  · exact Slot.optional_stable Reader.text_restores rfl
  · exact Slot.optional_stable Reader.text_restores rfl
  · exact Slot.list_stable ParameterNode.restores rfl
  · rcases rest with rfl | rfl | rfl | rfl | rfl | rfl | rfl | rfl <;>
      exact Slot.optional_stable Operation.restores rfl

end PathItem

end ApiLowering
