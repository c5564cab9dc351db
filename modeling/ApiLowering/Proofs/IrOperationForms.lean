import ApiLowering.Proofs.IrSchemaForms
import ApiLowering.Proofs.Occurrence

/-!
Endpoints and webhooks of the intermediate representation are read back from their JSON form when
every schema in them is.
-/

set_option autoImplicit false

namespace ApiLowering

theorem HttpMethod.rereads (m : HttpMethod) : read.Rereads (fun m => .text m.name) m where
  back mode := by cases m <;> cases mode <;> rfl
  sound := .text _
  present same := by cases same

namespace Ir

open ApiLowering.Ir.Schema (Throughout FiniteHere)

namespace Parameter

def outline : Outline Parameter Unit where
  slots := [
    .required "name" NameVariants.read NameVariants.toJson name fun v p => { p with name := v },
    .required "schema" Schema.read Schema.toJson schema fun v p => { p with schema := v },
    .required "required" Reader.bool .bool required fun v p => { p with required := v },
    .lenient "description" Reader.text .text description fun v p => { p with description := v },
    .lenient "variableReference" Reader.text .text variableReference
      fun v p => { p with variableReference := v }]
  rest _ := ()
  withRest _ p := p

theorem toJson_entries (p : Parameter) : p.toJson = .object (outline.entries p) := by
  simp only [toJson, descriptionEntry, Outline.entries, outline, List.flatMap_cons,
    List.flatMap_nil, Slot.required_entry, Slot.lenient_entry, List.append_nil, List.cons_append,
    List.nil_append]

theorem rereads {p : Parameter} (finite : Throughout FiniteHere p.schema) :
    record.read.Rereads toJson p := by
  refine Outline.closed_rereads (o := outline) rfl rfl toJson_entries fun slot known => ?_
  simp only [outline, List.mem_cons, List.not_mem_nil, or_false] at known
  rcases known with rfl | rfl | rfl | rfl | rfl
  · exact Slot.required_kept (NameVariants.rereads _)
  · exact Slot.required_kept (Schema.rereads finite)
  · exact Slot.required_kept (Reader.bool_rereads _)
  · exact Slot.lenient_kept rfl fun _ _ => Reader.text_rereads _
  · exact Slot.lenient_kept rfl fun _ _ => Reader.text_rereads _

end Parameter

namespace MultipartKind

def fileOutline : Outline (Bool × Option String) Unit where
  slots := [
    .required "isArray" Reader.bool .bool Prod.fst fun v f => (v, f.2),
    .lenient "contentType" Reader.text .text Prod.snd fun v f => (f.1, v)]
  rest _ := ()
  withRest _ f := f

def fieldOutline : Outline Schema Unit where
  slots := [.required "schema" Schema.read Schema.toJson id fun v _ => v]
  rest _ := ()
  withRest _ s := s
  whole _ _ same _ := same _ List.mem_cons_self

theorem rereads {kind : MultipartKind} (finite : ∀ s ∈ kind.schemas, Throughout FiniteHere s) :
    read.Rereads toJson kind := by
  cases kind with
  | file isArray contentType =>
    have kept : ∀ p ∈ fileOutline.slots, p.Kept fileRecord.blank (isArray, contentType) := by
      intro p known
      simp only [fileOutline, List.mem_cons, List.not_mem_nil, or_false] at known
      rcases known with rfl | rfl
      · exact Slot.required_kept (Reader.bool_rereads _)
      · exact Slot.lenient_kept rfl fun _ _ => Reader.text_rereads _
    refine Outline.variant_rereads "file" (fun f : Bool × Option String => file f.1 f.2)
      (fun _ => rfl) ?_ rfl (by decide) rfl rfl kept
    simp only [toJson, Outline.entries, fileOutline, List.flatMap_cons, List.flatMap_nil,
      Slot.required_entry, Slot.lenient_entry, List.append_nil, List.cons_append, List.nil_append]
  | field schema =>
    have kept : ∀ p ∈ fieldOutline.slots, p.Kept fieldRecord.blank schema := by
      intro p known
      cases List.mem_singleton.mp known
      exact Slot.required_kept (Schema.rereads (finite schema List.mem_cons_self))
    exact Outline.variant_rereads "field" field (fun _ => rfl) rfl rfl (by decide) rfl rfl kept

end MultipartKind

namespace MultipartProperty

def outline : Outline MultipartProperty Unit where
  slots := [
    .required "key" Reader.text .text key fun v p => { p with key := v },
    .required "name" NameVariants.read NameVariants.toJson name fun v p => { p with name := v },
    .required "kind" MultipartKind.read MultipartKind.toJson kind fun v p => { p with kind := v },
    .required "required" Reader.bool .bool required fun v p => { p with required := v },
    .lenient "description" Reader.text .text description fun v p => { p with description := v }]
  rest _ := ()
  withRest _ p := p

theorem toJson_entries (p : MultipartProperty) : p.toJson = .object (outline.entries p) := by
  simp only [toJson, descriptionEntry, Outline.entries, outline, List.flatMap_cons,
    List.flatMap_nil, Slot.required_entry, Slot.lenient_entry, List.append_nil, List.cons_append,
    List.nil_append]

theorem rereads {p : MultipartProperty} (finite : ∀ s ∈ p.kind.schemas, Throughout FiniteHere s) :
    record.read.Rereads toJson p := by
  refine Outline.closed_rereads (o := outline) rfl rfl toJson_entries fun slot known => ?_
  simp only [outline, List.mem_cons, List.not_mem_nil, or_false] at known
  rcases known with rfl | rfl | rfl | rfl | rfl
  · exact Slot.required_kept (Reader.text_rereads _)
  · exact Slot.required_kept (NameVariants.rereads _)
  · exact Slot.required_kept (MultipartKind.rereads finite)
  · exact Slot.required_kept (Reader.bool_rereads _)
  · exact Slot.lenient_kept rfl fun _ _ => Reader.text_rereads _

end MultipartProperty

namespace BodyFields

def requestOutline : Outline BodyFields (UInt16 × List MultipartProperty) where
  slots := [
    .required "contentType" Reader.text .text contentType fun v b => { b with contentType := v },
    .required "schema" Schema.read Schema.toJson schema fun v b => { b with schema := v },
    .lenient "description" Reader.text .text description fun v b => { b with description := v },
    .required "required" Reader.bool .bool required fun v b => { b with required := v }]
  rest b := (b.statusCode, b.properties)
  withRest x b := { b with statusCode := x.1, properties := x.2 }

def formOutline : Outline BodyFields (UInt16 × Schema) where
  slots := [
    .required "contentType" Reader.text .text contentType fun v b => { b with contentType := v },
    .required "properties" (Reader.list MultipartProperty.record.read)
      (fun all => .list (all.map MultipartProperty.toJson)) properties
      fun v b => { b with properties := v },
    .lenient "description" Reader.text .text description fun v b => { b with description := v },
    .required "required" Reader.bool .bool required fun v b => { b with required := v }]
  rest b := (b.statusCode, b.schema)
  withRest x b := { b with statusCode := x.1, schema := x.2 }

def bytesOutline : Outline BodyFields (UInt16 × Schema × List MultipartProperty) where
  slots := [
    .required "contentType" Reader.text .text contentType fun v b => { b with contentType := v },
    .lenient "description" Reader.text .text description fun v b => { b with description := v },
    .required "required" Reader.bool .bool required fun v b => { b with required := v }]
  rest b := (b.statusCode, b.schema, b.properties)
  withRest x b := { b with statusCode := x.1, schema := x.2.1, properties := x.2.2 }

def responseOutline : Outline BodyFields (String × List MultipartProperty × Bool) where
  slots := [
    .required "statusCode" Reader.uint16 ofStatus statusCode fun v b => { b with statusCode := v },
    .required "schema" Schema.read Schema.toJson schema fun v b => { b with schema := v },
    .lenient "description" Reader.text .text description fun v b => { b with description := v }]
  rest b := (b.contentType, b.properties, b.required)
  withRest x b := { b with contentType := x.1, properties := x.2.1, required := x.2.2 }

def statusOutline : Outline BodyFields (String × Schema × List MultipartProperty × Bool) where
  slots := [
    .required "statusCode" Reader.uint16 ofStatus statusCode fun v b => { b with statusCode := v },
    .lenient "description" Reader.text .text description fun v b => { b with description := v }]
  rest b := (b.contentType, b.schema, b.properties, b.required)
  withRest x b :=
    { b with contentType := x.1, schema := x.2.1, properties := x.2.2.1, required := x.2.2.2 }

end BodyFields

namespace Request

theorem rereads {request : Request} (finite : ∀ s ∈ request.schemas, Throughout FiniteHere s) :
    read.Rereads toJson request := by
  cases request with
  | json contentType schema description required =>
    let fields : BodyFields := ⟨contentType, 0, schema, [], description, required⟩
    have kept (blank : BodyFields) (none : blank.description = none) :
        ∀ p ∈ BodyFields.requestOutline.slots, p.Kept blank fields := by
      intro p known
      simp only [BodyFields.requestOutline, List.mem_cons, List.not_mem_nil, or_false] at known
      rcases known with rfl | rfl | rfl | rfl
      · exact Slot.required_kept (Reader.text_rereads _)
      · exact Slot.required_kept (Schema.rereads (finite schema List.mem_cons_self))
      · exact Slot.lenient_kept none fun _ _ => Reader.text_rereads _
      · exact Slot.required_kept (Reader.bool_rereads _)
    refine Outline.variant_rereads
      "json" (fun b : BodyFields => json b.contentType b.schema b.description b.required)
      (fun _ => rfl) ?_ rfl (by decide) rfl rfl (kept _ rfl)
    simp only [toJson, descriptionEntry, Outline.entries, BodyFields.requestOutline,
      List.flatMap_cons, List.flatMap_nil, Slot.required_entry, Slot.lenient_entry, List.append_nil,
      List.cons_append, List.nil_append, fields]
  | multipart contentType properties description required =>
    let fields : BodyFields := ⟨contentType, 0, blankSchema, properties, description, required⟩
    have kept (blank : BodyFields) (none : blank.description = none) :
        ∀ p ∈ BodyFields.formOutline.slots, p.Kept blank fields := by
      intro p known
      simp only [BodyFields.formOutline, List.mem_cons, List.not_mem_nil, or_false] at known
      rcases known with rfl | rfl | rfl | rfl
      · exact Slot.required_kept (Reader.text_rereads _)
      · exact Slot.required_kept (Reader.list_rereads fun p listed => MultipartProperty.rereads
          fun s here => finite s (List.mem_flatMap.mpr ⟨p, listed, here⟩))
      · exact Slot.lenient_kept none fun _ _ => Reader.text_rereads _
      · exact Slot.required_kept (Reader.bool_rereads _)
    refine Outline.variant_rereads
      "multipart" (fun b : BodyFields => multipart b.contentType b.properties b.description b.required)
      (fun _ => rfl) ?_ rfl (by decide) rfl rfl (kept _ rfl)
    simp only [toJson, descriptionEntry, Outline.entries, BodyFields.formOutline,
      List.flatMap_cons, List.flatMap_nil, Slot.required_entry, Slot.lenient_entry, List.append_nil,
      List.cons_append, List.nil_append, fields]
  | bytes contentType description required =>
    let fields : BodyFields := ⟨contentType, 0, blankSchema, [], description, required⟩
    have kept (blank : BodyFields) (none : blank.description = none) :
        ∀ p ∈ BodyFields.bytesOutline.slots, p.Kept blank fields := by
      intro p known
      simp only [BodyFields.bytesOutline, List.mem_cons, List.not_mem_nil, or_false] at known
      rcases known with rfl | rfl | rfl
      · exact Slot.required_kept (Reader.text_rereads _)
      · exact Slot.lenient_kept none fun _ _ => Reader.text_rereads _
      · exact Slot.required_kept (Reader.bool_rereads _)
    refine Outline.variant_rereads
      "bytes" (fun b : BodyFields => bytes b.contentType b.description b.required)
      (fun _ => rfl) ?_ rfl (by decide) rfl rfl (kept _ rfl)
    simp only [toJson, descriptionEntry, Outline.entries, BodyFields.bytesOutline,
      List.flatMap_cons, List.flatMap_nil, Slot.required_entry, Slot.lenient_entry, List.append_nil,
      List.cons_append, List.nil_append, fields]

end Request

namespace Response

theorem rereads {response : Response} (finite : ∀ s ∈ response.schemas, Throughout FiniteHere s) :
    read.Rereads toJson response := by
  have schemaKept {status : UInt16} {schema : Schema} {description : Option String}
      (blank : BodyFields) (none : blank.description = none) (fine : Throughout FiniteHere schema) :
      ∀ p ∈ BodyFields.responseOutline.slots,
        p.Kept blank ⟨"", status, schema, [], description, false⟩ := by
    intro p known
    simp only [BodyFields.responseOutline, List.mem_cons, List.not_mem_nil, or_false] at known
    rcases known with rfl | rfl | rfl
    · exact Slot.required_kept (Reader.uint16_rereads _)
    · exact Slot.required_kept (Schema.rereads fine)
    · exact Slot.lenient_kept none fun _ _ => Reader.text_rereads _
  have statusKept {status : UInt16} {description : Option String} (blank : BodyFields)
      (none : blank.description = none) : ∀ p ∈ BodyFields.statusOutline.slots,
      p.Kept blank ⟨"", status, blankSchema, [], description, false⟩ := by
    intro p known
    simp only [BodyFields.statusOutline, List.mem_cons, List.not_mem_nil, or_false] at known
    rcases known with rfl | rfl
    · exact Slot.required_kept (Reader.uint16_rereads _)
    · exact Slot.lenient_kept none fun _ _ => Reader.text_rereads _
  cases response with
  | json status schema description =>
    refine Outline.variant_rereads
      "json" (fun b : BodyFields => json b.statusCode b.schema b.description)
      (fun _ => rfl) ?_ rfl (by decide) rfl rfl (schemaKept _ rfl (finite schema List.mem_cons_self))
    simp only [toJson, descriptionEntry, Outline.entries, BodyFields.responseOutline,
      List.flatMap_cons, List.flatMap_nil, Slot.required_entry, Slot.lenient_entry, List.append_nil,
      List.cons_append, List.nil_append]
  | file status description =>
    refine Outline.variant_rereads "file" (fun b : BodyFields => file b.statusCode b.description)
      (fun _ => rfl) ?_ rfl (by decide) rfl rfl (statusKept _ rfl)
    simp only [toJson, descriptionEntry, Outline.entries, BodyFields.statusOutline,
      List.flatMap_cons, List.flatMap_nil, Slot.required_entry, Slot.lenient_entry, List.append_nil,
      List.cons_append, List.nil_append]
  | text status description =>
    refine Outline.variant_rereads "text" (fun b : BodyFields => text b.statusCode b.description)
      (fun _ => rfl) ?_ rfl (by decide) rfl rfl (statusKept _ rfl)
    simp only [toJson, descriptionEntry, Outline.entries, BodyFields.statusOutline,
      List.flatMap_cons, List.flatMap_nil, Slot.required_entry, Slot.lenient_entry, List.append_nil,
      List.cons_append, List.nil_append]
  | streaming status schema description =>
    refine Outline.variant_rereads
      "streaming" (fun b : BodyFields => streaming b.statusCode b.schema b.description)
      (fun _ => rfl) ?_ rfl (by decide) rfl rfl (schemaKept _ rfl (finite schema List.mem_cons_self))
    simp only [toJson, descriptionEntry, Outline.entries, BodyFields.responseOutline,
      List.flatMap_cons, List.flatMap_nil, Slot.required_entry, Slot.lenient_entry, List.append_nil,
      List.cons_append, List.nil_append]

end Response

namespace ErrorResponse

def outline : Outline ErrorResponse Unit where
  slots := [
    .required "statusCode" Reader.uint16 ofStatus statusCode fun v e => { e with statusCode := v },
    .required "name" NameVariants.read NameVariants.toJson name fun v e => { e with name := v },
    .lenient "schema" Schema.read Schema.toJson schema fun v e => { e with schema := v },
    .lenient "description" Reader.text .text description fun v e => { e with description := v }]
  rest _ := ()
  withRest _ e := e

theorem toJson_entries (e : ErrorResponse) : e.toJson = .object (outline.entries e) := by
  simp only [toJson, descriptionEntry, Outline.entries, outline, List.flatMap_cons,
    List.flatMap_nil, Slot.required_entry, Slot.lenient_entry, List.append_nil, List.cons_append,
    List.nil_append]

theorem rereads {e : ErrorResponse} (finite : ∀ s ∈ e.schema, Throughout FiniteHere s) :
    record.read.Rereads toJson e := by
  refine Outline.closed_rereads (o := outline) rfl rfl toJson_entries fun slot known => ?_
  simp only [outline, List.mem_cons, List.not_mem_nil, or_false] at known
  rcases known with rfl | rfl | rfl | rfl
  · exact Slot.required_kept (Reader.uint16_rereads _)
  · exact Slot.required_kept (NameVariants.rereads _)
  · exact Slot.lenient_kept rfl fun s here => Schema.rereads (finite s here)
  · exact Slot.lenient_kept rfl fun _ _ => Reader.text_rereads _

end ErrorResponse

namespace Endpoint

def outline : Outline Endpoint Unit where
  slots := [
    .required "method" HttpMethod.read (fun m => .text m.name) method
      fun v e => { e with method := v },
    .required "path" Reader.text .text path fun v e => { e with path := v },
    .lenient "operationId" Reader.text .text operationId fun v e => { e with operationId := v },
    .required "name" NameVariants.read NameVariants.toJson name fun v e => { e with name := v },
    .list "sdkGroupName" Reader.text .text sdkGroupName fun v e => { e with sdkGroupName := v },
    .lenient "summary" Reader.text .text summary fun v e => { e with summary := v },
    .lenient "description" Reader.text .text description fun v e => { e with description := v },
    .required "tags" (Reader.list Reader.text) Json.texts tags fun v e => { e with tags := v },
    .list "audiences" Reader.text .text audiences fun v e => { e with audiences := v },
    .required "pathParameters" (Reader.list Parameter.record.read)
      (fun all => .list (all.map Parameter.toJson)) pathParameters
      fun v e => { e with pathParameters := v },
    .required "queryParameters" (Reader.list Parameter.record.read)
      (fun all => .list (all.map Parameter.toJson)) queryParameters
      fun v e => { e with queryParameters := v },
    .required "headers" (Reader.list Parameter.record.read)
      (fun all => .list (all.map Parameter.toJson)) headers fun v e => { e with headers := v },
    .lenient "request" Request.read Request.toJson request fun v e => { e with request := v },
    .lenient "response" Response.read Response.toJson response fun v e => { e with response := v },
    .required "errorResponses" (Reader.list ErrorResponse.record.read)
      (fun all => .list (all.map ErrorResponse.toJson)) errorResponses
      fun v e => { e with errorResponses := v },
    .required "authed" Reader.bool .bool authed fun v e => { e with authed := v },
    .required "security" (Reader.list (Reader.entries (Reader.list Reader.text)))
      (fun all => .list (all.map fun r => .object (Entries.mapValues Json.texts r))) security
      fun v e => { e with security := v },
    .required "internal" Reader.bool .bool isInternal fun v e => { e with isInternal := v },
    .required "deprecated" Reader.bool .bool deprecated fun v e => { e with deprecated := v }]
  rest _ := ()
  withRest _ e := e

theorem toJson_entries (e : Endpoint) : e.toJson = .object (outline.entries e) := by
  simp only [toJson, descriptionEntry, Outline.entries, outline, List.flatMap_cons,
    List.flatMap_nil, Slot.required_entry, Slot.lenient_entry, Slot.list_entry, List.append_assoc,
    List.append_nil, List.cons_append, List.nil_append]

theorem rereads {e : Endpoint} (finite : ∀ s ∈ e.schemas, Throughout FiniteHere s)
    (distinct : ∀ r ∈ e.security, (Entries.keys r).Nodup) : record.read.Rereads toJson e := by
  have parameter : ∀ p ∈ e.pathParameters ++ e.queryParameters ++ e.headers,
      Parameter.record.read.Rereads Parameter.toJson p := fun p listed =>
    Parameter.rereads (finite _ (List.mem_append_left _ (List.mem_append_left _
      (List.mem_append_left _ (List.mem_map_of_mem listed)))))
  have request : ∀ r ∈ e.request, ∀ s ∈ r.schemas, Throughout FiniteHere s := fun r here s inside =>
    finite s (List.mem_append_left _ (List.mem_append_left _ (List.mem_append_right _
      (List.mem_flatMap.mpr ⟨r, Option.mem_toList.mpr here, inside⟩))))
  have response : ∀ r ∈ e.response, ∀ s ∈ r.schemas, Throughout FiniteHere s :=
    fun r here s inside => finite s (List.mem_append_left _ (List.mem_append_right _
      (List.mem_flatMap.mpr ⟨r, Option.mem_toList.mpr here, inside⟩)))
  have error : ∀ r ∈ e.errorResponses, ∀ s ∈ r.schema, Throughout FiniteHere s :=
    fun r listed s here => finite s (List.mem_append_right _
      (List.mem_flatMap.mpr ⟨r, listed, Option.mem_toList.mpr here⟩))
  refine Outline.closed_rereads (o := outline) rfl rfl toJson_entries fun slot known => ?_
  simp only [outline, List.mem_cons, List.not_mem_nil, or_false] at known
  rcases known with rfl | rfl | rfl | rfl | rfl | rfl | rfl | rfl | rfl | rfl | rfl | rfl | rfl |
    rfl | rfl | rfl | rfl | rfl | rfl
  · exact Slot.required_kept (HttpMethod.rereads _)
  · exact Slot.required_kept (Reader.text_rereads _)
  · exact Slot.lenient_kept rfl fun _ _ => Reader.text_rereads _
  · exact Slot.required_kept (NameVariants.rereads _)
  · exact Slot.list_kept rfl fun _ _ => Reader.text_rereads _
  · exact Slot.lenient_kept rfl fun _ _ => Reader.text_rereads _
  · exact Slot.lenient_kept rfl fun _ _ => Reader.text_rereads _
  · exact Slot.required_kept (Reader.list_rereads fun _ _ => Reader.text_rereads _)
  · exact Slot.list_kept rfl fun _ _ => Reader.text_rereads _
  · exact Slot.required_kept (Reader.list_rereads fun p listed =>
      parameter p (List.mem_append_left _ (List.mem_append_left _ listed)))
  · exact Slot.required_kept (Reader.list_rereads fun p listed =>
      parameter p (List.mem_append_left _ (List.mem_append_right _ listed)))
  · exact Slot.required_kept (Reader.list_rereads fun p listed =>
      parameter p (List.mem_append_right _ listed))
  · exact Slot.lenient_kept rfl fun r here => Request.rereads (request r here)
  · exact Slot.lenient_kept rfl fun r here => Response.rereads (response r here)
  · exact Slot.required_kept (Reader.list_rereads fun r listed =>
      ErrorResponse.rereads (error r listed))
  · exact Slot.required_kept (Reader.bool_rereads _)
  · exact Slot.required_kept (Reader.list_rereads fun r listed =>
      Reader.entries_rereads (distinct r listed) fun _ _ =>
        Reader.list_rereads fun _ _ => Reader.text_rereads _)
  · exact Slot.required_kept (Reader.bool_rereads _)
  · exact Slot.required_kept (Reader.bool_rereads _)

end Endpoint

namespace Webhook

def outline : Outline Webhook Unit where
  slots := [
    .required "method" HttpMethod.read (fun m => .text m.name) method
      fun v w => { w with method := v },
    .required "path" Reader.text .text path fun v w => { w with path := v },
    .lenient "operationId" Reader.text .text operationId fun v w => { w with operationId := v },
    .required "name" NameVariants.read NameVariants.toJson name fun v w => { w with name := v },
    .lenient "summary" Reader.text .text summary fun v w => { w with summary := v },
    .lenient "description" Reader.text .text description fun v w => { w with description := v },
    .required "tags" (Reader.list Reader.text) Json.texts tags fun v w => { w with tags := v },
    .required "headers" (Reader.list Parameter.record.read)
      (fun all => .list (all.map Parameter.toJson)) headers fun v w => { w with headers := v },
    .required "payload" Schema.read Schema.toJson payload fun v w => { w with payload := v }]
  rest _ := ()
  withRest _ w := w

theorem toJson_entries (w : Webhook) : w.toJson = .object (outline.entries w) := by
  simp only [toJson, descriptionEntry, Outline.entries, outline, List.flatMap_cons,
    List.flatMap_nil, Slot.required_entry, Slot.lenient_entry, List.append_assoc, List.append_nil,
    List.cons_append, List.nil_append]

theorem rereads {w : Webhook} (finite : ∀ s ∈ w.schemas, Throughout FiniteHere s) :
    record.read.Rereads toJson w := by
  refine Outline.closed_rereads (o := outline) rfl rfl toJson_entries fun slot known => ?_
  simp only [outline, List.mem_cons, List.not_mem_nil, or_false] at known
  rcases known with rfl | rfl | rfl | rfl | rfl | rfl | rfl | rfl | rfl
  · exact Slot.required_kept (HttpMethod.rereads _)
  · exact Slot.required_kept (Reader.text_rereads _)
  · exact Slot.lenient_kept rfl fun _ _ => Reader.text_rereads _
  · exact Slot.required_kept (NameVariants.rereads _)
  · exact Slot.lenient_kept rfl fun _ _ => Reader.text_rereads _
  · exact Slot.lenient_kept rfl fun _ _ => Reader.text_rereads _
  · exact Slot.required_kept (Reader.list_rereads fun _ _ => Reader.text_rereads _)
  · exact Slot.required_kept (Reader.list_rereads fun p listed =>
      Parameter.rereads (finite _ (List.mem_append_left _ (List.mem_map_of_mem listed))))
  · exact Slot.required_kept (Schema.rereads
      (finite _ (List.mem_append_right _ List.mem_cons_self)))

end Webhook

end Ir

end ApiLowering
