import ApiLowering.Proofs.IrOperationForms

/-!
Files of the intermediate representation are read back from their JSON form when every bound in them
is finite and no map in them repeats a key.
-/

set_option autoImplicit false

namespace ApiLowering.Ir

open ApiLowering.Ir.Schema (Throughout FiniteHere)

namespace OAuthScope

def outline : Outline OAuthScope Unit where
  slots := [
    .required "name" Reader.text .text name fun v s => { s with name := v },
    .lenient "description" Reader.text .text description fun v s => { s with description := v }]
  rest _ := ()
  withRest _ s := s

theorem toJson_entries (s : OAuthScope) : s.toJson = .object (outline.entries s) := by
  simp only [toJson, Outline.entries, outline, List.flatMap_cons, List.flatMap_nil,
    Slot.required_entry, Slot.lenient_entry, List.append_nil, List.cons_append, List.nil_append]

theorem rereads (s : OAuthScope) : record.read.Rereads toJson s := by
  refine Outline.closed_rereads (o := outline) rfl rfl toJson_entries fun slot known => ?_
  simp only [outline, List.mem_cons, List.not_mem_nil, or_false] at known
  rcases known with rfl | rfl
  · exact Slot.required_kept (Reader.text_rereads _)
  · exact Slot.lenient_kept rfl fun _ _ => Reader.text_rereads _

end OAuthScope

namespace SecurityScheme

def descriptionOutline : Outline (Option String) Unit where
  slots := [.lenient "description" Reader.text .text id fun v _ => v]
  rest _ := ()
  withRest _ description := description
  whole _ _ same _ := same _ List.mem_cons_self

def headerOutline : Outline HeaderFields Unit where
  slots := [
    .required "headerName" Reader.text .text HeaderFields.headerName
      fun v h => { h with headerName := v },
    .lenient "name" NameVariants.read NameVariants.toJson HeaderFields.name
      fun v h => { h with name := v },
    .lenient "prefix" Reader.text .text HeaderFields.lead fun v h => { h with lead := v },
    .lenient "description" Reader.text .text HeaderFields.description
      fun v h => { h with description := v }]
  rest _ := ()
  withRest _ h := h

def oauthOutline : Outline (List OAuthScope × Option String) Unit where
  slots := [
    .required "scopes" (Reader.list OAuthScope.record.read)
      (fun all => .list (all.map OAuthScope.toJson)) Prod.fst fun v o => (v, o.2),
    .lenient "description" Reader.text .text Prod.snd fun v o => (o.1, v)]
  rest _ := ()
  withRest _ o := o

theorem rereads (scheme : SecurityScheme) : read.Rereads toJson scheme := by
  have described {description : Option String} :
      ∀ p ∈ descriptionOutline.slots, p.Kept (descriptionRecord "").blank description := by
    intro p known
    cases List.mem_singleton.mp known
    exact Slot.lenient_kept rfl fun _ _ => Reader.text_rereads _
  cases scheme with
  | basic description =>
    refine Outline.variant_rereads "basic" basic (fun _ => rfl) ?_ rfl (by decide) rfl rfl described
    simp only [toJson, Outline.entries, descriptionOutline, List.flatMap_cons, List.flatMap_nil,
      Slot.lenient_entry, List.append_nil, List.cons_append, List.nil_append, id]
  | bearer description =>
    refine Outline.variant_rereads "bearer" bearer (fun _ => rfl) ?_ rfl (by decide) rfl rfl described
    simp only [toJson, Outline.entries, descriptionOutline, List.flatMap_cons, List.flatMap_nil,
      Slot.lenient_entry, List.append_nil, List.cons_append, List.nil_append, id]
  | header headerName name lead description =>
    refine Outline.variant_rereads "header"
      (fun h : HeaderFields => header h.headerName h.name h.lead h.description)
      (fun _ => rfl) ?_ rfl (by decide) rfl rfl
      (a := ⟨headerName, name, lead, description⟩) (o := headerOutline) fun p known => ?_
    · simp only [toJson, Outline.entries, headerOutline, List.flatMap_cons, List.flatMap_nil,
        Slot.required_entry, Slot.lenient_entry, List.append_assoc, List.append_nil,
        List.cons_append, List.nil_append]
    · simp only [headerOutline, List.mem_cons, List.not_mem_nil, or_false] at known
      rcases known with rfl | rfl | rfl | rfl
      · exact Slot.required_kept (Reader.text_rereads _)
      · exact Slot.lenient_kept rfl fun _ _ => NameVariants.rereads _
      · exact Slot.lenient_kept rfl fun _ _ => Reader.text_rereads _
      · exact Slot.lenient_kept rfl fun _ _ => Reader.text_rereads _
  | oauth scopes description =>
    refine Outline.variant_rereads "oauth"
      (fun o : List OAuthScope × Option String => oauth o.1 o.2)
      (fun _ => rfl) ?_ rfl (by decide) rfl rfl (a := (scopes, description)) (o := oauthOutline)
      fun p known => ?_
    · simp only [toJson, Outline.entries, oauthOutline, List.flatMap_cons, List.flatMap_nil,
        Slot.required_entry, Slot.lenient_entry, List.append_nil, List.cons_append,
        List.nil_append]
    · simp only [oauthOutline, List.mem_cons, List.not_mem_nil, or_false] at known
      rcases known with rfl | rfl
      · exact Slot.required_kept (Reader.list_rereads fun s _ => s.rereads)
      · exact Slot.lenient_kept rfl fun _ _ => Reader.text_rereads _

end SecurityScheme

namespace Server

def outline : Outline Server Unit where
  slots := [
    .required "url" Reader.text .text url fun v s => { s with url := v },
    .optional "description" Reader.text .text description fun v s => { s with description := v },
    .optional "name" Reader.text .text name fun v s => { s with name := v }]
  rest _ := ()
  withRest _ s := s

theorem toJson_entries (s : Server) : s.toJson = .object (outline.entries s) := by
  simp only [toJson, descriptionEntry, Outline.entries, outline, List.flatMap_cons,
    List.flatMap_nil, Slot.required_entry, Slot.optional_entry, List.append_nil, List.cons_append,
    List.nil_append]

theorem rereads (s : Server) : record.read.Rereads toJson s := by
  refine Outline.closed_rereads (o := outline) rfl rfl toJson_entries fun slot known => ?_
  simp only [outline, List.mem_cons, List.not_mem_nil, or_false] at known
  rcases known with rfl | rfl | rfl
  · exact Slot.required_kept (Reader.text_rereads _)
  · exact Slot.optional_kept rfl fun _ _ => Reader.text_rereads _
  · exact Slot.optional_kept rfl fun _ _ => Reader.text_rereads _

end Server

namespace Tag

def outline : Outline Tag Unit where
  slots := [
    .required "id" Reader.text .text id fun v t => { t with id := v },
    .optional "description" Reader.text .text description fun v t => { t with description := v }]
  rest _ := ()
  withRest _ t := t

theorem toJson_entries (t : Tag) : t.toJson = .object (outline.entries t) := by
  simp only [toJson, descriptionEntry, Outline.entries, outline, List.flatMap_cons,
    List.flatMap_nil, Slot.required_entry, Slot.optional_entry, List.append_nil, List.cons_append,
    List.nil_append]

theorem rereads (t : Tag) : record.read.Rereads toJson t := by
  refine Outline.closed_rereads (o := outline) rfl rfl toJson_entries fun slot known => ?_
  simp only [outline, List.mem_cons, List.not_mem_nil, or_false] at known
  rcases known with rfl | rfl
  · exact Slot.required_kept (Reader.text_rereads _)
  · exact Slot.optional_kept rfl fun _ _ => Reader.text_rereads _

end Tag

theorem FindingKind.rereads (kind : FindingKind) : read.Rereads (fun k => .text k.name) kind where
  back mode := by cases kind <;> cases mode <;> rfl
  sound := .text _
  present same := by cases same

namespace Finding

def outline : Outline Finding Unit where
  slots := [
    .required "kind" FindingKind.read (fun k => .text k.name) kind fun v f => { f with kind := v },
    .required "breadcrumbs" (Reader.list Reader.text) Json.texts breadcrumbs
      fun v f => { f with breadcrumbs := v },
    .required "message" Reader.text .text message fun v f => { f with message := v }]
  rest _ := ()
  withRest _ f := f

theorem rereads (f : Finding) : record.read.Rereads toJson f := by
  refine Outline.closed_rereads (o := outline) rfl rfl (fun _ => rfl) fun slot known => ?_
  simp only [outline, List.mem_cons, List.not_mem_nil, or_false] at known
  rcases known with rfl | rfl | rfl
  · exact Slot.required_kept (FindingKind.rereads _)
  · exact Slot.required_kept (Reader.list_rereads fun _ _ => Reader.text_rereads _)
  · exact Slot.required_kept (Reader.text_rereads _)

end Finding

namespace File

/-- A file that JSON can carry: its bounds are finite, and no key of a map in it is repeated. -/
structure Sound (f : File) : Prop where
  schemas : ∀ s, f.Holds s → s.FiniteHere
  variableBounds : ∀ e ∈ f.sdkVariables, e.2.value.Finite
  schemaKeys : (Entries.keys f.schemas).Nodup
  schemeKeys : (Entries.keys f.securitySchemes).Nodup
  tagKeys : (Entries.keys f.tags).Nodup
  variableKeys : (Entries.keys f.sdkVariables).Nodup
  requirementKeys : ∀ e ∈ f.endpoints, ∀ r ∈ e.security, (Entries.keys r).Nodup

def outline : Outline File Unit where
  slots := [
    .required "title" Reader.text .text title fun v f => { f with title := v },
    .optional "description" Reader.text .text description fun v f => { f with description := v },
    .required "servers" (Reader.list Server.record.read) (fun all => .list (all.map Server.toJson))
      servers fun v f => { f with servers := v },
    .required "tags" (Reader.entries Tag.record.read)
      (fun all => .object (Entries.mapValues Tag.toJson all)) tags fun v f => { f with tags := v },
    .required "endpoints" (Reader.list Endpoint.record.read)
      (fun all => .list (all.map Endpoint.toJson)) endpoints fun v f => { f with endpoints := v },
    .required "webhooks" (Reader.list Webhook.record.read)
      (fun all => .list (all.map Webhook.toJson)) webhooks fun v f => { f with webhooks := v },
    .required "schemas" (Reader.entries Schema.read)
      (fun all => .object (Entries.mapValues Schema.toJson all)) schemas
      fun v f => { f with schemas := v },
    .required "securitySchemes" (Reader.entries SecurityScheme.read)
      (fun all => .object (Entries.mapValues SecurityScheme.toJson all)) securitySchemes
      fun v f => { f with securitySchemes := v },
    .required "hasEndpointsMarkedInternal" Reader.bool .bool hasEndpointsMarkedInternal
      fun v f => { f with hasEndpointsMarkedInternal := v },
    .required "errors" (Reader.list Finding.record.read)
      (fun all => .list (all.map Finding.toJson)) errors fun v f => { f with errors := v },
    .required "nonRequestReferencedSchemas" (Reader.list Reader.text) Json.texts
      nonRequestReferencedSchemas fun v f => { f with nonRequestReferencedSchemas := v },
    .required "dependencies" (Reader.list Reader.text) Json.texts dependencies
      fun v f => { f with dependencies := v },
    .required "variables" (Reader.entries PrimitiveSchema.read)
      (fun all => .object (Entries.mapValues PrimitiveSchema.toJson all)) sdkVariables
      fun v f => { f with sdkVariables := v }]
  rest _ := ()
  withRest _ f := f

theorem toJson_entries (f : File) : f.toJson = .object (outline.entries f) := by
  simp only [toJson, descriptionEntry, Outline.entries, outline, List.flatMap_cons,
    List.flatMap_nil, Slot.required_entry, Slot.optional_entry, List.append_nil, List.cons_append,
    List.nil_append]

/-- A file that JSON can carry is read back from what is written of it. -/
theorem rereads {f : File} (sound : f.Sound) : read.Rereads toJson f := by
  have held {root : Schema} (listed : root ∈ Entries.values f.schemas
      ++ f.endpoints.flatMap Endpoint.schemas ++ f.webhooks.flatMap Webhook.schemas) :
      Throughout FiniteHere root := fun s occurs => sound.schemas s ⟨root, listed, occurs⟩
  refine Outline.closed_rereads (o := outline) rfl rfl toJson_entries fun slot known => ?_
  simp only [outline, List.mem_cons, List.not_mem_nil, or_false] at known
  rcases known with rfl | rfl | rfl | rfl | rfl | rfl | rfl | rfl | rfl | rfl | rfl | rfl | rfl
  · exact Slot.required_kept (Reader.text_rereads _)
  · exact Slot.optional_kept rfl fun _ _ => Reader.text_rereads _
  · exact Slot.required_kept (Reader.list_rereads fun s _ => s.rereads)
  · exact Slot.required_kept (Reader.entries_rereads sound.tagKeys fun e _ => e.2.rereads)
  · refine Slot.required_kept (Reader.list_rereads fun e listed => Endpoint.rereads
      (fun s here => held ?_) (sound.requirementKeys e listed))
    exact List.mem_append_left _ (List.mem_append_right _ (List.mem_flatMap.mpr ⟨e, listed, here⟩))
  · refine Slot.required_kept (Reader.list_rereads fun w listed => Webhook.rereads
      fun s here => held ?_)
    exact List.mem_append_right _ (List.mem_flatMap.mpr ⟨w, listed, here⟩)
  · refine Slot.required_kept (Reader.entries_rereads sound.schemaKeys fun e listed =>
      Schema.rereads (held ?_))
    exact List.mem_append_left _ (List.mem_append_left _ (List.mem_map_of_mem listed))
  · exact Slot.required_kept (Reader.entries_rereads sound.schemeKeys fun e _ => e.2.rereads)
  · exact Slot.required_kept (Reader.bool_rereads _)
  · exact Slot.required_kept (Reader.list_rereads fun f _ => f.rereads)
  · exact Slot.required_kept (Reader.list_rereads fun _ _ => Reader.text_rereads _)
  · exact Slot.required_kept (Reader.list_rereads fun _ _ => Reader.text_rereads _)
  · exact Slot.required_kept (Reader.entries_rereads sound.variableKeys fun e listed =>
      PrimitiveSchema.rereads (sound.variableBounds e listed))

end File

end ApiLowering.Ir
