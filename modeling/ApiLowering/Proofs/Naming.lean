import ApiLowering.Proofs.Declared

/-!
Names. Every name in a lowered document is derived from its original value and stands for a text on
the wire: that of a property or a field of a request for its key, that of a value of an enumeration for
the value, that of a parameter for the name it was declared with, and that of a security scheme for its
header. Names that are given by extensions change the original value alone.
-/

set_option autoImplicit false

namespace ApiLowering

namespace Ir

-- A name with the text that it stands for.
abbrev Label : Type := NameVariants × String

-- A name that stands for itself.
def ownLabel (name : NameVariants) : Label := (name, name.originalValue)

def Property.label (p : Property Schema) : Label := (p.name, p.key)

-- The names in a schema, without those in the schemas that it holds.
def Schema.labels : Schema → List Label
  | .object o => o.name.toList.map ownLabel ++ o.properties.map Property.label
  | .union u =>
    u.name.toList.map ownLabel ++ u.baseProperties.map Property.label
      ++ u.variants.flatMap fun v => v.discriminantValue.toList.map ownLabel
  | .enumeration e => e.name.toList.map ownLabel ++ e.values.map fun v => (v.name, v.value)
  | _ => []

def Parameter.label (p : Parameter) : Label := (p.name, p.name.wireValue)

def Request.labels : Request → List Label
  | .multipart _ properties _ _ => properties.map fun p => (p.name, p.key)
  | _ => []

def Endpoint.labels (e : Endpoint) : List Label :=
  ownLabel e.name :: (e.pathParameters ++ e.queryParameters ++ e.headers).map Parameter.label
    ++ e.request.toList.flatMap Request.labels ++ e.errorResponses.map fun r => ownLabel r.name

def Webhook.labels (w : Webhook) : List Label := ownLabel w.name :: w.headers.map Parameter.label

def SecurityScheme.labels : SecurityScheme → List Label
  | .header headerName name _ _ => name.toList.map fun n => (n, headerName)
  | _ => []

/-- The label occurs in a file: in a schema at any depth, an endpoint, a webhook or a scheme. -/
inductive File.Labelled (f : File) (label : Label) : Prop where
  | schema {s : Schema} (held : f.Holds s) (listed : label ∈ s.labels)
  | endpoint {e : Endpoint} (held : e ∈ f.endpoints) (listed : label ∈ e.labels)
  | webhook {w : Webhook} (held : w ∈ f.webhooks) (listed : label ∈ w.labels)
  | scheme {s : SecurityScheme} (held : s ∈ Entries.values f.securitySchemes)
    (listed : label ∈ s.labels)

-- The name was derived and stands for its text.
def Label.Stands (label : Label) : Prop := label.1.Stands label.2

namespace Schema

def Named (s : Schema) : Prop := ∀ label ∈ s.labels, label.Stands

variable {s : Schema}

theorem named_leaf (none : s.labels = []) : s.Named :=
  fun _ here => absurd (none ▸ here) List.not_mem_nil

theorem named_mapInfo (f : Meta → Meta) (named : s.Named) : (s.mapInfo f).Named := by
  cases s <;> exact named

theorem named_setName {name : NameVariants} (own : name.Stands name.originalValue) (named : s.Named) :
    (s.setName name).Named := by
  cases s with
  | object o =>
    refine List.forall_mem_append.mpr ⟨List.forall_mem_singleton.mpr own, ?_⟩
    exact (List.forall_mem_append.mp named).2
  | union u =>
    obtain ⟨first, variants⟩ := List.forall_mem_append.mp named
    refine List.forall_mem_append.mpr ⟨List.forall_mem_append.mpr ⟨?_, ?_⟩, variants⟩
    · exact List.forall_mem_singleton.mpr own
    · exact (List.forall_mem_append.mp first).2
  | enumeration e =>
    refine List.forall_mem_append.mpr ⟨List.forall_mem_singleton.mpr own, ?_⟩
    exact (List.forall_mem_append.mp named).2
  | primitive _ | array _ _ | map _ _ | reference _ _ | unknown _ => exact named

theorem named_strippable : Strippable Named := by
  intro o dropped named
  obtain ⟨own, properties⟩ := List.forall_mem_append.mp named
  refine List.forall_mem_append.mpr ⟨own, fun label here => properties label ?_⟩
  exact (List.filter_sublist.map _).subset here

end Schema

end Ir

open Ir (Label)
open Ir.Schema (Throughout Named)
open Report (Certified Yields yields_intro)
open Report.Logic (certifying_blind)

-- The members of an enumeration stand for its values.
theorem Enumeration.members_named (overrides : Entries Extension.EnumOverride) (taken : List String)
    (values : List Json) :
    Yields (fun out => ∀ v ∈ out.2, v.name.Stands v.value) (members overrides taken values) := by
  refine @members_holds (Report.certifying fun _ => True) (fun _ _ => Report.certified_any _)
    (fun _ out => ∀ v ∈ out.2, v.name.Stands v.value) ?_ ?_ ?_ overrides taken values
  · exact fun _ _ here => absurd here List.not_mem_nil
  · exact fun named => named
  · exact fun _ derived _ named =>
      List.forall_mem_cons.mpr ⟨(NameVariants.derive_ok derived).2, named⟩

namespace SchemaLowering

variable {given : List Schema} {r : Resolver}

theorem named_forms (r : Resolver) (given : List Schema) :
    EachForm r (fun place => Inside given place.2) (fun _ => True) Named where
  unknown _ := Ir.Schema.named_leaf rfl
  reference _ := Ir.Schema.named_leaf rfl
  primitive _ _ := Ir.Schema.named_leaf rfl
  enumeration {_ overrides values _ _} made :=
    List.forall_mem_map.mpr ((Enumeration.members_named overrides [] values).outcome _ made)
  array _ _ := Ir.Schema.named_leaf rfl
  map _ _ := Ir.Schema.named_leaf rfl
  object _ _ listed := List.forall_mem_map.mpr listed.names
  composed gathered _ := List.forall_mem_map.mpr (List.forall_mem_map.mpr gathered.names)
  union {_ _ u} _ nameless _ base variants := by
    rw [Named, Ir.Schema.labels, nameless]
    refine List.forall_mem_append.mpr ⟨List.forall_mem_map.mpr base.names, ?_⟩
    refine List.forall_mem_flatMap.mpr fun v among => List.forall_mem_map.mpr fun name held => ?_
    exact (variants v among).1.names name (Option.mem_toList.mp held)
  annotated f _ named := Ir.Schema.named_mapInfo f named

theorem named_delivers (scope : Scope) (within : scope.resolver.Within given) :
    Delivers given (Throughout Named) (fun _ => True) scope :=
  (named_forms _ given).delivers (fun _ _ => trivial)
    (fun _ _ _ derived => Ir.Schema.named_setName (NameVariants.stands_of_plain derived)) within

end SchemaLowering

namespace Name

theorem verb_ne_empty (method : HttpMethod) (onItem : Bool) : verb method.name onItem ≠ "" := by
  cases method <;> cases onItem <;> decide

-- Every route has a name, since its verb is not empty.
theorem derive_ofRoute (method : HttpMethod) (path : String) :
    ∃ name, NameVariants.derive? (ofRoute method.name path) none = some name := by
  have filled : (ofRoute method.name path).isEmpty = false := by
    refine String.isEmpty_eq_false_iff.mpr fun empty => ?_
    exact verb_ne_empty method _ (String.append_eq_empty_iff.mp empty).1
  rw [NameVariants.derive?, filled]
  exact ⟨_, rfl⟩

end Name

-- The name of an operation is derived from some text, since there is a name for its route.
theorem OperationLowering.name_derived (path : String) (method : HttpMethod) (o : Operation) :
    ∃ raw, NameVariants.derive? raw none = some (name path method o) := by
  obtain ⟨fallback, routed⟩ := Name.derive_ofRoute method path
  unfold name
  dsimp only
  cases given : ((Extension.text? o.extensions Extension.methodNameKey).or o.operationId).bind
      fun raw => NameVariants.derive? raw none with
  | none =>
    rw [routed]
    exact ⟨_, routed⟩
  | some own =>
    obtain ⟨raw, -, derived⟩ := Option.bind_eq_some_iff.mp given
    exact ⟨raw, derived⟩

theorem OperationLowering.name_stands (path : String) (method : HttpMethod) (o : Operation) :
    (Ir.ownLabel (name path method o)).Stands := by
  obtain ⟨raw, derived⟩ := name_derived path method o
  exact NameVariants.stands_of_plain derived

namespace RequestLowering

variable {scope : Scope}

theorem lowerFields_named (media : MediaType) :
    Yields (fun ps => ∀ p ∈ ps, p.name.Stands p.key) (lowerFields scope media) := by
  unfold lowerFields
  split
  · exact Report.certified_pure fun _ here => absurd here List.not_mem_nil
  · refine yields_intro fun fields done p listed => ?_
    obtain ⟨e, -, made⟩ := Report.collect_source done listed
    obtain ⟨keyed, derived⟩ := lowerField_ok made
    exact keyed ▸ (NameVariants.derive_ok derived).2

def Named (request : Ir.Request) : Prop := ∀ label ∈ request.labels, label.Stands

theorem lower_named (location : String) (node : Option RequestBodyNode) :
    Yields (fun found => ∀ request ∈ found, Named request) (lower scope location node) := by
  have tolerant := (certifying_blind fun _ => True).tolerant
  have nothing {request : Ir.Request} (none : request.labels = []) : Named request :=
    fun _ here => absurd (none ▸ here) List.not_mem_nil
  refine lower_holds tolerant location (fun _ => Report.certified_withoutMarks)
    (fun _ _ _ _ _ _ => Report.certified_fail _) fun _ _ body _ =>
      lowerContent_holds tolerant ?_ ?_ fun _ => nothing rfl
  · exact fun _ _ _ => Report.certified_mono (Report.certified_any _) fun _ _ => nothing rfl
  · exact fun _ _ _ => Report.certified_mono (lowerFields_named _) fun fields named =>
      List.forall_mem_map.mpr named

end RequestLowering

namespace ResponseLowering

variable {scope : Scope}

-- The errors are named for their statuses.
theorem lower_named (responses : Entries ResponseNode) :
    Yields (fun out => ∀ r ∈ out.2, (Ir.ownLabel r.name).Stands) (lower scope responses) := by
  have successes (n : Numbered) : (Report.certifying fun _ => True).Holds
      (fun found => ∀ r ∈ found, True) (lowerSuccess scope n) := yields_intro fun _ _ _ _ => trivial
  have errors (n : Numbered) : (Report.certifying fun _ => True).Holds
      (fun found => ∀ r ∈ found, (Ir.ownLabel (Ir.ErrorResponse.name r)).Stands)
      (lowerError scope n) :=
    lowerError_holds (fun _ => True) (certifying_blind _).tolerant
      (fun _ _ _ _ _ => Report.certified_any _)
      fun _ derived _ _ _ => NameVariants.stands_of_plain derived
  exact Report.certified_mono (lowerEach_holds (fun n _ => successes n) (fun n _ => errors n) true)
    fun _ named => named.2

end ResponseLowering

namespace Site

variable {scope : Scope} {s : Site} {location : ParameterLocation} {p : Ir.Parameter}

-- A parameter stands for the name that it was declared with.
theorem sends_stands (sends : s.Sends scope location p) : p.label.Stands := by
  obtain ⟨node, -, q, -, -, -, made⟩ := sends
  exact (NameVariants.derive_ok (ParameterLowering.lowerOne_ok made).2).2.self

theorem becomes_named {e : Ir.Endpoint} (becomes : s.Becomes scope e) :
    ∀ label ∈ e.labels, label.Stands := by
  obtain ⟨named, sends⟩ := becomes_ok becomes
  obtain ⟨parameters, -, made⟩ := becomes
  obtain ⟨request, asked, made⟩ := Report.bind_ok made
  obtain ⟨⟨response, errors⟩, answered, made⟩ := Report.bind_ok made
  have requests := (RequestLowering.lower_named _ _).outcome _ asked
  have failures := (ResponseLowering.lower_named _).outcome _ answered
  cases Report.pure_ok made
  refine List.forall_mem_append.mpr ⟨List.forall_mem_cons.mpr ⟨?_, ?_⟩, ?_⟩
  · exact named ▸ OperationLowering.name_stands _ _ _
  · refine List.forall_mem_append.mpr ⟨List.forall_mem_map.mpr fun p listed => ?_, ?_⟩
    · rcases List.mem_append.mp listed with first | header
      · rcases List.mem_append.mp first with path | query
        · exact sends_stands (sends .path p path)
        · exact sends_stands (sends .query p query)
      · exact sends_stands (sends .header p header)
    · refine List.forall_mem_flatMap.mpr fun asked here => ?_
      exact requests asked (Option.mem_toList.mp here)
  · exact List.forall_mem_map.mpr failures

theorem raises_named {w : Ir.Webhook} (raises : s.Raises scope w) :
    ∀ label ∈ w.labels, label.Stands := by
  obtain ⟨named, sends⟩ := raises_ok raises
  refine List.forall_mem_cons.mpr ⟨named ▸ OperationLowering.name_stands _ _ _, ?_⟩
  exact List.forall_mem_map.mpr fun p listed => sends_stands (sends p listed)

end Site

-- The name that is given to a header scheme stands for its header.
theorem SecurityLowering.lower_named {declared : SecurityScheme} {s : Ir.SecurityScheme}
    (lowered : lower? declared = some s) : ∀ label ∈ s.labels, label.Stands := by
  have nothing {label : Label} (here : label ∈ ([] : List Label)) : label.Stands :=
    absurd here List.not_mem_nil
  unfold lower? at lowered
  split at lowered
  · split at lowered <;> cases lowered <;> exact fun _ => nothing
  · split at lowered
    · cases lowered
      refine List.forall_mem_map.mpr fun name held => ?_
      obtain ⟨raw, -, derived⟩ := Option.bind_eq_some_iff.mp (Option.mem_toList.mp held)
      exact (NameVariants.derive_ok derived).2
    · cases lowered
  all_goals cases lowered <;> exact fun _ => nothing

-- Where a scheme of the representation comes from.
theorem SecurityLowering.supported_source {schemes : Entries SecuritySchemeNode} {id : String}
    {s : Ir.SecurityScheme} (listed : (id, s) ∈ supported schemes) :
    ∃ declared, (id, SecuritySchemeNode.inline declared) ∈ schemes ∧ lower? declared = some s := by
  obtain ⟨⟨key, node⟩, among, lowered⟩ := List.mem_filterMap.mp listed
  cases node with
  | inline declared =>
    obtain ⟨made, found, same⟩ := Option.map_eq_some_iff.mp lowered
    cases same
    exact ⟨declared, among, found⟩
  | invalid value => cases lowered

-- A header scheme is sent in the header that it is declared with.
theorem SecurityLowering.lower_header {declared : SecurityScheme} {headerName : String}
    {name : Option NameVariants} {lead description : Option String}
    (lowered : lower? declared = some (.header headerName name lead description)) :
    declared.name = some headerName := by
  unfold lower? at lowered
  split at lowered
  · split at lowered <;> cases lowered
  · split at lowered
    · rename_i named
      cases lowered
      exact named
    · cases lowered
  all_goals cases lowered

namespace ApiDocument

variable {options : Options} {d : ApiDocument} {file : Ir.File}

theorem labels_stand (done : d.lower options = .ok file) {label : Label}
    (labelled : file.Labelled label) : label.Stands := by
  cases labelled with
  | schema held listed =>
    have within := Resolver.ofDocument_within (d.resolveConflicts options.contentConflict) options
    have delivers := SchemaLowering.named_delivers (d.loweringScope options) within
    exact held_of_lower Ir.Schema.named_strippable delivers done held label listed
  | endpoint held listed =>
    obtain ⟨s, -, -, becomes⟩ := endpoint_site done held
    exact Site.becomes_named becomes label listed
  | webhook held listed =>
    obtain ⟨s, -, -, raises⟩ := webhook_site done held
    exact Site.raises_named raises label listed
  | @scheme s held listed =>
    obtain ⟨title, description, parts, -, rfl⟩ := staged_of_lower done
    obtain ⟨⟨id, scheme⟩, among, rfl⟩ := List.mem_map.mp held
    obtain ⟨declared, -, lowered⟩ := SecurityLowering.supported_source among
    exact SecurityLowering.lower_named lowered label listed

end ApiDocument

/-- Every name in a file is derived from its original value and stands on the wire for its text; that
of a parameter is a declared one, and that of a header scheme the header it is declared with. Every
route has a name of its own. -/
structure FaithfulNames (options : Options) (d : ApiDocument) (file : Ir.File) : Prop where
  labels : ∀ name text, file.Labelled (name, text) →
    NameVariants.derive? name.originalValue (some name.wireValue) = some name ∧
      name.wireValue = text
  parameters : ∀ e ∈ file.endpoints, ∃ s ∈ d.calls, DocumentLowering.route e = s.route ∧
    ∀ location, ∀ p ∈ e.parameters.at location,
      s.Declares (.ofDocument d options) location p.name.wireValue
  headers : ∀ w ∈ file.webhooks, ∃ s ∈ d.events, (w.method, w.path) = s.route ∧
    ∀ p ∈ w.headers, s.Declares (.ofDocument d options) .header p.name.wireValue
  schemes : ∀ id headerName name lead description,
    (id, Ir.SecurityScheme.header headerName name lead description) ∈ file.securitySchemes →
      ∃ declared, (id, SecuritySchemeNode.inline declared) ∈ DocumentLowering.securitySchemes d ∧
        declared.name = some headerName
  routes : ∀ (method : HttpMethod) (path : String),
    (NameVariants.derive? (Name.ofRoute method.name path) none).isSome

theorem names_faithful {options : Options} {d : ApiDocument} {file : Ir.File}
    (done : d.lower options = .ok file) : FaithfulNames options d file where
  labels name text labelled := by
    have stands : name.Stands text := ApiDocument.labels_stand done labelled
    exact ⟨stands.self, stands.wire⟩
  parameters e listed := by
    obtain ⟨s, among, routed, becomes⟩ := ApiDocument.endpoint_site done listed
    refine ⟨s, among, routed, fun location p here => ?_⟩
    have sends := (Site.becomes_ok becomes).2 location p here
    exact Site.declares_elected (Site.sends_declares sends)
  headers w listed := by
    obtain ⟨s, among, routed, raises⟩ := ApiDocument.webhook_site done listed
    refine ⟨s, among, routed, fun p here => ?_⟩
    have sends := (Site.raises_ok raises).2 p here
    exact Site.declares_elected (Site.sends_declares sends)
  schemes id headerName name lead description listed := by
    obtain ⟨title, text, parts, -, rfl⟩ := staged_of_lower done
    obtain ⟨declared, among, lowered⟩ := SecurityLowering.supported_source listed
    exact ⟨declared, among, SecurityLowering.lower_header lowered⟩
  routes method path := by
    obtain ⟨name, derived⟩ := Name.derive_ofRoute method path
    exact Option.isSome_iff_exists.mpr ⟨name, derived⟩

-- An operation without a name of its own, and a parameter that is given another name.
def catFlap : ApiDocument :=
  { ApiDocument.ofSchemas [] with
    paths := [("/flaps/\x7bid\x7d", some { PathItem.record.blank with
      get := some { Operation.record.blank with
        parameters := [.inline ⟨"id", .path, none, true, none, none,
          [(Extension.parameterNameKey, .text "flapNumber")]⟩] } })] }

theorem catFlap_faithful :
    ∃ file e p, catFlap.lower .default = .ok file ∧ e ∈ file.endpoints ∧ e.pathParameters = [p] ∧
      e.name.snakeCase = "get_flap" ∧ p.name.snakeCase = "flap_number" ∧ p.name.wireValue = "id" ∧
      FaithfulNames .default catFlap file := by
  have lowers : (catFlap.lower .default).toOption.any (fun file => decide (
      file.endpoints.map (fun e => (e.name.snakeCase,
        e.pathParameters.map fun p => (p.name.snakeCase, p.name.wireValue))) =
        [("get_flap", [("flap_number", "id")])])) = true := by
    decide +kernel
  obtain ⟨file, done, checked⟩ := ok_of_any lowers
  obtain ⟨e, listed, named⟩ := List.map_eq_singleton_iff.mp (of_decide_eq_true checked)
  obtain ⟨routed, parameters⟩ := Prod.mk.inj named
  obtain ⟨p, only, given⟩ := List.map_eq_singleton_iff.mp parameters
  obtain ⟨snake, wire⟩ := Prod.mk.inj given
  exact ⟨file, e, p, done, listed ▸ List.mem_singleton_self e, only, routed, snake, wire,
    names_faithful done⟩

end ApiLowering
