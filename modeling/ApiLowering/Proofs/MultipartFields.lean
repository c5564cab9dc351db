import ApiLowering.Proofs.DanglingBodies
import ApiLowering.Proofs.Reduction
import ApiLowering.Proofs.Conservation

/-!
The fields of multipart content beside the object that its schema is lowered to. The fields are the
properties that the schema declares itself, each of them named after its key. An object also has what
the members of its composition declare and require, and an extension can name its properties. So the
two agree in some cases only.
-/

set_option autoImplicit false

namespace ApiLowering.RequestLowering

open ApiLowering.Composition (Brings Declaration Leads)
open ContentConflict (firstOf?)
open SchemaLowering (Built Converted Converts Flattens Form form named namedAfter propertyName?)

variable {scope : Scope} {r : Resolver} {t : Schema} {required : List String}
  {declared : List Declaration} {fields : List Ir.MultipartProperty}
  {properties : List (Ir.Property Ir.Schema)} {o : Ir.ObjectSchema Ir.Schema} {media : MediaType}

-- The declarations whose key can be a name.
def keyed (declared : List Declaration) : List Declaration := declared.filter fun d => d.1 ≠ ""

def keysOf (declared : List Declaration) : List String := declared.map Prod.fst

structure IsField (required : List String) (d : Declaration) (f : Ir.MultipartProperty) : Prop where
  key : f.key = d.1
  name : NameVariants.derive? d.1 none = some f.name
  required : f.required = required.contains d.1

/-- Fields and properties with the same keys, names and flags in the same order. -/
def Agree (fields : List Ir.MultipartProperty) (properties : List (Ir.Property Ir.Schema)) : Prop :=
  List.Forall₂ (fun f p => p.key = f.key ∧ p.name = f.name ∧ p.required = f.required) fields properties

theorem derive_after {d : Declaration} {name : NameVariants}
    (plain : NameVariants.derive? d.1 none = some name)
    (own : propertyName? d.1 d.2 = some name) : namedAfter d = d.1 :=
  (NameVariants.derive_ok own).1.symm.trans (NameVariants.derive_ok plain).1

theorem propertyName_after {d : Declaration} (after : namedAfter d = d.1) :
    propertyName? d.1 d.2 = NameVariants.derive? d.1 none := by
  change NameVariants.derive? (namedAfter d) (some d.1) = _
  rw [after]
  rfl

-- Fields agree with properties that have their keys and are what the fields of these keys are.
theorem agree_iff (each : List.Forall₂ (IsField required) declared fields) :
    Agree fields properties ↔ properties.map Ir.Property.key = keysOf declared ∧
      ∀ p ∈ properties, NameVariants.derive? p.key none = some p.name ∧
        p.required = required.contains p.key := by
  induction each generalizing properties with
  | nil =>
    cases properties with
    | nil => simp [Agree, keysOf]
    | cons p more => simp [Agree, keysOf]
  | @cons d f declared fields first _ ih =>
    cases properties with
    | nil => simp [Agree, keysOf]
    | cons p more =>
      rw [Agree, List.forall₂_cons, ← Agree, ih]
      simp only [keysOf, List.map_cons, List.cons.injEq, List.forall_mem_cons]
      constructor
      · rintro ⟨⟨key, name, flag⟩, others, all⟩
        rw [first.key] at key
        exact ⟨⟨key, others⟩, ⟨by rw [key, name, first.name], by rw [key, flag, first.required]⟩, all⟩
      · rintro ⟨⟨key, others⟩, ⟨name, flag⟩, all⟩
        rw [key] at name flag
        refine ⟨⟨key.trans first.key.symm, ?_, flag.trans first.required.symm⟩, others, all⟩
        exact Option.some.inj (name.symm.trans first.name)

-- Declarations with the same keys are the same once the ones are among the others.
theorem named_keyed (same : keysOf (named declared) = keysOf (keyed declared)) :
    named declared = keyed declared := by
  have among (d : Declaration) (here : d ∈ named declared) : d ∈ keyed declared := by
    have key : d.1 ∈ keysOf (keyed declared) := same ▸ List.mem_map_of_mem here
    obtain ⟨other, listed, equal⟩ := List.mem_map.mp key
    have filled : d.1 ≠ "" := equal ▸ of_decide_eq_true (List.mem_filter.mp listed).2
    exact List.mem_filter.mpr ⟨(List.mem_filter.mp here).1, decide_eq_true filled⟩
  have within : (keyed declared).filter (fun d => namedAfter d ≠ "") = named declared := by
    rw [keyed, List.filter_filter, named]
    refine List.filter_congr fun d here => ?_
    by_cases after : namedAfter d = ""
    · simp [after]
    · have filled := (List.mem_filter.mp (among d (List.mem_filter.mpr ⟨here, by simpa using after⟩))).2
      simpa [after] using filled
  have size : ((keyed declared).filter fun d => namedAfter d ≠ "").length = (keyed declared).length := by
    have equal := congrArg List.length same
    rw [within]
    simpa [keysOf] using equal
  rw [← within]
  exact List.filter_eq_self.mpr (List.length_filter_eq_length_iff.mp size)

/-- The fields agree with properties that are lowered from the same declarations exactly if all of these
are named after their keys. -/
theorem agree_plain (each : List.Forall₂ (IsField required) (keyed declared) fields)
    (listed : List.Forall₂ (fun d p => p.key = d.1 ∧ p.required = required.contains p.key ∧
      propertyName? d.1 d.2 = some p.name) (named declared) properties) :
    Agree fields properties ↔ ∀ d ∈ declared, namedAfter d = d.1 := by
  have keyedBy : properties.map Ir.Property.key = keysOf (named declared) :=
    map_of_related listed fun _ _ is => is.1
  rw [agree_iff each, keyedBy]
  constructor
  · rintro ⟨same, all⟩ d here
    have equal := named_keyed same
    by_cases after : namedAfter d = ""
    · by_cases empty : d.1 = ""
      · rw [after, empty]
      · have kept : d ∈ named declared :=
          equal ▸ List.mem_filter.mpr ⟨here, decide_eq_true empty⟩
        exact absurd after (of_decide_eq_true (List.mem_filter.mp kept).2)
    · obtain ⟨p, among, key, -, own⟩ :=
        related_of_mem listed (List.mem_filter.mpr ⟨here, decide_eq_true after⟩)
      exact derive_after (key ▸ (all p among).1) own
  · intro plain
    have equal : named declared = keyed declared :=
      List.filter_congr fun d here => by rw [plain d here]
    refine ⟨by rw [equal], fun p here => ?_⟩
    obtain ⟨d, among, key, flag, own⟩ := related_of_mem listed.flip here
    have after := plain d (List.mem_filter.mp among).1
    exact ⟨by rw [key, ← propertyName_after after, own], flag⟩

/-- What the members of a composition bring is no more than its own properties, in their order and with
their names, and they require none but what it requires itself. -/
structure Unmerged (r : Resolver) (t : Schema) (declared : List Declaration) : Prop where
  keys : (keysOf (named declared)).eraseDups = keysOf (keyed t.properties)
  required : ∀ member, Leads r (.inline t) (.inline member) →
    ∀ key ∈ keysOf (keyed t.properties), key ∈ member.required → key ∈ t.required
  names : ∀ key ∈ keysOf (keyed t.properties),
    ((named declared).find? fun d => d.1 = key).map namedAfter = some key

-- The first one of each key among what is lowered comes from the first declaration of the key.
theorem find_converted {converted : List Converted} {key : String}
    (each : List.Forall₂ (Converts r) declared converted) :
    (declared.find? fun d => d.1 = key) = none ∧ (converted.find? fun c => c.key = key) = none ∨
      ∃ d c, (declared.find? fun d => d.1 = key) = some d ∧
        (converted.find? fun c => c.key = key) = some c ∧ Converts r d c := by
  induction each with
  | nil => exact .inl ⟨rfl, rfl⟩
  | @cons d c declared converted first _ ih =>
    by_cases same : d.1 = key
    · exact .inr ⟨d, c, by simp [same], by simp [first.key, same], first⟩
    · simpa [first.key, same] using ih

theorem agree_merged {converted : List Converted}
    (each : List.Forall₂ (IsField t.required) (keyed t.properties) fields)
    (converts : List.Forall₂ (Converts r) (named declared) converted)
    (flattens : Flattens r t converted o) : Agree fields o.properties ↔ Unmerged r t declared := by
  have merged : o.properties.map Ir.Property.key = (keysOf (named declared)).eraseDups := by
    rw [flattens.keys, map_of_related converts fun _ _ is => is.key]
    rfl
  have first (p : Ir.Property Ir.Schema) (here : p ∈ o.properties) :
      ∃ d, ((named declared).find? fun d => d.1 = p.key) = some d ∧
        propertyName? d.1 d.2 = some p.name := by
    obtain ⟨c, found, name, -⟩ := flattens.firsts p here
    rcases find_converted converts with ⟨-, none⟩ | ⟨d, other, earliest, also, is⟩
    · exact nomatch none.symm.trans found
    · cases found.symm.trans also
      exact ⟨d, earliest, name ▸ is.name⟩
  rw [agree_iff each, merged]
  constructor
  · rintro ⟨same, all⟩
    have present (key : String) (here : key ∈ keysOf (keyed t.properties)) :
        ∃ p ∈ o.properties, p.key = key := by
      rw [← same, ← merged] at here
      exact List.mem_map.mp here
    refine ⟨same, fun member led key here wants => ?_, fun key here => ?_⟩
    · obtain ⟨p, listed, rfl⟩ := present key here
      have flag := (flattens.required p listed).mpr ⟨member, led, wants⟩
      rw [(all p listed).2] at flag
      exact List.contains_iff_mem.mp flag
    · obtain ⟨p, listed, rfl⟩ := present key here
      obtain ⟨d, earliest, own⟩ := first p listed
      have key : d.1 = p.key := by simpa using List.find?_some earliest
      rw [earliest, Option.map_some, derive_after (key ▸ (all p listed).1) own, key]
  · rintro ⟨same, wanted, names⟩
    refine ⟨same, fun p here => ?_⟩
    have own : p.key ∈ keysOf (keyed t.properties) := same ▸ merged ▸ List.mem_map_of_mem here
    obtain ⟨d, earliest, name⟩ := first p here
    have key : d.1 = p.key := by simpa using List.find?_some earliest
    have after := names p.key own
    rw [earliest, Option.map_some, Option.some_inj, ← key] at after
    refine ⟨by rw [← key, ← propertyName_after after, name], ?_⟩
    rw [Bool.eq_iff_iff, List.contains_iff_mem, flattens.required p here]
    exact ⟨fun ⟨member, led, wants⟩ => wanted member led p.key own wants, fun wants => ⟨t, .here, wants⟩⟩

/-- When the fields agree with the object that a schema is lowered to. Content whose schema leaves its
shape to a member has no fields at all. -/
inductive Compares (r : Resolver) (t : Schema) (fields : List Ir.MultipartProperty)
    (o : Ir.ObjectSchema Ir.Schema) : Prop where
  | plain (shape : form t = .typed)
      (agree : Agree fields o.properties ↔ ∀ d ∈ t.properties, namedAfter d = d.1)
  | merged (shape : form t = .composed) {declared : List Declaration}
      (brings : Brings r (.inline t) declared)
      (agree : Agree fields o.properties ↔ Unmerged r t declared)
  | handed {index : Nat} {member : SchemaNode}
      (shape : form t = .reduced index member ∨ form t = .collapsed index member)
      (none : fields = []) (agree : Agree fields o.properties ↔ o.properties = [])

theorem collapsed_bare {index : Nat} {member : SchemaNode}
    (shape : form t = .collapsed index member) : t.properties = [] := by
  unfold form at shape
  repeat' split at shape
  all_goals cases shape
  rename_i chosen
  have sole := (SchemaLowering.memberAt_some.mp chosen).1
  rw [SchemaLowering.soleMember?] at sole
  by_cases bare : t.properties.isEmpty = true
  · exact List.isEmpty_iff.mp bare
  · rw [if_neg bare] at sole
    cases sole

theorem handed_compares {index : Nat} {member : SchemaNode}
    (shape : form t = .reduced index member ∨ form t = .collapsed index member)
    (each : List.Forall₂ (IsField t.required) (keyed t.properties) fields) : Compares r t fields o := by
  have bare : t.properties = [] := by
    rcases shape with reduces | collapses
    · exact (SchemaLowering.form_reduced_iff.mp reduces).1
    · exact collapsed_bare collapses
  rw [bare] at each
  cases each
  refine .handed shape rfl ?_
  rw [Agree, List.forall₂_nil_left_iff]

theorem object_compares {path : List String}
    (each : List.Forall₂ (IsField t.required) (keyed t.properties) fields)
    (done : (SchemaLowering.lower r path (.inline t)).outcome = .ok (.object o)) :
    Compares r t fields o := by
  rw [SchemaLowering.lower] at done
  have formed := SchemaLowering.lowerInline_ok done
  have object : (Ir.Schema.object o).body? = some ⟨o.properties, o.parents, o.conflicts⟩ := rfl
  cases shape : form t with
  | reduced index member => exact handed_compares (.inl shape) each
  | collapsed index member => exact handed_compares (.inr shape) each
  | composed =>
    obtain ⟨declared, brings, converted, converts, merged, same, flattens⟩ :=
      SchemaLowering.merged_flattens ((SchemaLowering.form_composed_iff t).mp shape) done
    cases same
    exact .merged shape brings (agree_merged each converts flattens)
  | typed =>
    refine .plain shape (agree_plain each ?_)
    rw [shape, SchemaLowering.lowerForm] at formed
    obtain ⟨properties, same, listed⟩ := SchemaLowering.lowerByType_body formed object
    have own : o.properties = properties := congrArg Ir.Body.properties same
    subst own
    rcases listed with ⟨bare, none⟩ | listed
    · rw [bare, none]
      exact .nil
    · refine (SchemaLowering.lowerProperties_become listed).imp fun d p is => ?_
      exact ⟨is.1.key, is.1.required, is.2⟩
  | tagged d =>
    rw [shape, SchemaLowering.lowerForm] at formed
    cases object.symm.trans (SchemaLowering.lowerTagged_body formed)
  | union =>
    rw [shape, SchemaLowering.lowerForm] at formed
    cases object.symm.trans (SchemaLowering.lowerUnion_body formed)
  | enumeration values =>
    rw [shape, SchemaLowering.lowerForm] at formed
    cases object.symm.trans (SchemaLowering.enumeration_body formed)

theorem lowerField_is {key : String} {node : SchemaNode} {made : Option Ir.MultipartProperty}
    (done : (lowerField scope media required key node).outcome = .ok made) :
    List.Forall₂ (IsField required) (keyed [(key, node)]) made.toList := by
  change (Report.under _ _).outcome = _ at done
  cases derived : NameVariants.derive? key none with
  | none =>
    have empty := (NameVariants.derive_none key none).mp derived
    rw [derived] at done
    cases Report.pure_ok done
    simp [keyed, empty]
  | some name =>
    have filled : key ≠ "" := by
      rintro rfl
      cases derived
    have is (kind : Ir.MultipartKind) (description : Option String) :
        List.Forall₂ (IsField required) (keyed [(key, node)])
          [⟨key, name, kind, required.contains key, description⟩] := by
      rw [keyed, List.filter_cons_of_pos (by simpa using filled)]
      exact .cons ⟨rfl, derived, rfl⟩ .nil
    simp only [derived] at done
    cases shape : (scope.resolver.dereference node).bind (fileShape? scope.resolver) with
    | some isArray =>
      simp only [shape] at done
      cases Report.pure_ok done
      exact is _ _
    | none =>
      simp only [shape] at done
      obtain ⟨schema, -, done⟩ := Report.bind_ok done
      cases Report.pure_ok done
      exact is _ _

-- The fields are those declarations of the schema's own whose key can be a name.
theorem lowerFields_own (leads : media.schema.bind scope.resolver.dereference = some t)
    (done : (lowerFields scope media).outcome = .ok fields) :
    List.Forall₂ (IsField t.required) (keyed t.properties) fields := by
  rw [lowerFields, leads] at done
  refine Report.collect_gathers (P := fun declared fields _ =>
    List.Forall₂ (IsField t.required) (keyed declared) fields) .nil ?_ done
  intro d made rest more later first others
  have both : List.Forall₂ (IsField t.required) (keyed [d] ++ keyed rest) (made.toList ++ more) :=
    List.rel_append (lowerField_is first) others
  rwa [keyed, keyed, ← List.filter_append] at both

theorem lowerFields_none (shapeless : media.schema.bind scope.resolver.dereference = none)
    (done : (lowerFields scope media).outcome = .ok fields) : fields = [] := by
  rw [lowerFields, shapeless] at done
  exact (Except.ok.inj done).symm

theorem lowerContent_multipart {body : RequestBody} {type : String} {description : Option String}
    {required : Bool}
    (done : (lowerContent scope body).outcome =
      .ok (some (.multipart type fields description required))) :
    ∃ media, firstOf? .multipart body.content = some (type, media) ∧
      (lowerFields scope media).outcome = .ok fields := by
  unfold lowerContent at done
  dsimp only at done
  split at done
  · obtain ⟨schema, -, last⟩ := Report.bind_ok done
    cases last
  · rename_i chosen
    obtain ⟨made, lowered, last⟩ := Report.bind_ok done
    cases last
    exact ⟨_, chosen, lowered⟩
  · cases done
  · obtain ⟨_, -, last⟩ := Report.bind_ok done
    cases last

theorem lower_multipart {location type : String} {node : Option RequestBodyNode}
    {description : Option String} {required : Bool}
    (done : (lower scope location node).outcome =
      .ok (some (.multipart type fields description required))) :
    ∃ body media, node.bind (body? scope.resolver) = some body ∧
      firstOf? .multipart body.content = some (type, media) ∧
      (lowerFields scope media).outcome = .ok fields := by
  cases node with
  | none => cases done
  | some node =>
    change (resolve scope.resolver node >>= _).outcome = _ at done
    obtain ⟨found, resolved, done⟩ := Report.bind_ok done
    cases (resolve_resolves scope.resolver node).outcome.symm.trans resolved
    cases stands : body? scope.resolver node with
    | none =>
      rw [stands] at done
      cases done
    | some body =>
      simp only [stands] at done
      split at done
      · cases done
      · obtain ⟨media, chosen, lowered⟩ := lowerContent_multipart done
        exact ⟨body, media, stands, chosen, lowered⟩

/-- What the fields of multipart content are: nothing if its schema leads to no inline schema, or else
the properties that this schema declares itself; and when they agree with the object it is lowered to. -/
structure FieldsOf (scope : Scope) (media : MediaType) (fields : List Ir.MultipartProperty) : Prop where
  none : media.schema.bind scope.resolver.dereference = none → fields = []
  own : ∀ t, media.schema.bind scope.resolver.dereference = some t →
    List.Forall₂ (IsField t.required) (keyed t.properties) fields
  compares : ∀ t, media.schema.bind scope.resolver.dereference = some t → ∀ path o,
    (SchemaLowering.lower scope.resolver path (.inline t)).outcome = .ok (.object o) →
    Compares scope.resolver t fields o

theorem lowerFields_of (done : (lowerFields scope media).outcome = .ok fields) :
    FieldsOf scope media fields where
  none shapeless := lowerFields_none shapeless done
  own _ leads := lowerFields_own leads done
  compares _ leads _ _ object := object_compares (lowerFields_own leads done) object

/-- The fields of every multipart request of a document are those of the content that it comes from. -/
theorem multipart_fields {options : Options} {d : ApiDocument} {file : Ir.File} {e : Ir.Endpoint}
    {type : String} {description : Option String} {required : Bool}
    (done : d.lower options = .ok file) (listed : e ∈ file.endpoints)
    (sent : e.request = some (.multipart type fields description required)) :
    ∃ s ∈ d.calls, (s.elected options.contentConflict).Becomes (d.loweringScope options) e ∧
      ∃ body media, (s.elected options.contentConflict).operation.requestBody.bind
          (body? (d.loweringScope options).resolver) = some body ∧
        firstOf? .multipart body.content = some (type, media) ∧
        FieldsOf (d.loweringScope options) media fields := by
  obtain ⟨s, called, -, made⟩ := ApiDocument.endpoint_site done listed
  obtain ⟨location, lowered⟩ := Site.becomes_request made
  obtain ⟨body, media, stands, chosen, each⟩ := lower_multipart (sent ▸ lowered)
  exact ⟨s, called, made, body, media, stands, chosen, lowerFields_of each⟩

-- A form whose schema declares its properties in the members of a composition.
def dropForm : Schema :=
  SchemaLowering.declaring [] [] [
    .inline (SchemaLowering.declaring ["a"] [("a", .string)] []),
    .inline (SchemaLowering.declaring [] [("b", .string)] [])]

def fileDrop : ApiDocument :=
  { ApiDocument.ofSchemas [] with
    paths := [("/files", some { PathItem.record.blank with
      post := some { Operation.record.blank with
        requestBody := some (.inline { RequestBody.record.blank with
          content := [("multipart/form-data", ⟨some (.inline dropForm), [], []⟩)] }) } })] }

def isFieldless : Option Ir.Request → Bool
  | some (.multipart _ [] _ _) => true
  | _ => false

/-- The request has no fields and nothing is found, where the object has two properties. -/
theorem fileDrop_fieldless :
    ∃ file e type description required, fileDrop.lower .default = .ok file ∧ e ∈ file.endpoints ∧
      e.request = some (.multipart type [] description required) ∧ file.errors = [] ∧
      (∃ schema, (SchemaLowering.lower (fileDrop.loweringScope .default).resolver []
          (.inline dropForm)).outcome = .ok schema ∧
        (schema.body?.map fun body => body.properties.map fun p => (p.key, p.required)) =
          some [("a", true), ("b", false)]) ∧
      ∃ s ∈ fileDrop.calls, (s.elected .preferMultipart).Becomes (fileDrop.loweringScope .default) e ∧
        ∃ body media, (s.elected .preferMultipart).operation.requestBody.bind
            (body? (fileDrop.loweringScope .default).resolver) = some body ∧
          firstOf? .multipart body.content = some (type, media) ∧
          FieldsOf (fileDrop.loweringScope .default) media [] := by
  have lowers : (fileDrop.lower .default).toOption.any (fun file =>
      file.endpoints.any (fun e => isFieldless e.request) && file.errors.isEmpty) = true := by
    decide +kernel
  have merges : (SchemaLowering.lower (fileDrop.loweringScope .default).resolver []
      (.inline dropForm)).outcome.toOption.any (fun schema => decide (
        (schema.body?.map fun body => body.properties.map fun p => (p.key, p.required)) =
          some [("a", true), ("b", false)])) = true := by
    decide +kernel
  obtain ⟨file, done, checked⟩ := ok_of_any lowers
  obtain ⟨schema, merged, has⟩ := ok_of_any merges
  obtain ⟨fieldless, silent⟩ := Bool.and_eq_true_iff.mp checked
  obtain ⟨e, listed, bare⟩ := List.any_eq_true.mp fieldless
  cases sent : e.request with
  | none =>
    rw [sent] at bare
    cases bare
  | some request =>
    rw [sent] at bare
    cases request with
    | multipart type fields description required =>
      cases fields with
      | nil =>
        exact ⟨file, e, type, description, required, done, listed, sent, List.isEmpty_iff.mp silent,
          ⟨schema, merged, of_decide_eq_true has⟩, multipart_fields done listed sent⟩
      | cons field more => cases bare
    | json type schema description required => cases bare
    | bytes type description required => cases bare

end ApiLowering.RequestLowering
