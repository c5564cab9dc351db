import ApiLowering.Proofs.Everywhere
import ApiLowering.Proofs.Origins
import ApiLowering.Proofs.Stored

/-!
Well-formed files. In what is lowered from a parsed document no object repeats a key or a parent and
each conflict is about a property of its object, in the shape that is kept and in one that is not;
unions have values for their variants just if they have a discriminant; and nothing is named twice
among the values of an enumeration, the fields of a request, the parameters of a kind or the routes.
-/

set_option autoImplicit false

namespace ApiLowering

namespace Ir

structure ObjectSchema.WellFormed (o : ObjectSchema Schema) : Prop where
  keys : (o.properties.map Property.key).Nodup
  parents : o.parents.Nodup
  conflicts : ∀ c ∈ o.conflicts, ∃ p ∈ o.properties, p.key = c.propertyKey ∧
    p.schema.sameShape c.existing = true ∧ p.schema.sameShape c.conflicting = false

structure UnionSchema.WellFormed (u : UnionSchema Schema) : Prop where
  values : ∀ v ∈ u.variants, v.discriminantValue.isSome = u.discriminant.isSome
  base : ∀ key ∈ u.discriminant, ∀ p ∈ u.baseProperties, p.key ≠ key

def EnumSchema.WellFormed (e : EnumSchema) : Prop :=
  (e.values.map fun v => v.name.screamingSnakeCase).Nodup

def Schema.WellFormed : Schema → Prop
  | .object o => o.WellFormed
  | .union u => u.WellFormed
  | .enumeration e => e.WellFormed
  | _ => True

def Request.fieldKeys : Request → List String
  | .multipart _ properties _ _ => properties.map MultipartProperty.key
  | _ => []

def wireNames (parameters : List Parameter) : List String :=
  parameters.map fun p => p.name.wireValue

structure Endpoint.WellFormed (e : Endpoint) : Prop where
  fields : ∀ request ∈ e.request, request.fieldKeys.Nodup
  path : (wireNames e.pathParameters).Nodup
  query : (wireNames e.queryParameters).Nodup
  headers : (wireNames e.headers).Nodup

structure File.WellFormed (f : File) : Prop where
  schemas : ∀ s, f.Holds s → s.WellFormed
  endpoints : ∀ e ∈ f.endpoints, e.WellFormed
  headers : ∀ w ∈ f.webhooks, (wireNames w.headers).Nodup
  routes : (f.endpoints.map DocumentLowering.route).Nodup

-- Well-formed, but for the shape of the property that a conflict is about, which is known to be the
-- one of the kept side.
structure ObjectSchema.Consistent (o : ObjectSchema Schema) : Prop where
  keys : (o.properties.map Property.key).Nodup
  parents : o.parents.Nodup
  conflicts : ∀ c ∈ o.conflicts, c.existing.sameShape c.conflicting = false ∧
    ∃ p ∈ o.properties, p.key = c.propertyKey ∧ p.schema.shape = c.existing.shape

namespace Schema

def Consistent : Schema → Prop
  | .object o => o.Consistent
  | .union u => u.WellFormed
  | .enumeration e => e.WellFormed
  | _ => True

variable {s : Schema}

theorem consistent_mapInfo (f : Meta → Meta) (consistent : s.Consistent) :
    (s.mapInfo f).Consistent := by
  cases s with
  | object _ =>
    obtain ⟨keys, parents, conflicts⟩ := consistent
    exact ⟨keys, parents, conflicts⟩
  | union _ =>
    obtain ⟨values, base⟩ := consistent
    exact ⟨values, base⟩
  | enumeration _ => exact consistent
  | primitive _ | array _ _ | map _ _ | reference _ _ | unknown _ => trivial

theorem consistent_setName (name : NameVariants) (consistent : s.Consistent) :
    (s.setName name).Consistent := by
  cases s with
  | object _ =>
    obtain ⟨keys, parents, conflicts⟩ := consistent
    exact ⟨keys, parents, conflicts⟩
  | union _ =>
    obtain ⟨values, base⟩ := consistent
    exact ⟨values, base⟩
  | enumeration _ => exact consistent
  | primitive _ | array _ _ | map _ _ | reference _ _ | unknown _ => trivial

theorem consistent_strippable : Strippable Consistent := by
  intro o dropped consistent
  obtain ⟨keys, parents, conflicts⟩ := consistent
  refine ⟨keys.sublist (List.filter_sublist.map _), parents, fun c here => ?_⟩
  obtain ⟨listed, stays⟩ := List.mem_filter.mp here
  obtain ⟨differs, p, among, keyed, shape⟩ := conflicts c listed
  -- the property that a conflict is about has its key, so it stays if the conflict does
  exact ⟨differs, p, List.mem_filter.mpr ⟨among, by rwa [keyed]⟩, keyed, shape⟩

theorem parts_induction {p : Schema → Prop}
    (each : ∀ s : Schema, (∀ part ∈ s.parts, p part) → p s) (s : Schema) : p s :=
  each s fun part _held => parts_induction each part
termination_by (Tree.ofJson s.toJson).height
decreasing_by exact part_low _held

-- The bounds of the schema itself are numbers; `Throughout` says so of the schemas in it too.
def RealHere : Schema → Prop
  | .primitive p => ∀ bounds ∈ SchemaLowering.bounds? p.value, bounds.Real
  | _ => True

theorem shapely_of_real (real : Throughout RealHere s) : s.Shapely := by
  induction s using parts_induction with
  | each s ih =>
    obtain ⟨own, parts⟩ := throughout_iff.mp real
    have inner : ∀ part ∈ s.parts, part.Shapely := fun part held => ih part held (parts part held)
    apply (shapely_iff s).mpr
    cases s with
    | object o =>
      exact shapeProperties_equal fun p here =>
        inner _ (List.mem_append_left _ (List.mem_map_of_mem here))
    | union u =>
      refine ⟨shapeProperties_equal fun p here => ?_, shapeVariants_equal fun v here => ?_⟩
      · exact inner _ (List.mem_append_left _ (List.mem_map_of_mem here))
      · exact inner _ (List.mem_append_right _ (List.mem_map_of_mem here))
    | primitive p => exact SchemaLowering.primitive_equal own
    | array _ part | map _ part => exact inner part List.mem_cons_self
    | enumeration | reference | unknown => trivial

theorem shapely_of_finite (finite : Throughout FiniteHere s) : s.Shapely := by
  refine shapely_of_real fun t occurs => ?_
  have own := finite t occurs
  cases t with
  | primitive p =>
    have number {x : Binary64} (fine : x.isFinite = true) : x.isNaN = false :=
      Number.InRange.real (n := .real x) fine
    exact fun bounds here =>
      ⟨fun x held => number ((own bounds here).1 x held),
        fun x held => number ((own bounds here).2 x held)⟩
  | object | union | enumeration | array | map | reference | unknown => trivial

theorem wellFormed_of_consistent (finite : Throughout FiniteHere s) (consistent : s.Consistent) :
    s.WellFormed := by
  cases s with
  | object o =>
    obtain ⟨keys, parents, conflicts⟩ := consistent
    refine ⟨keys, parents, fun c here => ?_⟩
    obtain ⟨differs, p, listed, keyed, shape⟩ := conflicts c here
    have held : c.existing ∈ (Schema.object o).parts :=
      List.mem_append_right _ (List.mem_flatMap.mpr ⟨c, here, List.mem_cons_self⟩)
    have shapely : c.existing.Shapely :=
      shapely_of_finite ((throughout_iff.mp finite).2 _ held)
    refine ⟨p, listed, keyed, ?_, ?_⟩
    · rwa [sameShape_congr shape rfl]
    · rwa [sameShape_congr shape rfl]
  | union _ | enumeration _ => exact consistent
  | primitive _ | array _ _ | map _ _ | reference _ _ | unknown _ => trivial

end Schema

end Ir

open Ir.Schema (Throughout FiniteHere)
open Report (Certified Yields yields_intro)
open SchemaLowering (Inside inside_here)

namespace Enumeration

-- Members whose names in screaming snake case are different and not taken.
def Distinct (taken : List String) (members : List Ir.EnumValue) : Prop :=
  (members.map fun v => v.name.screamingSnakeCase).Nodup ∧
    ∀ v ∈ members, v.name.screamingSnakeCase ∉ taken

theorem distinct_cons {taken : List String} {members : List Ir.EnumValue} {v : Ir.EnumValue}
    (fresh : v.name.screamingSnakeCase ∉ taken)
    (distinct : Distinct (v.name.screamingSnakeCase :: taken) members) :
    Distinct taken (v :: members) := by
  obtain ⟨names, others⟩ := distinct
  refine ⟨List.nodup_cons.mpr ⟨fun here => ?_, names⟩, List.forall_mem_cons.mpr ⟨fresh, ?_⟩⟩
  · obtain ⟨other, listed, same⟩ := List.mem_map.mp here
    exact others other listed (same ▸ List.mem_cons_self)
  · exact fun other listed before => others other listed (List.mem_cons_of_mem _ before)

theorem members_distinct (overrides : Entries Extension.EnumOverride) (taken : List String)
    (values : List Json) :
    Yields (fun out => Distinct taken out.2) (members overrides taken values) := by
  refine @members_holds (Report.certifying fun _ => True) (fun _ _ => Report.certified_any _)
    (fun taken out => Distinct taken out.2) ?_ ?_ ?_ overrides taken values
  · exact fun _ => ⟨List.nodup_nil, fun _ here => absurd here List.not_mem_nil⟩
  · exact fun distinct => distinct
  · exact fun _ _ fresh distinct => distinct_cons fresh distinct

end Enumeration

namespace SchemaLowering

variable {given : List Schema} {r : Resolver}

theorem listed_distinct {good : Ir.Schema → Prop} {s : Schema} {exclude : Option String}
    {all : List (Ir.Property Ir.Schema)} (distinct : s.Distinct)
    (listed : Listed good s.properties exclude all) : (all.map Ir.Property.key).Nodup :=
  List.Nodup.sublist listed.keys distinct

open Ir.Schema (Consistent) in
-- The object that members are merged into. Telling which of its properties are optional changes no
-- shape, so each conflict still is about the shape of its property.
theorem finished_consistent {m : Merged} {info : Ir.Meta}
    (gathered : Gathered (Throughout Consistent) m) : Consistent (m.finish info) := by
  refine ⟨?_, gathered.parents, fun c here => ?_⟩
  · rw [List.map_map]
    exact gathered.distinct
  · obtain ⟨-, -, differs, p, listed, keyed, same⟩ := gathered.conflicts c here
    refine ⟨differs, _, List.mem_map.mpr ⟨p, listed, rfl⟩, keyed, ?_⟩
    rw [← same]
    exact Ir.Schema.shape_setOptional _ _

theorem consistent_forms (r : Resolver) (distinct : ∀ s ∈ given, s.Distinct) :
    EachForm r (fun place => Inside given place.2) (fun _ => True) Ir.Schema.Consistent where
  unknown _ := trivial
  reference _ := trivial
  primitive _ _ := trivial
  enumeration {_ overrides values _ _} made :=
    ((Enumeration.members_distinct overrides [] values).outcome _ made).1
  array _ _ := trivial
  map _ _ := trivial
  object _ inside listed :=
    ⟨listed_distinct (distinct _ (inside_here inside)) listed, List.nodup_nil,
      fun _ recorded => absurd recorded List.not_mem_nil⟩
  composed gathered _ := finished_consistent gathered
  union _ _ _ base variants :=
    ⟨fun v among => (variants v among).1.present,
      fun _ tagged p listed same => base.others p listed (same ▸ tagged)⟩
  annotated f _ consistent := Ir.Schema.consistent_mapInfo f consistent

theorem consistent_delivers (scope : Scope) (within : scope.resolver.Within given)
    (distinct : ∀ s ∈ given, s.Distinct) :
    Delivers given (Throughout Ir.Schema.Consistent) (fun _ => True) scope :=
  (consistent_forms _ distinct).delivers (fun _ _ => trivial)
    (fun _ name _ _ => Ir.Schema.consistent_setName name) within

end SchemaLowering

namespace ParameterLowering

variable {scope : Scope}

def place (p : Parameter) : String × ParameterLocation := (p.name, p.location)

theorem put_places {parameter : Parameter} {seen : List Parameter}
    (distinct : (seen.map place).Nodup) : ((put parameter seen).map place).Nodup := by
  induction seen with
  | nil => exact List.nodup_singleton _
  | cons first rest ih =>
    obtain ⟨fresh, others⟩ := List.nodup_cons.mp distinct
    by_cases same : first.name = parameter.name ∧ first.location = parameter.location
    · rw [put, if_pos same]
      have placed : place parameter = place first := by rw [place, place, same.1, same.2]
      rw [List.map_cons, placed]
      exact distinct
    · rw [put, if_neg same]
      refine List.nodup_cons.mpr ⟨fun here => ?_, ih others⟩
      obtain ⟨p, listed, equal⟩ := List.mem_map.mp here
      rcases mem_put listed with new | before
      · subst new
        exact same ⟨(congrArg Prod.fst equal).symm, (congrArg Prod.snd equal).symm⟩
      · exact fresh (equal ▸ List.mem_map_of_mem before)

theorem merged_places (parameters seen : List Parameter) (distinct : (seen.map place).Nodup) :
    ((parameters.foldl (fun seen p => put p seen) seen).map place).Nodup := by
  induction parameters generalizing seen with
  | nil => exact distinct
  | cons p rest ih => exact ih _ (put_places distinct)

-- The name that is given to a parameter, by an extension if not by the parameter itself.
def givenName (p : Parameter) : String :=
  (Extension.text? p.extensions Extension.parameterNameKey).getD p.name

theorem lowerOne_ok {p : Parameter} {made : ParameterLocation × Ir.Parameter}
    (done : (lowerOne scope p).outcome = .ok (some made)) :
    made.1 = p.location ∧
      NameVariants.derive? (givenName p) (some p.name) = some made.2.name := by
  unfold lowerOne at done
  dsimp only [Report.under] at done
  split at done
  · cases done
  · rename_i name derived
    obtain ⟨schema, -, done⟩ := Report.bind_ok done
    cases Report.pure_ok done
    exact ⟨rfl, derived⟩

theorem lowerOne_place {p : Parameter} {made : ParameterLocation × Ir.Parameter}
    (done : (lowerOne scope p).outcome = .ok (some made)) :
    (made.2.name.wireValue, made.1) = place p := by
  obtain ⟨located, derived⟩ := lowerOne_ok done
  rw [place, located, (NameVariants.derive_ok derived).2.wire, Option.getD_some]

theorem located_distinct {location : ParameterLocation}
    {all : List (ParameterLocation × Ir.Parameter)}
    (distinct : (all.map fun e => (e.2.name.wireValue, e.1)).Nodup) :
    (Ir.wireNames (located location all)).Nodup := by
  have here : ((all.filter fun e => e.1 = location).map
      fun e => (e.2.name.wireValue, e.1)).Nodup :=
    distinct.sublist (List.filter_sublist.map _)
  have same : ((all.filter fun e => e.1 = location).map fun e => (e.2.name.wireValue, e.1)) =
      (Ir.wireNames (located location all)).map fun name => (name, location) := by
    rw [Ir.wireNames, located, List.map_map, List.map_map]
    refine List.map_congr_left fun e listed => ?_
    have at_ : e.1 = location := by simpa using (List.mem_filter.mp listed).2
    rw [at_]
    rfl
  rw [same] at here
  exact here.of_map _

theorem lower_distinct (shared own : List ParameterNode) :
    Yields (fun ps => (Ir.wireNames ps.path).Nodup ∧ (Ir.wireNames ps.query).Nodup ∧
      (Ir.wireNames ps.headers).Nodup) (lower scope shared own) := by
  refine yields_intro fun ps done => ?_
  obtain ⟨resolved, -, done⟩ := Report.bind_ok done
  obtain ⟨lowered, collected, done⟩ := Report.bind_ok done
  cases Report.pure_ok done
  have merged := merged_places resolved [] List.nodup_nil
  have kept := Report.collect_sublist (fun _ _ => lowerOne_place) collected
  have distinct := merged.sublist (kept.trans (List.filter_sublist.map place))
  exact ⟨located_distinct distinct, located_distinct distinct, located_distinct distinct⟩

end ParameterLowering

namespace RequestLowering

variable {scope : Scope}

theorem lowerField_ok {media : MediaType} {required : List String} {key : String}
    {node : SchemaNode} {made : Ir.MultipartProperty}
    (done : (lowerField scope media required key node).outcome = .ok (some made)) :
    made.key = key ∧ NameVariants.derive? key none = some made.name := by
  unfold lowerField at done
  dsimp only [Report.under] at done
  split at done
  · cases done
  · rename_i name derived
    split at done
    · cases Report.pure_ok done
      exact ⟨rfl, derived⟩
    · obtain ⟨schema, -, done⟩ := Report.bind_ok done
      cases Report.pure_ok done
      exact ⟨rfl, derived⟩

-- The fields of a request are the properties of an inline schema.
theorem lowerFields_distinct (gives : scope.resolver.Gives Schema.Distinct) {media : MediaType}
    (inside : ∀ s ∈ SchemaNode.optionSchemas media.schema, s.Distinct) :
    Yields (fun ps => (ps.map Ir.MultipartProperty.key).Nodup) (lowerFields scope media) := by
  unfold lowerFields
  split
  · exact Report.certified_pure List.nodup_nil
  · rename_i object found
    obtain ⟨node, present, leads⟩ := Option.bind_eq_some_iff.mp found
    rw [present] at inside
    have within := Resolver.inlineWithin_given gives inside leads
    refine yields_intro fun fields done => ?_
    exact List.Nodup.sublist (Report.collect_sublist (fun _ _ made => (lowerField_ok made).1) done)
      (SchemaLowering.given_here within)

theorem lower_distinct (gives : scope.resolver.Gives Schema.Distinct) (location : String)
    {node : Option RequestBodyNode} (inside : ∀ body ∈ node, ∀ s ∈ body.schemas, s.Distinct) :
    Yields (fun found => ∀ request ∈ found, (Ir.Request.fieldKeys request).Nodup)
      (lower scope location node) := by
  have tolerant := (Report.Logic.certifying_blind fun _ => True).tolerant
  refine lower_holds tolerant location (fun _ => Report.certified_withoutMarks)
    (fun _ _ _ _ _ _ => Report.certified_fail _) fun n present body stands => ?_
  have among := body_given gives (inside n present) stands
  refine lowerContent_holds tolerant (fun _ _ _ => ?_) (fun type media first => ?_)
    fun _ => List.nodup_nil
  · exact Report.certified_mono (Report.certified_any _) fun _ _ => List.nodup_nil
  · exact lowerFields_distinct gives (firstOf_given among first)

end RequestLowering

theorem OperationLowering.endpoint_wellFormed {scope : Scope}
    (gives : scope.resolver.Gives Schema.Distinct) {path : String} {item : PathItem}
    (inside : ∀ s ∈ item.schemas, s.Distinct) {e : Ir.Endpoint}
    (origin : EndpointOf scope path item e) : e.WellFormed := by
  obtain ⟨operation, listed, parameters, merged, made⟩ := origin
  obtain ⟨request, asked, made⟩ := Report.bind_ok made
  obtain ⟨⟨response, errors⟩, -, made⟩ := Report.bind_ok made
  cases Report.pure_ok made
  obtain ⟨onPath, onQuery, onHeaders⟩ := (ParameterLowering.lower_distinct _ _).outcome _ merged
  have body := (operation_given ((item_given inside).2 operation listed)).2.1
  have fields := (RequestLowering.lower_distinct gives _ body).outcome _ asked
  exact ⟨fields, onPath, onQuery, onHeaders⟩

variable {options : Options} {d : ApiDocument} {file : Ir.File}

open DocumentLowering in
/-- What holds throughout all schemas as they are lowered, and of an object that loses properties, holds
of every schema in a lowered document. -/
theorem held_of_lower {good : Ir.Schema → Prop} {s : Ir.Schema} (kept : Strippable good)
    (delivers : Delivers (d.electedSchemas options) (Throughout good) (fun _ => True)
      (d.loweringScope options))
    (done : d.lower options = .ok file) (held : file.Holds s) : good s := by
  have components : ∀ e ∈ (d.resolveConflicts options.contentConflict).componentSchemas,
      Inside (d.electedSchemas options) e.2 := by
    rw [← Resolver.ofDocument_schemas _ options]
    exact delivers.within.schemas
  obtain ⟨title, description, parts, outcome, same⟩ := staged_of_lower done
  have all := (lowerParts_delivers delivers components).outcome parts outcome
  subst same
  exact throughout_file kept all held

open DocumentLowering in
/-- What is lowered from a parsed document is well-formed. -/
theorem lowered_wellFormed (parsed : d.Parsed) (done : d.lower options = .ok file) :
    file.WellFormed := by
  have distinct : ∀ s ∈ d.electedSchemas options, s.Distinct :=
    fun s here => parsed.distinct s (ApiDocument.resolveConflicts_schemas _ here)
  have within := Resolver.ofDocument_within (d.resolveConflicts options.contentConflict) options
  have delivers := SchemaLowering.consistent_delivers (d.loweringScope options) within distinct
  obtain ⟨onEndpoints, onWebhooks⟩ := origins_of_lower done
  refine ⟨fun s held => ?_, fun e listed => ?_, fun w listed => ?_, routes_of_lower done⟩
  · have sound := lowered_sound parsed.sound done
    have finite : Throughout FiniteHere s := by
      obtain ⟨root, rooted, occurs⟩ := held
      exact fun t inner => sound.schemas t ⟨root, rooted, Ir.Schema.occurs_trans inner occurs⟩
    refine Ir.Schema.wellFormed_of_consistent finite ?_
    exact held_of_lower Ir.Schema.consistent_strippable delivers done held
  · obtain ⟨path, item, among, origin⟩ := onEndpoints e listed
    have inside := item_listed (List.mem_append_left _ among)
    exact OperationLowering.endpoint_wellFormed (within.mono distinct)
      (fun s here => distinct s (inside here)) origin
  · obtain ⟨path, item, operation, -, parameters, merged, made⟩ := onWebhooks w listed
    obtain ⟨-, -, onHeaders⟩ := (ParameterLowering.lower_distinct _ _).outcome _ merged
    rw [(OperationLowering.lowerWebhook_ok made).1]
    exact onHeaders

-- Two members that do not agree on what a weight is.
def parcelText : String :=
  documentText ("\x7b\"allOf\":[\x7b\"properties\":\x7b\"weight\":\x7b\"type\":\"string\"\x7d\x7d\x7d,"
    ++ "\x7b\"properties\":\x7b\"weight\":\x7b\"type\":\"integer\"\x7d\x7d\x7d]\x7d")

def hasConflicts : Ir.Schema → Bool
  | .object o => !o.conflicts.isEmpty
  | _ => false

theorem parcel_wellFormed :
    ∃ d file s, ApiDocument.ofJsonText parcelText = .ok d ∧ d.lower .default = .ok file ∧
      s ∈ Entries.values file.schemas ∧ hasConflicts s = true ∧ s.WellFormed ∧ file.WellFormed := by
  have lowers : lowersTo (ApiDocument.ofJsonText parcelText) (fun file =>
      (Entries.values file.schemas).any hasConflicts) = true := by
    decide +kernel
  obtain ⟨d, file, parsed, done, checked⟩ := lowersTo_ok lowers
  obtain ⟨s, listed, conflicts⟩ := List.any_eq_true.mp checked
  have fine := lowered_wellFormed (.text parsed) done
  have held : file.Holds s :=
    ⟨s, List.mem_append_left _ (List.mem_append_left _ listed), .here⟩
  exact ⟨d, file, s, parsed, done, listed, conflicts, fine.schemas s held, fine⟩

end ApiLowering
