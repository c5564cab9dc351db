import ApiLowering.Proofs.Operations
import ApiLowering.Proofs.Stored

/-!
Optional schemas. A schema of the intermediate representation is marked as optional where it is the
schema of a property, a parameter or a multipart field that is not required, and nowhere else: not as
a component, an item, a value, a variant, a side of a conflict, a body or a variable.
-/

set_option autoImplicit false

namespace ApiLowering

namespace Ir

def Property.seat (p : Property Schema) : Seat := (!p.required, p.schema)

-- A seat for each schema that a schema holds directly.
def Schema.seats : Schema → List Seat
  | .object o =>
    o.properties.map Property.seat
      ++ o.conflicts.flatMap fun c => [(false, c.existing), (false, c.conflicting)]
  | .union u => u.baseProperties.map Property.seat ++ u.variants.map fun v => (false, v.schema)
  | .array _ items => [(false, items)]
  | .map _ value => [(false, value)]
  | _ => []

def File.seats (f : File) : List Seat :=
  (Entries.values f.schemas).map (fun s => (false, s))
    ++ f.endpoints.flatMap Endpoint.seats
    ++ f.webhooks.flatMap Webhook.seats
    ++ (Entries.values f.sdkVariables).map fun p => (false, .primitive p)

/-- The seat is one of a schema that stands somewhere in the given one. -/
inductive Schema.Seated (seat : Seat) : Schema → Prop where
  | here {s : Schema} (held : seat ∈ s.seats) : Seated seat s
  | deeper {s : Schema} {outer : Seat} (held : outer ∈ s.seats) (inner : Seated seat outer.2) :
      Seated seat s

/-- The seat is one of the file: in it itself, or at any depth in one of its schemas. -/
def File.Seats (f : File) (seat : Seat) : Prop :=
  seat ∈ f.seats ∨ ∃ outer ∈ f.seats, Schema.Seated seat outer.2

def Seat.Exact (seat : Seat) : Prop := seat.2.info.optional = seat.1

-- The seats inside a schema are exact.
def Schema.Settled (s : Schema) : Prop := ∀ seat, Schema.Seated seat s → seat.Exact

structure Seat.Settled (seat : Seat) : Prop where
  exact : seat.Exact
  inner : seat.2.Settled

namespace Schema

variable {s : Schema} {seat : Seat}

theorem seats_parts (s : Schema) : s.seats.map Prod.snd = s.parts := by
  cases s with
  | object o =>
    simp only [seats, parts, List.map_append, List.map_map, List.map_flatMap]
    rfl
  | union u =>
    simp only [seats, parts, List.map_append, List.map_map]
    rfl
  | array _ _ | map _ _ | enumeration _ | primitive _ | reference _ _ | unknown _ => rfl

@[simp] theorem seats_mapInfo (f : Meta → Meta) (s : Schema) : (s.mapInfo f).seats = s.seats := by
  cases s <;> rfl

@[simp] theorem seats_setName (name : NameVariants) (s : Schema) :
    (s.setName name).seats = s.seats := by
  cases s <;> rfl

@[simp] theorem info_mapInfo (f : Meta → Meta) (s : Schema) : (s.mapInfo f).info = f s.info := by
  cases s <;> rfl

@[simp] theorem info_setName (name : NameVariants) (s : Schema) : (s.setName name).info = s.info := by
  cases s <;> rfl

theorem settled_iff : s.Settled ↔ ∀ seat ∈ s.seats, seat.Settled := by
  constructor
  · intro all seat held
    exact ⟨all seat (.here held), fun inner seated => all inner (.deeper held seated)⟩
  · intro each seat seated
    cases seated with
    | here held => exact (each seat held).exact
    | deeper held inner => exact (each _ held).inner seat inner

theorem settled_congr {t : Schema} (same : t.seats = s.seats) (settled : s.Settled) : t.Settled := by
  rw [settled_iff] at settled ⊢
  rwa [same]

theorem settled_mapInfo (f : Meta → Meta) (settled : s.Settled) : (s.mapInfo f).Settled :=
  settled_congr (seats_mapInfo f s) settled

-- A change of annotations that leaves the optional flag as it is.
theorem settled_annotated (f : Meta → Meta) (same : ∀ m, (f m).optional = m.optional)
    {optional : Bool} (settled : Seat.Settled (optional, s)) :
    Seat.Settled (optional, s.mapInfo f) where
  exact := by
    rw [Seat.Exact, info_mapInfo, same]
    exact settled.exact
  inner := settled_mapInfo f settled.inner

theorem settled_leaf (none : s.seats = []) : s.Settled :=
  settled_iff.mpr fun _ held => absurd (none ▸ held) List.not_mem_nil

theorem settled_setOptional (optional : Bool) (settled : s.Settled) :
    Seat.Settled (optional, s.setOptional optional) where
  exact := by
    rw [Seat.Exact, setOptional, info_mapInfo]
  inner := settled_mapInfo (fun m => { m with optional }) settled

theorem settled_unlessRequired (required : Bool) (settled : Seat.Settled (false, s)) :
    Seat.Settled (!required, s.unlessRequired required) := by
  by_cases needed : required = true
  · rw [unlessRequired, if_pos needed, needed]
    exact settled
  · rw [unlessRequired, if_neg needed, Bool.eq_false_iff.mpr needed]
    exact settled_setOptional true settled.inner

theorem settled_object {o : ObjectSchema Schema}
    (properties : ∀ p ∈ o.properties, p.seat.Settled)
    (conflicts : ∀ c ∈ o.conflicts,
      Seat.Settled (false, c.existing) ∧ Seat.Settled (false, c.conflicting)) :
    (Schema.object o).Settled := by
  refine settled_iff.mpr fun seat held => ?_
  rcases List.mem_append.mp held with declared | recorded
  · obtain ⟨p, listed, same⟩ := List.mem_map.mp declared
    exact same ▸ properties p listed
  · obtain ⟨c, listed, among⟩ := List.mem_flatMap.mp recorded
    rcases List.mem_cons.mp among with same | rest
    · exact same ▸ (conflicts c listed).1
    · exact List.mem_singleton.mp rest ▸ (conflicts c listed).2

theorem settled_union {u : UnionSchema Schema} (base : ∀ p ∈ u.baseProperties, p.seat.Settled)
    (variants : ∀ v ∈ u.variants, Seat.Settled (false, v.schema)) : (Schema.union u).Settled := by
  refine settled_iff.mpr fun seat held => ?_
  rcases List.mem_append.mp held with declared | alternative
  · obtain ⟨p, listed, same⟩ := List.mem_map.mp declared
    exact same ▸ base p listed
  · obtain ⟨v, listed, same⟩ := List.mem_map.mp alternative
    exact same ▸ variants v listed

end Schema

theorem Schema.seated_of_occurs {s t : Schema} (occurs : Occurs t s) :
    t = s ∨ ∃ optional, Seated (optional, t) s := by
  induction occurs with
  | here => exact .inl rfl
  | @inside s part held _ ih =>
    rw [← seats_parts] at held
    obtain ⟨outer, seated, same⟩ := List.mem_map.mp held
    rcases ih with here | ⟨optional, inner⟩
    · exact .inr ⟨outer.1, .here (here ▸ same ▸ seated)⟩
    · exact .inr ⟨optional, .deeper seated (same ▸ inner)⟩

/-- Every schema of a file has a seat. -/
theorem File.seats_of_holds {f : File} {s : Schema} (held : f.Holds s) :
    ∃ optional, f.Seats (optional, s) := by
  obtain ⟨root, listed, occurs⟩ := held
  have rooted : root ∈ f.seats.map Prod.snd := by
    have endpoints : (fun e : Endpoint => e.seats.map Prod.snd) = Endpoint.schemas :=
      funext Endpoint.seats_schemas
    have webhooks : (fun w : Webhook => w.seats.map Prod.snd) = Webhook.schemas :=
      funext Webhook.seats_schemas
    rw [seats, List.map_append]
    refine List.mem_append_left _ ?_
    simpa only [List.map_append, List.map_flatMap, List.map_map, endpoints, webhooks,
      Function.comp_def, List.map_id'] using listed
  obtain ⟨outer, seated, same⟩ := List.mem_map.mp rooted
  rcases Schema.seated_of_occurs occurs with here | ⟨optional, inner⟩
  · exact ⟨outer.1, .inl (here ▸ same ▸ seated)⟩
  · exact ⟨optional, .inr ⟨outer, seated, same ▸ inner⟩⟩

end Ir

open Ir (Seat)
open Report (Yields yields_intro)

namespace SchemaLowering

variable {r : Resolver} {given : List Schema}

-- A property that was lowered from a declaration is optional unless it is required.
theorem listed_settled {declared : List (String × SchemaNode)} {exclude : Option String}
    {all : List (Ir.Property Ir.Schema)}
    (listed : Listed (fun s => Seat.Settled (false, s)) declared exclude all) :
    ∀ p ∈ all, p.seat.Settled := by
  intro p here
  obtain ⟨schema, is, same⟩ := listed.schemas p here
  rw [Ir.Property.seat, same]
  exact Ir.Schema.settled_unlessRequired p.required is

theorem optional_rules (r : Resolver) :
    Rules (Report.certifying fun _ => True) r (fun _ => True) (fun _ => True)
      (fun s => Seat.Settled (false, s)) where
  tolerant _ _ := Report.certified_any _
  mark _ := Report.certified_any _
  refused _ _ := Report.certified_fail _
  unknown plain := ⟨plain, Ir.Schema.settled_leaf rfl⟩
  reference _ := ⟨rfl, Ir.Schema.settled_leaf rfl⟩
  primitive _ plain _ := ⟨plain, Ir.Schema.settled_leaf rfl⟩
  enumeration plain _ := ⟨plain, Ir.Schema.settled_leaf rfl⟩
  array plain is := ⟨plain, Ir.Schema.settled_iff.mpr (List.forall_mem_singleton.mpr is)⟩
  map plain is := ⟨plain, Ir.Schema.settled_iff.mpr (List.forall_mem_singleton.mpr is)⟩
  object _ _ plain listed := ⟨plain, Ir.Schema.settled_object (listed_settled listed)
    fun _ here => absurd here List.not_mem_nil⟩
  composed {m _} plain gathered _ := by
    refine ⟨plain, Ir.Schema.settled_object (fun p here => ?_) fun c here => ?_⟩
    · -- whether a merged property is required is known at the end, and decides what it is marked as
      obtain ⟨q, listed, same⟩ := List.mem_map.mp here
      subst same
      exact Ir.Schema.settled_setOptional _ (gathered.properties q listed).inner
    · obtain ⟨existing, conflicting, -⟩ := gathered.conflicts c here
      exact ⟨existing, conflicting⟩
  union _ plain _ _ base variants := ⟨plain, Ir.Schema.settled_union (listed_settled base)
    fun v here => (variants v here).2⟩
  amend description nullable is := by
    rw [amend]
    apply Ir.Schema.settled_annotated
    · exact fun m => rfl
    · exact is

variable (path : List String)

theorem lower_settled (node : SchemaNode) :
    Yields (fun s => Seat.Settled (false, s)) (lower r path node) :=
  lower_holds (optional_rules r) ⟨fun _ _ => trivial, fun _ _ _ => trivial⟩
    (fun _ => Report.certified_any _) path node trivial

theorem lowerComponent_settled (id : String) (node : SchemaNode) :
    Yields (fun s => Seat.Settled (false, s)) (lowerComponent r path id node) := by
  refine lowerComponent_holds (Report.Logic.certifying_blind _).tolerant
    (fun _ _ => Report.certified_fail _) (fun deeper _ => lower_settled deeper node) ?_
  intro _ name s _ is
  refine ⟨?_, Ir.Schema.settled_congr (Ir.Schema.seats_setName name s) is.inner⟩
  rw [Seat.Exact, Ir.Schema.info_setName]
  exact is.exact

end SchemaLowering

theorem optional_scope (scope : Scope) :
    scope.Rules (Report.certifying fun _ => True) (fun _ => True) Seat.Settled where
  tolerant := (Report.Logic.certifying_blind _).tolerant
  gives := Resolver.gives_any _
  lower required _ _ := SchemaLowering.lowerOption_holds
    (fun required s => Seat.Settled (!required, s)) required
    (fun n _ => SchemaLowering.lower_settled _ n) ⟨rfl, Ir.Schema.settled_leaf rfl⟩
    fun _ is => Ir.Schema.settled_unlessRequired required is

open DocumentLowering in
theorem lowerParts_settled (scope : Scope) (d : ApiDocument) :
    Yields (Parts.Fit Seat.Settled (fun r => ∀ seat ∈ r.seats, seat.Settled)
      fun p => Seat.Settled (false, .primitive p)) (lowerParts scope d) := by
  refine lowerParts_certified (fun p => Seat.Settled (false, .primitive p)) (optional_scope scope)
    (fun _ _ => trivial)
    (fun e _ => SchemaLowering.lowerComponent_settled _ e.1 e.2) ?_
  refine VariableLowering.lower_holds (fun p => Seat.Settled (false, .primitive p))
    (optional_scope scope).tolerant fun value => ?_
  exact Report.certified_mono (Report.certified_attempt (SchemaLowering.lower_settled _ _))
    fun _ fine _ is => fine _ is

theorem Discriminant.strip_settled (table : Discriminant.Table) (id : String) {s : Ir.Schema}
    (settled : Seat.Settled (false, s)) : Seat.Settled (false, strip table id s) := by
  cases s with
  | object o =>
    refine ⟨settled.exact, Ir.Schema.settled_iff.mpr fun seat held => ?_⟩
    refine Ir.Schema.settled_iff.mp settled.inner seat ?_
    rcases List.mem_append.mp held with declared | recorded
    · obtain ⟨p, listed, same⟩ := List.mem_map.mp declared
      exact List.mem_append_left _ (List.mem_map.mpr ⟨p, (List.mem_filter.mp listed).1, same⟩)
    · obtain ⟨c, listed, among⟩ := List.mem_flatMap.mp recorded
      exact List.mem_append_right _
        (List.mem_flatMap.mpr ⟨c, (List.mem_filter.mp listed).1, among⟩)
  | union _ | enumeration _ | primitive _ | array _ _ | map _ _ | reference _ _ | unknown _ =>
    exact settled

variable {options : Options} {d : ApiDocument} {file : Ir.File}

theorem seats_settled (done : d.lower options = .ok file) : ∀ seat ∈ file.seats, seat.Settled := by
  obtain ⟨title, description, parts, outcome, same⟩ := staged_of_lower done
  have fit := (lowerParts_settled _ _).outcome parts outcome
  subst same
  intro seat here
  rcases List.mem_append.mp here with here | own
  · rcases List.mem_append.mp here with here | webhook
    · rcases List.mem_append.mp here with component | endpoint
      · obtain ⟨s, listed, rfl⟩ := List.mem_map.mp component
        obtain ⟨e, stripped, rfl⟩ := List.mem_map.mp listed
        obtain ⟨lowered, among, rfl⟩ := List.mem_map.mp stripped
        exact Discriminant.strip_settled _ _ (fit.schemas lowered among)
      · obtain ⟨e, listed, among⟩ := List.mem_flatMap.mp endpoint
        exact (fit.paths.endpoints e listed).seats seat among
    · obtain ⟨w, listed, among⟩ := List.mem_flatMap.mp webhook
      exact fit.allRaised w listed seat among
  · obtain ⟨p, listed, rfl⟩ := List.mem_map.mp own
    obtain ⟨e, among, rfl⟩ := List.mem_map.mp listed
    exact fit.sdkVariables e among

/-- Every schema of a lowered document has a seat, and it is marked as optional at a seat just where
that is the one of a property, a parameter or a multipart field that is not required. -/
theorem lowered_optional (done : d.lower options = .ok file) :
    (∀ s, file.Holds s → ∃ optional, file.Seats (optional, s)) ∧
      ∀ optional s, file.Seats (optional, s) → s.info.optional = optional := by
  refine ⟨fun s held => Ir.File.seats_of_holds held, fun optional s seats => ?_⟩
  rcases seats with root | ⟨outer, root, inner⟩
  · exact (seats_settled done _ root).exact
  · exact (seats_settled done outer root).inner _ inner

-- A stay in a hotel, whose end may be left open.
def stayText : String :=
  documentText ("\x7b\"required\":[\"from\"],\"properties\":\x7b"
    ++ "\"from\":\x7b\"type\":\"string\"\x7d,\"until\":\x7b\"type\":\"string\"\x7d\x7d\x7d")

theorem stay_optional :
    ∃ d file s t, ApiDocument.ofJsonText stayText = .ok d ∧ d.lower .default = .ok file ∧
      file.Seats (false, s) ∧ s.info.optional = false ∧
      file.Seats (true, t) ∧ t.info.optional = true := by
  have lowers : lowersTo (ApiDocument.ofJsonText stayText) (fun file =>
      (Entries.values file.schemas).any fun s => s.seats.any Prod.fst) = true := by
    decide +kernel
  obtain ⟨d, file, parsed, done, checked⟩ := lowersTo_ok lowers
  obtain ⟨s, listed, held⟩ := List.any_eq_true.mp checked
  obtain ⟨⟨optional, t⟩, seated, marked⟩ := List.any_eq_true.mp held
  cases marked
  have root : (false, s) ∈ file.seats := by
    simp only [Ir.File.seats, List.append_assoc]
    exact List.mem_append_left _ (List.mem_map_of_mem listed)
  have property : file.Seats (true, t) := .inr ⟨(false, s), root, .here seated⟩
  exact ⟨d, file, s, t, parsed, done, .inl root, (lowered_optional done).2 _ s (.inl root),
    property, (lowered_optional done).2 _ t property⟩

end ApiLowering
