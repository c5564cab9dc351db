import ApiLowering.Proofs.Credentials
import ApiLowering.Proofs.FirstWins
import ApiLowering.Proofs.MalformedNodes

/-!
Parameters that are declared more than once. Of all parameters of one name and location, those that an
item shares before those of the operation, the last one is lowered, in the place of the first. A node
that stands for no parameter is found, once, where the operation stands.
-/

set_option autoImplicit false

namespace ApiLowering

open Report (bind_ok pure_ok findings_bind findings_last collect_gathers)

namespace ParameterLowering

variable {scope : Scope} {schemes : List Ir.SecurityScheme} {all merged : List Parameter}

/-- Of the parameters at one place the last one is there, and the places stand in the order in which
they occur first. -/
structure Overrides (all merged : List Parameter) : Prop where
  places : merged.map place = (all.map place).eraseDups
  last : ∀ p ∈ merged, (all.findRev? fun q => place q = place p) = some p

theorem place_eq_iff {p q : Parameter} :
    place p = place q ↔ p.name = q.name ∧ p.location = q.location := by
  rw [place, place, Prod.mk.injEq]

theorem put_map (p : Parameter) (merged : List Parameter) :
    (put p merged).map place =
      if place p ∈ merged.map place then merged.map place else merged.map place ++ [place p] := by
  induction merged with
  | nil => simp [put]
  | cons first rest ih =>
    by_cases same : place first = place p
    · rw [put, if_pos (place_eq_iff.mp same)]
      simp [same]
    · rw [put, if_neg fun equal => same (place_eq_iff.mpr equal), List.map_cons, ih]
      by_cases later : place p ∈ rest.map place <;> simp [later, Ne.symm same]

-- What is put among parameters of different places stands alone in its place.
theorem mem_put_other {p q : Parameter} (distinct : (merged.map place).Nodup)
    (here : q ∈ put p merged) : q = p ∨ q ∈ merged ∧ place q ≠ place p := by
  induction merged with
  | nil => exact .inl (List.mem_singleton.mp here)
  | cons first rest ih =>
    obtain ⟨fresh, others⟩ := List.nodup_cons.mp distinct
    by_cases same : place first = place p
    · rw [put, if_pos (place_eq_iff.mp same)] at here
      rcases List.mem_cons.mp here with new | later
      · exact .inl new
      · refine .inr ⟨List.mem_cons_of_mem _ later, fun equal => fresh ?_⟩
        rw [same, ← equal]
        exact List.mem_map_of_mem later
    · rw [put, if_neg fun equal => same (place_eq_iff.mpr equal)] at here
      rcases List.mem_cons.mp here with old | later
      · exact .inr ⟨old ▸ List.mem_cons_self, old ▸ same⟩
      · exact (ih others later).imp_right fun found => ⟨List.mem_cons_of_mem _ found.1, found.2⟩

theorem overrides_snoc (overrides : Overrides all merged) (distinct : (merged.map place).Nodup)
    (p : Parameter) : Overrides (all ++ [p]) (put p merged) where
  places := by
    have known : place p ∈ merged.map place ↔ place p ∈ all.map place := by
      rw [overrides.places, List.mem_eraseDups]
    rw [put_map, List.map_append, List.map_singleton, SchemaLowering.eraseDups_snoc]
    by_cases before : place p ∈ all.map place
    · rw [if_pos before, if_pos (known.mpr before), overrides.places]
    · rw [if_neg before, if_neg (known.not.mpr before), overrides.places]
  last q here := by
    rw [List.findRev?_eq_find?_reverse, List.reverse_append, List.reverse_singleton,
      List.singleton_append, List.find?_cons]
    rcases mem_put_other distinct here with new | ⟨old, other⟩
    · simp [new]
    · have before := overrides.last q old
      rw [List.findRev?_eq_find?_reverse] at before
      simpa [Ne.symm other] using before

theorem foldl_overrides (all : List Parameter) :
    Overrides all (all.foldl (fun seen p => put p seen) []) := by
  induction all using List.reverseRecOn with
  | nil => exact ⟨rfl, fun _ here => absurd here List.not_mem_nil⟩
  | append_singleton all p ih =>
    rw [List.foldl_append]
    exact overrides_snoc ih (merged_places all [] List.nodup_nil) p

/-- What a parameter is lowered to. -/
structure Sends (scope : Scope) (q : Parameter) (p : Ir.Parameter) : Prop where
  name : NameVariants.derive? (givenName q) (some q.name) = some p.name
  wire : p.name.wireValue = q.name
  required : p.required = true ↔ q.required = true ∨ q.location = .path
  schema : (SchemaLowering.lowerOption scope.resolver scope.path p.required q.schema).outcome =
    .ok p.schema
  description : p.description = q.description
  variableReference : p.variableReference = variableName? q

-- What is no cookie, is no header that a security scheme is sent in, in whatever letter case either of
-- them is written, and has a name.
def isListed (schemes : List Ir.SecurityScheme) (p : Parameter) : Bool :=
  givenName p ≠ "" &&
    match p.location with
    | .cookie => false
    | .header => schemes.all fun s => Text.lowerAscii s.headerName ≠ Text.lowerAscii p.name
    | .path | .query => true

theorem isListed_eq (reserves : scope.reserved = (SecurityLowering.reserved schemes).map Text.lowerAscii)
    (p : Parameter) : isListed schemes p = (givenName p ≠ "" && isSent scope p) := by
  have reserved : scope.isReserved p.name =
      !schemes.all fun s => Text.lowerAscii s.headerName ≠ Text.lowerAscii p.name := by
    have same (t : String) : t ∈ SecurityLowering.reserved schemes ↔
        t ∈ schemes.map Ir.SecurityScheme.headerName := ⟨mem_sortedSet, sortedSet_holds⟩
    rw [Scope.isReserved, reserves, Bool.eq_iff_iff]
    simp [same]
  unfold isListed isSent
  cases p.location <;> simp [reserved]

theorem lowerOne_unnamed {p : Parameter} (unnamed : givenName p = "") :
    (lowerOne scope p).outcome = .ok none := by
  have none := (NameVariants.derive_none (givenName p) (some p.name)).mpr unnamed
  rw [givenName] at none
  simp only [lowerOne, none]
  rfl

theorem lowerOne_sends {p : Parameter} {made : Option (ParameterLocation × Ir.Parameter)}
    (named : givenName p ≠ "") (done : (lowerOne scope p).outcome = .ok made) :
    ∃ sent, made = some (p.location, sent) ∧ Sends scope p sent := by
  obtain ⟨name, derived⟩ := NameVariants.derive_some named (some p.name)
  have wire := (NameVariants.derive_ok derived).2.wire
  rw [givenName] at derived
  simp only [lowerOne, derived] at done
  obtain ⟨schema, lowered, done⟩ := bind_ok done
  cases pure_ok done
  refine ⟨_, rfl, derived, wire, ?_, lowered, rfl, rfl⟩
  simp [isRequired]

theorem lowerOne_found {p : Parameter} {f : Ir.Finding} (here : f ∈ (lowerOne scope p).findings) :
    ["parameters", p.name] <+: f.breadcrumbs := by
  obtain ⟨g, -, same⟩ := List.mem_map.mp here
  rw [← same]
  exact List.prefix_append _ _

-- What is collected of the parameters that are left, one for each that has a name.
theorem collect_sends {items : List Parameter} {lowered : List (ParameterLocation × Ir.Parameter)}
    (done : (Report.collect (lowerOne scope) items).outcome = .ok lowered) :
    List.Forall₂ (fun q made => made.1 = q.location ∧ Sends scope q made.2)
        (items.filter fun q => givenName q ≠ "") lowered ∧
      ∀ f ∈ (Report.collect (lowerOne scope) items).findings,
        ∃ q ∈ items, ["parameters", q.name] <+: f.breadcrumbs := by
  refine collect_gathers (P := fun items lowered findings =>
    List.Forall₂ (fun q made => made.1 = q.location ∧ Sends scope q made.2)
        (items.filter fun q => givenName q ≠ "") lowered ∧
      ∀ f ∈ findings, ∃ q ∈ items, ["parameters", q.name] <+: f.breadcrumbs)
    ⟨.nil, fun _ here => absurd here List.not_mem_nil⟩ ?_ done
  intro q made rest more later first ⟨others, told⟩
  constructor
  · by_cases named : givenName q = ""
    · cases (lowerOne_unnamed named).symm.trans first
      simpa [named] using others
    · obtain ⟨sent, same, sends⟩ := lowerOne_sends named first
      subst same
      simpa [named] using And.intro sends others
  · intro f here
    rcases List.mem_append.mp here with own | other
    · exact ⟨q, List.mem_cons_self, lowerOne_found own⟩
    · obtain ⟨p, listed, under⟩ := told f other
      exact ⟨p, List.mem_cons_of_mem _ listed, under⟩

theorem located_sends {items : List Parameter} {lowered : List (ParameterLocation × Ir.Parameter)}
    (each : List.Forall₂ (fun q made => made.1 = q.location ∧ Sends scope q made.2) items lowered)
    (location : ParameterLocation) :
    List.Forall₂ (Sends scope) (items.filter fun q => q.location = location)
      (located location lowered) := by
  have there := List.rel_filter (p := fun q : Parameter => decide (q.location = location))
    (q := fun made : ParameterLocation × Ir.Parameter => decide (made.1 = location))
    (fun q made sends => by simp [sends.1]) each
  rw [located, List.forall₂_map_right_iff]
  exact there.imp fun _ _ sends => sends.2

/-- What becomes of the parameters of an operation. At each location there is one parameter for each
merged one that is listed, in their order; a node that stands for no parameter is found once. -/
structure Settles (scope : Scope) (schemes : List Ir.SecurityScheme) (nodes : List ParameterNode)
    (merged : List Parameter) (parameters : LoweredParameters) (findings : List Ir.Finding) :
    Prop where
  overrides : Overrides (nodes.filterMap (parameter? scope.resolver)) merged
  sent : ∀ location, List.Forall₂ (Sends scope)
    (merged.filter fun q => isListed schemes q && q.location = location) (parameters.at location)
  once : ∀ location, (Ir.wireNames (parameters.at location)).Nodup
  found : ∃ lost rest, findings = lost ++ rest ∧
    List.Forall₂ (fun node f => (resolve scope.resolver node).findings = [f] ∧ f.isUnresolved)
      (nodes.filter fun node => (parameter? scope.resolver node).isNone) lost ∧
    ∀ f ∈ rest, ∃ q ∈ merged, ["parameters", q.name] <+: f.breadcrumbs

theorem listed_filter (reserves : scope.reserved =
      (SecurityLowering.reserved schemes).map Text.lowerAscii) (location : ParameterLocation) :
    (((merged.filter (isSent scope)).filter fun q => givenName q ≠ "").filter
        fun q => q.location = location) =
      merged.filter fun q => isListed schemes q && q.location = location := by
  rw [List.filter_filter, List.filter_filter]
  refine List.filter_congr fun q _ => ?_
  rw [isListed_eq reserves, Bool.and_assoc, Bool.and_comm]

/-- Of the parameters of one name and location the last one is lowered, in the place of the first; only
cookies, headers that a security scheme is sent in and what has no name are left out. -/
theorem parameters_overridden {shared own : List ParameterNode} {parameters : LoweredParameters}
    (reserves : scope.reserved = (SecurityLowering.reserved schemes).map Text.lowerAscii)
    (done : (lower scope shared own).outcome = .ok parameters) :
    ∃ merged, Settles scope schemes (shared ++ own) merged parameters
      (lower scope shared own).findings := by
  obtain ⟨path, query, headers⟩ := (lower_distinct shared own).outcome parameters done
  obtain ⟨resolved, lost⟩ :=
    Report.collect_resolves (resolve_resolves scope.resolver) (shared ++ own)
  rw [lower, findings_bind resolved]
  rw [lower, Report.bind_of_ok resolved] at done
  obtain ⟨lowered, collected, last⟩ := bind_ok done
  cases pure_ok last
  obtain ⟨sends, told⟩ := collect_sends collected
  refine ⟨_, foldl_overrides _, ?_, ?_, _, _, rfl, lost, ?_⟩
  · intro location
    have there := located_sends sends location
    rw [listed_filter reserves] at there
    cases location with
    | path | query | header => exact there
    | cookie =>
      have none : ∀ q : Parameter, ¬ (isListed schemes q && q.location = .cookie) = true := by
        intro q
        by_cases cookie : q.location = .cookie <;> simp [isListed, cookie]
      rw [List.filter_eq_nil_iff.mpr fun q _ => none q]
      exact .nil
  · intro location
    cases location with
    | cookie => exact List.nodup_nil
    | path => exact path
    | query => exact query
    | header => exact headers
  · intro f here
    rw [findings_last collected] at here
    obtain ⟨q, listed, under⟩ := told f here
    exact ⟨q, (List.mem_filter.mp listed).1, under⟩

def queryNamed (name : String) (description : Option String) (extensions : Entries Json) : Parameter :=
  ⟨name, .query, description, false, none, none, extensions⟩

def guestNamed (description : String) : ParameterNode :=
  .inline ⟨"guest", .path, some description, false, none, none, []⟩

-- A document with a parameter behind two references, and a scheme that is sent in a header.
def frontDesk : ApiDocument :=
  { ApiDocument.ofSchemas [] with
    components := some { Components.record.blank with
      parameters := [
        ("Limit", .reference "#/components/parameters/Inner"),
        ("Inner", .inline { queryNamed "limit" (some "last") [] with required := true })]
      securitySchemes := [("key", .inline { SecurityScheme.record.blank with
        type := .apiKey
        location := some .header
        name := some "X-Key" })] } }

-- Parameters that an item shares, and those of an operation: one of them repeats a shared one, one does
-- by way of a component, and the others but the last are left out.
def deskShared : List ParameterNode :=
  [.inline (queryNamed "limit" (some "first") []), guestNamed "shared",
    .inline ⟨"visit", .cookie, none, false, none, none, []⟩]

def deskOwn : List ParameterNode :=
  [guestNamed "own", headerNamed "x-KEY" [], .reference "#/components/parameters/Missing",
    .reference "#/components/parameters/Limit", .invalid .null,
    .inline (queryNamed "blank" none [(Extension.parameterNameKey, .text "")]),
    .inline (queryNamed "page" none [])]

def described (parameters : List Ir.Parameter) : List (String × Bool × Option String) :=
  parameters.map fun p => (p.name.wireValue, p.required, p.description)

theorem frontDesk_overridden :
    ∃ parameters, (lower (frontDesk.loweringScope .default) deskShared deskOwn).outcome =
        .ok parameters ∧
      described parameters.path = [("guest", true, some "own")] ∧
      described parameters.query = [("limit", true, some "last"), ("page", false, none)] ∧
      described parameters.headers = [] ∧
      ∃ merged, Settles (frontDesk.loweringScope .default) (Entries.values frontDesk.supportedSchemes)
        (deskShared ++ deskOwn) merged parameters
        (lower (frontDesk.loweringScope .default) deskShared deskOwn).findings := by
  have lowers : (lower (frontDesk.loweringScope .default) deskShared deskOwn).outcome.toOption.any
      (fun parameters => decide (
        described parameters.path = [("guest", true, some "own")] ∧
          described parameters.query = [("limit", true, some "last"), ("page", false, none)] ∧
          described parameters.headers = [])) = true := by
    decide +kernel
  obtain ⟨parameters, done, checked⟩ := ok_of_any lowers
  obtain ⟨path, query, headers⟩ := of_decide_eq_true checked
  exact ⟨parameters, done, path, query, headers, parameters_overridden rfl done⟩

end ParameterLowering

end ApiLowering
