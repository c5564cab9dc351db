import ApiLowering.Proofs.SameShape

/-!
Changes inside of schemas. The shape of a schema stays as it is when other documentation is written at
any places in it, and when a schema at any depth of it gives way to one of the same shape.
-/

set_option autoImplicit false

namespace ApiLowering.Ir.Schema

-- The schema with a change to the one that the step leads to; if it leads nowhere, nothing changes.
def mapPart (f : Schema → Schema) : Step → Schema → Schema
  | .property index, .object o =>
    .object { o with properties := o.properties.modify index fun p => { p with schema := f p.schema } }
  | .baseProperty index, .union u =>
    .union { u with
      baseProperties := u.baseProperties.modify index fun p => { p with schema := f p.schema } }
  | .variant index, .union u =>
    .union { u with variants := u.variants.modify index fun v => { v with schema := f v.schema } }
  | .items, .array info items => .array info (f items)
  | .value, .map info value => .map info (f value)
  | _, s => s

def modify (f : Schema → Schema) : Place → Schema → Schema
  | [] => f
  | step :: place => mapPart (modify f place) step

def replace (s : Schema) (place : Place) (new : Schema) : Schema := modify (fun _ => new) place s

-- What a schema says beside its shape. The values of an enumeration are told apart by their index.
structure Docs where
  description : Option String
  optional : Bool
  name : Option NameVariants
  values : Nat → Option String
  conflicts : List (PropertyConflict Schema)

def document (docs : Docs) (s : Schema) : Schema :=
  match s.mapInfo fun m => { m with description := docs.description, optional := docs.optional } with
  | .object o => .object { o with name := docs.name, conflicts := docs.conflicts }
  | .union u => .union { u with name := docs.name }
  | .enumeration e =>
    .enumeration { e with
      name := docs.name
      values := e.values.mapIdx fun index v => { v with description := docs.values index } }
  | other => other

-- Other documentation at several places.
def redocument (changes : List (Place × Docs)) (s : Schema) : Schema :=
  changes.foldl (fun changed change => modify (document change.2) change.1 changed) s

section

variable {α β : Type} {g : α → α} {f : Schema → Schema} {s t a : Schema} {step other : Step}
  {place : Place}

theorem map_modify {label : α → β} {h : β → β} (commutes : ∀ x, label (g x) = h (label x))
    (xs : List α) (index : Nat) : (xs.modify index g).map label = (xs.map label).modify index h := by
  apply List.ext_getElem?
  intro i
  simp only [List.getElem?_map, List.getElem?_modify]
  cases xs[i]? with
  | none => rfl
  | some x => by_cases same : index = i <;> simp [same, commutes]

theorem map_kept (label : α → β) (kept : ∀ x, label (g x) = label x) (xs : List α) (index : Nat) :
    (xs.modify index g).map label = xs.map label :=
  (map_modify (h := id) kept xs index).trans (List.modify_id index _)

theorem held_modify {held : α → Schema} (changes : ∀ x, held (g x) = f (held x)) (xs : List α)
    (index i : Nat) : (xs.modify index g)[i]?.map held =
      if index = i then (xs[index]?.map held).map f else xs[i]?.map held := by
  rw [← List.getElem?_map, map_modify changes, List.getElem?_modify, List.getElem?_map]
  by_cases same : index = i
  · subst same
    simp
  · simp [same]

theorem part_mapPart : (s.mapPart f step).part? other =
    if step = other then (s.part? step).map f else s.part? other := by
  cases s <;> cases step <;> cases other <;> simp [mapPart, part?, held_modify (f := f)]

-- Whatever a schema says of itself stays when a schema in it changes.
theorem resembles_mapPart (alike : Resembles s t) : Resembles s (t.mapPart f step) := by
  have properties (ps : List (Property Schema)) (index : Nat) :
      (ps.modify index fun p => { p with schema := f p.schema }).map Property.signature =
        ps.map Property.signature := by
    apply map_kept
    exact fun _ => rfl
  have variants (vs : List (Variant Schema)) (index : Nat) :
      (vs.modify index fun v => { v with schema := f v.schema }).map Variant.discriminantValue =
        vs.map Variant.discriminantValue := by
    apply map_kept
    exact fun _ => rfl
  cases t with
  | object o =>
    cases step with
    | property index => cases s <;> simpa only [Resembles, mapPart, info, properties] using alike
    | baseProperty | variant | items | value => exact alike
  | union u =>
    cases step with
    | baseProperty index => cases s <;> simpa only [Resembles, mapPart, info, properties] using alike
    | variant index => cases s <;> simpa only [Resembles, mapPart, info, variants] using alike
    | property | items | value => exact alike
  | array | map => cases step <;> cases s <;> exact alike
  | enumeration | primitive | reference | unknown => cases step <;> exact alike

theorem shape_document (docs : Docs) (s : Schema) : (s.document docs).shape = s.shape := by
  cases s with
  | enumeration e =>
    have values : (e.values.mapIdx fun i v => { v with description := docs.values i }).map
        (fun v => { v with description := none }) =
          e.values.map fun v => { v with description := none } := by
      apply List.ext_getElem?
      intro i
      rw [List.getElem?_map, List.getElem?_mapIdx, Option.map_map, List.getElem?_map]
      rfl
    exact congrArg (fun values => enumeration ⟨none, shapeInfo e.info, values⟩) values
  | object | union | primitive | array | map | reference | unknown => rfl

-- A schema that stands somewhere inside may become one of the same shape.
theorem sameShape_modify (shapely : s.Shapely)
    (alike : ∀ t, s.at? place = some t → t.Shapely → SameShape t (f t)) :
    SameShape s (modify f place s) := by
  induction place generalizing s with
  | nil => exact alike s rfl shapely
  | cons step place ih =>
    obtain ⟨own, parts⟩ := sameShape_step.mp shapely
    refine sameShape_step.mpr ⟨resembles_mapPart own, fun other => ?_⟩
    rw [modify, part_mapPart]
    by_cases same : step = other
    · subst same
      have inner := parts step
      rw [if_pos rfl]
      cases held : s.part? step with
      | none => exact .none
      | some part =>
        rw [held, Option.rel_some_some] at inner
        refine .some (ih inner fun t here => alike t ?_)
        rw [at?, held]
        exact here
    · rw [if_neg same]
      exact parts other

theorem sameShape_redocument (shapely : s.Shapely) (changes : List (Place × Docs)) :
    SameShape s (redocument changes s) := by
  induction changes generalizing s with
  | nil => exact shapely
  | cons change rest ih =>
    have first : SameShape s (modify (document change.2) change.1 s) :=
      sameShape_modify shapely fun t _ own =>
        (sameShape_congr rfl (shape_document change.2 t)).trans own
    -- having the shape of another schema, the changed one has the shape of itself
    have later := ih (sameShape_euclidean first first)
    exact sameShape_euclidean (sameShape_euclidean first shapely) later

theorem sameShape_replace {old new : Schema} (shapely : s.Shapely) (here : s.at? place = some old)
    (alike : SameShape old new) : SameShape s (s.replace place new) :=
  sameShape_modify shapely fun _ found _ => Option.some.inj (found.symm.trans here) ▸ alike

/-- Having the same shape is an equivalence of the schemas whose bounds are numbers. It does not see
what is documented at any place, it sees all else, and it is a congruence: a schema at any depth may
become one of the same shape. -/
theorem sameShape_congruence (real : Throughout RealHere a) :
    a.sameShape a = true ∧
      (∀ b, a.sameShape b = true → b.sameShape a = true) ∧
      (∀ b c, a.sameShape b = true → b.sameShape c = true → a.sameShape c = true) ∧
      (∀ changes, a.sameShape (a.redocument changes) = true) ∧
      (∀ place old new, a.at? place = some old → old.sameShape new = true →
        a.sameShape (a.replace place new) = true) ∧
      ∀ b, a.sameShape b = true ↔ ∀ place, Option.Rel Resembles (a.at? place) (b.at? place) := by
  have own := shapely_of_real real
  have turned (b : Schema) (alike : SameShape a b) : SameShape b a := sameShape_euclidean alike own
  refine ⟨own, turned, fun b c first second => ?_, sameShape_redocument own,
    fun place old new here alike => sameShape_replace own here alike, fun b => sameShape_iff_places⟩
  exact sameShape_euclidean (turned b first) second

end

def leastWeight (description : Option String) (least : Binary64) : Schema :=
  .primitive ⟨{ Meta.blank with description }, .double ⟨some least, none⟩⟩

-- A list of a union, with a bound on a number and the values of an enumeration at the bottom.
def fruitCrate : Schema :=
  .object {
    name := some (.uniform "crate")
    info := .blank
    properties := [⟨"fruit", .uniform "fruit", .array .blank (.union {
      name := none
      info := .blank
      discriminant := none
      baseProperties := [⟨"weight", .uniform "weight", leastWeight none ⟨0⟩, true⟩]
      variants := [⟨none, .map .blank (.reference .blank "Label")⟩,
        ⟨none, .enumeration ⟨none, .blank, [⟨.uniform "ripe", "ripe", none⟩]⟩⟩] }), true⟩]
    parents := ["Box"]
    conflicts := []
    additionalProperties := false }

-- The enumeration is described, and the crate gets a conflict about a bound that is no number.
def crateNotes : List (Place × Docs) :=
  [([.property 0, .items, .variant 1],
      ⟨some "how soft it is", true, some (.uniform "state"), fun _ => some "eat it soon", []⟩),
    ([], ⟨none, false, none, fun _ => none,
      [⟨"fruit", .unknown .blank, leastWeight none .quietNaN⟩]⟩)]

def weightPlace : Place := [.property 0, .items, .baseProperty 0]

-- The other zero as a bound, and described.
def netWeight : Schema := leastWeight (some "net") ⟨0x8000000000000000⟩

theorem fruitCrate_real : Throughout RealHere fruitCrate := by
  have weight : Throughout RealHere (leastWeight none ⟨0⟩) := by
    refine throughout_leaf (fun bounds here => ?_) rfl
    cases here
    exact ⟨fun x held => by cases held; rfl, fun x held => nomatch held⟩
  have label : Throughout RealHere (.map .blank (.reference .blank "Label")) :=
    throughout_iff.mpr ⟨trivial, List.forall_mem_singleton.mpr (throughout_leaf trivial rfl)⟩
  refine throughout_object trivial (List.forall_mem_singleton.mpr ?_) fun _ here => nomatch here
  refine throughout_iff.mpr ⟨trivial, List.forall_mem_singleton.mpr ?_⟩
  refine throughout_union trivial (List.forall_mem_singleton.mpr weight) ?_
  exact List.forall_mem_cons.mpr
    ⟨label, List.forall_mem_singleton.mpr (throughout_leaf trivial rfl)⟩

theorem fruitCrate_congruent :
    Throughout RealHere fruitCrate ∧ fruitCrate.at? weightPlace = some (leastWeight none ⟨0⟩) ∧
      (leastWeight none ⟨0⟩).sameShape netWeight = true ∧
      fruitCrate.equal (fruitCrate.replace weightPlace netWeight) = false ∧
      fruitCrate.sameShape (fruitCrate.replace weightPlace netWeight) = true ∧
      fruitCrate.equal (fruitCrate.redocument crateNotes) = false ∧
      fruitCrate.sameShape (fruitCrate.redocument crateNotes) = true := by
  obtain ⟨-, -, -, redocumented, replaced, -⟩ := sameShape_congruence fruitCrate_real
  have alike : (leastWeight none ⟨0⟩).sameShape netWeight = true := by decide +kernel
  exact ⟨fruitCrate_real, rfl, alike, by decide +kernel, replaced _ _ _ rfl alike,
    by decide +kernel, redocumented crateNotes⟩

end ApiLowering.Ir.Schema
