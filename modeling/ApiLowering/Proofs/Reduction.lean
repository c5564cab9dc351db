import ApiLowering.Proofs.Gathering

/-!
Reduction and merging. A composition without properties of its own is lowered to the only member that
is more than annotations. If that member describes an object, merging the same members would give an
object with the same keys. Merging also takes in what the composition itself requires and allows, and
reduction leaves that out.
-/

set_option autoImplicit false

namespace ApiLowering

theorem map_of_related {α β γ : Type} {R : α → β → Prop} {f : α → γ} {g : β → γ} {as : List α}
    {bs : List β} (related : List.Forall₂ R as bs) (same : ∀ a b, R a b → g b = f a) :
    bs.map g = as.map f := by
  induction related with
  | nil => rfl
  | cons first _ ih => rw [List.map_cons, List.map_cons, same _ _ first, ih]

theorem SchemaLowering.eraseDups_distinct {keys : List String} (distinct : keys.Nodup) : keys.eraseDups = keys := by
  induction keys using List.reverseRecOn with
  | nil => rfl
  | append_singleton keys key ih =>
    obtain ⟨before, -, apart⟩ := List.nodup_append.mp distinct
    have fresh : key ∉ keys := fun here => apart key here key List.mem_cons_self rfl
    rw [eraseDups_snoc, if_neg fresh, ih before]

-- Two objects with the same keys in the same order that require and allow the same.
structure Ir.ObjectSchema.Agrees (a b : Ir.ObjectSchema Ir.Schema) : Prop where
  keys : a.properties.map Ir.Property.key = b.properties.map Ir.Property.key
  required : ∀ p ∈ a.properties, ∀ q ∈ b.properties, p.key = q.key → p.required = q.required
  additional : a.additionalProperties = b.additionalProperties

namespace SchemaLowering

open ApiLowering.Composition (BringsAll Brings brings_unique Declaration Leads Open Place Visits)

variable {r : Resolver} {path : List String} {s m : Schema} {schema : Ir.Schema}
  {required : List String} {members : List SchemaNode}

def describesObject (s : Schema) : Bool :=
  match s.type with
  | none => true
  | some (.single type) => type = .object
  | some (.multiple types) => types.filter (· ≠ .null) = [.object]

-- A schema that describes an object by its properties, and nothing else.
structure PlainObject (s : Schema) : Prop where
  object : describesObject s = true
  some : s.properties ≠ []
  distinct : (s.properties.map Prod.fst).Nodup
  all : s.allOf = []
  one : s.oneOf = []
  any : s.anyOf = []
  enum : s.enumValues = []
  const : s.constValue = none

theorem form_plain (plain : PlainObject s) : form s = .typed := by
  rw [form, plain.all, plain.one, plain.any, plain.enum, plain.const]
  rfl

theorem lowerByType_plain (plain : PlainObject s) (parts : Parts) (info : Ir.Meta) :
    lowerByType s parts info = (do
      let properties ← parts.properties ()
      return .object ⟨none, info, properties, [], [], s.allowsAdditional⟩) := by
  have listed : s.properties.isEmpty = false := List.isEmpty_eq_false_iff.mpr plain.some
  have object : lowerByType s parts info = lowerObject s parts info := by
    have described := plain.object
    unfold describesObject at described
    unfold lowerByType
    cases type : s.type with
    | none =>
      have like : s.isObjectLike = true := by
        rw [Keywords.isObjectLike, type, listed]
        rfl
      dsimp only
      rw [if_pos like]
    | some types =>
      rw [type] at described
      cases types with
      | single type =>
        cases of_decide_eq_true described
        rfl
      | multiple types =>
        dsimp only
        rw [of_decide_eq_true described]
        rfl
  rw [object, lowerObject, if_neg (by rw [listed]; exact Bool.false_ne_true)]

-- A property with the declaration that it comes from.
structure Becomes (r : Resolver) (path required : List String) (d : Declaration)
    (p : Ir.Property Ir.Schema) : Prop where
  key : p.key = d.1
  required : p.required = required.contains p.key
  schema : ∃ lowered, (lower r path d.2).outcome = .ok lowered

theorem lowerProperties_become {declared : List Declaration}
    {listed : List (Ir.Property Ir.Schema)}
    (done : (lowerProperties r path required none declared).outcome = .ok listed) :
    List.Forall₂ (fun d p => Becomes r path required d p ∧ propertyName? d.1 d.2 = some p.name)
      (named declared) listed := by
  induction declared generalizing listed with
  | nil =>
    rw [lowerProperties] at done
    cases done
    exact .nil
  | cons d rest ih =>
    obtain ⟨key, node⟩ := d
    rw [lowerProperties, if_neg (by simp)] at done
    obtain ⟨found, first, done⟩ := Report.bind_ok done
    obtain ⟨more, later, done⟩ := Report.bind_ok done
    cases done
    change (Report.under _ _).outcome = .ok found at first
    cases derived : propertyName? key node with
    | none =>
      rw [derived] at first
      cases first
      have unnamed := (propertyName_none (key, node)).mp derived
      rw [named, List.filter_cons_of_neg (by simpa using unnamed)]
      exact ih later
    | some name =>
      rw [derived] at first
      obtain ⟨lowered, passed, last⟩ := Report.bind_ok first
      cases last
      have some := namedAfter_some (d := (key, node)) derived
      rw [named, List.filter_cons_of_pos (by simpa using some)]
      exact .cons ⟨⟨rfl, rfl, lowered, passed⟩, derived⟩ (ih later)

theorem lowerInline_plain (plain : PlainObject s)
    (done : (lowerInline r path s).outcome = .ok schema) :
    ∃ o, schema = .object o ∧ o.additionalProperties = s.allowsAdditional ∧
      List.Forall₂ (Becomes r path s.required) (named s.properties) o.properties := by
  have done := lowerInline_ok done
  rw [form_plain plain, lowerForm, lowerByType_plain plain] at done
  obtain ⟨properties, listed, done⟩ := Report.bind_ok done
  cases done
  exact ⟨_, rfl, rfl, (lowerProperties_become listed).imp fun _ _ => And.left⟩

-- A remark has nothing that a composition takes from its members.
structure Remark (s : Schema) : Prop where
  properties : s.properties = []
  required : s.required = []
  additional : s.additionalProperties = none
  members : s.allOf = []

theorem remark_of_only (only : s.isAnnotationOnly = true) : Remark s := by
  simp only [Keywords.isAnnotationOnly, Bool.and_eq_true, List.isEmpty_iff,
    Option.isNone_iff_eq_none, and_assoc] at only
  obtain ⟨-, -, properties, required, additional, -, members, -⟩ := only
  exact ⟨properties, required, additional, members⟩

-- The members are remarks, but for one that stands inline.
def Sole (members : List SchemaNode) (m : Schema) : Prop :=
  members.filter (fun member => !member.annotates) = [.inline m]

theorem remark_of_annotates {member : SchemaNode} (only : member.annotates = true) :
    ∃ t, member = .inline t ∧ Remark t := by
  cases member with
  | inline t => exact ⟨t, rfl, remark_of_only only⟩
  | reference target => cases only
  | invalid value => cases only

theorem Sole.listed (sole : Sole members m) : SchemaNode.inline m ∈ members :=
  (List.mem_filter.mp (sole ▸ List.mem_cons_self)).1

theorem Sole.shaped (sole : Sole members m) {member : SchemaNode} (listed : member ∈ members)
    (shaped : member.annotates = false) : member = .inline m := by
  have here : member ∈ members.filter fun member => !member.annotates :=
    List.mem_filter.mpr ⟨listed, by rw [shaped]; rfl⟩
  rw [sole] at here
  exact List.mem_singleton.mp here

theorem Sole.cases (sole : Sole members m) {member : SchemaNode} (listed : member ∈ members) :
    ∃ t, member = .inline t ∧ (t = m ∨ Remark t) := by
  cases only : member.annotates with
  | false => exact ⟨m, sole.shaped listed only, .inl rfl⟩
  | true =>
    obtain ⟨t, same, remark⟩ := remark_of_annotates only
    exact ⟨t, same, .inr remark⟩

theorem Sole.reduced (sole : Sole s.allOf m) (own : s.properties = []) :
    ∃ index, form s = .reduced index (.inline m) := by
  have listed := sole.listed
  by_cases single : s.allOf.length = 1
  · obtain ⟨member, same⟩ := List.length_eq_one_iff.mp single
    rw [same] at listed
    cases List.mem_singleton.mp listed
    exact ⟨0, form_reduced_iff.mpr ⟨own, by rw [soleShaped?, if_pos single], by rw [same]; rfl⟩⟩
  · have only := shaped_indexed s.allOf
    rw [sole, List.map_eq_singleton_iff] at only
    obtain ⟨⟨member, index⟩, only, same⟩ := only
    cases same
    have here : (SchemaNode.inline m, index) ∈ s.allOf.zipIdx :=
      (List.mem_filter.mp (only ▸ List.mem_cons_self)).1
    refine ⟨index, form_reduced_iff.mpr ⟨own, ?_, List.mem_zipIdx_iff_getElem?.mp here⟩⟩
    rw [soleShaped?, if_neg single, only]

-- A walk over such members goes no further than to them.
theorem Sole.visits (sole : Sole s.allOf m) (plain : PlainObject m) {place : Place}
    (visited : Visits r (path, .inline s) place) :
    ∃ t, place = (path, .inline t) ∧ (t = s ∨ t = m ∨ Remark t) := by
  cases visited with
  | here => exact ⟨s, rfl, .inl rfl⟩
  | member listed further =>
    obtain ⟨t, same, kind⟩ := sole.cases listed
    subst same
    have bare : t.allOf = [] := by
      rcases kind with same | remark
      · exact same ▸ plain.all
      · exact remark.members
    cases further with
    | here => exact ⟨t, rfl, .inr kind⟩
    | member deeper _ =>
      rw [bare] at deeper
      cases deeper

theorem Sole.open (sole : Sole s.allOf m) (plain : PlainObject m) : Open r (path, .inline s) := by
  rintro e ⟨reached, target, id, node, visited, -, -⟩
  obtain ⟨t, same, -⟩ := sole.visits plain visited
  cases same

theorem Sole.leads (sole : Sole s.allOf m) (plain : PlainObject m) {p : Schema → Prop}
    (never : ∀ t, Remark t → ¬ p t) :
    (∃ t, Leads r (.inline s) (.inline t) ∧ p t) ↔ p s ∨ p m := by
  constructor
  · rintro ⟨t, led, holds⟩
    obtain ⟨reached, visited⟩ := Composition.visits_of_leads led [] (sole.open plain)
    obtain ⟨u, same, kind⟩ := sole.visits plain visited
    cases same
    rcases kind with same | same | remark
    · exact .inl (same ▸ holds)
    · exact .inr (same ▸ holds)
    · exact absurd holds (never _ remark)
  · rintro (holds | holds)
    · exact ⟨s, .here, holds⟩
    · exact ⟨m, .member sole.listed .here, holds⟩

-- Members that are remarks, but for some that have no members themselves, bring what these declare.
theorem brings_shaped {members : List SchemaNode}
    (bare : ∀ member ∈ members, member.annotates = false →
      ∃ t, member = .inline t ∧ t.allOf = []) :
    BringsAll r members ((members.filter fun member => !member.annotates).flatMap fun member =>
      member.inline?.elim [] Keywords.properties) := by
  have own {t : Schema} (bare : t.allOf = []) : Brings r (.inline t) t.properties := by
    have members : BringsAll r t.allOf [] := bare ▸ .nil
    exact .inline members
  induction members with
  | nil => exact .nil
  | cons member rest ih =>
    have later := ih fun other here => bare other (List.mem_cons_of_mem _ here)
    cases only : member.annotates with
    | true =>
      obtain ⟨t, same, remark⟩ := remark_of_annotates only
      subst same
      rw [List.filter_cons_of_neg (by rw [only]; exact Bool.false_ne_true)]
      exact .cons (remark.properties ▸ own remark.members) later
    | false =>
      obtain ⟨t, same, none⟩ := bare member List.mem_cons_self only
      subst same
      rw [List.filter_cons_of_pos (by rw [only]; rfl), List.flatMap_cons]
      exact .cons (own none) later

theorem Sole.brings (sole : Sole s.allOf m) (plain : PlainObject m) (own : s.properties = []) :
    Brings r (.inline s) m.properties := by
  have all : BringsAll r s.allOf _ := brings_shaped fun member listed shaped =>
    ⟨m, sole.shaped listed shaped, plain.all⟩
  have brings := Brings.inline (s := s) all
  rw [sole, own, List.append_nil, List.flatMap_singleton] at brings
  exact brings

-- What merging adds to the object that a composition is reduced to: what the composition itself
-- requires and allows.
structure Overlays (s : Schema) (reduced merged : Ir.ObjectSchema Ir.Schema) : Prop where
  keys : reduced.properties.map Ir.Property.key = merged.properties.map Ir.Property.key
  required : ∀ p ∈ reduced.properties, ∀ q ∈ merged.properties, p.key = q.key →
    q.required = (p.required || s.required.contains q.key)
  additional : merged.additionalProperties = (reduced.additionalProperties || s.allowsAdditional)

theorem Overlays.agrees_iff {reduced merged : Ir.ObjectSchema Ir.Schema}
    (overlays : Overlays s reduced merged) :
    reduced.Agrees merged ↔
      (∀ p ∈ reduced.properties, p.key ∈ s.required → p.required = true) ∧
        (s.allowsAdditional = true → reduced.additionalProperties = true) := by
  constructor
  · intro agrees
    refine ⟨fun p here demanded => ?_, fun allowed => ?_⟩
    · have key : p.key ∈ merged.properties.map Ir.Property.key :=
        overlays.keys ▸ List.mem_map_of_mem here
      obtain ⟨q, there, same⟩ := List.mem_map.mp key
      rw [agrees.required p here q there same.symm, overlays.required p here q there same.symm,
        same, List.contains_iff_mem.mpr demanded, Bool.or_true]
    · rw [agrees.additional, overlays.additional, allowed, Bool.or_true]
  · rintro ⟨demanded, allowed⟩
    refine ⟨overlays.keys, fun p here q there same => ?_, ?_⟩
    · rw [overlays.required p here q there same]
      cases listed : s.required.contains q.key with
      | false => rw [Bool.or_false]
      | true => rw [demanded p here (same ▸ List.contains_iff_mem.mp listed), Bool.true_or]
    · rw [overlays.additional]
      cases allows : s.allowsAdditional with
      | false => rw [Bool.or_false]
      | true => rw [allowed allows, Bool.true_or]

theorem lowerComposed_sole (sole : Sole s.allOf m) (plain : PlainObject m) (own : s.properties = [])
    (lowers : ∀ d ∈ named m.properties, ∃ lowered, (lower r path d.2).outcome = .ok lowered) :
    ∃ o, (lowerComposed r path s).outcome = .ok (.object o) ∧
      o.properties.map Ir.Property.key = (named m.properties).map Prod.fst ∧
      (∀ q ∈ o.properties, q.required = (m.required.contains q.key || s.required.contains q.key)) ∧
      o.additionalProperties = (m.allowsAdditional || s.allowsAdditional) := by
  have lowerable : Lowerable r (path, .inline s) := by
    intro reached t visited d listed some
    obtain ⟨u, same, kind⟩ := sole.visits plain visited
    cases same
    rcases kind with same | same | remark
    · rw [same, own] at listed
      cases listed
    · exact lowers d (List.mem_filter.mpr ⟨same ▸ listed, decide_eq_true some⟩)
    · rw [remark.properties] at listed
      cases listed
  obtain ⟨schema, done⟩ := lowerComposed_succeeds.mpr ⟨sole.open plain, lowerable⟩
  obtain ⟨changes, converted, made, ended, same, each, ids, reflects⟩ := lowerComposed_reflects done
  rw [brings_unique (Composition.walkAll_brings ended) (sole.brings plain own)] at each
  subst same
  refine ⟨_, done, ?_, fun q here => ?_, ?_⟩
  · have distinct : ((named m.properties).map Prod.fst).Nodup :=
      plain.distinct.sublist (List.filter_sublist.map Prod.fst)
    have keys := reflects.finished_keys
    rw [map_of_related each fun _ _ converts => converts.key, eraseDups_distinct distinct] at keys
    exact keys
  · rw [finished_required here, Bool.eq_iff_iff, List.contains_iff_mem, required_walked made ended,
      sole.leads plain fun t remark => by
        rw [remark.required]
        exact List.not_mem_nil]
    simp only [Bool.or_eq_true, List.contains_iff_mem, or_comm]
  · rw [Bool.eq_iff_iff]
    refine (additional_walked made ended).trans ?_
    rw [sole.leads plain fun t remark => by
      rw [Keywords.allowsAdditional, remark.additional]
      exact Bool.false_ne_true]
    rw [Bool.or_eq_true, or_comm]

-- What a plain member is lowered to is the object of the composition, but for annotations.
theorem lowerInline_sole (sole : Sole s.allOf m) (plain : PlainObject m) (own : s.properties = [])
    (done : (lowerInline r path s).outcome = .ok schema) :
    ∃ o, schema = .object o ∧ o.additionalProperties = m.allowsAdditional ∧
      List.Forall₂ (Becomes r path m.required) (named m.properties) o.properties := by
  obtain ⟨index, reduces⟩ := sole.reduced own
  have done := lowerInline_ok done
  rw [reduces, lowerForm] at done
  obtain ⟨inner, within, last⟩ := Report.bind_ok done
  cases last
  change (lower r path (.inline m)).outcome = .ok inner at within
  rw [lower] at within
  obtain ⟨o, object, additional, listed⟩ := lowerInline_plain plain within
  subst object
  exact ⟨_, rfl, additional, listed⟩

/-- A composition that reduces to an object is merged to an object with the same keys. What the
composition requires and allows itself is merged, but it is lost where it reduces: the two objects agree
exactly if the member that is reduced to requires and allows all that the composition does. -/
theorem reduction_overlaid (own : s.properties = []) (sole : Sole s.allOf m) (plain : PlainObject m)
    (done : (lowerInline r path s).outcome = .ok schema) :
    ∃ reduced merged, schema = .object reduced ∧
      (lowerComposed r path s).outcome = .ok (.object merged) ∧ Overlays s reduced merged ∧
      (reduced.Agrees merged ↔
        (∀ p ∈ reduced.properties, p.key ∈ s.required → p.key ∈ m.required) ∧
          (s.allowsAdditional = true → m.allowsAdditional = true)) := by
  obtain ⟨reduced, object, additional, listed⟩ := lowerInline_sole sole plain own done
  have lowers (d : Declaration) (here : d ∈ named m.properties) :
      ∃ lowered, (lower r path d.2).outcome = .ok lowered := by
    obtain ⟨p, -, becomes⟩ := related_of_mem listed here
    exact becomes.schema
  have required (p : Ir.Property Ir.Schema) (here : p ∈ reduced.properties) :
      p.required = m.required.contains p.key := by
    obtain ⟨d, -, becomes⟩ := related_of_mem listed.flip here
    exact becomes.required
  obtain ⟨merged, composed, keys, flags, allows⟩ := lowerComposed_sole sole plain own lowers
  have overlays : Overlays s reduced merged := by
    refine ⟨?_, fun p here q there same => ?_, ?_⟩
    · rw [keys, map_of_related listed fun _ _ becomes => becomes.key]
    · rw [flags q there, required p here, same]
    · rw [allows, additional]
  refine ⟨reduced, merged, object, composed, overlays, overlays.agrees_iff.trans ?_⟩
  rw [additional]
  refine and_congr_left' (forall₂_congr fun p here => ?_)
  rw [required p here, List.contains_iff_mem]

-- A tag needs its ring; the tag of a ringed bird needs the site as well.
def tag : Schema := declaring ["ring"] [("ring", .string), ("site", .string)] []

def ringed : Schema :=
  declaring ["ring", "site"] []
    [.inline { Keywords.empty with description := some "The tag of a ringed bird." }, .inline tag]

theorem ringed_overlaid :
    ringed.properties = [] ∧ Sole ringed.allOf tag ∧ PlainObject tag ∧
      ∃ reduced merged, (lowerInline kennel [] ringed).outcome = .ok (.object reduced) ∧
        (lowerComposed kennel [] ringed).outcome = .ok (.object merged) ∧
        (reduced.properties.map fun p => (p.key, p.required)) = [("ring", true), ("site", false)] ∧
        Overlays ringed reduced merged ∧ ¬ reduced.Agrees merged := by
  have sole : Sole ringed.allOf tag := rfl
  have plain : PlainObject tag := ⟨rfl, by decide, by decide, rfl, rfl, rfl, rfl, rfl⟩
  have lowers : ((lowerInline kennel [] ringed).outcome.toOption.any fun schema =>
      schema.body?.any fun body =>
        (body.properties.map fun p => (p.key, p.required)) ==
          [("ring", true), ("site", false)]) = true := by decide +kernel
  obtain ⟨schema, done, checked⟩ := ok_of_any lowers
  obtain ⟨reduced, merged, object, composed, overlays, agrees⟩ :=
    reduction_overlaid rfl sole plain done
  subst object
  have flags : (reduced.properties.map fun p => (p.key, p.required)) =
      [("ring", true), ("site", false)] := eq_of_beq checked
  refine ⟨rfl, sole, plain, reduced, merged, done, composed, flags, overlays, fun same => ?_⟩
  have site : ("site", false) ∈ reduced.properties.map fun p => (p.key, p.required) := by
    rw [flags]
    decide
  obtain ⟨p, here, is⟩ := List.mem_map.mp site
  obtain ⟨key, -⟩ := Prod.mk.inj is
  have lost := (agrees.mp same).1 p here (key ▸ by decide)
  exact absurd (key ▸ lost) (by decide)

end SchemaLowering

end ApiLowering
