import ApiLowering.Proofs.Consulted
import ApiLowering.Proofs.Ordinary
import ApiLowering.Proofs.Pieces

/-!
Rules for the lowering of schemas. Every lowered schema has one of a few forms, and each form comes
with what the lowering knows of its pieces. A logic of reports that follows the rules for these forms
holds of all that is lowered, whatever it speaks about: one lemma for each function of the lowering,
and one induction along it.
-/

set_option autoImplicit false

namespace ApiLowering

open Ir.Finding (Plain ordinary_of_lead ordinary_of_message plain_of_kind plain_of_malformed)
open Report (Logic)

variable {logic : Logic}

theorem Extension.enumOverrides_holds (tolerant : logic.Tolerant) (extensions : Entries Json) :
    logic.Holds (fun _ => True) (enumOverrides extensions) := by
  unfold enumOverrides
  split
  · exact logic.holds_pure trivial
  · split
    · exact logic.holds_pure trivial
    · rw [String.append_assoc, String.append_assoc]
      exact tolerant.noted (plain_of_malformed (ordinary_of_lead rfl (by decide) _ _)) trivial

/-- What holds of the members of an enumeration: a value makes it nullable, is dropped, or brings a
member with a name that is not taken. -/
theorem Enumeration.members_holds (tolerant : logic.Tolerant)
    {good : List String → Bool × List Ir.EnumValue → Prop} (none : ∀ taken, good taken (false, []))
    (null : ∀ {taken more}, good taken more → good taken (true, more.2))
    (member : ∀ {taken more raw wire name} (description : Option String),
      NameVariants.derive? raw (some wire) = some name → name.screamingSnakeCase ∉ taken →
        good (name.screamingSnakeCase :: taken) more →
          good taken (more.1, ⟨name, wire, description⟩ :: more.2))
    (overrides : Entries Extension.EnumOverride) (taken : List String) (values : List Json) :
    logic.Holds (good taken) (members overrides taken values) := by
  induction values generalizing taken with
  | nil => exact logic.holds_pure (none taken)
  | cons value rest ih =>
    have dropped {kind : Ir.FindingKind} {message : String} (plain : Plain ⟨kind, [], message⟩) :
        logic.Holds (good taken) (do
          Report.find kind message
          members overrides taken rest) :=
      logic.holds_next (tolerant _ plain) fun _ _ => ih taken
    rw [members.eq_def]
    split
    · contradiction
    · rename_i same
      cases same
      exact logic.holds_next (ih _) fun more is => logic.holds_pure (null is)
    · rename_i same
      cases same
      split
      · exact dropped (plain_of_malformed (ordinary_of_lead rfl (by decide) _ _))
      · dsimp only
        split
        · exact dropped (plain_of_kind (by decide) (by decide) _ _)
        · rename_i name derived
          split
          · exact dropped (plain_of_kind (by decide) (by decide) _ _)
          · rename_i new
            have fresh := fun here => new (List.contains_iff_mem.mpr here)
            exact logic.holds_next (ih _) fun more is =>
              logic.holds_pure (member _ derived fresh is)

namespace SchemaLowering

open ApiLowering.Composition (Place Step Visits)
open SchemaNode (PartOf)

def Known (r : Resolver) (id : String) : Prop := ∃ node, Entries.get? id r.schemas = some node

def bounds? : Ir.PrimitiveType → Option Ir.NumberConstraints
  | .int bounds => some bounds
  | .int64 bounds => some bounds
  | .float bounds => some bounds
  | .double bounds => some bounds
  | _ => none

/-- What a logic has to say for it to hold of what is lowered: `inv` is known of the places, `noted` of
the references that are noted, and `good` of the schemas that are lowered. -/
structure Rules (logic : Logic) (r : Resolver) (inv : Place → Prop) (noted : String → Prop)
    (good : Ir.Schema → Prop) : Prop where
  tolerant : logic.Tolerant
  mark {id : String} (known : Known r id) : logic.Holds (fun _ => noted id) (Report.mark id)
  refused {path : List String} {s : Schema} {e : ResolveError} (place : inv (path, .inline s))
    (failed : (Composition.walkAll r path s).failure = some e) :
    logic.Holds good (Report.fail (.resolve e))
  unknown {info : Ir.Meta} (plain : info.optional = false) : good (.unknown info)
  reference {id : String} (is : noted id) : good (.reference Ir.Meta.blank id)
  primitive {path : List String} {s : Schema} {info : Ir.Meta} {value : Ir.PrimitiveType}
    (place : inv (path, .inline s)) (plain : info.optional = false)
    (own : ∀ bounds ∈ bounds? value, bounds = ⟨s.minimum, s.maximum⟩) :
    good (.primitive ⟨info, value⟩)
  enumeration {info : Ir.Meta} {overrides : Entries Extension.EnumOverride} {values : List Json}
    {nullable : Bool} {members : List Ir.EnumValue} (plain : info.optional = false)
    (made : (Enumeration.members overrides [] values).outcome = .ok (nullable, members)) :
    good (.enumeration ⟨none, info, members⟩)
  array {info : Ir.Meta} {items : Ir.Schema} (plain : info.optional = false) (is : good items) :
    good (.array info items)
  map {info : Ir.Meta} {value : Ir.Schema} (plain : info.optional = false) (is : good value) :
    good (.map info value)
  object {path : List String} {s : Schema} {info : Ir.Meta}
    {properties : List (Ir.Property Ir.Schema)} (additional : Bool) (place : inv (path, .inline s))
    (plain : info.optional = false) (listed : Listed good s.properties none properties) :
    good (.object ⟨none, info, properties, [], [], additional⟩)
  composed {m : Merged} {info : Ir.Meta} (plain : info.optional = false)
    (gathered : Gathered good m) (parents : ∀ id ∈ m.parents, noted id) : good (m.finish info)
  union {path : List String} {s : Schema} {u : Ir.UnionSchema Ir.Schema}
    (place : inv (path, .inline s)) (plain : u.info.optional = false) (nameless : u.name = none)
    (tagged : ∀ key ∈ u.discriminant, ∃ d, form s = .tagged d ∧
      (lowerTagged r path s d).outcome = .ok (.union u))
    (base : Listed good s.properties u.discriminant u.baseProperties)
    (variants : Variants good u.discriminant.isSome u.variants) : good (.union u)
  amend {s : Ir.Schema} (description : Option String) (nullable : Bool) (is : good s) :
    good (amend description nullable s)

/-- A set of places that the lowering does not leave. -/
structure Closed (r : Resolver) (inv : Place → Prop) : Prop where
  part {path : List String} {s : Schema} {node : SchemaNode} (place : inv (path, .inline s))
    (part : PartOf s node) : inv (path, node)
  declared {path reached : List String} {s t : Schema} {key : String} {node : SchemaNode}
    (place : inv (path, .inline s)) (visited : Visits r (path, .inline s) (reached, .inline t))
    (listed : (key, node) ∈ t.properties) : inv (reached, node)

variable {r : Resolver} {inv : Place → Prop} {noted : String → Prop} {good : Ir.Schema → Prop}
  {path : List String} {s : Schema}

section

variable {given : Schema → Prop} {node : SchemaNode}

theorem given_here (all : ∀ t ∈ (SchemaNode.inline s).inlineSchemas, given t) : given s := by
  refine all s ?_
  rw [SchemaNode.inlineSchemas]
  exact List.mem_cons_self

theorem given_part (all : ∀ t ∈ (SchemaNode.inline s).inlineSchemas, given t)
    (part : PartOf s node) : ∀ t ∈ node.inlineSchemas, given t := by
  intro t here
  refine all t (SchemaNode.part_inlineSchemas ?_ part here)
  rw [SchemaNode.inlineSchemas]
  exact List.mem_cons_self

theorem given_visits (components : ∀ e ∈ r.schemas, ∀ t ∈ e.2.inlineSchemas, given t)
    {place last : Place} (all : ∀ t ∈ place.2.inlineSchemas, given t)
    (visited : Visits r place last) : ∀ t ∈ last.2.inlineSchemas, given t := by
  induction visited with
  | here => exact all
  | component leads _ _ ih => exact ih (components _ (Resolver.lookup_mem leads))
  | member listed _ ih => exact ih (given_part all (.all listed))

-- The lowering does not leave the inline schemas that stand in its nodes and in the components.
theorem given_closed (components : ∀ e ∈ r.schemas, ∀ t ∈ e.2.inlineSchemas, given t) :
    Closed r fun place => ∀ t ∈ place.2.inlineSchemas, given t where
  part all part := given_part all part
  declared all visited listed :=
    given_part (given_visits components all visited) (.property listed)

end

-- The rules for a logic that says nothing about the schemas that are lowered.
theorem indifferent_rules (tolerant : logic.Tolerant)
    (mark : ∀ {id}, Known r id → logic.Holds (fun _ => True) (Report.mark id))
    (refused : ∀ {path s e}, inv (path, .inline s) →
      (Composition.walkAll r path s).failure = some e →
        logic.Holds (fun _ => True) (Report.fail (.resolve e) : Report Ir.Schema)) :
    Rules logic r inv (fun _ => True) (fun _ => True) where
  tolerant := tolerant
  mark := mark
  refused := refused
  unknown _ := trivial
  reference _ := trivial
  primitive _ _ _ := trivial
  enumeration _ _ := trivial
  array _ _ := trivial
  map _ _ := trivial
  object _ _ _ _ := trivial
  composed _ _ _ := trivial
  union _ _ _ _ _ _ := trivial
  amend _ _ _ := trivial

-- A label that fits where there is one.
def Labels (logic : Logic) (tagged : Bool) (label : SchemaNode → Report Label) : Prop :=
  ∀ member, logic.Holds (fun found => ∀ value ∈ found, Fits tagged value) (label member)

theorem discriminantLabel_holds (tolerant : logic.Tolerant) (value : String) :
    logic.Holds (fun found => ∀ label ∈ found, Fits true label) (discriminantLabel value) := by
  unfold discriminantLabel
  split
  · rename_i name derived
    refine logic.holds_some ⟨rfl, fun held same => ?_⟩
    cases same
    exact NameVariants.stands_of_plain derived
  · exact tolerant.missing (plain_of_kind (by decide) (by decide) _ _)

theorem taggedLabel_labels (tolerant : logic.Tolerant) (d : Discriminator) :
    Labels logic true (taggedLabel d) := by
  intro member
  unfold taggedLabel
  split
  · exact discriminantLabel_holds tolerant _
  · exact tolerant.missing (plain_of_kind (by decide) (by decide) _ _)

theorem plainLabel_labels : Labels logic false plainLabel := by
  intro member
  refine logic.holds_pure fun value here => ?_
  split at here
  · cases here
  · cases here
    exact ⟨rfl, fun _ none => nomatch none⟩

theorem taggedLabel_some {d : Discriminator} {member : SchemaNode} {value : Option NameVariants}
    (done : (taggedLabel d member).outcome = .ok (some value)) :
    ∃ text, discriminantValue? d member = some text ∧ text ≠ "" := by
  unfold taggedLabel at done
  cases told : discriminantValue? d member with
  | none =>
    rw [told] at done
    cases done
  | some text =>
    rw [told] at done
    refine ⟨text, rfl, fun empty => ?_⟩
    subst empty
    cases done

theorem plainLabel_some {member : SchemaNode} {value : Option NameVariants}
    (done : (plainLabel member).outcome = .ok (some value)) : member.isNullType = false := by
  by_cases null : member.isNullType = true
  · rw [plainLabel, if_pos null] at done
    cases done
  · exact Bool.eq_false_iff.mpr null

theorem lowerMembers_holds {tagged : Bool} {label : SchemaNode → Report Label}
    (labels : Labels logic tagged label) {members : List SchemaNode}
    (each : ∀ member ∈ members, ∀ value, (label member).outcome = .ok (some value) →
      logic.Holds good (lower r path member)) (keyword : String) (index : Nat) :
    logic.Holds (Variants good tagged) (lowerMembers r path keyword label index members) := by
  induction members generalizing index with
  | nil =>
    rw [lowerMembers]
    exact logic.holds_pure fun _ here => absurd here List.not_mem_nil
  | cons member rest ih =>
    rw [lowerMembers]
    refine logic.holds_oneMore (logic.holds_under _ ?_)
      (ih (fun other listed => each other (List.mem_cons_of_mem _ listed)) (index + 1))
    refine logic.holds_bind (labels member) fun found labelled fits => ?_
    cases found with
    | none => exact logic.holds_none
    | some value =>
      exact logic.holds_next (each member List.mem_cons_self value labelled) fun schema is =>
        logic.holds_some ⟨fits value rfl, is⟩

theorem lowerProperties_holds (tolerant : logic.Tolerant) {declared : List (String × SchemaNode)}
    {exclude : Option String} (each : ∀ e ∈ declared, exclude ≠ some e.1 → namedAfter e ≠ "" →
      logic.Holds good (lower r path e.2)) (required : List String) :
    logic.Holds (Listed good declared exclude) (lowerProperties r path required exclude declared) := by
  induction declared with
  | nil =>
    rw [lowerProperties]
    exact logic.holds_pure (listed_nil _ _)
  | cons e rest ih =>
    obtain ⟨key, node⟩ := e
    have later := ih fun other listed => each other (List.mem_cons_of_mem _ listed)
    rw [lowerProperties]
    by_cases excluded : exclude = some key
    · rw [if_pos excluded]
      exact logic.holds_mono later fun all listed =>
        ⟨listed.keys.cons key, listed.others, listed.names, listed.schemas⟩
    · rw [if_neg excluded]
      refine logic.holds_next (logic.holds_under _ (?_ : logic.Holds (fun
          (found : Option (Ir.Property Ir.Schema)) => ∀ p ∈ found, p.key = key ∧ p.name.Stands key ∧
            ∃ schema, good schema ∧ p.schema = schema.unlessRequired p.required) _)) fun found is => ?_
      · split
        · rename_i name derived
          have stands : name.Stands key := (NameVariants.derive_ok derived).2
          have named := namedAfter_some (d := (key, node)) derived
          exact logic.holds_next (each (key, node) List.mem_cons_self excluded named)
            fun schema is => logic.holds_some ⟨rfl, stands, schema, is, rfl⟩
        · exact tolerant.missing (plain_of_kind (by decide) (by decide) _ _)
      · refine logic.holds_next later fun more listed => logic.holds_pure ?_
        cases found with
        | none => exact ⟨listed.keys.cons key, listed.others, listed.names, listed.schemas⟩
        | some p =>
          obtain ⟨keyed, stands, schema⟩ := is p rfl
          refine ⟨?_, ?_, ?_, ?_⟩
          · simpa [Entries.keys, keyed] using listed.keys.cons_cons key
          · exact List.forall_mem_cons.mpr ⟨keyed ▸ excluded, listed.others⟩
          · exact List.forall_mem_cons.mpr ⟨keyed ▸ stands, listed.names⟩
          · exact List.forall_mem_cons.mpr ⟨schema, listed.schemas⟩

-- A type looks at some of the parts of a schema only.
structure PartsHold (logic : Logic) (good : Ir.Schema → Prop) (s : Schema) (parts : Parts)
    (type : SchemaType) : Prop where
  items : type = .array → logic.Holds good (parts.items ())
  additional : type = .object → s.properties = [] → logic.Holds good (parts.additional ())
  properties : type = .object → logic.Holds (Listed good s.properties none) (parts.properties ())

theorem unbounded_own {value : Ir.PrimitiveType} {bounds : Ir.NumberConstraints}
    (free : bounds? value = none) : ∀ found ∈ bounds? value, found = bounds := by
  intro found here
  rw [free] at here
  cases here

theorem bounded_own {value : Ir.PrimitiveType} {bounds : Ir.NumberConstraints}
    (bound : bounds? value = some bounds) : ∀ found ∈ bounds? value, found = bounds := by
  intro found here
  rw [bound] at here
  exact (Option.some.inj here).symm

theorem followed_known {id : String} {flag : Bool}
    (here : .follow id flag ∈ (Composition.walkAll r path s).steps) : Known r id := by
  rcases Composition.walkAll_stands here with
    ⟨_, -, _, target, node, -, leads, -⟩ | ⟨_, target, node, -, leads, -⟩
  · exact ⟨node, (lookup_found.mp leads).2⟩
  · exact ⟨node, (lookup_found.mp leads).2⟩

section

variable (rules : Rules logic r inv noted good)

include rules

theorem lowerReference_holds (target : String) : logic.Holds good (lowerReference r target) := by
  have dangling {kind : Ir.FindingKind} {message : String} (plain : Plain ⟨kind, [], message⟩) :
      logic.Holds good (do
        Report.find kind message
        return .unknown Ir.Meta.blank) :=
    rules.tolerant.noted plain (rules.unknown rfl)
  unfold lowerReference
  split
  · rename_i id node leads
    have known : Known r id := ⟨node, (lookup_found.mp leads).2⟩
    exact logic.holds_next (rules.mark known) fun _ is => logic.holds_pure (rules.reference is)
  · exact dangling (plain_of_kind (by decide) (by decide) _ _)
  · exact dangling (plain_of_kind (by decide) (by decide) _ _)

theorem mappedVariants_holds (covered : List String) (mapping : List (String × String)) :
    logic.Holds (Variants good true) (mappedVariants r covered mapping) := by
  induction mapping generalizing covered with
  | nil => exact logic.holds_pure fun _ here => absurd here List.not_mem_nil
  | cons e rest ih =>
    obtain ⟨value, name⟩ := e
    rw [mappedVariants]
    split
    · exact ih covered
    · refine logic.holds_oneMore (logic.holds_under _ ?_) (ih _)
      refine logic.holds_next (discriminantLabel_holds rules.tolerant value) fun label labels => ?_
      cases label with
      | none => exact logic.holds_none
      | some label =>
        exact logic.holds_next (lowerReference_holds rules _) fun schema is =>
          logic.holds_some ⟨labels label rfl, is⟩

theorem lowerObject_holds (place : inv (path, .inline s)) {parts : Parts}
    (hold : PartsHold logic good s parts .object) {info : Ir.Meta} (plain : info.optional = false) :
    logic.Holds good (lowerObject s parts info) := by
  unfold lowerObject
  split
  · rename_i bare
    split
    · exact logic.holds_pure (rules.object false place plain (listed_nil _ _))
    · exact logic.holds_next (hold.additional rfl (List.isEmpty_iff.mp bare)) fun value is =>
        logic.holds_pure (rules.map plain is)
  · exact logic.holds_next (hold.properties rfl) fun properties listed =>
      logic.holds_pure (rules.object _ place plain listed)

theorem lowerTyped_holds (place : inv (path, .inline s)) {parts : Parts} {type : SchemaType}
    (hold : PartsHold logic good s parts type) {info : Ir.Meta} (plain : info.optional = false) :
    logic.Holds good (lowerTyped s parts info type) := by
  cases type with
  | string =>
    refine logic.holds_pure (rules.primitive place plain (unbounded_own ?_))
    unfold stringType
    split <;> rfl
  | integer =>
    refine logic.holds_pure (rules.primitive place plain (bounded_own ?_))
    split <;> rfl
  | number =>
    refine logic.holds_pure (rules.primitive place plain (bounded_own ?_))
    split <;> rfl
  | boolean => exact logic.holds_pure (rules.primitive place plain (unbounded_own rfl))
  | array =>
    exact logic.holds_next (hold.items rfl) fun items is => logic.holds_pure (rules.array plain is)
  | object => exact lowerObject_holds rules place hold plain
  | null => exact logic.holds_pure (rules.unknown plain)
  | unsupported =>
    exact rules.tolerant.noted (plain_of_malformed (ordinary_of_message (by decide) _))
      (rules.unknown plain)

theorem lowerByType_holds (place : inv (path, .inline s)) {parts : Parts}
    (hold : ∀ type ∈ types s, PartsHold logic good s parts type) {info : Ir.Meta}
    (plain : info.optional = false) : logic.Holds good (lowerByType s parts info) := by
  have each {type : SchemaType} (listed : type ∈ types s) {info : Ir.Meta}
      (plain : info.optional = false) : logic.Holds good (lowerTyped s parts info type) :=
    lowerTyped_holds rules place (hold type listed) plain
  unfold types at each
  unfold lowerByType
  split
  · rename_i type single
    exact each (by simp [single]) plain
  · rename_i all multiple
    split
    · exact logic.holds_pure (rules.unknown plain)
    · rename_i type only
      have listed : type ∈ all.filter (· ≠ .null) := only ▸ List.mem_singleton_self type
      exact each (by simpa [multiple] using listed) plain
    · have typed (type : SchemaType) (listed : type ∈ all.filter (· ≠ .null)) :
          logic.Holds good (lowerTyped s parts Ir.Meta.blank type) :=
        each (by simpa [multiple] using listed) rfl
      refine logic.holds_next (logic.holds_forEach typed) fun variants are => logic.holds_pure ?_
      refine rules.union place plain rfl (fun _ tagged => nomatch tagged) (listed_nil _ _)
        fun v among => ?_
      obtain ⟨schema, listed, same⟩ := List.mem_map.mp among
      subst same
      exact ⟨⟨rfl, fun _ none => nomatch none⟩, are schema listed⟩
  · rename_i none
    by_cases object : s.isObjectLike = true
    · rw [if_pos object]
      exact lowerObject_holds rules place (hold .object (by simp [types, none, object])) plain
    · rw [if_neg object]
      by_cases array : s.items.isSome = true
      · rw [if_pos array]
        exact each (by simp [none, object, array]) plain
      · rw [if_neg array]
        exact logic.holds_pure (rules.unknown plain)

theorem partsOf_holds (typed : form s = .typed)
    (parts : ∀ node, Consults r s node → PartOf s node → logic.Holds good (lower r path node))
    (type : SchemaType) (listed : type ∈ types s) :
    PartsHold logic good s (partsOf r path s) type where
  items is := by
    unfold partsOf
    cases present : s.items with
    | none => exact logic.holds_pure (rules.unknown rfl)
    | some node =>
      exact logic.holds_under _
        (parts node (.items typed (is ▸ listed) present) (.items present))
  additional is bare := by
    unfold partsOf
    rcases present : s.additionalProperties with _ | allowed | node
    · exact logic.holds_pure (rules.unknown rfl)
    · exact logic.holds_pure (rules.unknown rfl)
    · exact logic.holds_under _
        (parts node (.value typed (is ▸ listed) bare present) (.additional present))
  properties is :=
    lowerProperties_holds rules.tolerant (fun e here _ named =>
      parts e.2 (.property typed (is ▸ listed) here named) (.property here)) _

theorem enumeration_holds (values : List Json) {info : Ir.Meta} (plain : info.optional = false) :
    logic.Holds good (Enumeration.lower s values info) := by
  refine logic.holds_next (Extension.enumOverrides_holds rules.tolerant _) fun overrides _ => ?_
  have members := @Enumeration.members_holds _ rules.tolerant (fun _ _ => True)
    (fun _ => trivial) (fun _ => trivial) (fun _ _ _ _ => trivial) overrides [] values
  refine logic.holds_bind members fun (nullable, members) made _ => ?_
  exact logic.holds_pure (rules.enumeration plain made)

theorem stepChange_holds {step : Step} (here : step ∈ (Composition.walkAll r path s).steps)
    (declared : ∀ reached t key node, Visits r (path, .inline s) (reached, .inline t) →
      (key, node) ∈ t.properties → namedAfter (key, node) ≠ "" →
        logic.Holds good (lower r reached node)) :
    logic.Holds (Change.Keeps fun m => Gathered good m ∧ ∀ id ∈ m.parents, noted id)
      (stepChange r step) := by
  cases step with
  | found finding => exact rules.tolerant.noted (Composition.walkAll_plain here) fun _ held => held
  | follow id flag =>
    refine logic.holds_next (rules.mark (followed_known here)) fun _ is => logic.holds_pure ?_
    rintro m ⟨gathered, parents⟩
    refine ⟨gathered_follow gathered id flag, fun other among => ?_⟩
    rcases follow_parents.mp among with before | ⟨-, same⟩
    · exact parents other before
    · exact same ▸ is
  | constrain required additional =>
    exact logic.holds_pure fun m ⟨gathered, parents⟩ =>
      ⟨⟨gathered.distinct, gathered.parents, gathered.names, gathered.properties,
        gathered.conflicts⟩, parents⟩
  | declare reached breadcrumbs key node =>
    obtain ⟨t, visited, listed⟩ := Composition.walkAll_declares here
    refine logic.holds_under _ ?_
    split
    · rename_i name derived
      have stands : name.Stands key := (NameVariants.derive_ok derived).2
      have named := namedAfter_some (d := (key, node)) derived
      refine logic.holds_next (declared reached t key node visited listed named) fun schema is =>
        logic.holds_pure ?_
      rintro m ⟨gathered, parents⟩
      have same : (m.declare key name schema).parents = m.parents := declare_parents
      exact ⟨gathered_declare gathered stands is, fun other among => parents other (same ▸ among)⟩
    · exact rules.tolerant.noted (plain_of_kind (by decide) (by decide) _ _) fun _ held => held

theorem lowerComposed_holds (place : inv (path, .inline s))
    (declared : ∀ reached t key node, Visits r (path, .inline s) (reached, .inline t) →
      (key, node) ∈ t.properties → namedAfter (key, node) ≠ "" →
        logic.Holds good (lower r reached node)) :
    logic.Holds good (lowerComposed r path s) := by
  refine logic.holds_next (logic.holds_forEach fun step here =>
    stepChange_holds rules here declared) fun changes keep => ?_
  split
  · rename_i e failed
    exact rules.refused place failed
  · have start : Gathered good Merged.empty ∧ ∀ id ∈ Merged.empty.parents, noted id :=
      ⟨gathered_empty, fun _ here => absurd here List.not_mem_nil⟩
    obtain ⟨gathered, parents⟩ := ofChanges_keeps start keep
    exact logic.holds_pure (rules.composed rfl gathered parents)

theorem lowerAmended_holds {member : SchemaNode} (inner : logic.Holds good (lower r path member))
    (keys : List String) (description : Option String) (nullable : Bool) :
    logic.Holds good (lowerAmended r path keys member description nullable) :=
  logic.holds_next (logic.holds_under keys inner) fun _ is =>
    logic.holds_pure (rules.amend description nullable is)

theorem lowerTagged_holds {d : Discriminator} (place : inv (path, .inline s))
    (shape : form s = .tagged d)
    (parts : ∀ node, Consults r s node → PartOf s node → logic.Holds good (lower r path node)) :
    logic.Holds good (lowerTagged r path s d) := by
  have members := lowerMembers_holds (taggedLabel_labels rules.tolerant d) (fun member listed value
    labelled => by
      obtain ⟨text, told, named⟩ := taggedLabel_some labelled
      exact parts member (.tagged shape listed told named) (unionMember_part listed))
    (unionMembers s).1 0
  have base : logic.Holds (Listed good s.properties (some d.propertyName))
      (lowerProperties r path s.required (some d.propertyName) s.properties) :=
    lowerProperties_holds rules.tolerant (fun e listed kept named =>
      parts e.2 (.base shape listed (fun same => kept (same ▸ rfl)) named) (.property listed)) _
  have union : logic.Holds (fun schema => ∃ u, schema = .union u ∧ u.info.optional = false ∧
      u.name = none ∧ Listed good s.properties u.discriminant u.baseProperties ∧
      Variants good u.discriminant.isSome u.variants) (lowerTagged r path s d) := by
    refine logic.holds_next members fun variants are => ?_
    refine logic.holds_next (mappedVariants_holds rules _ _) fun mapped areToo => ?_
    refine logic.holds_next base fun own listed => logic.holds_pure ⟨_, rfl, rfl, rfl, listed, ?_⟩
    intro v among
    rcases List.mem_append.mp among with member | further
    · exact are v member
    · exact areToo v further
  refine logic.holds_mono (logic.holds_outcome union) ?_
  rintro schema ⟨⟨u, rfl, plain, nameless, listed, variants⟩, done⟩
  exact rules.union place plain nameless (fun _ _ => ⟨d, shape, done⟩) listed variants

theorem lowerUnion_holds (place : inv (path, .inline s)) (shape : form s = .union)
    (parts : ∀ node, Consults r s node → PartOf s node → logic.Holds good (lower r path node)) :
    logic.Holds good (lowerUnion r path s) := by
  have members := lowerMembers_holds plainLabel_labels (fun member listed value labelled =>
    parts member (.variant shape listed (plainLabel_some labelled)) (unionMember_part listed))
    (unionMembers s).1 0
  have base : logic.Holds (Listed good s.properties none)
      (lowerProperties r path s.required none s.properties) :=
    lowerProperties_holds rules.tolerant (fun e listed _ named =>
      parts e.2 (.shared shape listed named) (.property listed)) _
  refine logic.holds_next members fun variants are => ?_
  refine logic.holds_next base fun own listed => logic.holds_pure ?_
  exact rules.union place rfl rfl (fun _ tagged => nomatch tagged) listed are

/-- What holds of the nodes that are lowered for an inline schema holds of its own lowering. -/
theorem lowerForm_holds (place : inv (path, .inline s))
    (parts : ∀ node, Consults r s node → PartOf s node → logic.Holds good (lower r path node))
    (declared : ∀ reached t key node, Consults r s node →
      Visits r (path, .inline s) (reached, .inline t) → (key, node) ∈ t.properties →
        logic.Holds good (lower r reached node)) :
    logic.Holds good (lowerForm r path s (form s)) := by
  cases shape : form s with
  | reduced index member =>
    have inner := parts member (.reduced shape) (.all (reduced_mem shape))
    exact lowerAmended_holds rules inner _ _ _
  | composed =>
    refine lowerComposed_holds rules place fun reached t key node visited listed named => ?_
    have led := Composition.leads_of_visits visited
    exact declared reached t key node (.declared shape led listed named) visited listed
  | tagged d => exact lowerTagged_holds rules place shape parts
  | collapsed index member =>
    have inner := parts member (.collapsed shape) (unionMember_part (collapsed_mem shape))
    exact lowerAmended_holds rules inner _ _ _
  | union => exact lowerUnion_holds rules place shape parts
  | enumeration values => exact enumeration_holds rules values rfl
  | typed => exact lowerByType_holds rules place (partsOf_holds rules shape parts) rfl

/-- A logic that follows the rules holds of every lowering that starts at a known place. -/
theorem lower_holds (closed : Closed r inv)
    (unknownKeys : ∀ s : Schema, logic.Holds (fun _ => True) (Extension.checkUnknown s.extensions))
    (path : List String) (node : SchemaNode) (place : inv (path, node)) :
    logic.Holds good (lower r path node) := by
  -- every place that the lowering comes to next is a known place again
  induction path, node using lower_induction r with
  | reference =>
    rw [lower]
    exact lowerReference_holds rules _
  | @inline path s parts declared =>
    rw [lower, lowerInline_eq]
    refine logic.holds_next (unknownKeys s) fun _ _ => lowerForm_holds rules place ?_ ?_
    · exact fun node _ part => parts node part (closed.part place part)
    · exact fun reached t key node _ visited listed =>
        declared reached t key node visited listed (closed.declared place visited listed)
  | invalid =>
    rw [lower]
    exact rules.tolerant.noted (plain_of_malformed (ordinary_of_lead rfl (by decide) _ _))
      (rules.unknown rfl)

end

/-- A lowering that starts at a known place fails in no other way than a walk that starts at one. -/
theorem lower_only {bad : LoweringError → Prop} (closed : Closed r inv)
    (refused : ∀ {path s e}, inv (path, .inline s) →
      (Composition.walkAll r path s).failure = some e → bad (.resolve e))
    (path : List String) (node : SchemaNode) (place : inv (path, node)) :
    Report.Only bad (lower r path node) := by
  have rules : Rules (Report.ensuring bad) r inv (fun _ => True) (fun _ => True) :=
    indifferent_rules (Logic.ensuring_blind bad).tolerant (fun _ => trivial) refused
  exact lower_holds rules closed (fun _ => trivial) path node place

-- A schema that may be missing, and is marked as optional unless it is required.
theorem lowerOption_holds (seated : Bool → Ir.Schema → Prop) (required : Bool)
    {node : Option SchemaNode} (each : ∀ n ∈ node, logic.Holds good (lower r path n))
    (missing : seated required (.unknown ⟨none, false, !required⟩))
    (placed : ∀ s, good s → seated required (s.unlessRequired required)) :
    logic.Holds (seated required) (lowerOption r path required node) := by
  cases node with
  | none => exact logic.holds_pure missing
  | some node => exact logic.holds_next (each node rfl) fun s is => logic.holds_pure (placed s is)

theorem lowerComponent_holds (tolerant : logic.Tolerant) {id : String} {node : SchemaNode}
    (refused : ∀ e, r.enter path (Pointer.ofSchema id) = .error e →
      logic.Holds good (Report.fail (.resolve e)))
    (lowered : ∀ deeper, r.enter path (Pointer.ofSchema id) = .ok deeper →
      logic.Holds good (lower r deeper node))
    (renamed : ∀ raw name s, NameVariants.derive? raw none = some name → good s →
      good (Ir.Schema.setName name s)) :
    logic.Holds good (lowerComponent r path id node) := by
  unfold lowerComponent
  cases entered : r.enter path (Pointer.ofSchema id) with
  | error e => exact refused e entered
  | ok deeper =>
    refine logic.holds_under _ (logic.holds_next (lowered deeper entered) fun s is => ?_)
    split
    · rename_i name derived
      exact logic.holds_pure (renamed _ name s derived is)
    · exact tolerant.noted (plain_of_kind (by decide) (by decide) _ _) is

end SchemaLowering

end ApiLowering
