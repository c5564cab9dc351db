import ApiLowering.Proofs.Objects

/-!
The references that are open decide whether a schema can be lowered, and nothing else: a node that is
lowered on two resolution paths comes out alike.
-/

set_option autoImplicit false

namespace ApiLowering

namespace Composition

-- A step without the path on which it was reached.
def Step.pathless : Step → Step
  | .declare _ breadcrumbs key node => .declare [] breadcrumbs key node
  | other => other

variable {r : Resolver}

theorem ownSteps_pathless (path other breadcrumbs : List String) (s : Schema) :
    (ownSteps path breadcrumbs s).map Step.pathless =
      (ownSteps other breadcrumbs s).map Step.pathless := by
  simp only [ownSteps, List.map_cons, List.map_map]
  rfl

theorem walkMembers_alike {path other breadcrumbs : List String} {direct : Bool} {index : Nat}
    {members : List SchemaNode}
    (each : ∀ member ∈ members, ∀ keys, (walk r path keys direct member).failure = none →
      (walk r other keys direct member).failure = none →
      (walk r path keys direct member).steps.map Step.pathless =
        (walk r other keys direct member).steps.map Step.pathless)
    (done : (walkMembers r path breadcrumbs direct index members).failure = none)
    (also : (walkMembers r other breadcrumbs direct index members).failure = none) :
    (walkMembers r path breadcrumbs direct index members).steps.map Step.pathless =
      (walkMembers r other breadcrumbs direct index members).steps.map Step.pathless := by
  induction members generalizing index with
  | nil => rw [walkMembers, walkMembers]
  | cons member rest ih =>
    rw [walkMembers] at done also ⊢
    rw [walkMembers]
    obtain ⟨first, later, steps⟩ := next_done done
    obtain ⟨firstToo, laterToo, others⟩ := next_done also
    rw [steps, others, List.map_append, List.map_append,
      each member List.mem_cons_self _ first firstToo,
      ih (fun node listed => each node (List.mem_cons_of_mem _ listed)) later laterToo]

theorem walk_alike (r : Resolver) (path other breadcrumbs : List String) (direct : Bool)
    (node : SchemaNode) (done : (walk r path breadcrumbs direct node).failure = none)
    (also : (walk r other breadcrumbs direct node).failure = none) :
    (walk r path breadcrumbs direct node).steps.map Step.pathless =
      (walk r other breadcrumbs direct node).steps.map Step.pathless := by
  induction path, node using walk_induction r generalizing other breadcrumbs direct with
  | @opened path deeper target id component leads entered ih =>
    cases opened : r.enter other (Pointer.ofSchema id) with
    | error e =>
      rw [walk_refused leads opened] at also
      cases also
    | ok further =>
      rw [walk_entered leads entered] at done ⊢
      rw [walk_entered leads opened] at also ⊢
      obtain ⟨-, done, steps⟩ := next_done done
      obtain ⟨-, also, others⟩ := next_done also
      rw [steps, others, List.map_append, List.map_append, ih further breadcrumbs false done also]
  | refused leads entered =>
    rw [walk_refused leads entered] at done
    cases done
  | missing leads => rw [walk_missing leads, walk_missing leads]
  | unsupported leads => rw [walk_unsupported leads, walk_unsupported leads]
  | @inline path s ih =>
    rw [walk] at done also ⊢
    rw [walk]
    obtain ⟨-, done, outer⟩ := next_done done
    obtain ⟨nested, -, inner⟩ := next_done done
    obtain ⟨-, also, outerToo⟩ := next_done also
    obtain ⟨nestedToo, -, innerToo⟩ := next_done also
    have members := walkMembers_alike
      (fun member listed keys => ih member listed other keys false) nested nestedToo
    rw [outer, inner, outerToo, innerToo]
    simp only [List.map_append]
    rw [members, ownSteps_pathless path other]
  | invalid => rw [walk, walk]

theorem walkAll_alike {path other : List String} {s : Schema}
    (done : (walkAll r path s).failure = none) (also : (walkAll r other s).failure = none) :
    (walkAll r path s).steps.map Step.pathless = (walkAll r other s).steps.map Step.pathless := by
  obtain ⟨nested, -, steps⟩ := next_done done
  obtain ⟨nestedToo, -, others⟩ := next_done also
  rw [walkAll, walkAll, steps, others, List.map_append, List.map_append,
    walkMembers_alike (fun member _ keys => walk_alike r path other keys true member) nested
      nestedToo]
  exact congrArg _ (ownSteps_pathless path other [] s)

end Composition

namespace SchemaLowering

open ApiLowering.Composition (Step Visits)
open Report (Agree)
open SchemaNode (PartOf)

structure PartsAgree (a b : Parts) : Prop where
  items : Agree (a.items ()) (b.items ())
  additional : Agree (a.additional ()) (b.additional ())
  properties : Agree (a.properties ()) (b.properties ())

theorem lowerObject_agree {a b : Parts} (same : PartsAgree a b) (s : Schema) (info : Ir.Meta) :
    Agree (lowerObject s a info) (lowerObject s b info) := by
  unfold lowerObject
  split
  · split
    · exact Report.agree_refl _
    · exact Report.agree_bind same.additional fun _ => Report.agree_refl _
  · exact Report.agree_bind same.properties fun _ => Report.agree_refl _

theorem lowerTyped_agree {a b : Parts} (same : PartsAgree a b) (s : Schema) (info : Ir.Meta)
    (type : SchemaType) : Agree (lowerTyped s a info type) (lowerTyped s b info type) := by
  cases type with
  | array => exact Report.agree_bind same.items fun _ => Report.agree_refl _
  | object => exact lowerObject_agree same s info
  | string | integer | number | boolean | null | unsupported => exact Report.agree_refl _

theorem lowerByType_agree {a b : Parts} (same : PartsAgree a b) (s : Schema) (info : Ir.Meta) :
    Agree (lowerByType s a info) (lowerByType s b info) := by
  unfold lowerByType
  split
  · exact lowerTyped_agree same s info _
  · split
    · exact Report.agree_refl _
    · exact lowerTyped_agree same s info _
    · refine Report.agree_bind (Report.forEach_agree id rfl fun type _ other _ equal => ?_)
        fun _ => Report.agree_refl _
      cases equal
      exact lowerTyped_agree same s _ type
  · split
    · exact lowerObject_agree same s info
    · split
      · exact lowerTyped_agree same s info _
      · exact Report.agree_refl _

theorem stepChange_agree {r : Resolver} {a b : Step} (same : a.pathless = b.pathless)
    (declared : ∀ reached keys other more key node, a = .declare reached keys key node →
      b = .declare other more key node → Agree (lower r reached node) (lower r other node)) :
    Agree (stepChange r a) (stepChange r b) := by
  cases a <;> cases b <;> cases same
  case declare.declare.refl reached breadcrumbs key node other =>
    refine Report.agree_under _ ?_
    split
    · exact Report.agree_bind (declared _ _ _ _ _ _ rfl rfl) fun _ => Report.agree_refl _
    · exact Report.agree_refl _
  all_goals exact Report.agree_refl _

section

variable {r : Resolver} {path other : List String} {s : Schema}

theorem lowerComposed_agree
    (declared : ∀ reached t key node, Visits r (path, .inline s) (reached, .inline t) →
      (key, node) ∈ t.properties → ∀ more, Agree (lower r reached node) (lower r more node)) :
    Agree (lowerComposed r path s) (lowerComposed r other s) := by
  -- both walks end, so they take the same steps and declare the same nodes
  intro x y first second
  obtain ⟨changes, made, done⟩ := Report.bind_ok first
  obtain ⟨others, madeToo, also⟩ := Report.bind_ok second
  cases ended : (Composition.walkAll r path s).failure with
  | some e =>
    rw [ended] at done
    cases done
  | none =>
    cases endedToo : (Composition.walkAll r other s).failure with
    | some e =>
      rw [endedToo] at also
      cases also
    | none =>
      have same := Report.forEach_agree Step.pathless (Composition.walkAll_alike ended endedToo)
        fun a here b _ alike => stepChange_agree alike
          fun reached keys more others key node first _ => by
            subst first
            obtain ⟨t, visited, listed⟩ := Composition.walkAll_declares here
            exact declared reached t key node visited listed more
      simp only [lowerComposed, ended, endedToo] at first second ⊢
      exact Report.agree_bind same (fun _ => Report.agree_refl _) x y first second

theorem lowerAmended_agree {keys : List String} {member : SchemaNode}
    {description : Option String} {nullable : Bool}
    (inner : Agree (lower r path member) (lower r other member)) :
    Agree (lowerAmended r path keys member description nullable)
      (lowerAmended r other keys member description nullable) :=
  Report.agree_bind (Report.agree_under keys inner) fun _ => Report.agree_refl _

theorem lowerTagged_agree
    (members : ∀ label, Agree (lowerMembers r path (unionMembers s).1 label 0 (unionMembers s).2)
      (lowerMembers r other (unionMembers s).1 label 0 (unionMembers s).2))
    (base : ∀ exclude, Agree (lowerProperties r path s.required exclude s.properties)
      (lowerProperties r other s.required exclude s.properties)) (d : Discriminator) :
    Agree (lowerTagged r path s d) (lowerTagged r other s d) := by
  refine Report.agree_bind (members (taggedLabel d)) fun _ => ?_
  refine Report.agree_bind (Report.agree_refl _) fun _ => ?_
  exact Report.agree_bind (base _) fun _ => Report.agree_refl _

theorem lowerUnion_agree
    (members : ∀ label, Agree (lowerMembers r path (unionMembers s).1 label 0 (unionMembers s).2)
      (lowerMembers r other (unionMembers s).1 label 0 (unionMembers s).2))
    (base : ∀ exclude, Agree (lowerProperties r path s.required exclude s.properties)
      (lowerProperties r other s.required exclude s.properties)) :
    Agree (lowerUnion r path s) (lowerUnion r other s) := by
  refine Report.agree_bind (members plainLabel) fun _ => ?_
  exact Report.agree_bind (base none) fun _ => Report.agree_refl _

theorem partsOf_agree
    (items : ∀ node, s.items = some node → Agree (lower r path node) (lower r other node))
    (additional : ∀ node, s.additionalProperties = some (.schema node) →
      Agree (lower r path node) (lower r other node))
    (base : ∀ exclude, Agree (lowerProperties r path s.required exclude s.properties)
      (lowerProperties r other s.required exclude s.properties)) :
    PartsAgree (partsOf r path s) (partsOf r other s) := by
  refine ⟨?_, ?_, base none⟩
  · unfold partsOf
    cases present : s.items with
    | none => exact Report.agree_refl _
    | some node => exact Report.agree_under _ (items node present)
  · unfold partsOf
    cases present : s.additionalProperties with
    | none => exact Report.agree_refl _
    | some more =>
      cases more with
      | allowed value => exact Report.agree_refl _
      | schema node => exact Report.agree_under _ (additional node present)

end

theorem lowerMembers_agree {r : Resolver} {path other : List String} {members : List SchemaNode}
    (each : ∀ member ∈ members, Agree (lower r path member) (lower r other member))
    (keyword : String) (label : SchemaNode → Report Label) (index : Nat) :
    Agree (lowerMembers r path keyword label index members)
      (lowerMembers r other keyword label index members) := by
  induction members generalizing index with
  | nil =>
    rw [lowerMembers, lowerMembers]
    exact Report.agree_refl _
  | cons member rest ih =>
    rw [lowerMembers, lowerMembers]
    refine Report.agree_bind (Report.agree_under _ ?_) fun _ => ?_
    · refine Report.agree_bind (Report.agree_refl _) fun found => ?_
      cases found with
      | none => exact Report.agree_refl _
      | some value =>
        exact Report.agree_bind (each member List.mem_cons_self) fun _ => Report.agree_refl _
    · have later := ih (fun node listed => each node (List.mem_cons_of_mem _ listed)) (index + 1)
      exact Report.agree_bind later fun _ => Report.agree_refl _

theorem lowerProperties_agree {r : Resolver} {path other : List String}
    {properties : List (String × SchemaNode)}
    (each : ∀ key node, (key, node) ∈ properties → Agree (lower r path node) (lower r other node))
    (required : List String) (exclude : Option String) :
    Agree (lowerProperties r path required exclude properties)
      (lowerProperties r other required exclude properties) := by
  induction properties with
  | nil =>
    rw [lowerProperties, lowerProperties]
    exact Report.agree_refl _
  | cons e rest ih =>
    obtain ⟨key, node⟩ := e
    rw [lowerProperties, lowerProperties]
    have later := ih fun key node listed => each key node (List.mem_cons_of_mem _ listed)
    split
    · exact later
    · refine Report.agree_bind (Report.agree_under _ ?_) fun _ => ?_
      · split
        · exact Report.agree_bind (each key node List.mem_cons_self) fun _ => Report.agree_refl _
        · exact Report.agree_refl _
      · exact Report.agree_bind later fun _ => Report.agree_refl _

theorem lowerInline_agree {r : Resolver} {path other : List String} {s : Schema}
    (parts : ∀ node, PartOf s node → Agree (lower r path node) (lower r other node))
    (declared : ∀ reached t key node, Visits r (path, .inline s) (reached, .inline t) →
      (key, node) ∈ t.properties → ∀ more, Agree (lower r reached node) (lower r more node)) :
    Agree (lowerInline r path s) (lowerInline r other s) := by
  rw [lowerInline_eq, lowerInline_eq]
  refine Report.agree_bind (Report.agree_refl _) fun _ => ?_
  have base (exclude : Option String) :
      Agree (lowerProperties r path s.required exclude s.properties)
        (lowerProperties r other s.required exclude s.properties) :=
    lowerProperties_agree (fun _ node listed => parts node (.property listed)) _ _
  have members (label : SchemaNode → Report Label) :
      Agree (lowerMembers r path (unionMembers s).1 label 0 (unionMembers s).2)
        (lowerMembers r other (unionMembers s).1 label 0 (unionMembers s).2) :=
    lowerMembers_agree (fun node listed => parts node (unionMember_part listed)) _ _ _
  cases shape : form s with
  | reduced index member => exact lowerAmended_agree (parts member (.all (reduced_mem shape)))
  | composed => exact lowerComposed_agree declared
  | tagged d => exact lowerTagged_agree members base d
  | collapsed index member =>
    exact lowerAmended_agree (parts member (unionMember_part (collapsed_mem shape)))
  | union => exact lowerUnion_agree members base
  | enumeration values => exact Report.agree_refl _
  | typed =>
    refine lowerByType_agree (partsOf_agree ?_ ?_ base) s _
    · exact fun node present => parts node (.items present)
    · exact fun node present => parts node (.additional present)

theorem lower_agree (r : Resolver) (path other : List String) (node : SchemaNode) :
    Agree (lower r path node) (lower r other node) := by
  -- measured on the first path; where the second one leads does not matter
  induction path, node using lower_induction r generalizing other with
  | reference =>
    rw [lower, lower]
    exact Report.agree_refl _
  | inline parts declared =>
    rw [lower, lower]
    exact lowerInline_agree (fun node part => parts node part other) declared
  | invalid =>
    rw [lower, lower]
    exact Report.agree_refl _

theorem lower_unique {r : Resolver} {path other : List String} {node : SchemaNode}
    {schema again : Ir.Schema} (done : (lower r path node).outcome = .ok schema)
    (also : (lower r other node).outcome = .ok again) : schema = again := by
  rw [lower_agree r path other node schema again done also] at done
  exact Except.ok.inj (done.symm.trans also)

end SchemaLowering

end ApiLowering
