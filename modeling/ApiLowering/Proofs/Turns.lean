import ApiLowering.Proofs.Recursion

/-!
Single turns of walks and lowerings. A turn does what happens at one place and leaves the places that
it calls for to whatever it is given; a walk or lowering is a turn that is given itself. What a turn
comes to depends on the called places alone.
-/

set_option autoImplicit false

namespace ApiLowering

open Relation (ReflTransGen TransGen)

namespace Composition

abbrev Walker : Type := List String → List String → Bool → SchemaNode → Trail

def membersTurn (further : List String → Bool → SchemaNode → Trail) (breadcrumbs : List String)
    (direct : Bool) : Nat → List SchemaNode → Trail
  | _, [] => .empty
  | index, member :: rest =>
    (further (breadcrumbs ++ ["allOf", toString index]) direct member).next fun _ =>
      membersTurn further breadcrumbs direct (index + 1) rest

def walkTurn (r : Resolver) (further : Walker) (path breadcrumbs : List String) (direct : Bool) :
    SchemaNode → Trail
  | .reference target =>
    match r.lookupSchema target with
    | .found id component =>
      match r.enter path (Pointer.ofSchema id) with
      | .error e => ⟨[.follow id direct], some e⟩
      | .ok deeper =>
        (Trail.one (.follow id direct)).next fun _ => further deeper breadcrumbs false component
    | .missing id =>
      .one (.found ⟨.danglingReference, breadcrumbs,
        "allOf member " ++ target ++ " points at missing schema " ++ id⟩)
    | .unsupported =>
      .one (.found ⟨.unsupportedReference, breadcrumbs,
        "allOf member " ++ target ++ " does not point into components.schemas"⟩)
  | .inline s =>
    (Trail.mk (shapeSteps breadcrumbs s) none).next fun _ =>
      (membersTurn (further path) breadcrumbs false 0 s.allOf).next fun _ =>
        ⟨ownSteps path breadcrumbs s, none⟩
  | .invalid value =>
    .one (.found ⟨.malformedNode, breadcrumbs,
      "allOf member is " ++ value.kind ++ ", not a schema"⟩)

def walkAllTurn (further : Walker) (path : List String) (s : Schema) : Trail :=
  (membersTurn (further path) [] true 0 s.allOf).next fun _ => ⟨ownSteps path [] s, none⟩

-- A walker that goes from a place as the walk does.
def Walks (r : Resolver) (further : Walker) (place : Place) : Prop :=
  ∀ breadcrumbs direct, further place.1 breadcrumbs direct place.2 =
    walk r place.1 breadcrumbs direct place.2

section

variable {r : Resolver} {further : Walker} {path : List String} {s : Schema}

theorem membersTurn_walk {members : List SchemaNode}
    (walks : ∀ member ∈ members, Walks r further (path, member)) (breadcrumbs : List String)
    (direct : Bool) (index : Nat) :
    membersTurn (further path) breadcrumbs direct index members =
      walkMembers r path breadcrumbs direct index members := by
  induction members generalizing index with
  | nil =>
    rw [walkMembers]
    rfl
  | cons member rest ih =>
    rw [walkMembers, membersTurn, walks member List.mem_cons_self,
      ih fun other listed => walks other (List.mem_cons_of_mem _ listed)]

theorem walkTurn_walk {node : SchemaNode}
    (walks : ∀ q, SchemaLowering.Calls r (path, node) q → Walks r further q)
    (breadcrumbs : List String) (direct : Bool) :
    walkTurn r further path breadcrumbs direct node = walk r path breadcrumbs direct node := by
  match node with
  | .reference target =>
    rw [walkTurn]
    cases leads : r.lookupSchema target with
    | found id component =>
      cases entered : r.enter path (Pointer.ofSchema id) with
      | error e =>
        rw [walk_refused leads entered]
        simp only [entered]
      | ok deeper =>
        have called : further deeper breadcrumbs false component =
            walk r deeper breadcrumbs false component :=
          walks _ (.component leads entered) breadcrumbs false
        rw [walk_entered leads entered, ← called]
        simp only [entered]
    | missing id => rw [walk_missing leads]
    | unsupported => rw [walk_unsupported leads]
  | .inline s =>
    rw [walk, walkTurn,
      membersTurn_walk fun member listed => walks _ (.part (.all listed))]
  | .invalid value => rw [walk, walkTurn]

theorem walkAllTurn_walk
    (walks : ∀ q, SchemaLowering.Calls r (path, .inline s) q → Walks r further q) :
    walkAllTurn further path s = walkAll r path s := by
  rw [walkAllTurn, walkAll, membersTurn_walk fun member listed => walks _ (.part (.all listed))]

end

end Composition

namespace SchemaLowering

open ApiLowering.Composition (Place Step Trail Walker Walks)
open SchemaNode (PartOf)

abbrev Lowerer : Type := List String → SchemaNode → Report Ir.Schema

section

variable (further : SchemaNode → Report Ir.Schema) (s : Schema)

def membersTurn (keyword : String) (label : SchemaNode → Report Label) :
    Nat → List SchemaNode → Report (List (Ir.Variant Ir.Schema))
  | _, [] => .ok []
  | index, member :: rest => do
    let variant ← (do
      match ← label member with
      | some value =>
        let schema ← further member
        return some ⟨value, schema⟩
      | none => return none : Report (Option (Ir.Variant Ir.Schema))).under
        [keyword, toString index]
    let more ← membersTurn keyword label (index + 1) rest
    return variant.toList ++ more

def propertyTurn (required : List String) (key : String) (node : SchemaNode) :
    Report (Option (Ir.Property Ir.Schema)) :=
  (match propertyName? key node with
    | some name => do
      let schema ← further node
      let required := required.contains key
      return some ⟨key, name, schema.unlessRequired required, required⟩
    | none => do
      Report.find .invalidIdentifier "property key is empty"
      return none : Report (Option (Ir.Property Ir.Schema))).under [key]

def propertiesTurn (required : List String) (exclude : Option String) :
    List (String × SchemaNode) → Report (List (Ir.Property Ir.Schema))
  | [] => .ok []
  | (key, node) :: rest =>
    if exclude = some key then propertiesTurn required exclude rest
    else do
      let property ← propertyTurn further required key node
      let more ← propertiesTurn required exclude rest
      return property.toList ++ more

def partsTurn : Parts where
  items _ :=
    match s.items with
    | some node => (further node).under ["items"]
    | none => unknown Ir.Meta.blank
  additional _ :=
    match s.additionalProperties with
    | some (.schema node) => (further node).under ["additionalProperties"]
    | _ => unknown Ir.Meta.blank
  properties _ := propertiesTurn further s.required none s.properties

def amendedTurn (keys : List String) (member : SchemaNode) (description : Option String)
    (nullable : Bool) : Report Ir.Schema := do
  let inner ← (further member).under keys
  return amend description nullable inner

end

section

variable (r : Resolver) (walker : Walker) (further : Lowerer) (path : List String) (s : Schema)

def stepTurn (step : Step) : Report Change :=
  changeOf step fun {reached _ _ node} _ => further reached node

def composedTurn (trail : Trail) : Report Ir.Schema := do
  let changes ← Report.forEach (stepTurn further) trail.steps
  match trail.failure with
  | some e => Report.fail (.resolve e)
  | none => return (Merged.ofChanges changes).finish (ownInfo s)

def formTurn : Form → Report Ir.Schema
  | .reduced index member =>
    amendedTurn (further path) ["allOf", toString index] member
      (annotate (ownInfo s) s.allOf).1 (annotate (ownInfo s) s.allOf).2
  | .composed => composedTurn further s (Composition.walkAllTurn walker path s)
  | .tagged d => do
    let variants ←
      membersTurn (further path) (unionMembers s).1 (taggedLabel d) 0 (unionMembers s).2
    let mapped ← mappedVariants r ((unionMembers s).2.filterMap SchemaNode.target?) d.mapping
    let base ← propertiesTurn (further path) s.required (some d.propertyName) s.properties
    return .union ⟨none, ownInfo s, some d.propertyName, base, variants ++ mapped⟩
  | .collapsed index member =>
    amendedTurn (further path) [(unionMembers s).1, toString index] member
      (ownInfo s).description (unionNullable s)
  | .union => do
    let variants ← membersTurn (further path) (unionMembers s).1 plainLabel 0 (unionMembers s).2
    let base ← propertiesTurn (further path) s.required none s.properties
    return .union ⟨none, { ownInfo s with nullable := unionNullable s }, none, base, variants⟩
  | .enumeration values => Enumeration.lower s values (ownInfo s)
  | .typed => lowerByType s (partsTurn (further path) s) (ownInfo s)

def lowerTurn : SchemaNode → Report Ir.Schema
  | .reference target => lowerReference r target
  | .inline s => do
    Extension.checkUnknown s.extensions
    formTurn r walker further path s (form s)
  | .invalid value => do
    Report.find .malformedNode ("expected a schema object, found " ++ value.kind)
    return .unknown Ir.Meta.blank

def componentTurn (id : String) (node : SchemaNode) : Report Ir.Schema :=
  match r.enter path (Pointer.ofSchema id) with
  | .error e => .fail (.resolve e)
  | .ok deeper =>
    (do
      let schema ← further deeper node
      match NameVariants.derive? (componentTitle id node) none with
      | some name => return schema.setName name
      | none => do
        Report.find .invalidIdentifier LoweringError.emptyNameMessage
        return schema : Report Ir.Schema).under [id]

end

variable {r : Resolver} {walker : Walker} {further : Lowerer} {path : List String} {s : Schema}
  {node : SchemaNode}

def Lowers (r : Resolver) (further : Lowerer) (place : Place) : Prop :=
  further place.1 place.2 = lower r place.1 place.2

theorem membersTurn_lower {members : List SchemaNode}
    (lowers : ∀ member ∈ members, Lowers r further (path, member)) (keyword : String)
    (label : SchemaNode → Report Label) (index : Nat) :
    membersTurn (further path) keyword label index members =
      lowerMembers r path keyword label index members := by
  induction members generalizing index with
  | nil =>
    rw [lowerMembers]
    rfl
  | cons member rest ih =>
    have first : further path member = lower r path member := lowers member List.mem_cons_self
    rewrite [lowerMembers, membersTurn, first,
      ih fun other listed => lowers other (List.mem_cons_of_mem _ listed)]
    rfl

theorem propertiesTurn_lower {properties : List (String × SchemaNode)}
    (lowers : ∀ e ∈ properties, Lowers r further (path, e.2)) (required : List String)
    (exclude : Option String) :
    propertiesTurn (further path) required exclude properties =
      lowerProperties r path required exclude properties := by
  induction properties with
  | nil =>
    rw [lowerProperties]
    rfl
  | cons e rest ih =>
    obtain ⟨key, node⟩ := e
    have first : further path node = lower r path node := lowers _ List.mem_cons_self
    rewrite [lowerProperties, propertiesTurn, propertyTurn, first,
      ih fun other listed => lowers other (List.mem_cons_of_mem _ listed)]
    rfl

theorem partsTurn_lower (lowers : ∀ node, PartOf s node → Lowers r further (path, node)) :
    partsTurn (further path) s = partsOf r path s := by
  have properties : propertiesTurn (further path) s.required none s.properties =
      lowerProperties r path s.required none s.properties :=
    propertiesTurn_lower (fun e listed => lowers e.2 (.property listed)) s.required none
  simp only [partsTurn, partsOf, properties, Parts.mk.injEq, and_true]
  constructor
  · funext _
    cases present : s.items with
    | none => rfl
    | some node =>
      have called : further path node = lower r path node := lowers node (.items present)
      simp only [called]
  · funext _
    rcases present : s.additionalProperties with _ | allowed | node
    · rfl
    · rfl
    · have called : further path node = lower r path node := lowers node (.additional present)
      simp only [called]

theorem amendedTurn_lower (lowers : Lowers r further (path, node)) (keys : List String)
    (description : Option String) (nullable : Bool) :
    amendedTurn (further path) keys node description nullable =
      lowerAmended r path keys node description nullable := by
  have called : further path node = lower r path node := lowers
  rw [amendedTurn, lowerAmended, called]

theorem stepTurn_lower {step : Step} (lowers : ∀ reached breadcrumbs key node,
      step = .declare reached breadcrumbs key node → Lowers r further (reached, node)) :
    stepTurn further step = stepChange r step := by
  cases step with
  | declare reached breadcrumbs key node =>
    have called : further reached node = lower r reached node :=
      lowers reached breadcrumbs key node rfl
    simp only [stepTurn, stepChange, changeOf, called]
  | found _ | follow _ _ | constrain _ _ => rfl

theorem composedTurn_lower (lowers : ∀ reached breadcrumbs key node,
      .declare reached breadcrumbs key node ∈ (Composition.walkAll r path s).steps →
        Lowers r further (reached, node)) :
    composedTurn further s (Composition.walkAll r path s) = lowerComposed r path s := by
  have steps : Report.forEach (stepTurn further) (Composition.walkAll r path s).steps =
      Report.forEach (stepChange r) (Composition.walkAll r path s).steps := by
    refine Report.forEach_congr fun step here => stepTurn_lower fun reached keys key node same => ?_
    subst same
    exact lowers reached keys key node here
  rewrite [composedTurn, lowerComposed, steps]
  rfl

/-- A turn that is given the walk and the lowering at the called places is the lowering. -/
theorem lowerTurn_lower
    (walks : ∀ q, TransGen (Calls r) (path, node) q → Walks r walker q)
    (lowers : ∀ q, TransGen (Calls r) (path, node) q → Lowers r further q) :
    lowerTurn r walker further path node = lower r path node := by
  match node with
  | .reference target => rw [lower, lowerTurn]
  | .invalid value => rw [lower, lowerTurn]
  | .inline s =>
    have parts : ∀ node, PartOf s node → Lowers r further (path, node) :=
      fun node part => lowers _ (.single (.part part))
    have members := membersTurn_lower fun member listed => parts member (unionMember_part listed)
    have properties := propertiesTurn_lower fun e listed => parts e.2 (.property listed)
    rw [lower, lowerInline_eq, lowerTurn]
    congr 1
    funext _
    cases shape : form s with
    | reduced index member =>
      exact amendedTurn_lower (parts member (.all (reduced_mem shape))) _ _ _
    | composed =>
      rw [formTurn, Composition.walkAllTurn_walk fun q call => walks q (.single call)]
      refine composedTurn_lower fun reached keys key node here => lowers _ ?_
      obtain ⟨t, visited, listed⟩ := Composition.walkAll_declares here
      exact calls_declared visited listed
    | tagged d => rw [formTurn, lowerForm, lowerTagged, members, properties]
    | collapsed index member =>
      exact amendedTurn_lower (parts member (unionMember_part (collapsed_mem shape))) _ _ _
    | union => rw [formTurn, lowerForm, lowerUnion, members, properties]
    | enumeration values => rfl
    | typed => rw [formTurn, lowerForm, partsTurn_lower parts]

theorem lower_turn (r : Resolver) (path : List String) (node : SchemaNode) :
    lowerTurn r (Composition.walk r) (lower r) path node = lower r path node :=
  lowerTurn_lower (fun _ _ _ _ => rfl) fun _ _ => rfl

theorem componentTurn_lower {id : String}
    (lowers : ∀ deeper, r.enter path (Pointer.ofSchema id) = .ok deeper →
      Lowers r further (deeper, node)) :
    componentTurn r further path id node = lowerComponent r path id node := by
  rw [componentTurn, lowerComponent]
  cases entered : r.enter path (Pointer.ofSchema id) with
  | error e => rfl
  | ok deeper =>
    have called : further deeper node = lower r deeper node := lowers deeper entered
    dsimp only
    rewrite [called]
    rfl

end SchemaLowering

end ApiLowering
