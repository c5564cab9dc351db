import ApiLowering.Proofs.Objects

/-!
Merging. Every step of a walk does to a composition what its kind says, nothing of it is undone by a
later step, and so the finished object holds what each step of the walk brought.
-/

set_option autoImplicit false

namespace ApiLowering.SchemaLowering

open ApiLowering.Composition (Step Visits)

-- The change that a step makes when it succeeds.
def Effect (r : Resolver) (change : Change) : Step → Prop
  | .found _ => change = id
  | .follow id direct => change = fun m => m.follow id direct
  | .constrain required additional => change = fun m => m.constrain required additional
  | .declare reached _ key node =>
    (propertyName? key node = none ∧ change = id) ∨
      ∃ name schema, propertyName? key node = some name ∧
        (lower r reached node).outcome = .ok schema ∧ change = fun m => m.declare key name schema

theorem stepChange_effect {r : Resolver} {step : Step} {change : Change}
    (made : (stepChange r step).outcome = .ok change) : Effect r change step := by
  cases step with
  | found finding => exact (Except.ok.inj made).symm
  | follow id direct => exact (Except.ok.inj made).symm
  | constrain required additional => exact (Except.ok.inj made).symm
  | declare reached breadcrumbs key node =>
    change (Report.under _ _).outcome = .ok change at made
    rw [Effect]
    cases named : propertyName? key node with
    | none =>
      simp only [named] at made
      exact .inl ⟨rfl, (Except.ok.inj made).symm⟩
    | some name =>
      simp only [named] at made
      obtain ⟨schema, lowered, same⟩ := Report.bind_ok made
      exact .inr ⟨name, schema, rfl, lowered, (Except.ok.inj same).symm⟩

variable {r : Resolver} {steps : List Step} {changes : List Change}

theorem made_change (made : Made r steps changes) {step : Step} (here : step ∈ steps) :
    ∃ change ∈ changes, Effect r change step := by
  induction made with
  | nil => cases here
  | cons first _ ih =>
    rcases List.mem_cons.mp here with same | there
    · subst same
      exact ⟨_, List.mem_cons_self, stepChange_effect first⟩
    · obtain ⟨change, among, effect⟩ := ih there
      exact ⟨change, List.mem_cons_of_mem _ among, effect⟩

theorem made_step (made : Made r steps changes) {change : Change} (here : change ∈ changes) :
    ∃ step ∈ steps, Effect r change step := by
  induction made with
  | nil => cases here
  | cons first _ ih =>
    rcases List.mem_cons.mp here with same | there
    · subst same
      exact ⟨_, List.mem_cons_self, stepChange_effect first⟩
    · obtain ⟨step, among, effect⟩ := ih there
      exact ⟨step, List.mem_cons_of_mem _ among, effect⟩

theorem merged_keeps (p : Merged → Prop) (made : Made r steps changes) (start : p Merged.empty)
    (each : ∀ step ∈ steps, ∀ change, Effect r change step → Change.Keeps p change) :
    p (Merged.ofChanges changes) := by
  refine ofChanges_keeps start fun change here => ?_
  obtain ⟨step, among, effect⟩ := made_step made here
  exact each step among change effect

theorem keeps_of_effect {p : Merged → Prop} {step : Step} {change : Change}
    (effect : Effect r change step)
    (follow : ∀ id direct, step = .follow id direct → Change.Keeps p fun m => m.follow id direct)
    (constrain : ∀ required additional,
      Change.Keeps p fun m => m.constrain required additional)
    (declare : ∀ key name schema, Change.Keeps p fun m => m.declare key name schema) :
    Change.Keeps p change := by
  cases step with
  | found finding =>
    cases effect
    exact fun _ holds => holds
  | follow id direct =>
    cases effect
    exact follow id direct rfl
  | constrain required additional =>
    cases effect
    exact constrain required additional
  | declare reached breadcrumbs key node =>
    rcases effect with ⟨-, same⟩ | ⟨name, schema, -, -, same⟩
    · cases same
      exact fun _ holds => holds
    · cases same
      exact declare key name schema

-- What no step of any walk takes away.
structure Stable (p : Merged → Prop) : Prop where
  follow : ∀ id direct, Change.Keeps p fun m => m.follow id direct
  constrain : ∀ required additional, Change.Keeps p fun m => m.constrain required additional
  declare : ∀ key name schema, Change.Keeps p fun m => m.declare key name schema

theorem Stable.keeps {p : Merged → Prop} (stable : Stable p) {step : Step} {change : Change}
    (effect : Effect r change step) : Change.Keeps p change :=
  keeps_of_effect effect (fun id direct _ => stable.follow id direct) stable.constrain
    stable.declare

theorem merged_brings (p : Merged → Prop) (made : Made r steps changes) {step : Step}
    (here : step ∈ steps) (brings : ∀ change, Effect r change step → ∀ m, p (change m))
    (stable : Stable p) :
    p (Merged.ofChanges changes) := by
  have later {more : List Change} (among : ∀ change ∈ more, change ∈ changes) (m : Merged)
      (holds : p m) : p (more.foldl (fun m change => change m) m) := by
    induction more generalizing m with
    | nil => exact holds
    | cons change rest ih =>
      obtain ⟨other, -, effect⟩ := made_step made (among change List.mem_cons_self)
      exact ih (fun c there => among c (List.mem_cons_of_mem _ there)) _
        (stable.keeps effect m holds)
  -- the changes up to the one of that step may do anything; those after it keep what it brought
  obtain ⟨change, among, effect⟩ := made_change made here
  obtain ⟨before, after, split⟩ := List.append_of_mem among
  rw [Merged.ofChanges, split, List.foldl_append, List.foldl_cons]
  refine later (fun c there => ?_) _ (brings change effect _)
  rw [split]
  exact List.mem_append_right _ (List.mem_cons_of_mem _ there)

def Merged.Direct (r : Resolver) (members : List SchemaNode) (m : Merged) : Prop :=
  ∀ id ∈ m.parents, ∃ target node,
    SchemaNode.reference target ∈ members ∧ r.lookupSchema target = .found id node

theorem direct_of_made {path : List String} {t : Schema}
    (made : Made r (Composition.walkAll r path t).steps changes) :
    (Merged.ofChanges changes).Direct r t.allOf := by
  refine merged_keeps (Merged.Direct r t.allOf) made (fun _ here => absurd here List.not_mem_nil) ?_
  intro step among change effect
  refine keeps_of_effect effect ?_ ?_ ?_
  · intro id flag same m holds other here
    subst same
    rcases follow_parents.mp here with before | ⟨flagged, same⟩
    · exact holds other before
    · subst same
      -- only where a member itself is walked can a reference be followed directly
      rcases Composition.walkAll_stands among with
        ⟨member, listed, path, target, node, -, leads, straight⟩ |
        ⟨path, target, node, -, -, straight⟩
      · obtain ⟨-, place⟩ := straight flagged
        cases place
        exact ⟨target, node, listed, leads⟩
      · cases (straight flagged).1
  · exact fun _ _ _ holds => holds
  · intro key name schema m holds other here
    rw [declare_parents] at here
    exact holds other here

theorem follow_of_listed {path : List String} {t : Schema} {target id : String}
    {node : SchemaNode} (done : (Composition.walkAll r path t).failure = none)
    (listed : SchemaNode.reference target ∈ t.allOf)
    (leads : r.lookupSchema target = .found id node) :
    Step.follow id true ∈ (Composition.walkAll r path t).steps := by
  obtain ⟨keys, alone, among⟩ := Composition.walkAll_members done listed
  have entered := (Composition.walkAll_open done).entered (.member listed .here) leads
  rw [Composition.walk_entered leads entered] at alone among
  obtain ⟨-, -, steps⟩ := Composition.next_done alone
  refine among ?_
  rw [steps]
  exact List.mem_append_left _ List.mem_cons_self

theorem parents_stable (id : String) : Stable fun m => id ∈ m.parents where
  follow _ _ _ holds := follow_parents.mpr (.inl holds)
  constrain _ _ _ holds := holds
  declare key name schema m holds := by
    dsimp only at holds ⊢
    rw [declare_parents]
    exact holds

-- The parents of a composition are the components that its members refer to.
theorem parents_of_composed {path : List String} {t : Schema} {id : String}
    (made : Made r (Composition.walkAll r path t).steps changes)
    (done : (Composition.walkAll r path t).failure = none) :
    id ∈ (Merged.ofChanges changes).parents ↔
      ∃ target node, SchemaNode.reference target ∈ t.allOf ∧
        r.lookupSchema target = .found id node := by
  constructor
  · exact fun parent => direct_of_made made id parent
  · rintro ⟨target, node, listed, leads⟩
    refine merged_brings (fun m => id ∈ m.parents) made (follow_of_listed done listed leads) ?_
      (parents_stable id)
    intro change effect m
    cases effect
    exact follow_parents.mpr (.inr ⟨rfl, rfl⟩)

end ApiLowering.SchemaLowering
