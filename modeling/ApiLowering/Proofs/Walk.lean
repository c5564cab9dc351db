import ApiLowering.Lowering.Composition

/-!
Walks over compositions. A walk fails exactly at a reference that cannot be entered; one that does
not fail meets everything at the places that it visits, and the path on which it starts changes only
the paths on which its steps are reached.
-/

set_option autoImplicit false

namespace ApiLowering.Composition

variable {r : Resolver} {path breadcrumbs : List String} {direct : Bool} {s t : Schema}
  {node : SchemaNode} {place last : Place}

theorem visits_trans {middle : Place} (first : Visits r place middle)
    (second : Visits r middle last) : Visits r place last := by
  induction first with
  | here => exact second
  | component leads entered _ ih => exact .component leads entered (ih second)
  | member listed _ ih => exact .member listed (ih second)

-- A visited reference to a component that cannot be entered.
def Refused (r : Resolver) (place : Place) (e : ResolveError) : Prop :=
  ∃ path target id node, Visits r place (path, .reference target) ∧
    r.lookupSchema target = .found id node ∧ r.enter path (Pointer.ofSchema id) = .error e

theorem Refused.before {next : Place} {e : ResolveError} (refused : Refused r next e)
    (onward : ∀ last, Visits r next last → Visits r place last) : Refused r place e := by
  obtain ⟨path, target, id, node, visited, leads, failed⟩ := refused
  exact ⟨path, target, id, node, onward _ visited, leads, failed⟩

theorem next_failure {first : Trail} {second : Unit → Trail} {e : ResolveError}
    (failed : (first.next second).failure = some e) :
    first.failure = some e ∨ (second ()).failure = some e := by
  cases ended : first.failure with
  | some cause =>
    simp only [Trail.next, ended] at failed
    exact .inl failed
  | none =>
    simp only [Trail.next, ended] at failed
    exact .inr failed

theorem next_done {first : Trail} {second : Unit → Trail}
    (done : (first.next second).failure = none) :
    first.failure = none ∧ (second ()).failure = none ∧
      (first.next second).steps = first.steps ++ (second ()).steps := by
  cases ended : first.failure with
  | some cause =>
    simp only [Trail.next, ended] at done
    cases done
  | none =>
    rw [Trail.next, ended] at done ⊢
    exact ⟨rfl, done, rfl⟩

theorem walkMembers_failure {index : Nat} {members : List SchemaNode} {e : ResolveError}
    (failed : (walkMembers r path breadcrumbs direct index members).failure = some e) :
    ∃ member ∈ members, ∃ keys, (walk r path keys direct member).failure = some e := by
  induction members generalizing index with
  | nil =>
    rw [walkMembers] at failed
    cases failed
  | cons member rest ih =>
    rw [walkMembers] at failed
    rcases next_failure failed with first | later
    · exact ⟨member, List.mem_cons_self, _, first⟩
    · obtain ⟨other, listed, keys, refused⟩ := ih later
      exact ⟨other, List.mem_cons_of_mem _ listed, keys, refused⟩

theorem walk_failure (r : Resolver) (path breadcrumbs : List String) (direct : Bool)
    (node : SchemaNode) {e : ResolveError}
    (failed : (walk r path breadcrumbs direct node).failure = some e) :
    Refused r (path, node) e := by
  induction path, node using walk_induction r generalizing breadcrumbs direct with
  | opened leads entered ih =>
    rw [walk_entered leads entered] at failed
    rcases next_failure failed with opening | inside
    · cases opening
    · exact (ih breadcrumbs false inside).before fun _ => .component leads entered
  | refused leads entered =>
    rw [walk_refused leads entered] at failed
    cases failed
    exact ⟨_, _, _, _, .here, leads, entered⟩
  | missing leads =>
    rw [walk_missing leads] at failed
    cases failed
  | unsupported leads =>
    rw [walk_unsupported leads] at failed
    cases failed
  | inline ih =>
    rw [walk] at failed
    rcases next_failure failed with shape | inside
    · cases shape
    · rcases next_failure inside with nested | own
      · obtain ⟨member, listed, keys, there⟩ := walkMembers_failure nested
        exact (ih member listed keys false there).before fun _ => .member listed
      · cases own
  | invalid =>
    rw [walk] at failed
    cases failed

theorem walkAll_failure {e : ResolveError} (failed : (walkAll r path s).failure = some e) :
    Refused r (path, .inline s) e := by
  rcases next_failure failed with nested | own
  · obtain ⟨member, listed, keys, there⟩ := walkMembers_failure nested
    exact (walk_failure r path keys true member there).before fun _ => .member listed
  · cases own

theorem walkMembers_done {index : Nat} {members : List SchemaNode}
    (done : (walkMembers r path breadcrumbs direct index members).failure = none)
    (listed : node ∈ members) :
    ∃ keys, (walk r path keys direct node).failure = none ∧
      (walk r path keys direct node).steps ⊆
        (walkMembers r path breadcrumbs direct index members).steps := by
  -- the index counts up along the members, so each has breadcrumbs of its own
  induction members generalizing index with
  | nil => cases listed
  | cons member rest ih =>
    rw [walkMembers] at done ⊢
    obtain ⟨passed, later, steps⟩ := next_done done
    rw [steps]
    rcases List.mem_cons.mp listed with same | there
    · subst same
      exact ⟨_, passed, List.subset_append_left _ _⟩
    · obtain ⟨keys, alone, among⟩ := ih later there
      exact ⟨keys, alone, fun step here => List.mem_append_right _ (among here)⟩

-- A place from which no visited reference is refused.
def Open (r : Resolver) (place : Place) : Prop := ∀ e, ¬ Refused r place e

theorem Open.further {next : Place} (free : Open r place)
    (onward : ∀ last, Visits r next last → Visits r place last) : Open r next :=
  fun e refused => free e (refused.before onward)

theorem Open.entered {target id : String} (free : Open r place)
    (visited : Visits r place (path, .reference target))
    (leads : r.lookupSchema target = .found id node) :
    r.enter path (Pointer.ofSchema id) = .ok (path ++ [Pointer.ofSchema id]) := by
  cases entered : r.enter path (Pointer.ofSchema id) with
  | error e => exact absurd ⟨path, target, id, node, visited, leads, entered⟩ (free e)
  | ok deeper => rw [(Resolver.enter_ok entered).2]

-- The nodes that a walk from a node comes to, whatever the path on which it starts.
inductive Leads (r : Resolver) : SchemaNode → SchemaNode → Prop where
  | here {node : SchemaNode} : Leads r node node
  | component {target id : String} {node last : SchemaNode}
      (leads : r.lookupSchema target = .found id node) (further : Leads r node last) :
      Leads r (.reference target) last
  | member {s : Schema} {node last : SchemaNode} (listed : node ∈ s.allOf)
      (further : Leads r node last) : Leads r (.inline s) last

theorem leads_of_visits (visited : Visits r place last) :
    Leads r place.2 last.2 := by
  induction visited with
  | here => exact .here
  | component leads _ _ ih => exact .component leads ih
  | member listed _ ih => exact .member listed ih

theorem visits_of_leads {last : SchemaNode} (led : Leads r node last) (path : List String)
    (free : Open r (path, node)) : ∃ reached, Visits r (path, node) (reached, last) := by
  induction led generalizing path with
  | here => exact ⟨path, .here⟩
  | component leads _ ih =>
    have entered := free.entered .here leads
    obtain ⟨reached, further⟩ := ih _ (free.further fun _ => .component leads entered)
    exact ⟨reached, .component leads entered further⟩
  | member listed _ ih =>
    obtain ⟨reached, further⟩ := ih path (free.further fun _ => .member listed)
    exact ⟨reached, .member listed further⟩

theorem visits_elsewhere (visited : Visits r place last) (other : List String)
    (free : Open r (other, place.2)) : ∃ reached, Visits r (other, place.2) (reached, last.2) :=
  visits_of_leads (leads_of_visits visited) other free

theorem walk_inline (done : (walk r path breadcrumbs direct (.inline t)).failure = none) :
    shapeSteps breadcrumbs t ++ ownSteps path breadcrumbs t ⊆
      (walk r path breadcrumbs direct (.inline t)).steps := by
  rw [walk] at done ⊢
  obtain ⟨-, done, outer⟩ := next_done done
  obtain ⟨-, -, inner⟩ := next_done done
  rw [outer, inner]
  intro step here
  rcases List.mem_append.mp here with shape | own
  · exact List.mem_append_left _ shape
  · exact List.mem_append_right _ (List.mem_append_right _ own)

-- A walk that does not fail does not fail from any place that it comes to either, and what it would do
-- from there it does.
theorem walk_reaches (visited : Visits r place last) (breadcrumbs : List String) (direct : Bool)
    (done : (walk r place.1 breadcrumbs direct place.2).failure = none) :
    ∃ keys flag, (walk r last.1 keys flag last.2).failure = none ∧
      (walk r last.1 keys flag last.2).steps ⊆ (walk r place.1 breadcrumbs direct place.2).steps := by
  induction visited generalizing breadcrumbs direct with
  | here => exact ⟨breadcrumbs, direct, done, List.Subset.refl _⟩
  | component leads entered _ ih =>
    dsimp only at done ⊢
    rw [walk_entered leads entered] at done ⊢
    obtain ⟨-, inside, steps⟩ := next_done done
    obtain ⟨keys, flag, alone, met⟩ := ih breadcrumbs false inside
    rw [steps]
    exact ⟨keys, flag, alone, fun step here => List.mem_append_right _ (met here)⟩
  | member listed _ ih =>
    dsimp only at done ⊢
    rw [walk] at done ⊢
    obtain ⟨-, done, outer⟩ := next_done done
    obtain ⟨nested, -, inner⟩ := next_done done
    obtain ⟨keys, alone, among⟩ := walkMembers_done nested listed
    obtain ⟨found, flag, free, met⟩ := ih keys false alone
    rw [outer, inner]
    exact ⟨found, flag, free, fun step here =>
      List.mem_append_right _ (List.mem_append_left _ (among (met here)))⟩

theorem walkAll_members (done : (walkAll r path s).failure = none) (listed : node ∈ s.allOf) :
    ∃ keys, (walk r path keys true node).failure = none ∧
      (walk r path keys true node).steps ⊆ (walkAll r path s).steps := by
  obtain ⟨nested, -, steps⟩ := next_done done
  obtain ⟨keys, alone, among⟩ := walkMembers_done nested listed
  exact ⟨keys, alone, fun step here => steps ▸ List.mem_append_left _ (among here)⟩

theorem walkAll_reaches (done : (walkAll r path s).failure = none) (listed : node ∈ s.allOf)
    (further : Visits r (path, node) last) :
    ∃ keys flag, (walk r last.1 keys flag last.2).failure = none ∧
      (walk r last.1 keys flag last.2).steps ⊆ (walkAll r path s).steps := by
  obtain ⟨keys, alone, among⟩ := walkAll_members done listed
  obtain ⟨found, flag, free, met⟩ := walk_reaches further keys true alone
  exact ⟨found, flag, free, fun step here => among (met here)⟩

theorem walkAll_meets {reached : List String} (done : (walkAll r path s).failure = none)
    (visited : Visits r (path, .inline s) (reached, .inline t)) :
    ∃ keys, ownSteps reached keys t ⊆ (walkAll r path s).steps := by
  cases visited with
  | here =>
    obtain ⟨-, -, steps⟩ := next_done done
    exact ⟨[], fun step here => steps ▸ List.mem_append_right _ here⟩
  | member listed further =>
    obtain ⟨keys, flag, free, met⟩ := walkAll_reaches done listed further
    exact ⟨keys, fun step here => met (walk_inline free (List.mem_append_right _ here))⟩

theorem walkAll_constrains {required : List String} {additional : Bool}
    (here : .constrain required additional ∈ (walkAll r path s).steps) :
    ∃ reached t, Visits r (path, .inline s) (reached, .inline t) ∧ required = t.required := by
  rcases walkAll_stands here with ⟨member, listed, reached, t, visited, same, -⟩ |
    ⟨reached, t, visited, same, -⟩
  · exact ⟨reached, t, .member listed visited, same⟩
  · exact ⟨reached, t, visited, same⟩

theorem walkAll_open (done : (walkAll r path s).failure = none) : Open r (path, .inline s) := by
  intro e refused
  obtain ⟨reached, target, id, node, visited, leads, failed⟩ := refused
  cases visited with
  | member listed further =>
    obtain ⟨keys, flag, free, -⟩ := walkAll_reaches done listed further
    rw [walk_refused leads failed] at free
    cases free

end ApiLowering.Composition
