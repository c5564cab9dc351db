import ApiLowering.Proofs.Bodies

/-!
The elections as a pass over a document. No body that is written out in it has both JSON and multipart
content afterwards; a body that had both loses the content of the kind that is not preferred and nothing
else, every other part of the document stays as it is, and another pass finds nothing to do.
-/

set_option autoImplicit false

namespace ApiLowering

namespace ContentConflict

variable {policy : ConflictPolicy} {kind : MediaKind} {content : Entries MediaType} {place : String}

-- Content of both of the kinds between which is elected.
def Twofold (content : Entries MediaType) : Prop :=
  (∃ e ∈ content, MediaKind.of e.1 = .json) ∧ ∃ e ∈ content, MediaKind.of e.1 = .multipart

instance : DecidablePred Twofold := fun content =>
  inferInstanceAs (Decidable ((∃ e ∈ content, MediaKind.of e.1 = .json) ∧
    ∃ e ∈ content, MediaKind.of e.1 = .multipart))

-- What an election leaves of the content of a body.
def elect (policy : ConflictPolicy) (content : Entries MediaType) : Entries MediaType :=
  if Twofold content then content.filter fun e => MediaKind.of e.1 ≠ (ranked policy).2 else content

theorem firstOf_none : firstOf? kind content = none ↔ ¬ ∃ e ∈ content, MediaKind.of e.1 = kind := by
  simp [firstOf?]

theorem firstOf_isSome : (firstOf? kind content).isSome ↔ ∃ e ∈ content, MediaKind.of e.1 = kind := by
  rw [← not_iff_not, ← firstOf_none, Option.not_isSome_iff_eq_none]

theorem settled_iff : Settled content ↔ ¬ Twofold content := by
  rw [Settled, firstOf_none, firstOf_none, Twofold, not_and_or]

theorem twofold_ranked (policy : ConflictPolicy) : Twofold content ↔
    (firstOf? (ranked policy).1 content).isSome ∧ (firstOf? (ranked policy).2 content).isSome := by
  rw [firstOf_isSome, firstOf_isSome, Twofold]
  cases policy with
  | preferJson => rfl
  | preferMultipart => exact and_comm

theorem of_isSome : (of? policy place content).isSome ↔ Twofold content := by
  rw [twofold_ranked policy]
  unfold of?
  cases firstOf? (ranked policy).1 content <;> cases firstOf? (ranked policy).2 content <;> simp

theorem of_location {c : ContentConflict} (elected : of? policy place content = some c) :
    c.location = place := by
  unfold of? at elected
  split at elected
  · cases elected
    rfl
  · cases elected

theorem of_none (single : ¬ Twofold content) : of? policy place content = none := by
  rwa [← Option.not_isSome_iff_eq_none, of_isSome]

-- There is one election for each place with content of both kinds.
theorem map_location (bodies : List (BodyPlace × RequestBody)) :
    (bodies.filterMap fun b => of? policy b.1.location b.2.content).map location =
      (bodies.filter fun b => Twofold b.2.content).map fun b => b.1.location := by
  induction bodies with
  | nil => rfl
  | cons b rest ih =>
    by_cases twofold : Twofold b.2.content
    · have present : (of? policy b.1.location b.2.content).isSome := of_isSome.mpr twofold
      obtain ⟨c, elected⟩ := Option.isSome_iff_exists.mp present
      simp [elected, twofold, ih, of_location elected]
    · have nothing : of? policy b.1.location b.2.content = none := of_none twofold
      simp [nothing, twofold, ih]

theorem resolveContent_eq (policy : ConflictPolicy) : resolveContent policy = elect policy := by
  funext content
  simp only [resolveContent, elect, of_isSome]

theorem elect_single (policy : ConflictPolicy) (content : Entries MediaType) :
    ¬ Twofold (elect policy content) := by
  rw [← settled_iff, ← resolveContent_eq]
  exact resolveContent_settled policy content

theorem elect_of_single (single : ¬ Twofold content) : elect policy content = content := if_neg single

theorem elect_ne_iff : elect policy content ≠ content ↔ Twofold content := by
  constructor
  · intro changed
    by_contra single
    exact changed (elect_of_single single)
  · intro twofold same
    exact elect_single policy content (same.symm ▸ twofold)

end ContentConflict

open ContentConflict (Twofold elect elect_single elect_of_single elect_ne_iff of_isSome of_none)

namespace ApiDocument

variable {policy : ConflictPolicy} {d : ApiDocument} {b : BodyPlace × RequestBody}

/-- How a document comes out of the elections. -/
structure Eliminates (policy : ConflictPolicy) (d resolved : ApiDocument)
    (conflicts : List ContentConflict) : Prop where
  -- no inline body has content of both kinds, be it of an operation or among the components
  operations {area : Area} {key : String} {item : PathItem} {method : HttpMethod} {o : Operation}
    {body : RequestBody} : (key, some item) ∈ resolved.items area → (method, o) ∈ item.operations →
      o.requestBody = some (.inline body) → ¬ Twofold body.content
  components {c : Components} {name : String} {body : RequestBody} : resolved.components = some c →
    (name, .inline body) ∈ c.requestBodies → ¬ Twofold body.content
  -- the result is the one document with the shell of the given one and the elected content in its bodies
  exact (e : ApiDocument) : e = resolved ↔
    e.shell = d.shell ∧ e.bodies = d.bodies.map fun b => (b.1, b.2.mapContent (elect policy))
  -- a body is rewritten just if it had content of both kinds, and each such body is reported
  rewritten (content : Entries MediaType) : elect policy content ≠ content ↔ Twofold content
  reported : conflicts.map ContentConflict.location =
    (d.bodies.filter fun b => Twofold b.2.content).map fun b => b.1.location
  -- there is nothing left to elect
  final (later : ConflictPolicy) :
    resolved.resolveConflicts later = resolved ∧ resolved.conflicts later = []

theorem resolveConflicts_elect (policy : ConflictPolicy) (d : ApiDocument) :
    d.resolveConflicts policy = d.mapContent (elect policy) := by
  rw [resolveConflicts_eq, ContentConflict.resolveContent_eq]

theorem bodies_resolved (policy : ConflictPolicy) (d : ApiDocument) :
    (d.resolveConflicts policy).bodies = d.bodies.map fun b => (b.1, b.2.mapContent (elect policy)) := by
  rw [resolveConflicts_elect, bodies_mapContent]

theorem bodies_single (listed : b ∈ (d.resolveConflicts policy).bodies) : ¬ Twofold b.2.content := by
  rw [bodies_resolved] at listed
  obtain ⟨before, -, rfl⟩ := List.mem_map.mp listed
  exact elect_single policy before.2.content

/-- The elections eliminate the conflicts between the representations of bodies, and do nothing else. -/
theorem conflicts_eliminated (policy : ConflictPolicy) (d : ApiDocument) :
    Eliminates policy d (d.resolveConflicts policy) (d.conflicts policy) where
  operations listed declared inline :=
    bodies_single (mem_bodies_operation.mpr ⟨_, _, listed, declared, inline⟩)
  components present listed := bodies_single (mem_bodies_component.mpr ⟨_, present, listed⟩)
  exact e := by
    constructor
    · rintro rfl
      exact ⟨by rw [resolveConflicts_elect, shell_mapContent], bodies_resolved policy d⟩
    · rintro ⟨shell, bodies⟩
      apply encloses.known
      · rw [shell, resolveConflicts_elect, shell_mapContent]
      · rw [bodies, bodies_resolved]
  rewritten content := elect_ne_iff
  reported := by
    rw [conflicts_eq, ContentConflict.map_location]
  final later := by
    constructor
    · rw [resolveConflicts_elect, resolveConflicts_elect, mapContent_mapContent]
      congr 1
      funext content
      exact elect_of_single (elect_single policy content)
    · rw [conflicts_eq, List.filterMap_eq_nil_iff]
      intro b listed
      exact of_none (bodies_single listed)

end ApiDocument

end ApiLowering
