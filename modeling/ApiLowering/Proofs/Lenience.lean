import ApiLowering.Proofs.Restoring

/-!
Lenient nodes from both sides. What a node was read as, a reference, a description or neither, its
written form is read as again: a description keeps whatever stood under `$ref`, which was no
reference then and is none now.
-/

set_option autoImplicit false

namespace ApiLowering

namespace Reader

variable {α ν : Type} {mode : Mode} {value : Json} {entries : Entries Json} {target : String}

def referenceOutline : Outline String Unit where
  slots := [.required "$ref" text .text id fun target _ => target]
  rest _ := ()
  withRest _ target := target
  distinct := by simp
  apart := by simp
  rest_set _ _ _ _ := rfl
  rest_with _ _ := rfl
  get_with _ _ _ _ := rfl
  whole a b same _ := same _ List.mem_cons_self

theorem reference_object : referenceRecord.readMap .held (Tree.ofJson (.object entries)) =
    referenceRecord.read .held (Tree.ofJson (.object entries)) := rfl

theorem referenceTarget_some (distinct : (Entries.keys entries).Nodup) :
    referenceTarget? (Tree.ofJson (.object entries)) = some target ↔
      ("$ref", .text target) ∈ entries := by
  rw [referenceTarget?, reference_object]
  constructor
  · intro found
    cases read : referenceRecord.read .held (Tree.ofJson (.object entries)) with
    | error e => exact nomatch read ▸ found
    | ok s =>
      rw [read] at found
      cases found
      obtain ⟨after, took, full, same⟩ := Outline.read_took (o := referenceOutline) rfl distinct read
      obtain ⟨v, listed⟩ :=
        Outline.entry_of_name (took.present full List.mem_cons_self rfl)
      have given := took.given _ List.mem_cons_self v listed
      rw [same] at given
      exact text_ok given ▸ listed
  · intro listed
    have holds : referenceOutline.Holds .held entries referenceRecord.blank target := by
      refine ⟨distinct, fun p known v there => ?_, fun p known missing => ?_⟩
      · cases List.mem_singleton.mp known
        have same := (get_of_mem distinct there).symm.trans (get_of_mem distinct listed)
        cases Option.some.inj same
        rfl
      · cases List.mem_singleton.mp known
        exact absurd (mem_keys_of_mem listed) missing
    rw [Outline.read_back rfl holds rfl]
    rfl

section

variable {reference : String → ν} {inline : Reader α} {wrap : α → ν} {invalid : Json → ν}
  {node : ν}

theorem lenient_ofJson (mode : Mode) (value : Json) :
    lenient reference inline wrap invalid mode (Tree.ofJson value) =
      match referenceTarget? (Tree.ofJson value) with
      | some target => .ok (reference target)
      | none =>
        match inline .held (Tree.ofJson value) with
        | .ok a => .ok (wrap a)
        | .error _ => (Reader.value .held (Tree.ofJson value)).map invalid := by
  simp only [lenient, Tree.ofJson_holdIn]
  rfl

theorem lenient_reference (mode : Mode)
    (found : referenceTarget? (Tree.ofJson value) = some target) :
    lenient reference inline wrap invalid mode (Tree.ofJson value) = .ok (reference target) := by
  rw [lenient_ofJson, found]

theorem lenient_inline {a : α} (mode : Mode) (none : referenceTarget? (Tree.ofJson value) = none)
    (read : inline .held (Tree.ofJson value) = .ok a) :
    lenient reference inline wrap invalid mode (Tree.ofJson value) = .ok (wrap a) := by
  rw [lenient_ofJson, none]
  simp only [read]

-- The three ways in which a node is read.
inductive LenientRead (reference : String → ν) (inline : Reader α) (wrap : α → ν)
    (invalid : Json → ν) (value : Json) : ν → Prop where
  | reference {target : String} (found : referenceTarget? (Tree.ofJson value) = some target) :
      LenientRead reference inline wrap invalid value (reference target)
  | inline {a : α} (none : referenceTarget? (Tree.ofJson value) = none)
      (read : inline .held (Tree.ofJson value) = .ok a) :
      LenientRead reference inline wrap invalid value (wrap a)
  | invalid : LenientRead reference inline wrap invalid value (invalid value)

theorem lenient_cases (proper : value.Proper)
    (read : lenient reference inline wrap invalid mode (Tree.ofJson value) = .ok node) :
    LenientRead reference inline wrap invalid value node := by
  rw [lenient_ofJson] at read
  cases found : referenceTarget? (Tree.ofJson value) with
  | some target =>
    rw [found] at read
    cases read
    exact .reference found
  | none =>
    rw [found] at read
    cases inner : inline .held (Tree.ofJson value) with
    | ok a =>
      simp only [inner] at read
      cases read
      exact .inline found inner
    | error e =>
      simp only [inner, value_proper .held proper] at read
      cases read
      exact .invalid

end

-- Written forms keep what stood under the key.
def Carries (key : String) (reader : Reader α) (write : α → Json) : Prop :=
  ∀ mode (value : Json) a, value.Proper → reader mode (Tree.ofJson value) = .ok a →
    ∃ entries others, value = .object entries ∧ (write a).canonical = .object others ∧
      (Entries.keys others).Nodup ∧ ∀ v, (key, v) ∈ others ↔ (key, v) ∈ entries

theorem carries_target {inline : Reader α} {write : α → Json} {a : α}
    (carries : Carries "$ref" inline write) (proper : value.Proper)
    (read : inline mode (Tree.ofJson value) = .ok a) :
    referenceTarget? (Tree.ofJson (write a).canonical) = referenceTarget? (Tree.ofJson value) := by
  obtain ⟨entries, others, rfl, written, distinct, same⟩ := carries mode value a proper read
  cases proper with
  | object ascends _ =>
    rw [written]
    refine Option.ext fun target => ?_
    rw [referenceTarget_some distinct, referenceTarget_some (ascends_nodup ascends), same]

section

variable {height : Nat} {reference : String → ν} {inline : Reader α} {wrap : α → ν}
  {invalid : Json → ν} {writeInline : α → Json} {write : ν → Json}

/-- A lenient node restores what it writes if its descriptions do. -/
theorem lenient_restores (restores : inline.Restores height writeInline)
    (carries : Carries "$ref" inline writeInline)
    (ofReference : ∀ target, write (reference target) = Json.reference target)
    (ofInline : ∀ a, write (wrap a) = writeInline a) (ofInvalid : ∀ v, write (invalid v) = v) :
    (lenient reference inline wrap invalid).Restores height write := by
  intro mode value node proper low read
  cases lenient_cases proper read with
  | reference found =>
    rename_i target
    have single : (Entries.keys [("$ref", Json.text target)]).Nodup := List.nodup_singleton _
    have proper : (Json.object [("$ref", .text target)]).Proper := by
      refine .object (List.pairwise_singleton _ _) fun e here => ?_
      cases List.mem_singleton.mp here
      exact .text target
    have again : referenceTarget? (Tree.ofJson (Json.reference target).canonical) = some target :=
      (referenceTarget_some single).mpr List.mem_cons_self
    exact restored_of (ofReference target) proper (fun mode => lenient_reference mode again)
      fun same => nomatch same
  | inline none inner =>
    rename_i a
    have restored := restores .held value a proper low inner
    refine restored_of (ofInline a) restored.proper
      (fun mode => lenient_inline mode ?_ (restored.back .held)) restored.null
    rw [carries_target carries proper inner, none]
  | invalid =>
    rw [lenient_ofJson] at read
    refine restored_of (ofInvalid value) (proper.canonical.symm ▸ proper) (fun mode => ?_)
      fun same => same
    rw [proper.canonical, lenient_ofJson]
    exact read

end

end Reader

namespace Outline

variable {α : Type} {o : Outline α (Entries Json)} {r : Record α} {write : α → Json} {key : String}

theorem extended_carries (described : r.fields = o.fields)
    (written : ∀ a, write a = .object (o.entries a ++ o.rest a)) (unnamed : key ∉ o.names) :
    Reader.Carries key (r.readExtended o.withRest) write := by
  intro mode value a proper read
  obtain ⟨entries, rfl, -, rest, beside⟩ := extended_holds described proper read
  have canonical : (write a).canonical = .object (o.written a (o.rest a)) := by
    rw [written, written_canonical]
  refine ⟨entries, _, rfl, canonical, ascends_nodup (sort_ascends _), fun v => ?_⟩
  have left : o.leaves (key, v) = true := by
    rw [leaves, Bool.not_eq_true', ← Bool.not_eq_true]
    exact fun here => unnamed (List.contains_iff_mem.mp here)
  have others : (key, v) ∈ (o.written a (o.rest a)).filter o.leaves ↔
      (key, v) ∈ entries.filter o.leaves := by
    rw [written_leaves beside, rest]
  rw [List.mem_filter, List.mem_filter] at others
  exact ⟨fun here => (others.mp ⟨here, left⟩).1, fun here => (others.mpr ⟨here, left⟩).1⟩

end Outline

end ApiLowering
