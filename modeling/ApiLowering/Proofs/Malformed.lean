import ApiLowering.Proofs.Telling

/-!
Malformed schemas are told. Which parts of a schema are lowered depends on its form: a composition
that reduces to a member leaves everything else aside, one that is merged reads the properties that its
members bring, and a type reads its own keywords only. A malformed schema that is read is found, at any
depth and whatever the path of references on which it is read.
-/

set_option autoImplicit false

namespace ApiLowering

def Ir.Finding.isMalformed (f : Ir.Finding) : Prop := f.kind = .malformedNode

namespace SchemaLowering

open ApiLowering.Composition (Leads Place Step Visits)
open Ir.Finding (isMalformed)
open Report (Tells tells_find tells_first tells_next tells_under tells_forEach)

/-- The nodes that are read when a node is lowered: those that are lowered for it, and what is walked
over in its compositions. -/
inductive Reads (r : Resolver) : SchemaNode → SchemaNode → Prop where
  | here {node : SchemaNode} : Reads r node node
  | part {s : Schema} {node last : SchemaNode} (consults : Consults r s node)
      (further : Reads r node last) : Reads r (.inline s) last
  | walked {s : Schema} {last : SchemaNode} (shape : form s = .composed)
      (led : Leads r (.inline s) last) : Reads r (.inline s) last

variable {r : Resolver} {path : List String} {s : Schema} {p : Ir.Finding → Prop}

theorem propertyName_some {key : String} {node : SchemaNode} (named : namedAfter (key, node) ≠ "") :
    ∃ name, propertyName? key node = some name :=
  NameVariants.derive_some named (some key)

theorem lowerByType_tells {parts : Parts} {info : Ir.Meta} {type : SchemaType}
    (listed : type ∈ types s) (tells : ∀ info, (lowerTyped s parts info type).Tells p) :
    (lowerByType s parts info).Tells p := by
  unfold types at listed
  unfold lowerByType
  cases typed : s.type with
  | none =>
    rw [typed] at listed
    dsimp only at listed ⊢
    split at listed
    · rename_i object
      cases List.mem_singleton.mp listed
      rw [if_pos object]
      exact tells info
    · rename_i plain
      split at listed
      · rename_i array
        cases List.mem_singleton.mp listed
        rw [if_neg plain, if_pos array]
        exact tells info
      · cases listed
  | some given =>
    rw [typed] at listed
    cases given with
    | single only =>
      cases List.mem_singleton.mp listed
      exact tells info
    | multiple all =>
      dsimp only at listed ⊢
      split
      · rename_i none
        rw [none] at listed
        cases listed
      · rename_i only one
        rw [one] at listed
        cases List.mem_singleton.mp listed
        exact tells info
      · exact tells_first (tells_forEach listed (tells _))

theorem lowerTyped_items {parts : Parts} (tells : (parts.items ()).Tells p) (info : Ir.Meta) :
    (lowerTyped s parts info .array).Tells p := tells_first tells

theorem lowerTyped_properties {parts : Parts} (some : s.properties ≠ [])
    (tells : (parts.properties ()).Tells p) (info : Ir.Meta) :
    (lowerTyped s parts info .object).Tells p := by
  change (lowerObject s parts info).Tells p
  rw [lowerObject, if_neg fun none => some (List.isEmpty_iff.mp none)]
  exact tells_first tells

theorem lowerTyped_value {parts : Parts} {node : SchemaNode} (bare : s.properties = [])
    (present : s.additionalProperties = some (.schema node))
    (tells : (parts.additional ()).Tells p) (info : Ir.Meta) :
    (lowerTyped s parts info .object).Tells p := by
  change (lowerObject s parts info).Tells p
  rw [lowerObject, bare, present]
  exact tells_first tells

theorem composed_tells
    (told : (Composition.walkAll r path s).failure = none →
      ∃ step ∈ (Composition.walkAll r path s).steps, (stepChange r step).Tells p) :
    (lowerComposed r path s).Tells p := by
  intro schema done
  have ended : (Composition.walkAll r path s).failure = none := by
    obtain ⟨changes, -, last⟩ := Report.bind_ok done
    cases failed : (Composition.walkAll r path s).failure with
    | none => rfl
    | some e =>
      rw [failed] at last
      cases last
  obtain ⟨step, here, tells⟩ := told ended
  exact tells_first (tells_forEach here tells) schema done

section

variable (deep : ∀ keys f, p f → p (f.under keys))

include deep

theorem lowerMembers_tells {keyword : String} {label : SchemaNode → Report Label} {member : SchemaNode}
    {value : Option NameVariants} {members : List SchemaNode} (listed : member ∈ members)
    (labelled : (label member).outcome = .ok (some value))
    (tells : (lower r path member).Tells p) (index : Nat) :
    (lowerMembers r path keyword label index members).Tells p := by
  induction members generalizing index with
  | nil => cases listed
  | cons first rest ih =>
    rw [lowerMembers]
    rcases List.mem_cons.mp listed with same | there
    · subst same
      refine tells_first (tells_under (tells_next fun found done => ?_))
      cases labelled.symm.trans done
      exact tells_first (tells.mono (deep _))
    · exact tells_next fun _ _ => tells_first (ih there _)

theorem lowerProperties_tells {required : List String} {exclude : Option String} {key : String}
    {node : SchemaNode} {properties : List (String × SchemaNode)}
    (listed : (key, node) ∈ properties) (kept : exclude ≠ some key)
    (named : namedAfter (key, node) ≠ "") (tells : (lower r path node).Tells p) :
    (lowerProperties r path required exclude properties).Tells p := by
  induction properties with
  | nil => cases listed
  | cons first rest ih =>
    obtain ⟨other, next⟩ := first
    rw [lowerProperties]
    rcases List.mem_cons.mp listed with same | there
    · cases same
      rw [if_neg kept]
      obtain ⟨name, derived⟩ := propertyName_some named
      refine tells_first (tells_under ?_)
      rw [derived]
      exact tells_first (tells.mono (deep _))
    · split
      · exact ih there
      · exact tells_next fun _ _ => tells_first (ih there)

theorem stepChange_tells {reached breadcrumbs : List String} {key : String} {node : SchemaNode}
    (named : namedAfter (key, node) ≠ "") (tells : (lower r reached node).Tells p) :
    (stepChange r (.declare reached breadcrumbs key node)).Tells p := by
  obtain ⟨name, derived⟩ := propertyName_some named
  refine tells_under ?_
  rw [derived]
  exact tells_first (tells.mono (deep _))

theorem form_tells {part : SchemaNode} (consults : Consults r s part)
    (tells : ∀ path, (lower r path part).Tells p) (path : List String) :
    (lowerForm r path s (form s)).Tells p := by
  cases consults with
  | reduced shape =>
    rw [shape]
    exact tells_first (tells_under ((tells path).mono (deep _)))
  | @declared t key _ shape led listed named =>
    rw [shape]
    refine composed_tells fun ended => ?_
    obtain ⟨reached, visited⟩ :=
      Composition.visits_of_leads led path (Composition.walkAll_open ended)
    obtain ⟨keys, met⟩ := Composition.walkAll_meets ended visited
    refine ⟨_, met (List.mem_cons_of_mem _ (List.mem_map.mpr ⟨(key, part), listed, rfl⟩)), ?_⟩
    exact stepChange_tells deep named (tells reached)
  | @tagged d _ value shape listed told named =>
    rw [shape]
    obtain ⟨name, derived⟩ := NameVariants.derive_some named none
    have labelled : (taggedLabel d part).outcome = .ok (some (some name)) := by
      simp only [taggedLabel, told, discriminantLabel, derived]
      rfl
    exact tells_first (lowerMembers_tells deep listed labelled (tells path) 0)
  | base shape listed other named =>
    rw [shape]
    refine tells_next fun _ _ => tells_next fun _ _ => tells_first ?_
    exact lowerProperties_tells deep listed (fun same => other (Option.some.inj same).symm) named (tells path)
  | collapsed shape =>
    rw [shape]
    exact tells_first (tells_under ((tells path).mono (deep _)))
  | variant shape listed shaped =>
    rw [shape]
    have labelled : (plainLabel part).outcome = .ok (some none) := by
      rw [plainLabel, shaped]
      rfl
    exact tells_first (lowerMembers_tells deep listed labelled (tells path) 0)
  | shared shape listed named =>
    rw [shape]
    refine tells_next fun _ _ => tells_first ?_
    exact lowerProperties_tells deep listed (Option.some_ne_none _).symm named (tells path)
  | items shape typed present =>
    rw [shape]
    refine lowerByType_tells typed (lowerTyped_items ?_)
    rw [partsOf, present]
    exact tells_under ((tells path).mono (deep _))
  | property shape typed listed named =>
    rw [shape]
    refine lowerByType_tells typed (lowerTyped_properties (List.ne_nil_of_mem listed) ?_)
    exact lowerProperties_tells deep listed (Option.some_ne_none _).symm named (tells path)
  | value shape typed bare present =>
    rw [shape]
    refine lowerByType_tells typed (lowerTyped_value bare present ?_)
    rw [partsOf, present]
    exact tells_under ((tells path).mono (deep _))

end

theorem walked_tells {value : Json} (shape : form s = .composed)
    (led : Leads r (.inline s) (.invalid value)) (path : List String) :
    (lowerForm r path s (form s)).Tells isMalformed := by
  rw [shape]
  refine composed_tells fun ended => ?_
  obtain ⟨reached, visited⟩ :=
    Composition.visits_of_leads led path (Composition.walkAll_open ended)
  cases visited with
  | member listed further =>
    obtain ⟨keys, flag, -, met⟩ := Composition.walkAll_reaches ended listed further
    rw [Composition.walk] at met
    exact ⟨_, met List.mem_cons_self, fun _ _ => ⟨_, List.mem_cons_self, rfl⟩⟩

-- Reading a malformed schema is telling of it.
theorem reads_tells {node last : SchemaNode} {value : Json} (reads : Reads r node last)
    (malformed : last = .invalid value) (path : List String) :
    (lower r path node).Tells isMalformed := by
  induction reads generalizing path with
  | here =>
    rw [malformed, lower]
    exact tells_first (tells_find rfl)
  | part consults _ ih =>
    rw [lower, lowerInline_eq]
    exact tells_next fun _ _ => form_tells (fun _ _ is => is) consults (ih malformed) path
  | walked shape led =>
    rw [lower, lowerInline_eq]
    exact tells_next fun _ _ => walked_tells shape (malformed ▸ led) path

end SchemaLowering

end ApiLowering
