import ApiLowering.Proofs.Backing
import ApiLowering.Proofs.ByteOrder

/-!
The components that a lowered document lists as referred to from outside of requests. The list ascends
in the order of bytes, and whatever a schema outside of the requests refers to, at any depth, is on
it; stripping takes schemas away and adds none.
-/

set_option autoImplicit false

namespace ApiLowering

open Report (backing)

variable {noted : String → Prop} {options : Options} {d : ApiDocument} {file : Ir.File}

theorem covered_rules (noted : String → Prop) (scope : Scope) :
    scope.Rules (backing noted) (fun _ => True) fun seat => seat.2.Covered noted where
  tolerant := (Report.backing_blind noted).tolerant
  gives := Resolver.gives_any _
  lower required _ _ := SchemaLowering.lowerOption_holds (fun _ => Ir.Schema.Covered noted) required
    (fun n _ => SchemaLowering.lower_backs noted _ (scope.path, n))
    (Ir.Schema.throughout_leaf (fun _ here => absurd here List.not_mem_nil) rfl)
    fun _ => Ir.Schema.covered_unlessRequired required

open DocumentLowering in
-- Whatever the parts of a document refer to outside of the requests was noted.
theorem lowerParts_covered (noted : String → Prop) (scope : Scope) (d : ApiDocument) :
    (backing noted).Holds (Parts.Fit (fun seat => seat.2.Covered noted) (fun _ => True) fun _ => True)
      (lowerParts scope d) := by
  refine lowerParts_holds (fun _ => True) (covered_rules noted scope)
    (Report.backing_blind noted) (fun _ _ => trivial) (fun _ _ _ _ _ _ => ?_) (fun e _ => ?_) ?_
  · exact (backing noted).holds_mono (Report.backed_any _) fun _ _ _ _ => trivial
  · exact SchemaLowering.lowerComponent_backs e.1 e.2
  · exact (backing noted).holds_mono (Report.backed_any _) fun _ _ _ _ => trivial

/-- The components that a lowered document lists as referred to from outside of requests ascend in the
order of their bytes, and they are all that a reference or an object outside of the requests refers
to. -/
theorem references_listed (done : d.lower options = .ok file) :
    Ascending file.nonRequestReferencedSchemas ∧
      (∀ info id, file.withoutRequests.Holds (.reference info id) →
        id ∈ file.nonRequestReferencedSchemas) ∧
      ∀ o, file.withoutRequests.Holds (.object o) →
        ∀ id ∈ o.parents, id ∈ file.nonRequestReferencedSchemas := by
  obtain ⟨title, description, parts, outcome, same⟩ := staged_of_lower done
  have covered := lowerParts_covered (· ∈ (d.report options).marks) _ _ (fun _ marked => marked)
    parts outcome
  subst same
  have listed {s : Ir.Schema}
      (held : (d.assembled options title description parts).withoutRequests.Holds s) :
      ∀ id ∈ s.refers, id ∈ sortedSet (d.report options).marks :=
    fun id here => sortedSet_holds
      (throughout_assembled (fun _ _ parents => parents) covered held id here)
  refine ⟨sortedSet_ascending _, fun info id held => ?_, fun o held => listed held⟩
  exact listed held id (List.mem_singleton.mpr rfl)

-- Dogs are animals, but what an animal calls a name is not what a dog does.
def kennel : ApiDocument :=
  .ofSchemas
    [("Animal", .ofProperties [("name", .ofType .string)]),
      ("Tag", .ofType .integer),
      ("Dog", .inline { Keywords.empty with
        allOf := [.reference (Pointer.ofSchema "Animal"),
          .ofProperties [("name", .reference (Pointer.ofSchema "Tag"))]] })]

def Ir.Schema.extendsDespiteConflict (id : String) : Ir.Schema → Bool
  | .object o => o.parents == [id] && !o.conflicts.isEmpty
  | _ => false

theorem kennel_listed :
    ∃ file, kennel.lower .default = .ok file ∧
      file.nonRequestReferencedSchemas = ["Animal", "Tag"] ∧
      Ascending file.nonRequestReferencedSchemas ∧
      ∃ o, file.withoutRequests.Holds (.object o) ∧ o.parents = ["Animal"] ∧ o.conflicts ≠ [] ∧
        "Animal" ∈ file.nonRequestReferencedSchemas := by
  have lowered : ((kennel.lower .default).toOption.any fun file =>
      file.nonRequestReferencedSchemas == ["Animal", "Tag"] &&
        (Entries.values file.schemas).any (Ir.Schema.extendsDespiteConflict "Animal")) = true := by
    decide +kernel
  obtain ⟨file, done, checked⟩ := ok_of_any lowered
  obtain ⟨listed, found⟩ := Bool.and_eq_true_iff.mp checked
  obtain ⟨s, among, shape⟩ := List.any_eq_true.mp found
  obtain ⟨ascending, -, parents⟩ := references_listed done
  refine ⟨file, done, beq_iff_eq.mp listed, ascending, ?_⟩
  cases s with
  | object o =>
    obtain ⟨extended, conflicts⟩ := Bool.and_eq_true_iff.mp shape
    have held : file.withoutRequests.Holds (.object o) :=
      ⟨.object o, List.mem_append_left _ (List.mem_append_left _ among), .here⟩
    have own : o.parents = ["Animal"] := beq_iff_eq.mp extended
    refine ⟨o, held, own, ?_, parents o held "Animal" (own ▸ List.mem_cons_self)⟩
    intro none
    rw [none] at conflicts
    cases conflicts
  | union _ | enumeration _ | primitive _ | array _ _ | map _ _ | reference _ _ | unknown _ =>
    cases shape

end ApiLowering
