import ApiLowering.Proofs.Delivery

/-!
A lowered document is closed: whatever it refers to by id or by name is in it.
-/

set_option autoImplicit false

namespace ApiLowering

variable {options : Options} {d : ApiDocument} {file : Ir.File} {id : String}

theorem lowered_keys (done : d.lower options = .ok file) :
    Entries.keys file.schemas = Entries.keys d.componentSchemas :=
  keys_of_forall₂ (components_of_lower done) fun _ _ paired => paired.1

theorem key_of_known (done : d.lower options = .ok file)
    (known : SchemaLowering.Known (d.resolver options) id) : id ∈ Entries.keys file.schemas := by
  obtain ⟨node, stored⟩ := known
  rw [ApiDocument.resolver_schemas] at stored
  rw [lowered_keys done]
  exact List.mem_map_of_mem (Resolver.get_mem stored)

theorem contains_key {α : Type} {key : String} {entries : Entries α}
    (present : Entries.contains key entries = true) : key ∈ Entries.keys entries := by
  obtain ⟨value, found⟩ := Option.isSome_iff_exists.mp present
  exact List.mem_map_of_mem (Resolver.get_mem found)

namespace DocumentLowering

theorem named_kept {names : List String} {seen : Entries Ir.Tag} {name : String}
    (here : name ∈ names ∨ name ∈ Entries.keys seen) :
    name ∈ Entries.keys (names.foldl
      (fun seen name =>
        if Entries.contains name seen then seen else seen ++ [(name, (⟨name, none⟩ : Ir.Tag))])
      seen) := by
  induction names generalizing seen with
  | nil => exact here.resolve_left List.not_mem_nil
  | cons first rest ih =>
    rw [List.foldl_cons]
    refine ih ?_
    by_cases present : Entries.contains first seen = true
    · rw [if_pos present]
      rcases here with among | before
      · rcases List.mem_cons.mp among with same | later
        · exact .inr (same ▸ contains_key present)
        · exact .inl later
      · exact .inr before
    · rw [if_neg present, Entries.keys, List.map_append]
      rcases here with among | before
      · rcases List.mem_cons.mp among with same | later
        · exact .inr (List.mem_append_right _ (List.mem_singleton.mpr same))
        · exact .inl later
      · exact .inr (List.mem_append_left _ before)

theorem tags_named {declared : List Ir.Tag} {endpoints : List Ir.Endpoint} {e : Ir.Endpoint}
    (listed : e ∈ endpoints) {name : String} (tagged : name ∈ e.tags) :
    name ∈ Entries.keys (tags declared endpoints) :=
  named_kept (.inl (List.mem_flatMap.mpr ⟨e, listed, tagged⟩))

end DocumentLowering

/-- The component schemas of a lowered document are those of the document, in the same order; every
reference and every parent in any schema of it, and every reference noted outside requests, is one
of them; and every tag of an endpoint is among its tags. -/
theorem lowered_closed (done : d.lower options = .ok file) :
    Entries.keys file.schemas = Entries.keys d.componentSchemas ∧
      (∀ info id, file.Holds (.reference info id) → id ∈ Entries.keys file.schemas) ∧
      (∀ o, file.Holds (.object o) → ∀ id ∈ o.parents, id ∈ Entries.keys file.schemas) ∧
      (∀ id ∈ file.nonRequestReferencedSchemas, id ∈ Entries.keys file.schemas) ∧
      ∀ e ∈ file.endpoints, ∀ tag ∈ e.tags, tag ∈ Entries.keys file.tags := by
  obtain ⟨grounded, noted⟩ := lowered_grounded done
  refine ⟨lowered_keys done, fun info id held => ?_, fun o held id extended => ?_,
    fun id marked => ?_, fun e listed tag tagged => ?_⟩
  · exact key_of_known done (grounded _ held)
  · exact key_of_known done (grounded _ held id extended)
  · exact key_of_known done (noted id marked)
  · obtain ⟨_, _, _, _, _, _, parts, -, -, same⟩ := assembled_of_lower done
    subst same
    exact DocumentLowering.tags_named listed tagged

def SchemaNode.ofType (type : SchemaType) : SchemaNode :=
  .inline { Keywords.empty with type := some (.single type) }

def SchemaNode.ofProperties (properties : List (String × SchemaNode)) : SchemaNode :=
  .inline { Keywords.empty with type := some (.single .object), properties }

-- Pets are cats or dogs, told apart by a property that both of them declare.
def pet : Schema :=
  { Keywords.empty with
    oneOf := [.reference (Pointer.ofSchema "Cat")]
    discriminator := some ⟨"petType", [("dog", "Dog")]⟩ }

def listPets : Operation :=
  { Operation.record.blank with
    tags := ["pets"]
    responses := [("200", .inline { Response.record.blank with
      content := [("application/json",
        ⟨some (.reference (Pointer.ofSchema "Pet")), [], []⟩)] })] }

def petShop : ApiDocument :=
  { ApiDocument.ofSchemas
      [("Pet", .inline pet),
        ("Cat", .ofProperties [("petType", .ofType .string), ("lives", .ofType .integer)]),
        ("Dog", .ofProperties [("petType", .ofType .string)])] with
    paths := [("/pets", some { PathItem.record.blank with get := some listPets })] }

theorem petShop_closed :
    ∃ file, petShop.lower .default = .ok file ∧
      Entries.keys file.schemas = ["Pet", "Cat", "Dog"] ∧
      (∃ e ∈ file.endpoints, e.tags = ["pets"] ∧ "pets" ∈ Entries.keys file.tags) ∧
      ∀ info id, file.Holds (.reference info id) → id ∈ Entries.keys file.schemas := by
  have lowered : ((petShop.lower .default).toOption.any fun file =>
      file.endpoints.any fun e => e.tags == ["pets"]) = true := by decide +kernel
  obtain ⟨file, done, checked⟩ := ok_of_any lowered
  obtain ⟨e, listed, tags⟩ := List.any_eq_true.mp checked
  have tagged : e.tags = ["pets"] := beq_iff_eq.mp tags
  obtain ⟨keys, references, -, -, named⟩ := lowered_closed done
  exact ⟨file, done, keys, ⟨e, listed, tagged, named e listed "pets" (tagged ▸ List.mem_cons_self)⟩,
    references⟩

end ApiLowering
