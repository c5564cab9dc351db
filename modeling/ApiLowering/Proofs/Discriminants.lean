import ApiLowering.Proofs.Delivery

/-!
The discriminants that a component is stripped of. The table of a document holds a key under a
pointer exactly when some inline schema of the document has a discriminator on that key and lists the
pointer, among its members or in its mapping.
-/

set_option autoImplicit false

namespace ApiLowering

theorem get_put {α : Type} {key other : String} {value : α} {entries : Entries α} :
    Entries.get? other (Entries.put key value entries) =
      if other = key then some value else Entries.get? other entries := by
  induction entries with
  | nil =>
    simp only [Entries.put, Entries.get?, eq_comm]
  | cons first rest ih =>
    obtain ⟨k, v⟩ := first
    by_cases replaced : k = key
    · subst replaced
      by_cases same : other = k
      · subst same
        simp only [Entries.put, Entries.get?, if_true]
      · simp only [Entries.put, Entries.get?, if_true, if_neg same, if_neg (Ne.symm same)]
    · by_cases here : k = other
      · subst here
        simp only [Entries.put, Entries.get?, if_true, if_neg replaced]
      · simp only [Entries.put, Entries.get?, if_neg replaced, if_neg here, ih]

namespace Discriminant

variable {table : Table} {key pointer : String}

theorem mem_addMember {discriminant target : String} :
    key ∈ of (addMember discriminant table target) pointer ↔
      (pointer = target ∧ key = discriminant) ∨ key ∈ of table pointer := by
  unfold of addMember
  rw [get_put]
  by_cases same : pointer = target
  · subst same
    simp only [if_true, Option.getD_some, mem_insertSorted, true_and]
  · simp only [same, if_false, false_and, false_or]

theorem mem_addMembers {discriminant : String} {targets : List String} :
    key ∈ of (targets.foldl (addMember discriminant) table) pointer ↔
      (pointer ∈ targets ∧ key = discriminant) ∨ key ∈ of table pointer := by
  induction targets generalizing table with
  | nil => simp only [List.foldl_nil, List.not_mem_nil, false_and, false_or]
  | cons first rest ih =>
    rw [List.foldl_cons, ih, mem_addMember, List.mem_cons]
    tauto

-- A schema with a discriminator on the key that lists the pointer.
def Lists (s : Schema) (d : Discriminator) (key pointer : String) : Prop :=
  s.discriminator = some d ∧ d.propertyName = key ∧ pointer ∈ memberPointers s d

theorem mem_addSchema {s : Schema} :
    key ∈ of (addSchema table s) pointer ↔ (∃ d, Lists s d key pointer) ∨ key ∈ of table pointer := by
  unfold addSchema Lists
  cases present : s.discriminator with
  | none => simp only [reduceCtorEq, false_and, exists_false, false_or]
  | some d =>
    simp only [mem_addMembers, Option.some.injEq, exists_eq_left']
    tauto

theorem mem_addSchemas {schemas : List Schema} :
    key ∈ of (schemas.foldl addSchema table) pointer ↔
      (∃ s ∈ schemas, ∃ d, Lists s d key pointer) ∨ key ∈ of table pointer := by
  induction schemas generalizing table with
  | nil => simp only [List.foldl_nil, List.not_mem_nil, false_and, exists_false, false_or]
  | cons first rest ih =>
    rw [List.foldl_cons, ih, mem_addSchema]
    simp only [List.mem_cons, exists_eq_or_imp]
    exact or_left_comm.trans or_assoc.symm

theorem mem_ofDocument {d : ApiDocument} :
    key ∈ of (ofDocument d) pointer ↔ ∃ s ∈ d.inlineSchemas, ∃ e, Lists s e key pointer := by
  have empty : key ∉ of [] pointer := List.not_mem_nil
  rw [ofDocument, mem_addSchemas]
  exact or_iff_left empty

-- What is stripped depends on which keys there are, not on how they are listed.
theorem strip_congr {other : Table} {id : String}
    (same : ∀ key, key ∈ of other (Pointer.ofSchema id) ↔ key ∈ of table (Pointer.ofSchema id))
    (s : Ir.Schema) : strip other id s = strip table id s := by
  cases s with
  | object o =>
    have contained (key : String) : (of other (Pointer.ofSchema id)).contains key =
        (of table (Pointer.ofSchema id)).contains key := by
      rw [Bool.eq_iff_iff, List.contains_iff_mem, List.contains_iff_mem, same]
    simp only [strip, contained]
  | union _ | enumeration _ | primitive _ | array _ _ | map _ _ | reference _ _ | unknown _ => rfl

end Discriminant

theorem ApiDocument.mem_discriminants {options : Options} {d : ApiDocument} {key id : String} :
    key ∈ d.discriminants options id ↔ ∃ s ∈ d.electedSchemas options, ∃ e,
      Discriminant.Lists s e key (Pointer.ofSchema id) := Discriminant.mem_ofDocument

end ApiLowering
