import ApiLowering.Proofs.Parsed

/-!
What holds of every schema object that is read holds of every inline schema of a document that was
read, however deep it is nested. So no inline schema of such a document repeats the key of a property.
-/

set_option autoImplicit false

namespace ApiLowering

namespace SchemaNode

variable {kind : Number → Prop} {good : Schema → Prop} {s t : Schema}

theorem mem_entrySchemas {entries : List (String × SchemaNode)} (here : t ∈ entrySchemas entries) :
    ∃ e ∈ entries, t ∈ e.2.inlineSchemas := by
  induction entries with
  | nil => cases here
  | cons e rest ih =>
    rw [entrySchemas] at here
    rcases List.mem_append.mp here with first | later
    · exact ⟨e, List.mem_cons_self, first⟩
    · obtain ⟨other, listed, among⟩ := ih later
      exact ⟨other, List.mem_cons_of_mem _ listed, among⟩

theorem mem_listSchemas {nodes : List SchemaNode} (here : t ∈ listSchemas nodes) :
    ∃ node ∈ nodes, t ∈ node.inlineSchemas := by
  induction nodes with
  | nil => cases here
  | cons node rest ih =>
    rw [listSchemas] at here
    rcases List.mem_append.mp here with first | later
    · exact ⟨node, List.mem_cons_self, first⟩
    · obtain ⟨other, listed, among⟩ := ih later
      exact ⟨other, List.mem_cons_of_mem _ listed, among⟩

-- An inline schema at or under a schema is the schema itself, or stands at or under one of its parts.
theorem inlineSchemas_cases (here : t ∈ (inline s).inlineSchemas) :
    t = s ∨ ∃ node, PartOf s node ∧ t ∈ node.inlineSchemas := by
  rw [inlineSchemas] at here
  rcases List.mem_cons.mp here with same | nested
  · exact .inl same
  · rw [nestedSchemas_eq] at nested
    simp only [List.mem_append] at nested
    right
    rcases nested with ((((inProperties | inItems) | inMore) | inAll) | inOne) | inAny
    · obtain ⟨e, listed, among⟩ := mem_entrySchemas inProperties
      exact ⟨e.2, .property listed, among⟩
    · cases present : s.items with
      | none =>
        rw [present] at inItems
        cases inItems
      | some node =>
        rw [present] at inItems
        exact ⟨node, .items present, inItems⟩
    · rcases present : s.additionalProperties with _ | allowed | node
      · rw [present] at inMore
        cases inMore
      · rw [present] at inMore
        cases inMore
      · rw [present] at inMore
        exact ⟨node, .additional present, inMore⟩
    · obtain ⟨node, listed, among⟩ := mem_listSchemas inAll
      exact ⟨node, .all listed, among⟩
    · obtain ⟨node, listed, among⟩ := mem_listSchemas inOne
      exact ⟨node, .one listed, among⟩
    · obtain ⟨node, listed, among⟩ := mem_listSchemas inAny
      exact ⟨node, .any listed, among⟩

-- A node all of whose inline schemas are good.
abbrev Every (good : Schema → Prop) (node : SchemaNode) : Prop := ∀ s ∈ node.inlineSchemas, good s

theorem every_inline (own : good s) (parts : ∀ node, PartOf s node → Every good node) :
    Every good (.inline s) := by
  intro t here
  rcases inlineSchemas_cases here with same | ⟨node, part, among⟩
  · exact same ▸ own
  · exact parts node part t among

theorem schema_parts {node : Reader SchemaNode} (gives : node.Gives kind (Every good)) :
    (schema node).Gives kind fun s => ∀ part, PartOf s part → Every good part := by
  intro mode tree s within done part held
  have slot (index : Fin 20) (q : ((outline node).slots.get index).value → Prop)
      (blank : q (((outline node).slots.get index).get Keywords.empty))
      (reads : ((outline node).slots.get index).read.Gives kind q) :
      q (((outline node).slots.get index).get s) :=
    Outline.slot_gives (o := outline node) (r := record node) rfl
      (List.get_mem (outline node).slots index) q blank reads mode tree s within done
  cases held with
  | property listed =>
    exact slot 5
      (fun all : Entries SchemaNode => ∀ e ∈ all, Every good e.2)
      (fun _ here => absurd here List.not_mem_nil) (entries_gives gives) _ listed
  | items present =>
    exact slot 8
      (fun found : Option SchemaNode => ∀ inner ∈ found, Every good inner)
      (fun _ here => absurd here (Option.not_mem_none _)) (optional_gives gives) part present
  | additional present =>
    exact slot 7 (fun found : Option (Additional SchemaNode) =>
        ∀ more ∈ found, ∀ inner, more = .schema inner → Every good inner)
      (fun _ here => absurd here (Option.not_mem_none _))
      (optional_gives (additional_gives gives)) _ present part rfl
  | all listed =>
    exact slot 9
      (fun all : List SchemaNode => ∀ inner ∈ all, Every good inner)
      (fun _ here => absurd here List.not_mem_nil) (list_gives gives) part listed
  | one listed =>
    exact slot 10
      (fun all : List SchemaNode => ∀ inner ∈ all, Every good inner)
      (fun _ here => absurd here List.not_mem_nil) (list_gives gives) part listed
  | any listed =>
    exact slot 11
      (fun all : List SchemaNode => ∀ inner ∈ all, Every good inner)
      (fun _ here => absurd here List.not_mem_nil) (list_gives gives) part listed

theorem readWithin_every (own : ∀ node : Reader SchemaNode, (schema node).Gives kind good)
    (levels : Nat) : (readWithin levels).Gives kind (Every good) := by
  have invalid (value : Json) : Every good (.invalid value) := by
    intro s here
    cases here
  have reference (target : String) : Every good (.reference target) := by
    intro s here
    cases here
  induction levels with
  | zero =>
    intro mode tree node within done
    obtain ⟨value, -, same⟩ := except_map_ok done
    exact same ▸ invalid value
  | succ levels ih =>
    exact lenient_gives (gives_and (own _) (schema_parts ih)) reference
      (fun s fine => every_inline fine.1 fine.2) invalid

theorem read_every (own : ∀ node : Reader SchemaNode, (schema node).Gives kind good) :
    read.Gives kind (Every good) :=
  fun mode tree node within done => readWithin_every own (tree.height + 1) mode tree node within done

end SchemaNode

-- No property of the schema has the key of another one.
def Schema.Distinct (s : Schema) : Prop := (Entries.keys s.properties).Nodup

theorem SchemaNode.schema_distinct {kind : Number → Prop} (node : Reader SchemaNode) :
    (schema node).Gives kind Schema.Distinct := by
  have index : 5 < (outline node).slots.length := of_decide_eq_true rfl
  exact Outline.slot_gives (o := outline node) (r := record node) rfl
    (List.get_mem (outline node).slots ⟨5, index⟩)
    (fun all : Entries SchemaNode => (Entries.keys all).Nodup) List.nodup_nil (entries_distinct node)

/-- No inline schema of a document that was read repeats the key of a property. -/
theorem ApiDocument.Parsed.distinct {d : ApiDocument} (parsed : d.Parsed) :
    ∀ s ∈ d.inlineSchemas, s.Distinct := by
  have reads : read.Gives Number.InRange fun d => ∀ s ∈ d.inlineSchemas, s.Distinct :=
    read_schemas (SchemaNode.read_every SchemaNode.schema_distinct)
  cases parsed with
  | text done => exact reads _ _ _ (JsonText.read_inRange _) (ofJsonText_root done)
  | value proper done => exact reads _ _ _ proper.inRange (supported_ok done)

end ApiLowering
