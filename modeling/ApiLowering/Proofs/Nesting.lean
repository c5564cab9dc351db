import ApiLowering.Document.Schema.Basic

/-!
Schemas nested in a node. Whatever is nested in one of the inline schemas of a node is among the
inline schemas of the node as well.
-/

set_option autoImplicit false

namespace ApiLowering.SchemaNode

inductive PartOf (s : Schema) (node : SchemaNode) : Prop where
  | items (present : s.items = some node)
  | additional (present : s.additionalProperties = some (.schema node))
  | property {key : String} (listed : (key, node) ∈ s.properties)
  | all (listed : node ∈ s.allOf)
  | one (listed : node ∈ s.oneOf)
  | any (listed : node ∈ s.anyOf)

theorem entry_nested {key : String} {node : SchemaNode} {entries : List (String × SchemaNode)}
    (listed : (key, node) ∈ entries) : node.inlineSchemas ⊆ entrySchemas entries := by
  induction entries with
  | nil => cases listed
  | cons e rest ih =>
    rw [entrySchemas.eq_def]
    rcases List.mem_cons.mp listed with same | there
    · subst same
      exact List.subset_append_left _ _
    · exact fun s here => List.mem_append_right _ (ih there here)

theorem member_nested {node : SchemaNode} {nodes : List SchemaNode} (listed : node ∈ nodes) :
    node.inlineSchemas ⊆ listSchemas nodes := by
  induction nodes with
  | nil => cases listed
  | cons first rest ih =>
    rw [listSchemas.eq_def]
    rcases List.mem_cons.mp listed with same | there
    · subst same
      exact List.subset_append_left _ _
    · exact fun s here => List.mem_append_right _ (ih there here)

theorem nestedSchemas_eq (s : Schema) :
    nestedSchemas s = entrySchemas s.properties ++ optionSchemas s.items
      ++ additionalSchemas s.additionalProperties ++ listSchemas s.allOf ++ listSchemas s.oneOf
      ++ listSchemas s.anyOf := by
  cases s
  rw [nestedSchemas]

theorem part_nested {s : Schema} {node : SchemaNode} (part : PartOf s node) :
    node.inlineSchemas ⊆ nestedSchemas s := by
  intro t here
  simp only [nestedSchemas_eq, List.mem_append]
  cases part with
  | items present =>
    simp only [present, optionSchemas]
    exact .inl (.inl (.inl (.inl (.inr here))))
  | additional present =>
    simp only [present, additionalSchemas]
    exact .inl (.inl (.inl (.inr here)))
  | property listed => exact .inl (.inl (.inl (.inl (.inl (entry_nested listed here)))))
  | all listed => exact .inl (.inl (.inr (member_nested listed here)))
  | one listed => exact .inl (.inr (member_nested listed here))
  | any listed => exact .inr (member_nested listed here)

mutual
theorem inlineSchemas_nested (node : SchemaNode) {s : Schema} (here : s ∈ node.inlineSchemas) :
    nestedSchemas s ⊆ node.inlineSchemas := by
  match node with
  | .reference target => cases here
  | .inline t =>
    rw [inlineSchemas] at here ⊢
    rcases List.mem_cons.mp here with same | inside
    · subst same
      exact List.subset_cons_self _ _
    · exact fun u deep => List.mem_cons_of_mem _ (nestedSchemas_nested t inside deep)
  | .invalid value => cases here

theorem nestedSchemas_nested (t : Schema) {s : Schema} (here : s ∈ nestedSchemas t) :
    nestedSchemas s ⊆ nestedSchemas t := by
  intro u deep
  match t with
  | { properties, additionalProperties, items, allOf, oneOf, anyOf, .. } =>
    simp only [nestedSchemas, List.mem_append] at here ⊢
    rcases here with ((((inProperties | inItems) | inMore) | inAll) | inOne) | inAny
    · exact .inl (.inl (.inl (.inl (.inl (entrySchemas_nested properties inProperties deep)))))
    · exact .inl (.inl (.inl (.inl (.inr (optionSchemas_nested items inItems deep)))))
    · exact .inl (.inl (.inl (.inr (additionalSchemas_nested additionalProperties inMore deep))))
    · exact .inl (.inl (.inr (listSchemas_nested allOf inAll deep)))
    · exact .inl (.inr (listSchemas_nested oneOf inOne deep))
    · exact .inr (listSchemas_nested anyOf inAny deep)

theorem entrySchemas_nested (entries : List (String × SchemaNode)) {s : Schema}
    (here : s ∈ entrySchemas entries) : nestedSchemas s ⊆ entrySchemas entries := by
  match entries with
  | [] => cases here
  | (key, node) :: rest =>
    rw [entrySchemas] at here ⊢
    rcases List.mem_append.mp here with first | later
    · exact fun u deep => List.mem_append_left _ (inlineSchemas_nested node first deep)
    · exact fun u deep => List.mem_append_right _ (entrySchemas_nested rest later deep)

theorem listSchemas_nested (nodes : List SchemaNode) {s : Schema}
    (here : s ∈ listSchemas nodes) : nestedSchemas s ⊆ listSchemas nodes := by
  match nodes with
  | [] => cases here
  | node :: rest =>
    rw [listSchemas] at here ⊢
    rcases List.mem_append.mp here with first | later
    · exact fun u deep => List.mem_append_left _ (inlineSchemas_nested node first deep)
    · exact fun u deep => List.mem_append_right _ (listSchemas_nested rest later deep)

theorem optionSchemas_nested (found : Option SchemaNode) {s : Schema}
    (here : s ∈ optionSchemas found) : nestedSchemas s ⊆ optionSchemas found := by
  match found with
  | none => cases here
  | some node => exact inlineSchemas_nested node here

theorem additionalSchemas_nested (found : Option (Additional SchemaNode)) {s : Schema}
    (here : s ∈ additionalSchemas found) : nestedSchemas s ⊆ additionalSchemas found := by
  match found with
  | none => cases here
  | some (.allowed value) => cases here
  | some (.schema node) => exact inlineSchemas_nested node here
end

theorem part_inlineSchemas {s : Schema} {part node : SchemaNode} (here : s ∈ node.inlineSchemas)
    (within : PartOf s part) : part.inlineSchemas ⊆ node.inlineSchemas :=
  fun _ deep => inlineSchemas_nested node here (part_nested within deep)

end ApiLowering.SchemaNode
