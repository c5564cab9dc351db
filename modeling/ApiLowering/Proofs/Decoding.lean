import ApiLowering.Document.Source
import ApiLowering.Proofs.JsonTrees
import ApiLowering.Proofs.Shape

/-!
Decoding of documents from JSON. A decoder that is given numbers of a kind puts only such numbers into
the schemas of a document, however deep they are nested, so every bound is of that kind.
-/

set_option autoImplicit false

namespace ApiLowering

theorem except_bind_ok {ε α β : Type} {x : Except ε α} {f : α → Except ε β} {b : β}
    (done : x >>= f = .ok b) : ∃ a, x = .ok a ∧ f a = .ok b := by
  cases x with
  | error e => cases done
  | ok a => exact ⟨a, rfl, done⟩

theorem except_map_ok {ε α β : Type} {x : Except ε α} {f : α → β} {b : β}
    (done : x.map f = .ok b) : ∃ a, x = .ok a ∧ f a = b := by
  cases x with
  | error e => cases done
  | ok a => exact ⟨a, rfl, Except.ok.inj done⟩

theorem Tree.Over.bare {kind : Number → Prop} {node : Tree} (within : node.Over kind) :
    node.bare = node := by
  cases within <;> rfl

-- What a decoder gives when every number that it is given is of the kind.
def Reader.Gives {α : Type} (kind : Number → Prop) (p : α → Prop) (reader : Reader α) : Prop :=
  ∀ mode node a, node.Over kind → reader mode node = .ok a → p a

-- What a field keeps true of a record when every number that it is given is of the kind.
def Field.Keeps {α : Type} (kind : Number → Prop) (p : α → Prop) (f : Field α) : Prop :=
  ∀ mode node record next, node.Over kind → p record → f.read mode node record = .ok next → p next

section

variable {α β : Type} {kind : Number → Prop} {p : α → Prop} {q : β → Prop}

theorem gives_any (reader : Reader α) : reader.Gives kind fun _ => True := fun _ _ _ _ _ => trivial

mutual
theorem hold_over (node : Tree) {held : Tree} (within : node.Over kind) (done : node.hold = .ok held) :
    held.Over kind := by
  match node with
  | .scalar s =>
    cases done
    exact within
  | .plain _ _ => cases within
  | .list items stop =>
    rw [Tree.hold] at done
    obtain ⟨inner, each, done⟩ := except_bind_ok done
    obtain ⟨-, -, done⟩ := except_bind_ok done
    cases done
    cases within with
    | list fine => exact .list (holdList_over items fine each)
  | .map entries stop =>
    rw [Tree.hold] at done
    obtain ⟨inner, each, done⟩ := except_bind_ok done
    obtain ⟨-, -, done⟩ := except_bind_ok done
    cases done
    cases within with
    | map fine => exact .map (holdEntries_over entries fine each)
  | .tagged _ => cases within
  | .flawed flaw => cases done

theorem holdList_over (items : List Tree) {held : List Tree} (within : ∀ node ∈ items, node.Over kind)
    (done : Tree.holdList items = .ok held) : ∀ node ∈ held, node.Over kind := by
  match items with
  | [] =>
    cases done
    exact fun _ here => absurd here List.not_mem_nil
  | item :: rest =>
    rw [Tree.holdList] at done
    obtain ⟨first, one, done⟩ := except_bind_ok done
    obtain ⟨more, others, done⟩ := except_bind_ok done
    cases done
    exact List.forall_mem_cons.mpr ⟨hold_over item (within item List.mem_cons_self) one,
      holdList_over rest (fun node here => within node (List.mem_cons_of_mem _ here)) others⟩

theorem holdEntries_over (entries : List (Key × Tree)) {held : List (Key × Tree)}
    (within : ∀ e ∈ entries, e.2.Over kind) (done : Tree.holdEntries entries = .ok held) :
    ∀ e ∈ held, e.2.Over kind := by
  match entries with
  | [] =>
    cases done
    exact fun _ here => absurd here List.not_mem_nil
  | (key, item) :: rest =>
    rw [Tree.holdEntries] at done
    obtain ⟨name, -, done⟩ := except_bind_ok done
    obtain ⟨first, one, done⟩ := except_bind_ok done
    obtain ⟨more, others, done⟩ := except_bind_ok done
    cases done
    exact List.forall_mem_cons.mpr ⟨hold_over item (within _ List.mem_cons_self) one,
      holdEntries_over rest (fun e here => within e (List.mem_cons_of_mem _ here)) others⟩
end

theorem holdIn_over {mode : Mode} {node held : Tree} (within : node.Over kind)
    (done : node.holdIn mode = .ok held) : held.Over kind := by
  cases mode with
  | streamed _ => exact hold_over node within done
  | held =>
    cases done
    exact within

theorem each_gives {item : Reader α} {mode : Mode} (one : item.Gives kind p) {items : List Tree}
    {read : List α} (fine : ∀ node ∈ items, node.Over kind)
    (done : Reader.each (item mode) items = .ok read) : ∀ a ∈ read, p a := by
  induction items generalizing read with
  | nil =>
    cases done
    exact fun _ here => absurd here List.not_mem_nil
  | cons node rest ih =>
    obtain ⟨first, here, done⟩ := except_bind_ok done
    obtain ⟨more, others, done⟩ := except_bind_ok done
    cases done
    obtain ⟨nodeFine, restFine⟩ := List.forall_mem_cons.mp fine
    exact List.forall_mem_cons.mpr ⟨one mode node first nodeFine here, ih restFine others⟩

theorem list_gives {item : Reader α} (one : item.Gives kind p) :
    (Reader.list item).Gives kind fun all => ∀ a ∈ all, p a := by
  intro mode node all within done
  unfold Reader.list at done
  rw [within.bare] at done
  split at done
  · obtain ⟨read, items, done⟩ := except_bind_ok done
    obtain ⟨-, -, done⟩ := except_bind_ok done
    cases done
    cases within with
    | list fine => exact each_gives one fine items
  · split at done
    · cases done
      exact fun _ here => absurd here List.not_mem_nil
    · obtain ⟨found, -, done⟩ := except_bind_ok done
      cases done

theorem put_values {entries : Entries α} {key : String} {a : α} (fine : p a)
    (all : ∀ e ∈ entries, p e.2) : ∀ e ∈ Entries.put key a entries, p e.2 := by
  induction entries with
  | nil =>
    intro e here
    cases List.mem_singleton.mp here
    exact fine
  | cons first rest ih =>
    obtain ⟨firstFine, restFine⟩ := List.forall_mem_cons.mp all
    rw [Entries.put.eq_def]
    dsimp only
    split
    · exact List.forall_mem_cons.mpr ⟨fine, restFine⟩
    · exact List.forall_mem_cons.mpr ⟨firstFine, ih restFine⟩

theorem collect_values {entries : Entries α} (all : ∀ e ∈ entries, p e.2) :
    ∀ e ∈ Entries.collect entries, p e.2 := by
  have folded (seen : Entries α) (before : ∀ e ∈ seen, p e.2) :
      ∀ e ∈ entries.foldl (fun seen e => Entries.put e.1 e.2 seen) seen, p e.2 := by
    induction entries generalizing seen with
    | nil => exact before
    | cons first rest ih =>
      obtain ⟨firstFine, restFine⟩ := List.forall_mem_cons.mp all
      exact ih restFine _ (put_values firstFine before)
  exact folded [] fun _ here => absurd here List.not_mem_nil

theorem eachEntry_gives {value : Reader α} {mode : Mode} (one : value.Gives kind p)
    {entries : List (Key × Tree)} {read : Entries α} (fine : ∀ e ∈ entries, e.2.Over kind)
    (done : Reader.eachEntry mode (value mode) entries = .ok read) : ∀ e ∈ read, p e.2 := by
  induction entries generalizing read with
  | nil =>
    cases done
    exact fun _ here => absurd here List.not_mem_nil
  | cons e rest ih =>
    obtain ⟨name, -, done⟩ := except_bind_ok done
    obtain ⟨first, here, done⟩ := except_bind_ok done
    obtain ⟨more, others, done⟩ := except_bind_ok done
    cases done
    obtain ⟨nodeFine, restFine⟩ := List.forall_mem_cons.mp fine
    exact List.forall_mem_cons.mpr ⟨one mode e.2 first nodeFine here, ih restFine others⟩

theorem entries_gives {value : Reader α} (one : value.Gives kind p) :
    (Reader.entries value).Gives kind fun all => ∀ e ∈ all, p e.2 := by
  intro mode node all within done
  unfold Reader.entries at done
  rw [within.bare] at done
  split at done
  · obtain ⟨read, entries, done⟩ := except_bind_ok done
    obtain ⟨-, -, done⟩ := except_bind_ok done
    cases done
    cases within with
    | map fine => exact collect_values (eachEntry_gives one fine entries)
  · split at done
    · cases done
      exact fun _ here => absurd here List.not_mem_nil
    · obtain ⟨found, -, done⟩ := except_bind_ok done
      cases done

theorem optional_gives {value : Reader α} (each : value.Gives kind p) :
    (Reader.optional value).Gives kind fun found => ∀ a ∈ found, p a := by
  intro mode node found within done
  unfold Reader.optional at done
  split at done
  · cases done
    exact fun _ here => nomatch here
  · cases done
    exact fun _ here => nomatch here
  · obtain ⟨a, read, same⟩ := except_map_ok done
    subst same
    intro b here
    cases here
    exact each mode node a within read

theorem required_keeps {name : String} {reader : Reader β} {set : β → α → α}
    (gives : reader.Gives kind q) (sets : ∀ v record, q v → p record → p (set v record)) :
    (Field.required name reader set).Keeps kind p := by
  intro mode node record next within before done
  obtain ⟨v, read, same⟩ := except_map_ok done
  exact same ▸ sets v record (gives mode node v within read) before

theorem defaulted_keeps {name : String} {reader : Reader β} {set : β → α → α}
    (gives : reader.Gives kind q) (sets : ∀ v record, q v → p record → p (set v record)) :
    (Field.defaulted name reader set).Keeps kind p := by
  intro mode node record next within before done
  obtain ⟨v, read, same⟩ := except_map_ok done
  exact same ▸ sets v record (gives mode node v within read) before

theorem optional_keeps {name : String} {reader : Reader β} {set : Option β → α → α}
    (gives : reader.Gives kind q)
    (sets : ∀ v record, (∀ a ∈ v, q a) → p record → p (set v record)) :
    (Field.optional name reader set).Keeps kind p := by
  intro mode node record next within before done
  obtain ⟨v, read, same⟩ := except_map_ok done
  exact same ▸ sets v record (optional_gives gives mode node v within read) before

theorem readField_keeps {mode : Mode} {f : Field α} {node : Tree}
    {before after : Record.Progress α} (keeps : f.Keeps kind p) (within : node.Over kind)
    (start : p before.record) (done : Record.readField mode f node before = .ok after) :
    p after.record := by
  by_cases again : before.seen.contains f.name = true
  · rw [Record.readField, if_pos again] at done
    cases done
  · rw [Record.readField, if_neg again] at done
    obtain ⟨record, changed, same⟩ := except_map_ok done
    subst same
    exact keeps mode node _ record within start changed

theorem readOpen_keeps {mode : Mode} {fields : List (Field α)} (keep : ∀ f ∈ fields, f.Keeps kind p)
    {entries : List (Key × Tree)} {before after : Record.Progress α}
    (fine : ∀ e ∈ entries, e.2.Over kind) (start : p before.record)
    (done : Record.readOpen mode fields entries before = .ok after) : p after.record := by
  induction entries generalizing before with
  | nil =>
    cases done
    exact start
  | cons e rest ih =>
    obtain ⟨key, item⟩ := e
    obtain ⟨first, later⟩ := List.forall_mem_cons.mp fine
    rw [Record.readOpen] at done
    obtain ⟨name, -, done⟩ := except_bind_ok done
    split at done
    · rename_i f known
      obtain ⟨next, read, done⟩ := except_bind_ok done
      have keeps := keep f (List.mem_of_find?_eq_some known)
      exact ih later (readField_keeps keeps first start read) done
    · -- an entry that no field names is set aside
      obtain ⟨held, -, done⟩ := except_bind_ok done
      refine ih later ?_ done
      exact start

theorem complete_same {fields : List (Field α)} {stop : Option Fault}
    {before after : Record.Progress α}
    (done : Record.complete fields stop before = .ok after) : after = before := by
  obtain ⟨-, -, done⟩ := except_bind_ok done
  split at done
  · cases done
  · exact (Except.ok.inj done).symm

theorem readExtended_gives {r : Record α} {extend : Entries Json → α → α} (blank : p r.blank)
    (fields : ∀ f ∈ r.fields, f.Keeps kind p) (extending : ∀ more a, p a → p (extend more a)) :
    (r.readExtended extend).Gives kind p := by
  intro mode node a within done
  have extended {others : List (Key × Tree)} {record : α} (before : p record)
      (done : (do
        let extensions ← Reader.valueEntries .held others
        return extend (Entries.collect extensions) record : Except DecodeError α) = .ok a) : p a := by
    obtain ⟨extensions, -, done⟩ := except_bind_ok done
    cases done
    exact extending _ record before
  unfold Record.readExtended Record.readWith at done
  rw [within.bare] at done
  split at done
  · obtain ⟨before, read, done⟩ := except_bind_ok done
    obtain ⟨after, whole, done⟩ := except_bind_ok done
    cases complete_same whole
    cases within with
    | map fine => exact extended (readOpen_keeps fields fine blank read) done
  · split at done
    · obtain ⟨after, whole, done⟩ := except_bind_ok done
      cases complete_same whole
      exact extended blank done
    · obtain ⟨found, -, done⟩ := except_bind_ok done
      cases done

end

def Schema.Bounds (ok : Binary64 → Prop) (s : Schema) : Prop :=
  (∀ x ∈ s.minimum, ok x) ∧ ∀ x ∈ s.maximum, ok x

-- Every bound in an inline schema of the node, however deep, is as asked.
def SchemaNode.Bounds (ok : Binary64 → Prop) (node : SchemaNode) : Prop :=
  ∀ s ∈ node.inlineSchemas, s.Bounds ok

section

variable {kind : Number → Prop} {ok : Binary64 → Prop}

structure BoundedSchema (ok : Binary64 → Prop) (s : Schema) : Prop where
  minimum : ∀ x ∈ s.minimum, ok x
  maximum : ∀ x ∈ s.maximum, ok x
  properties : ∀ e ∈ s.properties, e.2.Bounds ok
  additional : ∀ node, s.additionalProperties = some (.schema node) → node.Bounds ok
  items : ∀ node ∈ s.items, node.Bounds ok
  allOf : ∀ node ∈ s.allOf, node.Bounds ok
  oneOf : ∀ node ∈ s.oneOf, node.Bounds ok
  anyOf : ∀ node ∈ s.anyOf, node.Bounds ok

theorem empty_bounded : BoundedSchema ok Keywords.empty where
  minimum _ here := nomatch here
  maximum _ here := nomatch here
  properties _ here := absurd here List.not_mem_nil
  additional _ same := nomatch same
  items _ here := nomatch here
  allOf _ here := absurd here List.not_mem_nil
  oneOf _ here := absurd here List.not_mem_nil
  anyOf _ here := absurd here List.not_mem_nil

theorem entrySchemas_bounds {entries : List (String × SchemaNode)}
    (each : ∀ e ∈ entries, e.2.Bounds ok) : ∀ s ∈ SchemaNode.entrySchemas entries, s.Bounds ok := by
  induction entries with
  | nil =>
    intro s here
    cases here
  | cons e rest ih =>
    obtain ⟨first, later⟩ := List.forall_mem_cons.mp each
    rw [SchemaNode.entrySchemas.eq_def]
    intro s here
    rcases List.mem_append.mp here with here | there
    · exact first s here
    · exact ih later s there

theorem listSchemas_bounds {nodes : List SchemaNode} (each : ∀ node ∈ nodes, node.Bounds ok) :
    ∀ s ∈ SchemaNode.listSchemas nodes, s.Bounds ok := by
  induction nodes with
  | nil =>
    intro s here
    cases here
  | cons node rest ih =>
    obtain ⟨first, later⟩ := List.forall_mem_cons.mp each
    rw [SchemaNode.listSchemas.eq_def]
    intro s here
    rcases List.mem_append.mp here with here | there
    · exact first s here
    · exact ih later s there

theorem optionSchemas_bounds {found : Option SchemaNode} (each : ∀ node ∈ found, node.Bounds ok) :
    ∀ s ∈ SchemaNode.optionSchemas found, s.Bounds ok := by
  intro s here
  cases found with
  | none => cases here
  | some node => exact each node rfl s here

theorem inline_bounds {s : Schema} (bounded : BoundedSchema ok s) :
    (SchemaNode.inline s).Bounds ok := by
  intro t here
  rw [SchemaNode.inlineSchemas] at here
  rcases List.mem_cons.mp here with same | nested
  · subst same
    exact ⟨bounded.minimum, bounded.maximum⟩
  · rw [SchemaNode.nestedSchemas_eq] at nested
    simp only [List.mem_append] at nested
    rcases nested with ((((inProperties | inItems) | inMore) | inAll) | inOne) | inAny
    · exact entrySchemas_bounds bounded.properties t inProperties
    · exact optionSchemas_bounds bounded.items t inItems
    · cases present : s.additionalProperties with
      | none =>
        rw [present] at inMore
        cases inMore
      | some more =>
        rw [present] at inMore
        cases more with
        | allowed value => cases inMore
        | schema node => exact bounded.additional node present t inMore
    · exact listSchemas_bounds bounded.allOf t inAll
    · exact listSchemas_bounds bounded.oneOf t inOne
    · exact listSchemas_bounds bounded.anyOf t inAny

theorem number_kind {expected : String} {node : Tree} {n : Number} (within : node.Over kind)
    (read : Reader.number expected node = .ok n) : kind n := by
  unfold Reader.number at read
  rw [within.bare] at read
  cases within with
  | scalar fine =>
    split at read
    · rename_i same
      cases same
      cases read
      exact fine _ rfl
    · rename_i same
      cases same
    · obtain ⟨found, -, other⟩ := except_bind_ok read
      cases other
  | list _ | map _ | flawed =>
    obtain ⟨found, -, other⟩ := except_bind_ok read
    cases other

theorem real_gives (integers : ∀ n, kind (.integer n) → ok (.ofInt n))
    (reals : ∀ x, kind (.real x) → ok x) : Reader.real.Gives kind ok := by
  intro mode node x within done
  obtain ⟨n, read, done⟩ := except_bind_ok done
  have number := number_kind within read
  cases n with
  | integer i =>
    cases done
    exact integers i number
  | real y =>
    cases done
    exact reals x number

theorem additional_gives {node : Reader SchemaNode} {p : SchemaNode → Prop}
    (gives : node.Gives kind p) :
    (SchemaNode.readAdditional node).Gives kind fun more => ∀ inner, more = .schema inner →
      p inner := by
  intro mode tree more within done inner same
  unfold SchemaNode.readAdditional at done
  split at done
  · cases done
    cases same
  · obtain ⟨found, read, wrapped⟩ := except_map_ok done
    subst same
    cases wrapped
    exact gives mode tree inner within read

theorem schema_gives {node : Reader SchemaNode} (reals : Reader.real.Gives kind ok)
    (gives : node.Gives kind (SchemaNode.Bounds ok)) :
    (SchemaNode.schema node).Gives kind (BoundedSchema ok) := by
  refine readExtended_gives empty_bounded (fun f here => ?_) fun more s fine => { fine with }
  simp only [SchemaNode.record, List.mem_cons, List.not_mem_nil, or_false] at here
  have plain {β : Type} {name : String} {reader : Reader β} {set : Option β → Schema → Schema}
      (sets : ∀ v s, BoundedSchema ok s → BoundedSchema ok (set v s)) :
      (Field.optional name reader set).Keeps kind (BoundedSchema ok) :=
    optional_keeps (gives_any reader) fun v s _ fine => sets v s fine
  have listed {β : Type} {name : String} {reader : Reader β} {set : β → Schema → Schema}
      (sets : ∀ v s, BoundedSchema ok s → BoundedSchema ok (set v s)) :
      (Field.defaulted name reader set).Keeps kind (BoundedSchema ok) :=
    defaulted_keeps (gives_any reader) fun v s _ fine => sets v s fine
  rcases here with same | same | same | same | same | same | same | same | same | same | same |
    same | same | same | same | same | same | same | same | same <;> subst same
  · exact plain fun v s fine => { fine with }
  · exact plain fun v s fine => { fine with }
  · exact plain fun v s fine => { fine with }
  · exact plain fun v s fine => { fine with }
  · exact plain fun v s fine => { fine with }
  · exact defaulted_keeps (entries_gives gives) fun v s given fine =>
      { fine with properties := given }
  · exact listed fun v s fine => { fine with }
  · exact optional_keeps (additional_gives gives) fun v s given fine =>
      { fine with additional := fun inner same => given (.schema inner) same inner rfl }
  · exact optional_keeps gives fun v s given fine => { fine with items := given }
  · exact defaulted_keeps (list_gives gives) fun v s given fine => { fine with allOf := given }
  · exact defaulted_keeps (list_gives gives) fun v s given fine => { fine with oneOf := given }
  · exact defaulted_keeps (list_gives gives) fun v s given fine => { fine with anyOf := given }
  · exact plain fun v s fine => { fine with }
  · exact listed fun v s fine => { fine with }
  · exact plain fun v s fine => { fine with }
  · exact optional_keeps reals fun v s given fine => { fine with minimum := given }
  · exact optional_keeps reals fun v s given fine => { fine with maximum := given }
  · exact plain fun v s fine => { fine with }
  · exact plain fun v s fine => { fine with }
  · exact plain fun v s fine => { fine with }

theorem reference_bounds (target : String) : (SchemaNode.reference target).Bounds ok := by
  intro s here
  cases here

theorem invalid_bounds (value : Json) : (SchemaNode.invalid value).Bounds ok := by
  intro s here
  cases here

theorem readWithin_gives (reals : Reader.real.Gives kind ok) (levels : Nat) :
    (SchemaNode.readWithin levels).Gives kind (SchemaNode.Bounds ok) := by
  induction levels with
  | zero =>
    intro mode tree node within done
    obtain ⟨value, -, same⟩ := except_map_ok done
    exact same ▸ invalid_bounds value
  | succ levels ih =>
    intro mode tree node within done
    obtain ⟨held, holding, done⟩ := except_bind_ok done
    split at done
    · cases done
      exact reference_bounds _
    · split at done
      · rename_i s read
        cases done
        exact inline_bounds (schema_gives reals ih .held held s (holdIn_over within holding) read)
      · obtain ⟨value, -, same⟩ := except_map_ok done
        exact same ▸ invalid_bounds value

theorem schemaNode_gives (reals : Reader.real.Gives kind ok) :
    SchemaNode.read.Gives kind (SchemaNode.Bounds ok) :=
  fun mode tree node within done => readWithin_gives reals (tree.height + 1) mode tree node within done

theorem components_schemas {q : Entries SchemaNode → Prop} (empty : q [])
    (schemas : (Reader.entries SchemaNode.read).Gives kind q) :
    Components.read.Gives kind fun c => q c.schemas := by
  refine readExtended_gives empty (fun f here => ?_) fun more c fine => fine
  simp only [Components.record, List.mem_cons, List.not_mem_nil, or_false] at here
  rcases here with same | same | same | same | same <;> subst same
  · exact defaulted_keeps schemas fun v c given _ => given
  · exact defaulted_keeps (gives_any _) fun v c _ fine => fine
  · exact defaulted_keeps (gives_any _) fun v c _ fine => fine
  · exact defaulted_keeps (gives_any _) fun v c _ fine => fine
  · exact defaulted_keeps (gives_any _) fun v c _ fine => fine

theorem document_components {q : Components → Prop} (components : Components.read.Gives kind q) :
    ApiDocument.read.Gives kind fun d => ∀ c ∈ d.components, q c := by
  refine readExtended_gives (fun _ here => nomatch here) (fun f here => ?_) fun more d fine => fine
  simp only [ApiDocument.record, List.mem_cons, List.not_mem_nil, or_false] at here
  rcases here with same | same | same | same | same | same | same | same <;> subst same
  · exact required_keeps (gives_any _) fun v d _ fine => fine
  · exact optional_keeps (gives_any _) fun v d _ fine => fine
  · exact defaulted_keeps (gives_any _) fun v d _ fine => fine
  · exact defaulted_keeps (gives_any _) fun v d _ fine => fine
  · exact defaulted_keeps (gives_any _) fun v d _ fine => fine
  · exact optional_keeps components fun v d given _ => given
  · exact defaulted_keeps (gives_any _) fun v d _ fine => fine
  · exact optional_keeps (gives_any _) fun v d _ fine => fine

end

/-- A document that was read from a JSON text, or from a JSON value all of whose numbers are. -/
inductive ApiDocument.FromJson (d : ApiDocument) : Prop where
  | text {text : String} (read : ofJsonText text = .ok d)
  | value {value : Json} (real : (Tree.ofJson value).Real) (read : ofJson value = .ok d)

namespace ApiDocument

theorem supported_ok {format : DocumentFormat} {decoded : Except DecodeError ApiDocument}
    {d : ApiDocument} (accepted : supported format decoded = .ok d) : decoded = .ok d := by
  cases decoded with
  | error e => cases accepted
  | ok other =>
    by_cases three : Text.startsWith "3.".toList other.openapi.toList = true
    · rw [supported, if_pos three] at accepted
      exact congrArg Except.ok (Except.ok.inj accepted)
    · rw [supported, if_neg three] at accepted
      cases accepted

theorem ofJsonText_root {text : String} {d : ApiDocument} (done : ofJsonText text = .ok d) :
    read .json (JsonText.read text).root = .ok d := by
  obtain ⟨value, decoded, done⟩ := except_bind_ok (supported_ok done)
  obtain ⟨-, -, done⟩ := except_bind_ok done
  cases done
  exact decoded

end ApiDocument

theorem fromJson_gives {p : ApiDocument → Prop} (gives : ApiDocument.read.Gives Number.Real p)
    {d : ApiDocument} (parsed : d.FromJson) : p d := by
  cases parsed with
  | text read =>
    refine gives _ _ _ ?_ (ApiDocument.ofJsonText_root read)
    exact (JsonText.read_inRange _).mono fun _ => Number.InRange.real
  | value real read => exact gives _ _ _ real.overReal (ApiDocument.supported_ok read)

theorem fromJson_real {d : ApiDocument} (parsed : d.FromJson) :
    ∀ e ∈ d.componentSchemas, SchemaLowering.RealNode e.2 := by
  have reals : Reader.real.Gives Number.Real fun x => x.isNaN = false :=
    real_gives (fun _ _ => Binary64.isNaN_ofRatio _ _ _) fun _ real => real
  have components := components_schemas (fun _ here => absurd here List.not_mem_nil)
    (entries_gives (schemaNode_gives reals))
  have document := fromJson_gives (document_components components) parsed
  intro e here
  cases present : d.components with
  | some c =>
    simp only [ApiDocument.componentSchemas, present] at here
    exact document c present e here
  | none =>
    simp only [ApiDocument.componentSchemas, present] at here
    cases here

theorem put_keys {α : Type} {key : String} {value : α} {entries : Entries α}
    (distinct : (Entries.keys entries).Nodup) : (Entries.keys (Entries.put key value entries)).Nodup ∧
      ∀ k ∈ Entries.keys (Entries.put key value entries), k = key ∨ k ∈ Entries.keys entries := by
  induction entries with
  | nil =>
    have single : (Entries.keys [(key, value)]).Nodup :=
      List.nodup_cons.mpr ⟨List.not_mem_nil, List.nodup_nil⟩
    exact ⟨single, fun k here => .inl (List.mem_singleton.mp here)⟩
  | cons e rest ih =>
    obtain ⟨first, v⟩ := e
    obtain ⟨fresh, others⟩ := List.nodup_cons.mp distinct
    by_cases here : first = key
    · subst here
      rw [Entries.put, if_pos rfl]
      exact ⟨distinct, fun k listed => .inr listed⟩
    · rw [Entries.put, if_neg here]
      obtain ⟨distinctRest, among⟩ := ih others
      refine ⟨List.nodup_cons.mpr ⟨fun listed => ?_, distinctRest⟩, fun k listed => ?_⟩
      · exact (among first listed).elim here fresh
      · rcases List.mem_cons.mp listed with same | later
        · exact .inr (same ▸ List.mem_cons_self)
        · exact (among k later).imp_right (List.mem_cons_of_mem _)

theorem collect_distinct {α : Type} (entries : Entries α) :
    (Entries.keys (Entries.collect entries)).Nodup := by
  have folded (all seen : Entries α) (distinct : (Entries.keys seen).Nodup) :
      (Entries.keys (all.foldl (fun seen e => Entries.put e.1 e.2 seen) seen)).Nodup := by
    induction all generalizing seen with
    | nil => exact distinct
    | cons e rest ih => exact ih _ (put_keys distinct).1
  exact folded entries [] List.nodup_nil

theorem entries_distinct {α : Type} {kind : Number → Prop} (value : Reader α) :
    (Reader.entries value).Gives kind fun all => (Entries.keys all).Nodup := by
  intro mode node all _ done
  unfold Reader.entries at done
  split at done
  · obtain ⟨entries, -, done⟩ := except_bind_ok done
    obtain ⟨-, -, done⟩ := except_bind_ok done
    cases done
    exact collect_distinct entries
  · split at done
    · cases done
      exact List.nodup_nil
    · obtain ⟨found, -, done⟩ := except_bind_ok done
      cases done

/-- The component schemas of a document that was read have different ids. -/
theorem fromJson_distinct {d : ApiDocument} (parsed : d.FromJson) :
    (Entries.keys d.componentSchemas).Nodup := by
  have components : Components.read.Gives Number.Real fun c => (Entries.keys c.schemas).Nodup :=
    components_schemas (q := fun schemas => (Entries.keys schemas).Nodup) List.nodup_nil
      (entries_distinct SchemaNode.read)
  have document := fromJson_gives (document_components components) parsed
  cases present : d.components with
  | some c =>
    simp only [ApiDocument.componentSchemas, present]
    exact document c present
  | none =>
    simp only [ApiDocument.componentSchemas, present]
    exact List.nodup_nil

end ApiLowering
