import ApiLowering.Proofs.Parts

/-!
Lenient nodes are local. Whatever value stands where a document holds a lenient node, the document is
parsed, and it is the same document but for that node.
-/

set_option autoImplicit false

namespace ApiLowering

namespace Reader

variable {α ν : Type} {reference : String → ν} {inline : Reader α} {wrap : α → ν}
  {invalid : Json → ν} {value : Json}

theorem lenient_total (proper : value.Proper) :
    ∃ node, ∀ mode, lenient reference inline wrap invalid mode (Tree.ofJson value) = .ok node := by
  simp only [lenient_ofJson]
  cases referenceTarget? (Tree.ofJson value) with
  | some target => exact ⟨_, fun _ => rfl⟩
  | none =>
    cases inline .held (Tree.ofJson value) with
    | ok a => exact ⟨_, fun _ => rfl⟩
    | error e =>
      rw [value_proper .held proper]
      exact ⟨_, fun _ => rfl⟩

end Reader

theorem SecuritySchemeNode.read_total {value : Json} (proper : value.Proper) :
    ∃ node, ∀ mode, read mode (Tree.ofJson value) = .ok node := by
  simp only [read, Tree.ofJson_holdIn, bind, Except.bind]
  cases SecurityScheme.read .held (Tree.ofJson value) with
  | ok s => exact ⟨_, fun _ => rfl⟩
  | error e =>
    rw [Reader.value_proper .held proper]
    exact ⟨_, fun _ => rfl⟩

theorem SchemaNode.read_total {value : Json} (proper : value.Proper) :
    ∃ node, ∀ mode, read mode (Tree.ofJson value) = .ok node := by
  simp only [read_lenient]
  exact Reader.lenient_total proper

theorem SchemaNode.readAdditional_total {value : Json} (proper : value.Proper) :
    ∃ additional, ∀ mode, readAdditional read mode (Tree.ofJson value) = .ok additional := by
  obtain ⟨node, readNode⟩ := read_total proper
  cases value with
  | bool flag => exact ⟨.allowed flag, fun _ => rfl⟩
  | _ => exact ⟨.schema node, fun mode => congrArg (Except.map Additional.schema) (readNode mode)⟩

namespace Codec

-- The decoded value is a lenient node, or one that is there although it might be missing.
inductive Lenient : {α : Type} → Codec α → α → Prop
  | schema (node : SchemaNode) : Lenient SchemaNode.codec node
  | additional (node : SchemaNode) : Lenient SchemaNode.additionalCodec (.schema node)
  | parameter (node : ParameterNode) : Lenient ParameterNode.codec node
  | requestBody (node : RequestBodyNode) : Lenient RequestBodyNode.codec node
  | response (node : ResponseNode) : Lenient ResponseNode.codec node
  | securityScheme (node : SecuritySchemeNode) : Lenient SecuritySchemeNode.codec node
  | optional {α : Type} {c : Codec α} {a : α} (node : Lenient c a) : Lenient c.optional (some a)

variable {α : Type} {c : Codec α} {a : α} {value : Json}

/-- Where a lenient node is read, every value is read, and in the same way by every decoder. -/
theorem Lenient.total (lenient : Lenient c a) (proper : value.Proper) :
    ∃ x, ∀ mode, c.read mode (Tree.ofJson value) = .ok x := by
  induction lenient with
  | schema => exact SchemaNode.read_total proper
  | additional => exact SchemaNode.readAdditional_total proper
  | parameter | requestBody | response => exact Reader.lenient_total proper
  | securityScheme => exact SecuritySchemeNode.read_total proper
  | optional _ ih =>
    obtain ⟨x, read⟩ := ih
    by_cases absent : value = .null
    · subst absent
      exact ⟨none, fun _ => rfl⟩
    · refine ⟨some x, fun mode => ?_⟩
      exact (Reader.optional_present absent).trans (congrArg (Except.map some) (read mode))

end Codec

namespace ApiDocument

variable {β : Type} {value : Json} {d : ApiDocument} {c : Codec β} {b x : β} {place : Json.Place}
  {put : β → ApiDocument} {inner : Mode} {found : Json}

theorem version_given (proper : value.Proper) (read : extended.read .json (Tree.ofJson value) = .ok d) :
    ∃ entries, value = .object entries ∧
      Entries.get? "openapi" entries = some (.text d.openapi) := by
  obtain ⟨entries, rfl, holds, -, -⟩ := extended.reads_object proper read
  have present : "openapi" ∈ Entries.keys entries := by
    by_contra missing
    exact (holds.absent _ List.mem_cons_self missing).1 rfl
  obtain ⟨v, listed⟩ := Outline.entry_of_name present
  have version := Reader.text_ok (holds.given _ List.mem_cons_self v listed)
  subst version
  exact ⟨entries, rfl, get_of_mem holds.distinct listed⟩

-- A part that every value can stand for is neither the whole document nor its version: with null for
-- the part, the document would be no object or have no version.
theorem apart_from_version (proper : value.Proper)
    (read : extended.read .json (Tree.ofJson value) = .ok d)
    (stands : Codec.Stands codec d place c b put .json value inner found)
    (absorbs : ∃ x, c.read inner (Tree.ofJson .null) = .ok x) :
    ∃ name rest, place = .key name :: rest ∧ name ≠ "openapi" := by
  obtain ⟨entries, rfl, version⟩ := version_given proper read
  obtain ⟨y, readNull⟩ := absorbs
  obtain ⟨others, same, again⟩ :=
    version_given (proper.replace .null stands.here) (stands.back .null y .null readNull)
  cases place with
  | nil => cases same
  | cons step rest =>
    cases step with
    | item index => cases stands.here
    | key name =>
      refine ⟨name, rest, rfl, ?_⟩
      rintro rfl
      have here := stands.here
      rw [Json.at_object, version] at here
      cases rest with
      | cons further => cases further <;> cases here
      | nil =>
        rw [Json.replace_key version] at same
        cases same
        rw [get_put, if_pos rfl] at again
        cases again

theorem version_kept (proper : value.Proper) (read : extended.read .json (Tree.ofJson value) = .ok d)
    (stands : Codec.Stands codec d place c b put .json value inner found)
    (absorbs : ∃ x, c.read inner (Tree.ofJson .null) = .ok x) {other : Json} (fine : other.Proper)
    (readOther : c.read inner (Tree.ofJson other) = .ok x) : (put x).openapi = d.openapi := by
  obtain ⟨name, rest, rfl, different⟩ := apart_from_version proper read stands absorbs
  obtain ⟨entries, rfl, version⟩ := version_given proper read
  obtain ⟨v, stored, -⟩ := Json.at_split stands.here
  obtain ⟨others, replaced, again⟩ :=
    version_given (proper.replace fine stands.here) (stands.back other x fine readOther)
  rw [Json.replace_cons stored, Json.replace_key (Json.at_key.symm.trans stored)] at replaced
  cases replaced
  rw [get_put, if_neg (Ne.symm different), version] at again
  exact (Json.text.inj (Option.some.inj again)).symm

theorem accepted_same {other : Json} {d' : ApiDocument} (parsed : ofJson value = .ok d)
    (decoded : read .json (Tree.ofJson other) = .ok d') (version : d'.openapi = d.openapi) :
    ofJson other = .ok d' := by
  have whole : supported .json (.ok d) = .ok d := supported_ok parsed ▸ parsed
  rw [ofJson, decoded]
  by_cases three : Text.startsWith "3.".toList d.openapi.toList = true
  · rw [supported, version, if_pos three]
  · rw [supported, if_neg three] at whole
    cases whole

/-- Leniency is local: where a document holds a lenient node, any value can be put in the value it was
parsed from, and what is parsed then is the document with another node there. -/
theorem leniency_local (proper : value.Proper) (parsed : ofJson value = .ok d)
    (holds : Codec.Part codec d place c b put) (lenient : Codec.Lenient c b) :
    put b = d ∧
      (∃ mode found, value.at? place = some found ∧ c.read mode (Tree.ofJson found) = .ok b) ∧
      ∀ v : Json, v.Proper → ∃ x, (∀ mode, c.read mode (Tree.ofJson v) = .ok x) ∧
        ofJson (value.replace place v) = .ok (put x) := by
  have decoded := supported_ok parsed
  obtain ⟨inner, found, stands⟩ := holds.stands proper decoded
  refine ⟨holds.unchanged, ⟨inner, found, stands.here, stands.read⟩, fun v fine => ?_⟩
  obtain ⟨x, readV⟩ := lenient.total fine
  obtain ⟨y, readNull⟩ := lenient.total .null
  have version := version_kept proper decoded stands ⟨y, readNull inner⟩ fine (readV inner)
  exact ⟨x, readV, accepted_same parsed (stands.back v x fine (readV inner)) version⟩

def shelfSchema (items : Option SchemaNode) : Schema :=
  { Keywords.empty with type := some (.single .array), items }

def shelfComponents (items : Option SchemaNode) : Components :=
  { schemas := [("Shelf", .inline (shelfSchema items))], responses := [], parameters := []
    requestBodies := [], securitySchemes := [], extensions := [] }

def shelf (items : Option SchemaNode) : ApiDocument :=
  { openapi := "3.0.3", info := none, servers := [], paths := [], webhooks := []
    components := some (shelfComponents items), tags := [], security := none, extensions := [] }

def shelfBook : SchemaNode := .inline { Keywords.empty with type := some (.single .string) }

def shelfValue : Json :=
  .object [
    ("components", .object [
      ("schemas", .object [
        ("Shelf", .object [("items", .object [("type", .text "string")]), ("type", .text "array")])])]),
    ("openapi", .text "3.0.3")]

def shelfItems : Json.Place := [.key "components", .key "schemas", .key "Shelf", .key "items"]

theorem shelfValue_proper : shelfValue.Proper := by
  have single {key : String} {v : Json} (fine : v.Proper) : (Json.object [(key, v)]).Proper :=
    .object (List.pairwise_singleton _ _) (List.forall_mem_singleton.mpr fine)
  have schema : (Json.object [("items", .object [("type", .text "string")]),
      ("type", .text "array")]).Proper :=
    .object (by decide) (List.forall_mem_cons.mpr
      ⟨single (.text _), List.forall_mem_singleton.mpr (.text _)⟩)
  exact .object (by decide) (List.forall_mem_cons.mpr
    ⟨single (single schema), List.forall_mem_singleton.mpr (.text _)⟩)

theorem shelf_parsed : ofJson shelfValue = .ok (shelf (some shelfBook)) := rfl

theorem shelf_holds (node : SchemaNode) : ∃ put : Option SchemaNode → ApiDocument,
    Codec.Part codec (shelf (some node)) shelfItems SchemaNode.codec.optional (some node) put ∧
      ∀ items, put items = shelf items := by
  have schema := Codec.Part.deeper (.slot (s := shelfSchema (some node)) .schema
    (List.mem_of_getElem? (i := 8) rfl) (Option.some_ne_none node))
    (.whole SchemaNode.codec.optional (some node))
  have stored : Entries.get? "Shelf" (shelfComponents (some node)).schemas =
    some (.inline (shelfSchema (some node))) := rfl
  have schemas := Codec.Part.deeper (.entry (c := SchemaNode.codec) stored) schema
  have components := Codec.Part.deeper (.slot (s := shelfComponents (some node))
    (.optional (.record Components.extended)) (List.mem_of_getElem? (i := 0) rfl)
    (List.cons_ne_nil _ _)) schemas
  have whole := Codec.Part.deeper (.slot (s := shelf (some node)) (.record extended)
    (List.mem_of_getElem? (i := 5) rfl) (Option.some_ne_none _)) components
  exact ⟨_, whole, fun _ => rfl⟩

-- A number for the items of an array makes an invalid node of them, and null takes them away. The
-- schema around them stays one.
theorem shelfItems_local :
    ofJson (shelfValue.replace shelfItems (.number (.integer 5))) =
        .ok (shelf (some (.invalid (.number (.integer 5))))) ∧
      ofJson (shelfValue.replace shelfItems .null) = .ok (shelf none) := by
  obtain ⟨put, holds, same⟩ := shelf_holds shelfBook
  obtain ⟨-, -, accepted⟩ :=
    leniency_local shelfValue_proper shelf_parsed holds (.optional (.schema shelfBook))
  obtain ⟨x, number, withNumber⟩ := accepted (.number (.integer 5)) (.integer rfl)
  obtain ⟨y, null, withNull⟩ := accepted .null .null
  cases number .json
  cases null .json
  rw [withNumber, withNull, same, same]
  exact ⟨rfl, rfl⟩

end ApiDocument

end ApiLowering
