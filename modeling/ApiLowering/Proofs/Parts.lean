import ApiLowering.Proofs.DocumentForms
import ApiLowering.Proofs.Places

/-!
Parts of documents. A document is read and written piece by piece: the slots of its records, the items
of its lists, the entries of its maps. A part stands at its place in every value that the document is
read from, and with something else put there the value is read as the document with another part.
-/

set_option autoImplicit false

namespace ApiLowering

-- How what has a type is read from JSON values and written as one.
structure Codec (α : Type) where
  read : Reader α
  write : α → Json

namespace Codec

variable {α : Type}

def list (c : Codec α) : Codec (List α) :=
  ⟨Reader.list c.read, fun all => .list (all.map c.write)⟩

def entries (c : Codec α) : Codec (Entries α) :=
  ⟨Reader.entries c.read, fun all => .object (Entries.mapValues c.write all)⟩

def optional (c : Codec α) : Codec (Option α) :=
  ⟨Reader.optional c.read, fun found => (found.map c.write).getD .null⟩

end Codec

def Slot.codec {α : Type} (p : Slot α) : Codec p.value := ⟨p.read, p.form⟩

def isExtension (key : String) : Bool := Text.startsWith ['x', '-'] key.toList

-- A key that no record has a slot for: the mark of a reference, or a vendor extension.
def isForeign (key : String) : Bool := key = "$ref" || isExtension key

-- A record that keeps the entries that it has no slots for.
structure Extended (σ : Type) where
  record : Record σ
  outline : Outline σ (Entries Json)
  write : σ → Json
  described : record.fields = outline.fields := by rfl
  written : ∀ s, write s = .object (outline.entries s ++ outline.rest s)
  native : ∀ name ∈ outline.names, isForeign name = false := by decide

namespace Extended

variable {σ : Type}

def read (r : Extended σ) : Reader σ := r.record.readExtended r.outline.withRest

def codec (r : Extended σ) : Codec σ := ⟨r.read, r.write⟩

end Extended

namespace SchemaNode

def codec : Codec SchemaNode := ⟨read, toJson⟩

def additionalCodec : Codec (Additional SchemaNode) := ⟨readAdditional read, additionalJson⟩

def extended : Extended Schema where
  record := record read
  outline := outline read
  write s := toJson (.inline s)
  written := inline_entries read

end SchemaNode

def ParameterNode.codec : Codec ParameterNode := ⟨read, toJson⟩

def RequestBodyNode.codec : Codec RequestBodyNode := ⟨read, toJson⟩

def ResponseNode.codec : Codec ResponseNode := ⟨read, toJson⟩

def SecuritySchemeNode.codec : Codec SecuritySchemeNode := ⟨read, toJson⟩

def PartEncoding.extended : Extended PartEncoding :=
  { record, outline, write := toJson, written := toJson_entries }

def MediaType.extended : Extended MediaType :=
  { record, outline, write := toJson, written := toJson_entries }

def RequestBody.extended : Extended RequestBody :=
  { record, outline, write := toJson, written := toJson_entries }

def Response.extended : Extended Response :=
  { record, outline, write := toJson, written := toJson_entries }

def Parameter.extended : Extended Parameter :=
  { record, outline, write := toJson, written := toJson_entries }

def SecurityScheme.extended : Extended SecurityScheme :=
  { record, outline, write := toJson, written := toJson_entries }

def Operation.extended : Extended Operation :=
  { record, outline, write := toJson, written := toJson_entries }

def PathItem.extended : Extended PathItem :=
  { record, outline, write := toJson, written := toJson_entries }

def Info.extended : Extended Info :=
  { record, outline, write := toJson, written := toJson_entries }

def Server.extended : Extended Server :=
  { record, outline, write := toJson, written := toJson_entries }

def Components.extended : Extended Components :=
  { record, outline, write := toJson, written := toJson_entries }

def ApiDocument.extended : Extended ApiDocument :=
  { record, outline, write := toJson, written := toJson_entries }

def ApiDocument.codec : Codec ApiDocument := ⟨read, toJson⟩

namespace Codec

-- The ways in which a decoded value holds a record: it is the record, or the record stands inline in
-- a node, or either is there although it might be missing.
inductive Wraps : {α σ : Type} → Codec α → Extended σ → (σ → α) → Prop
  | record {σ : Type} (r : Extended σ) : Wraps r.codec r id
  | optional {α σ : Type} {c : Codec α} {r : Extended σ} {wrap : σ → α} (inner : Wraps c r wrap) :
      Wraps c.optional r fun s => some (wrap s)
  | schema : Wraps SchemaNode.codec SchemaNode.extended .inline
  | additional : Wraps SchemaNode.additionalCodec SchemaNode.extended fun s => .schema (.inline s)
  | parameter : Wraps ParameterNode.codec Parameter.extended .inline
  | requestBody : Wraps RequestBodyNode.codec RequestBody.extended .inline
  | response : Wraps ResponseNode.codec Response.extended .inline
  | securityScheme : Wraps SecuritySchemeNode.codec SecurityScheme.extended .inline

-- What a decoded value holds one step below it, and the value with something else there. A slot
-- holds something where it is not as in a blank record.
inductive Child : {α β : Type} → Codec α → α → Json.Step → Codec β → β → (β → α) → Prop
  | slot {α σ : Type} {c : Codec α} {r : Extended σ} {wrap : σ → α} {s : σ} {p : Slot σ}
      (wraps : Wraps c r wrap) (known : p ∈ r.outline.slots) (given : p.get s ≠ p.get r.record.blank) :
      Child c (wrap s) (.key p.name) p.codec (p.get s) fun v => wrap (p.set v s)
  | item {β : Type} {c : Codec β} {all : List β} {index : Nat} {b : β} (here : all[index]? = some b) :
      Child c.list all (.item index) c b fun v => all.set index v
  | entry {β : Type} {c : Codec β} {all : Entries β} {key : String} {b : β}
      (here : Entries.get? key all = some b) :
      Child c.entries all (.key key) c b fun v => Entries.put key v all

-- What a decoded value holds at a place, and the value with something else there.
inductive Part : {α β : Type} → Codec α → α → Json.Place → Codec β → β → (β → α) → Prop
  | whole {α : Type} (c : Codec α) (a : α) : Part c a [] c a id
  | deeper {α β γ : Type} {c : Codec α} {a : α} {step : Json.Step} {inner : Codec β} {b : β}
      {put : β → α} {place : Json.Place} {part : Codec γ} {x : γ} {set : γ → β}
      (child : Child c a step inner b put) (rest : Part inner b place part x set) :
      Part c a (step :: place) part x fun v => put (set v)

end Codec

section

variable {α β : Type} {related : α → β → Prop}

theorem related_set {xs : List α} {ys : List β} {index : Nat} {y : β}
    (all : List.Forall₂ related xs ys) (here : ys[index]? = some y) :
    ∃ x, xs[index]? = some x ∧ related x y ∧
      ∀ x' y', related x' y' → List.Forall₂ related (xs.set index x') (ys.set index y') := by
  induction all generalizing index with
  | nil => cases here
  | cons first rest ih =>
    cases index with
    | zero =>
      cases here
      exact ⟨_, rfl, first, fun x' y' new => .cons new rest⟩
    | succ index =>
      obtain ⟨x, found, fits, set⟩ := ih here
      exact ⟨x, found, fits, fun x' y' new => .cons first (set x' y' new)⟩

theorem related_put (related : α → β → Prop) {es : Entries α} {fs : Entries β} {key : String} {y : β}
    (all : List.Forall₂ (fun e f => f.1 = e.1 ∧ related e.2 f.2) es fs)
    (here : Entries.get? key fs = some y) :
    ∃ x, Entries.get? key es = some x ∧ related x y ∧ ∀ x' y', related x' y' →
      List.Forall₂ (fun e f => f.1 = e.1 ∧ related e.2 f.2) (Entries.put key x' es)
        (Entries.put key y' fs) := by
  induction all with
  | nil => cases here
  | @cons e f es fs first rest ih =>
    obtain ⟨l, x⟩ := e
    obtain ⟨k, y⟩ := f
    obtain ⟨rfl, fits⟩ := first
    by_cases same : k = key
    · subst same
      rw [Entries.get?, if_pos rfl] at here
      cases here
      rw [Entries.get?, if_pos rfl]
      refine ⟨x, rfl, fits, fun x' y' new => ?_⟩
      rw [Entries.put, Entries.put, if_pos rfl, if_pos rfl]
      exact .cons ⟨rfl, new⟩ rest
    · rw [Entries.get?, if_neg same] at here
      obtain ⟨x', found, fitsToo, put⟩ := ih here
      rw [Entries.get?, if_neg same]
      refine ⟨x', found, fitsToo, fun x' y' new => ?_⟩
      rw [Entries.put, Entries.put, if_neg same, if_neg same]
      exact .cons ⟨rfl, fits⟩ (put x' y' new)

end

namespace Reader

variable {α : Type} {mode : Mode} {reader : Tree → Except DecodeError α}

theorem each_related {items : List Json} {all : List α} :
    each reader (Tree.ofJsonList items) = .ok all ↔
      List.Forall₂ (fun item a => reader (Tree.ofJson item) = .ok a) items all := by
  constructor
  · intro read
    induction items generalizing all with
    | nil =>
      cases read
      exact .nil
    | cons item rest ih =>
      obtain ⟨first, one, read⟩ := except_bind_ok read
      obtain ⟨more, others, read⟩ := except_bind_ok read
      cases read
      exact .cons one (ih others)
  · intro related
    induction related with
    | nil => rfl
    | cons first _ ih =>
      rw [Tree.ofJsonList, each, first, ih]
      rfl

theorem eachEntry_related {es : Entries Json} {all : Entries α} :
    eachEntry mode reader (Tree.ofJsonEntries es) = .ok all ↔
      List.Forall₂ (fun e f => f.1 = e.1 ∧ reader (Tree.ofJson e.2) = .ok f.2) es all := by
  constructor
  · intro read
    induction es generalizing all with
    | nil =>
      cases read
      exact .nil
    | cons e rest ih =>
      obtain ⟨name, named, read⟩ := except_bind_ok read
      obtain ⟨first, one, read⟩ := except_bind_ok read
      obtain ⟨more, others, read⟩ := except_bind_ok read
      cases named
      cases read
      exact .cons ⟨rfl, one⟩ (ih others)
  · intro related
    induction related with
    | nil => rfl
    | @cons e f _ _ first _ ih =>
      obtain ⟨key, v⟩ := e
      obtain ⟨key', a⟩ := f
      obtain ⟨rfl, first⟩ := first
      rw [Tree.ofJsonEntries, eachEntry, first, ih]
      rfl

end Reader

namespace Outline

variable {α ρ : Type} {o : Outline α ρ} {mode : Mode} {es : Entries Json} {blank a : α} {p : Slot α}
  {other : Json} {x : p.value}

theorem filter_put (known : p ∈ o.slots) :
    (Entries.put p.name other es).filter o.leaves = es.filter o.leaves := by
  induction es with
  | nil => exact filter_known (mem_names known)
  | cons e rest ih =>
    obtain ⟨key, v⟩ := e
    by_cases same : key = p.name
    · subst same
      rw [Entries.put, if_pos rfl, filter_known (mem_names known), filter_known (mem_names known)]
    · rw [Entries.put, if_neg same, List.filter_cons, List.filter_cons, ih]

theorem set_self (known : p ∈ o.slots) (a : α) : p.set (p.get a) a = a := by
  refine o.whole _ _ (fun q knownToo => ?_) (o.rest_set p known _ a)
  by_cases same : p.name = q.name
  · cases slot_unique known knownToo same
    exact p.get_set _ a
  · exact get_other known knownToo same _ a

-- Putting what reads as another value where a slot was read holds the record with that value.
theorem Holds.put (holds : o.Holds mode es blank a) (known : p ∈ o.slots)
    (present : p.name ∈ Entries.keys es) (read : p.read mode (Tree.ofJson other) = .ok x) :
    o.Holds mode (Entries.put p.name other es) blank (p.set x a) where
  distinct := (put_present present).symm ▸ holds.distinct
  given q knownToo v listed := by
    rcases (mem_put_iff holds.distinct).mp listed with ⟨same, rfl⟩ | ⟨different, listed⟩
    · cases slot_unique knownToo known same
      rw [p.get_set]
      exact read
    · rw [get_other known knownToo (Ne.symm different)]
      exact holds.given q knownToo v listed
  absent q knownToo missing := by
    rw [put_present present] at missing
    have different : p.name ≠ q.name := fun same => missing (same ▸ present)
    rw [get_other known knownToo different]
    exact holds.absent q knownToo missing

end Outline

namespace Extended

variable {σ : Type} {r : Extended σ} {mode : Mode} {entries : Entries Json} {value : Json} {s : σ}

theorem leaves_foreign {key : String} {v : Json} (foreign : isForeign key = true) :
    r.outline.leaves (key, v) = true := by
  refine Outline.unnamed_leaves fun named => ?_
  rw [r.native key named] at foreign
  cases foreign

theorem reads_object (proper : value.Proper) (read : r.read mode (Tree.ofJson value) = .ok s) :
    ∃ entries, value = .object entries ∧ r.outline.Holds mode entries r.record.blank s ∧
      r.outline.rest s = entries.filter r.outline.leaves ∧ r.outline.Extra (r.outline.rest s) :=
  Outline.extended_holds r.described proper read

/-- A record keeps exactly the foreign entries that it was given. -/
theorem foreign_kept {key : String} {v : Json} (proper : (Json.object entries).Proper)
    (read : r.read mode (Tree.ofJson (.object entries)) = .ok s) (foreign : isForeign key = true) :
    (key, v) ∈ r.outline.rest s ↔ (key, v) ∈ entries := by
  obtain ⟨_, same, -, rest, -⟩ := reads_object proper read
  cases same
  rw [rest, List.mem_filter, and_iff_left (leaves_foreign foreign)]

end Extended

namespace Codec

variable {α β γ σ : Type}

-- What is read as a value that holds the record is read as the record, and what is read as another
-- record with the same entries beside its slots is read as the value that holds that one.
def Opens (c : Codec α) (r : Extended σ) (wrap : σ → α) : Prop :=
  ∀ mode (value : Json) s, value.Proper → c.read mode (Tree.ofJson value) = .ok (wrap s) →
    ∃ inner, r.read inner (Tree.ofJson value) = .ok s ∧
      ∀ (other : Json) s', other.Proper → r.outline.rest s' = r.outline.rest s →
        r.read inner (Tree.ofJson other) = .ok s' → c.read mode (Tree.ofJson other) = .ok (wrap s')

variable {c : Codec α} {r : Extended σ} {wrap : σ → α}

theorem target_kept {mode : Mode} {value other : Json} {s s' : σ} (proper : value.Proper)
    (properToo : other.Proper) (read : r.read mode (Tree.ofJson value) = .ok s)
    (readToo : r.read mode (Tree.ofJson other) = .ok s')
    (same : r.outline.rest s' = r.outline.rest s) :
    Reader.referenceTarget? (Tree.ofJson other) = Reader.referenceTarget? (Tree.ofJson value) := by
  obtain ⟨entries, rfl, holds, -, -⟩ := r.reads_object proper read
  obtain ⟨others, rfl, holdsToo, -, -⟩ := r.reads_object properToo readToo
  have foreign : isForeign "$ref" = true := rfl
  refine Option.ext fun target => ?_
  rw [Reader.referenceTarget_some holds.distinct, Reader.referenceTarget_some holdsToo.distinct,
    ← r.foreign_kept proper read foreign, ← r.foreign_kept properToo readToo foreign, same]

theorem record_opens : Opens r.codec r id :=
  fun mode _ _ _ read => ⟨mode, read, fun _ _ _ _ again => again⟩

theorem optional_opens (opens : Opens c r wrap) : Opens c.optional r fun s => some (wrap s) := by
  intro mode value s proper read
  have present : value ≠ .null := by
    rintro rfl
    cases read
  have given : (c.read mode (Tree.ofJson value)).map some = .ok (some (wrap s)) :=
    (Reader.optional_present present).symm.trans read
  obtain ⟨a, read, same⟩ := except_map_ok given
  cases same
  obtain ⟨inner, readInner, again⟩ := opens mode value s proper read
  refine ⟨inner, readInner, fun other s' properToo rest readOther => ?_⟩
  obtain ⟨entries, rfl, -⟩ := r.reads_object properToo readOther
  have back := again _ s' properToo rest readOther
  exact (Reader.optional_present Json.noConfusion).trans (congrArg (Except.map some) back)

theorem lenient_opens {reference : String → α} {invalid : Json → α}
    (reads : ∀ mode value, c.read mode (Tree.ofJson value) =
      Reader.lenient reference r.read wrap invalid mode (Tree.ofJson value))
    (pointed : ∀ target s, reference target ≠ wrap s) (shaped : ∀ value s, invalid value ≠ wrap s)
    (injective : wrap.Injective) : Opens c r wrap := by
  intro mode value s proper read
  rw [reads] at read
  generalize same : wrap s = node at read
  cases Reader.lenient_cases proper read with
  | reference => exact absurd same.symm (pointed _ s)
  | invalid => exact absurd same.symm (shaped _ s)
  | inline none readInner =>
    cases injective same
    refine ⟨.held, readInner, fun other s' properToo rest readOther => ?_⟩
    rw [reads]
    refine Reader.lenient_inline mode ?_ readOther
    rw [target_kept proper properToo readInner readOther rest, none]

theorem schema_opens : Opens SchemaNode.codec SchemaNode.extended .inline :=
  lenient_opens SchemaNode.read_lenient (fun _ _ same => nomatch same) (fun _ _ same => nomatch same)
    fun _ _ same => SchemaNode.inline.inj same

theorem additional_opens :
    Opens SchemaNode.additionalCodec SchemaNode.extended fun s => .schema (.inline s) := by
  intro mode value s proper read
  have unfolded : SchemaNode.readAdditional SchemaNode.read mode (Tree.ofJson value) =
      .ok (.schema (.inline s)) := read
  unfold SchemaNode.readAdditional at unfolded
  cases flag : Reader.bool mode (Tree.ofJson value) with
  | ok b =>
    simp only [flag] at unfolded
    cases unfolded
  | error e =>
    simp only [flag] at unfolded
    obtain ⟨node, readNode, same⟩ := except_map_ok unfolded
    cases same
    obtain ⟨inner, readInner, again⟩ := schema_opens mode value s proper readNode
    refine ⟨inner, readInner, fun other s' properToo rest readOther => ?_⟩
    obtain ⟨entries, rfl, -⟩ := SchemaNode.extended.reads_object properToo readOther
    have back : SchemaNode.read mode (Tree.ofJson (.object entries)) = .ok (.inline s') :=
      again _ s' properToo rest readOther
    have none : ∃ e, Reader.bool mode (Tree.ofJson (.object entries)) = .error e := ⟨_, rfl⟩
    obtain ⟨e, none⟩ := none
    have whole : SchemaNode.readAdditional SchemaNode.read mode (Tree.ofJson (.object entries)) =
        .ok (.schema (.inline s')) := by
      simp only [SchemaNode.readAdditional, none, back, Except.map]
    exact whole

theorem securityScheme_opens :
    Opens SecuritySchemeNode.codec SecurityScheme.extended .inline := by
  intro mode value s proper read
  have inline (other : Json) (s' : SecurityScheme)
      (readOther : SecurityScheme.read .held (Tree.ofJson other) = .ok s') :
      SecuritySchemeNode.read mode (Tree.ofJson other) = .ok (.inline s') := by
    simp only [SecuritySchemeNode.read, Tree.ofJson_holdIn, bind, Except.bind, readOther]
    rfl
  cases inner : SecurityScheme.read .held (Tree.ofJson value) with
  | ok scheme =>
    cases (inline value scheme inner).symm.trans read
    exact ⟨.held, inner, fun other s' _ _ readOther => inline other s' readOther⟩
  | error e =>
    have invalid : SecuritySchemeNode.read mode (Tree.ofJson value) = .ok (.invalid value) := by
      simp only [SecuritySchemeNode.read, Tree.ofJson_holdIn, bind, Except.bind, inner,
        Reader.value_proper .held proper]
      rfl
    cases invalid.symm.trans read

/-- However a decoded value holds a record, it is opened by reading the record. -/
theorem Wraps.opens (wraps : Wraps c r wrap) : Opens c r wrap := by
  induction wraps with
  | record => exact record_opens
  | optional _ opens => exact optional_opens opens
  | schema => exact schema_opens
  | additional => exact additional_opens
  | parameter | requestBody | response =>
    exact lenient_opens (fun _ _ => rfl) (fun _ _ same => nomatch same)
      (fun _ _ same => nomatch same) fun _ _ same => by cases same; rfl
  | securityScheme => exact securityScheme_opens

theorem Wraps.writes (wraps : Wraps c r wrap) (s : σ) : c.write (wrap s) = r.write s := by
  induction wraps with
  | optional _ ih => exact ih s
  | _ => rfl

-- The part stands at the place in a value that was read: it is read there, and with another part
-- there the value is read with that one. Where the value is as it was written, so is the part.
structure Stands (c : Codec α) (a : α) (place : Json.Place) (part : Codec β) (b : β) (put : β → α)
    (mode : Mode) (value : Json) (inner : Mode) (found : Json) : Prop where
  here : value.at? place = some found
  read : part.read inner (Tree.ofJson found) = .ok b
  back : ∀ (other : Json) x, other.Proper → part.read inner (Tree.ofJson other) = .ok x →
    c.read mode (Tree.ofJson (value.replace place other)) = .ok (put x)
  written : value = (c.write a).canonical → found = (part.write b).canonical

theorem slot_stands {s : σ} {p : Slot σ} {mode : Mode} {value : Json} (wraps : Wraps c r wrap)
    (known : p ∈ r.outline.slots) (given : p.get s ≠ p.get r.record.blank) (proper : value.Proper)
    (read : c.read mode (Tree.ofJson value) = .ok (wrap s)) :
    ∃ inner found, Stands c (wrap s) [.key p.name] p.codec (p.get s) (fun v => wrap (p.set v s)) mode
      value inner found := by
  obtain ⟨inner, readRecord, again⟩ := wraps.opens mode value s proper read
  obtain ⟨entries, rfl, holds, rest, beside⟩ := r.reads_object proper readRecord
  have present : p.name ∈ Entries.keys entries := by
    by_contra missing
    exact given (holds.absent p known missing).2
  obtain ⟨found, listed⟩ := Outline.entry_of_name present
  have stored := get_of_mem holds.distinct listed
  refine ⟨inner, found, Json.at_key.trans stored, holds.given p known found listed,
    fun other x fine readOther => ?_, fun same => ?_⟩
  · have kept : r.outline.rest (p.set x s) = r.outline.rest s := r.outline.rest_set p known x s
    have properToo := proper.replace_step fine (Json.at_key.trans stored)
    rw [Json.replace_key stored] at properToo ⊢
    refine again _ _ properToo kept ?_
    refine Outline.extended_back r.described (holds.put known present readOther) ?_ ?_
    · rw [Outline.filter_put known, kept, rest]
    · rw [kept]
      exact beside
  · rw [wraps.writes, r.written, Outline.written_canonical] at same
    cases same
    obtain ⟨json, wrote, canonical⟩ := (Outline.mem_written known beside).mp listed
    rw [← canonical, ← p.write_form _ _ wrote]
    rfl

theorem item_stands {all : List α} {index : Nat} {a : α} {mode : Mode} {value : Json}
    (here : all[index]? = some a) (read : c.list.read mode (Tree.ofJson value) = .ok all) :
    ∃ found, Stands c.list all [.item index] c a (fun v => all.set index v) mode value mode found := by
  obtain ⟨items, rfl, each⟩ := Reader.list_ok read
  obtain ⟨found, stored, readFound, set⟩ := related_set (Reader.each_related.mp each) here
  refine ⟨found, Json.at_item.trans stored, readFound, fun other x fine readOther => ?_,
    fun same => ?_⟩
  · rw [Json.replace_item stored]
    exact (Reader.list_ofJson mode _).trans (Reader.each_related.mpr (set other x readOther))
  · have canonical : (c.list.write all).canonical =
        .list ((all.map c.write).map Json.canonical) := by
      rw [← canonicalList_map]
      rfl
    rw [canonical] at same
    cases same
    rw [List.getElem?_map, List.getElem?_map, here] at stored
    exact (Option.some.inj stored).symm

theorem entry_stands {all : Entries α} {key : String} {a : α} {mode : Mode} {value : Json}
    (here : Entries.get? key all = some a) (proper : value.Proper)
    (read : c.entries.read mode (Tree.ofJson value) = .ok all) :
    ∃ found, Stands c.entries all [.key key] c a (fun v => Entries.put key v all) mode value mode
      found := by
  obtain ⟨es, found, rfl, each, collected⟩ := Reader.entries_ok read
  have related := Reader.eachEntry_related.mp each
  have keys : Entries.keys found = Entries.keys es :=
    keys_of_forall₂ related fun _ _ paired => paired.1
  cases proper with
  | object ascends _ =>
    have distinct : (Entries.keys found).Nodup := keys ▸ ascends_nodup ascends
    rw [collect_self distinct] at collected
    subst collected
    obtain ⟨v, stored, readV, put⟩ :=
      related_put (fun item b => c.read mode (Tree.ofJson item) = .ok b) related here
    refine ⟨v, Json.at_key.trans stored, readV, fun other x fine readOther => ?_, fun same => ?_⟩
    · rw [Json.replace_key stored]
      have again : Reader.eachEntry mode (c.read mode) _ = .ok _ :=
        Reader.eachEntry_related.mpr (put other x readOther)
      refine (Reader.entries_ofJson mode _).trans ?_
      rw [again, Except.map, collect_self (put_keys distinct).1]
    · have canonical : (c.entries.write found).canonical =
          .object (Entries.sort (Entries.mapValues Json.canonical (Entries.mapValues c.write found))) := by
        rw [← canonicalEntries_map]
        rfl
      rw [canonical] at same
      cases same
      have unique : (Entries.keys
          (Entries.mapValues Json.canonical (Entries.mapValues c.write found))).Nodup := by
        rw [keys_mapValues, keys_mapValues]
        exact distinct
      rw [get_perm unique (sort_perm unique), get_mapValues, get_mapValues, here] at stored
      exact (Option.some.inj stored).symm

variable {a : α} {b : β} {step : Json.Step} {place : Json.Place} {part : Codec β} {put : β → α}
  {mode : Mode} {value : Json}

/-- What a decoded value holds one step below it stands there in what was read. -/
theorem Child.stands (child : Child c a step part b put) (proper : value.Proper)
    (read : c.read mode (Tree.ofJson value) = .ok a) :
    ∃ inner found, Stands c a [step] part b put mode value inner found := by
  cases child with
  | slot wraps known given => exact slot_stands wraps known given proper read
  | item here => exact ⟨mode, item_stands here read⟩
  | entry here => exact ⟨mode, entry_stands here proper read⟩

theorem Child.unchanged (child : Child c a step part b put) : put b = a := by
  cases child with
  | slot _ known _ => exact congrArg _ (Outline.set_self known _)
  | item here =>
    obtain ⟨within, rfl⟩ := List.getElem?_eq_some_iff.mp here
    exact List.set_getElem_self within
  | entry here => exact put_self here

/-- A part of a decoded value stands at its place in whatever the value was read from. -/
theorem Part.stands (holds : Part c a place part b put) (proper : value.Proper)
    (read : c.read mode (Tree.ofJson value) = .ok a) :
    ∃ inner found, Stands c a place part b put mode value inner found := by
  induction holds generalizing mode value with
  | whole => exact ⟨mode, value, rfl, read, fun _ _ _ again => again, fun same => same⟩
  | deeper child _ ih =>
    obtain ⟨next, v, first⟩ := child.stands proper read
    obtain ⟨inner, found, rest⟩ := ih (proper.at_step first.here) first.read
    refine ⟨inner, found, ?_, rest.read, fun other x fine readOther => ?_, fun same => ?_⟩
    · rw [Json.at_cons first.here, rest.here]
    · rw [Json.replace_cons first.here]
      have within := (proper.at_step first.here).replace fine rest.here
      exact first.back _ _ within (rest.back other x fine readOther)
    · exact rest.written (first.written same)

/-- Putting a part where it is changes nothing. -/
theorem Part.unchanged (holds : Part c a place part b put) : put b = a := by
  induction holds with
  | whole => rfl
  | deeper child _ ih => exact (congrArg _ ih).trans child.unchanged

end Codec

end ApiLowering
