import ApiLowering.Proofs.Parts

/-!
Vendor extensions. A record that keeps what it has no slot for writes every extension of the object it
was read from where it stood; tags, discriminators and OAuth flows keep none.
-/

set_option autoImplicit false

namespace ApiLowering

namespace Outline

variable {α : Type} {o : Outline α Unit} {a : α} {e : String × Json}

theorem written_names (listed : e ∈ o.written a []) : e.1 ∈ o.names := by
  have here := (sort_perm (written_nodup extra_nil)).mem_iff.mp listed
  have key := mem_keys_of_mem here
  rw [keys_mapValues, List.append_nil] at key
  exact (entries_names a).subset key

-- What a record without leftovers writes holds no extension.
theorem written_closed (native : ∀ name ∈ o.names, isExtension name = false) {write : α → Json}
    (written : ∀ a, write a = .object (o.entries a)) (a : α) :
    ∃ entries, (write a).canonical = .object entries ∧ ∀ e ∈ entries, isExtension e.1 = false := by
  refine ⟨o.written a [], ?_, fun e here => native e.1 (written_names here)⟩
  rw [written, ← written_canonical, List.append_nil]

end Outline

def Tag.codec : Codec Tag := ⟨record.read, toJson⟩

def Discriminator.codec : Codec Discriminator := ⟨record.read, toJson⟩

def OAuthFlows.codec : Codec OAuthFlows := ⟨record.read, toJson⟩

theorem Tag.written_closed (t : Tag) :
    ∃ entries, t.toJson.canonical = .object entries ∧ ∀ e ∈ entries, isExtension e.1 = false :=
  Outline.written_closed (o := outline) (by decide) toJson_entries t

theorem Discriminator.written_closed (d : Discriminator) :
    ∃ entries, d.toJson.canonical = .object entries ∧ ∀ e ∈ entries, isExtension e.1 = false :=
  Outline.written_closed (o := outline) (by decide) toJson_entries d

theorem OAuthFlow.written_closed (f : OAuthFlow) :
    ∃ entries, f.toJson.canonical = .object entries ∧ ∀ e ∈ entries, isExtension e.1 = false :=
  Outline.written_closed (o := outline) (by decide) toJson_entries f

theorem OAuthFlows.written_closed (f : OAuthFlows) :
    ∃ entries, f.toJson.canonical = .object entries ∧ ∀ e ∈ entries, isExtension e.1 = false :=
  Outline.written_closed (o := outline) (by decide) toJson_entries f

namespace Codec

-- Where in a decoded value stands a tag, a discriminator or OAuth flows, or one of the flows.
inductive Closed : {α : Type} → Codec α → α → Json.Place → Prop
  | tag (t : Tag) : Closed Tag.codec t []
  | discriminator (d : Discriminator) : Closed Discriminator.codec.optional (some d) []
  | flows (f : OAuthFlows) : Closed OAuthFlows.codec.optional (some f) []
  | flow {p : Slot OAuthFlows} (f : OAuthFlows) (known : p ∈ OAuthFlows.outline.slots)
      (given : p.get f ≠ p.get OAuthFlows.record.blank) :
      Closed OAuthFlows.codec.optional (some f) [.key p.name]

variable {α β σ : Type} {c : Codec α} {a : α} {part : Codec β} {b : β} {place : Json.Place}
  {put : β → α} {r : Extended σ} {wrap : σ → β} {s : σ} {mode : Mode} {value : Json}

/-- A record that stands at a place was read there from an object, of which it keeps the extensions. -/
theorem Part.extensions (holds : Part c a place part (wrap s) put) (wraps : part.Wraps r wrap)
    (proper : value.Proper) (read : c.read mode (Tree.ofJson value) = .ok a) :
    ∃ entries, value.at? place = some (.object entries) ∧
      ∀ key v, isExtension key = true → ((key, v) ∈ r.outline.rest s ↔ (key, v) ∈ entries) := by
  obtain ⟨inner, found, stands⟩ := holds.stands proper read
  have fine := proper.at_place stands.here
  obtain ⟨_, readRecord, -⟩ := wraps.opens inner found s fine stands.read
  obtain ⟨entries, rfl, -⟩ := r.reads_object fine readRecord
  refine ⟨entries, stands.here, fun key v extension => ?_⟩
  have foreign : isForeign key = true := by
    rw [isForeign, extension, Bool.or_true]
  exact r.foreign_kept fine readRecord foreign

theorem flow_written {p : Slot OAuthFlows} {f : OAuthFlows} (known : p ∈ OAuthFlows.outline.slots)
    (given : p.get f ≠ p.get OAuthFlows.record.blank) :
    ∃ flow : OAuthFlow, p.write (p.get f) = some flow.toJson := by
  have present {found : Option OAuthFlow} (given : found ≠ none) :
      ∃ flow : OAuthFlow, found.map OAuthFlow.toJson = some flow.toJson := by
    obtain ⟨flow, rfl⟩ := Option.ne_none_iff_exists'.mp given
    exact ⟨flow, rfl⟩
  simp only [OAuthFlows.outline, List.mem_cons, List.not_mem_nil, or_false] at known
  rcases known with rfl | rfl | rfl | rfl <;> exact present given

theorem Closed.written (closed : Closed part b place) :
    ∃ entries, (part.write b).canonical.at? place = some (.object entries) ∧
      ∀ e ∈ entries, isExtension e.1 = false := by
  cases closed with
  | tag t =>
    obtain ⟨entries, same, plain⟩ := t.written_closed
    exact ⟨entries, congrArg some same, plain⟩
  | discriminator d =>
    obtain ⟨entries, same, plain⟩ := d.written_closed
    exact ⟨entries, congrArg some same, plain⟩
  | flows f =>
    obtain ⟨entries, same, plain⟩ := f.written_closed
    exact ⟨entries, congrArg some same, plain⟩
  | @flow p f known given =>
    obtain ⟨flow, wrote⟩ := flow_written known given
    obtain ⟨entries, same, plain⟩ := flow.written_closed
    refine ⟨entries, ?_, plain⟩
    have canonical : (OAuthFlows.codec.optional.write (some f)).canonical =
        .object (OAuthFlows.outline.written f []) := by
      rw [← Outline.written_canonical, List.append_nil, ← OAuthFlows.toJson_entries]
      rfl
    have listed := (Outline.mem_written known Outline.extra_nil).mpr ⟨_, wrote, same⟩
    have distinct := ascends_nodup (sort_ascends (Entries.mapValues Json.canonical
      (OAuthFlows.outline.entries f ++ [])))
    rw [canonical, Json.at_key]
    exact get_of_mem distinct listed

end Codec

namespace ApiDocument

variable {value : Json} {d : ApiDocument}

/-- Wherever a document holds a record of a kind that keeps its leftovers, the serialized document has
exactly the extensions there that the parsed value has there; where it holds a tag, a discriminator,
OAuth flows or one of these, the serialized document has none. -/
theorem extensions_retained (proper : value.Proper) (parsed : ofJson value = .ok d) :
    (∀ {β σ : Type} {c : Codec β} {r : Extended σ} {wrap : σ → β} {s : σ} {place : Json.Place}
        {put : β → ApiDocument}, c.Wraps r wrap → Codec.Part codec d place c (wrap s) put →
      ∃ entries again, value.at? place = some (.object entries) ∧
        d.toJson.canonical.at? place = some (.object again) ∧
        ∀ key v, isExtension key = true → ((key, v) ∈ again ↔ (key, v) ∈ entries)) ∧
    ∀ {β : Type} {c : Codec β} {b : β} {place below : Json.Place} {put : β → ApiDocument},
      Codec.Part codec d place c b put → Codec.Closed c b below →
      ∃ again, d.toJson.canonical.at? (place ++ below) = some (.object again) ∧
        ∀ e ∈ again, isExtension e.1 = false := by
  obtain ⟨properToo, again, -⟩ := serialized_parsed proper parsed
  have decoded := supported_ok parsed
  have decodedToo := supported_ok again
  refine ⟨fun wraps holds => ?_, fun holds closed => ?_⟩
  · obtain ⟨entries, here, kept⟩ := holds.extensions wraps proper decoded
    obtain ⟨others, there, keptToo⟩ := holds.extensions wraps properToo decodedToo
    refine ⟨entries, others, here, there, fun key v extension => ?_⟩
    rw [← kept key v extension, ← keptToo key v extension]
  · obtain ⟨inner, found, stands⟩ := holds.stands properToo decodedToo
    obtain ⟨entries, below, plain⟩ := closed.written
    refine ⟨entries, ?_, plain⟩
    rw [Json.at_append stands.here, stands.written rfl, below]

def signpostInfo : Info :=
  { title := some "Roads", description := none, version := none
    extensions := [("x-logo", .text "arrow")] }

def signpostTag : Tag := ⟨some "north", none⟩

def signpost : ApiDocument :=
  { openapi := "3.0.3", info := some signpostInfo, servers := [], paths := [], webhooks := []
    components := none, tags := [signpostTag], security := none, extensions := [] }

def signpostTagEntries : Entries Json := [("name", .text "north"), ("x-rank", .number (.integer 1))]

def signpostValue : Json :=
  .object [
    ("info", .object [("title", .text "Roads"), ("x-logo", .text "arrow")]),
    ("openapi", .text "3.0.3"),
    ("tags", .list [.object signpostTagEntries])]

theorem signpostValue_proper : signpostValue.Proper := by
  have pair {key other : String} {v w : Json} (less : key < other) (fine : v.Proper)
      (fineToo : w.Proper) : (Json.object [(key, v), (other, w)]).Proper :=
    .object (List.pairwise_pair.mpr less)
      (List.forall_mem_cons.mpr ⟨fine, List.forall_mem_singleton.mpr fineToo⟩)
  have tags : (Json.list [.object signpostTagEntries]).Proper :=
    .list (List.forall_mem_singleton.mpr (pair (by decide) (.text _) (.integer rfl)))
  exact .object (by decide) (List.forall_mem_cons.mpr ⟨pair (by decide) (.text _) (.text _),
    List.forall_mem_cons.mpr ⟨.text _, List.forall_mem_singleton.mpr tags⟩⟩)

theorem signpost_parsed : ofJson signpostValue = .ok signpost := rfl

-- The extension of the info stays, and that of the tag is gone.
theorem signpost_retained :
    (∃ info, signpost.toJson.canonical.at? [.key "info"] = some (.object info) ∧
      ("x-logo", .text "arrow") ∈ info) ∧
    signpostValue.at? [.key "tags", .item 0] = some (.object signpostTagEntries) ∧
    ∃ tag, signpost.toJson.canonical.at? [.key "tags", .item 0] = some (.object tag) ∧
      ∀ e ∈ tag, isExtension e.1 = false := by
  obtain ⟨kept, dropped⟩ := extensions_retained signpostValue_proper signpost_parsed
  have info := Codec.Part.deeper (.slot (s := signpost) (.record extended)
    (List.mem_of_getElem? (i := 1) rfl) (Option.some_ne_none signpostInfo))
    (.whole Info.extended.codec.optional (some signpostInfo))
  have first : signpost.tags[0]? = some signpostTag := rfl
  have tags := Codec.Part.deeper (.slot (s := signpost) (.record extended)
    (List.mem_of_getElem? (i := 6) rfl) (List.cons_ne_nil signpostTag []))
    (.deeper (.item (c := Tag.codec) first) (.whole Tag.codec signpostTag))
  obtain ⟨given, again, here, there, same⟩ :=
    kept (.optional (.record Info.extended)) info
  refine ⟨⟨again, there, ?_⟩, rfl, dropped tags (.tag signpostTag)⟩
  cases here
  exact (same "x-logo" _ rfl).mpr (List.mem_cons_of_mem _ List.mem_cons_self)

end ApiDocument

end ApiLowering
