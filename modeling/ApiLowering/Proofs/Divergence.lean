import ApiLowering.Proofs.Assembly
import ApiLowering.Proofs.Elimination
import ApiLowering.Proofs.Parsed

/-!
What is told about the content that elections drop. An election compares two media types, the first ones
of both kinds, and drops every media type of the kind that is not preferred: that the schema of the first
one differs from the kept one is told, and nothing is told about the others.
-/

set_option autoImplicit false

namespace ApiLowering

theorem HttpMethod.lowerName_plain (method : HttpMethod) : '.' ∉ method.lowerName.toList := by
  cases method <;> decide

theorem HttpMethod.lowerName_injective {one other : HttpMethod}
    (same : one.lowerName.toList = other.lowerName.toList) : one = other := by
  revert same
  cases one <;> cases other <;> decide

namespace BodyPlace

-- What stands behind the last dot is known.
theorem last_known {front other last more : List Char} (plain : '.' ∉ last) (plainToo : '.' ∉ more)
    (same : front ++ '.' :: last = other ++ '.' :: more) : front = other ∧ last = more := by
  have turned : last.reverse ++ '.' :: front.reverse = more.reverse ++ '.' :: other.reverse := by
    simpa using congrArg List.reverse same
  have pieces := congrArg (Text.split '.') turned
  rw [Pointer.split_cons (mt List.mem_reverse.mp plain),
    Pointer.split_cons (mt List.mem_reverse.mp plainToo)] at pieces
  obtain rfl := List.reverse_injective (List.cons.inj pieces).1
  exact ⟨List.append_cancel_right same, rfl⟩

theorem dotted_toList (front key last : String) :
    (front ++ "." ++ key ++ "." ++ last).toList =
      front.toList ++ '.' :: (key.toList ++ '.' :: last.toList) := by
  have dot : ".".toList = ['.'] := by decide
  rw [String.toList_append, String.toList_append, String.toList_append, String.toList_append, dot]
  simp only [List.append_assoc, List.cons_append, List.nil_append]

theorem location_operation (area : Area) (key : String) (method : HttpMethod) :
    (operation area key method).location.toList =
      area.name.toList ++ '.' :: (key.toList ++ '.' :: method.lowerName.toList) :=
  dotted_toList _ _ _

theorem location_component (name : String) :
    (component name).location.toList = "components.requestBodies.".toList ++ name.toList :=
  String.toList_append

-- The first character tells the part of a document that a place is in.
def lead : BodyPlace → Char
  | .operation .paths _ _ => 'p'
  | .operation .webhooks _ _ => 'w'
  | .component _ => 'c'

theorem location_lead (place : BodyPlace) : place.location.toList.head? = some place.lead := by
  rcases place with ⟨area, key, method⟩ | name
  · have named : area.name.toList.head? = some (operation area key method).lead := by
      cases area <;> rfl
    rw [location_operation, List.head?_append, named]
    rfl
  · have named : "components.requestBodies.".toList.head? = some 'c' := by decide
    rw [location_component, List.head?_append, named]
    rfl

/-- A place is known from what is reported of it. -/
theorem location_injective : Function.Injective location := by
  intro one other same
  have texts := congrArg String.toList same
  have leads : one.lead = other.lead := by
    have firsts := congrArg List.head? texts
    rwa [location_lead, location_lead, Option.some.injEq] at firsts
  rcases one with ⟨area, key, method⟩ | name <;> rcases other with ⟨area', key', method'⟩ | name'
  · have areas : area = area' := by
      cases area <;> cases area' <;> first | rfl | cases leads
    subst areas
    rw [location_operation, location_operation] at texts
    have behind := (List.cons.inj (List.append_cancel_left texts)).2
    obtain ⟨keys, methods⟩ := last_known method.lowerName_plain method'.lowerName_plain behind
    rw [String.toList_injective keys, HttpMethod.lowerName_injective methods]
  · cases area <;> cases leads
  · cases area' <;> cases leads
  · rw [location_component, location_component] at texts
    rw [String.toList_injective (List.append_cancel_left texts)]

end BodyPlace

namespace ApiDocument

-- The maps in which bodies are found repeat no key.
structure Keyed (d : ApiDocument) : Prop where
  items (area : Area) : (Entries.keys (d.items area)).Nodup
  requestBodies {c : Components} : d.components = some c → (Entries.keys c.requestBodies).Nodup

theorem read_keyed : read.Gives Number.InRange Keyed := by
  intro mode node d within done
  have paths := Outline.slot_gives (r := record) rfl (List.get_mem outline.slots ⟨3, by decide⟩)
    (fun all : Entries (Option PathItem) => (Entries.keys all).Nodup) List.nodup_nil
    (entries_distinct _) mode node d within done
  have webhooks := Outline.slot_gives (r := record) rfl (List.get_mem outline.slots ⟨4, by decide⟩)
    (fun all : Entries (Option PathItem) => (Entries.keys all).Nodup) List.nodup_nil
    (entries_distinct _) mode node d within done
  have stored : Components.read.Gives Number.InRange fun c => (Entries.keys c.requestBodies).Nodup :=
    Outline.slot_gives (r := Components.record) rfl
      (List.get_mem Components.outline.slots ⟨3, by decide⟩)
      (fun all : Entries RequestBodyNode => (Entries.keys all).Nodup) List.nodup_nil
      (entries_distinct _)
  have components := Outline.slot_gives (r := record) rfl (List.get_mem outline.slots ⟨5, by decide⟩)
    (fun found : Option Components => ∀ c ∈ found, (Entries.keys c.requestBodies).Nodup)
    (fun _ here => absurd here (Option.not_mem_none _)) (optional_gives stored) mode node d within done
  refine ⟨fun area => ?_, fun present => components _ present⟩
  cases area with
  | paths => exact paths
  | webhooks => exact webhooks

/-- A document that was read repeats no key. -/
theorem Parsed.keyed {d : ApiDocument} (parsed : d.Parsed) : d.Keyed := by
  cases parsed with
  | text done => exact read_keyed _ _ _ (JsonText.read_inRange _) (ofJsonText_root done)
  | value proper done => exact read_keyed _ _ _ proper.inRange (supported_ok done)

end ApiDocument

theorem PathItem.operation_of_listed {item : PathItem} {method : HttpMethod} {o : Operation}
    (listed : (method, o) ∈ item.operations) : item.operation? method = some o := by
  rw [operations_methods] at listed
  obtain ⟨other, -, found⟩ := List.mem_filterMap.mp listed
  obtain ⟨same, present, pair⟩ := Option.map_eq_some_iff.mp found
  cases pair
  exact present

namespace ApiDocument

variable {policy : ConflictPolicy} {d : ApiDocument} {place : BodyPlace} {one other : RequestBody}

-- Every place holds one body.
theorem body_unique (keyed : d.Keyed) (listed : (place, one) ∈ d.bodies)
    (listedToo : (place, other) ∈ d.bodies) : one = other := by
  cases place with
  | operation area key method =>
    obtain ⟨item, o, here, declared, inline⟩ := mem_bodies_operation.mp listed
    obtain ⟨item', o', here', declared', inline'⟩ := mem_bodies_operation.mp listedToo
    have items : some item = some item' := Option.some.inj
      ((get_of_mem (keyed.items area) here).symm.trans (get_of_mem (keyed.items area) here'))
    cases items
    have operations : o = o' := Option.some.inj
      ((PathItem.operation_of_listed declared).symm.trans (PathItem.operation_of_listed declared'))
    subst operations
    cases inline.symm.trans inline'
    rfl
  | component name =>
    obtain ⟨c, present, here⟩ := mem_bodies_component.mp listed
    obtain ⟨c', present', here'⟩ := mem_bodies_component.mp listedToo
    cases present.symm.trans present'
    have distinct := keyed.requestBodies present
    cases (get_of_mem distinct here).symm.trans (get_of_mem distinct here')
    rfl

end ApiDocument

open ContentConflict (Twofold elect firstOf? of? ranked)

-- The schemas of two media types differ; one of them may have none.
def MediaType.Differs (a b : MediaType) : Prop := ¬ SchemaNode.equalOption a.schema b.schema

instance (a b : MediaType) : Decidable (a.Differs b) :=
  inferInstanceAs (Decidable ¬ SchemaNode.equalOption a.schema b.schema)

namespace ContentConflict

variable {policy : ConflictPolicy} {content : Entries MediaType}

-- The media types that an election drops.
def dropped (policy : ConflictPolicy) (content : Entries MediaType) : Entries MediaType :=
  content.filter fun e => MediaKind.of e.1 = (ranked policy).2

theorem firstOf_dropped (policy : ConflictPolicy) (content : Entries MediaType) :
    firstOf? (ranked policy).2 content = (dropped policy content).head? :=
  List.head?_filter.symm

-- An election is between the first media types of both kinds.
theorem of_twofold (policy : ConflictPolicy) (place : String) (twofold : Twofold content) :
    ∃ kept first others, firstOf? (ranked policy).1 content = some kept ∧
      dropped policy content = first :: others ∧
      of? policy place content = some ⟨place, kept.1, first.1, decide (kept.2.Differs first.2)⟩ := by
  obtain ⟨favoured, other⟩ := (twofold_ranked policy).mp twofold
  obtain ⟨kept, found⟩ := Option.isSome_iff_exists.mp favoured
  obtain ⟨first, foundToo⟩ := Option.isSome_iff_exists.mp other
  have leads : (dropped policy content).head? = some first := firstOf_dropped policy content ▸ foundToo
  obtain ⟨others, all⟩ := List.head?_eq_some_iff.mp leads
  refine ⟨kept, first, others, found, all, ?_⟩
  simp [of?, found, foundToo, MediaType.Differs]

end ContentConflict

namespace ApiDocument

/-- What is told of the election in a body: it keeps `kept` first, and drops `first` and `others`. -/
structure Tells (d : ApiDocument) (policy : ConflictPolicy) (place : BodyPlace) (body : RequestBody)
    (c : ContentConflict) (kept first : String × MediaType) (others : Entries MediaType) : Prop where
  -- it is the one election that is reported with this place
  reported (other : ContentConflict) :
    other ∈ d.conflicts policy ∧ other.location = place.location ↔ other = c
  favours : c.kept = kept.1 ∧ firstOf? (ranked policy).1 body.content = some kept
  drops : c.discarded = first.1 ∧ ContentConflict.dropped policy body.content = first :: others
  remaining : (place, { body with
    content := body.content.filter fun e => MediaKind.of e.1 ≠ (ranked policy).2 }) ∈
      (d.resolveConflicts policy).bodies
  -- two schemas are compared
  compared : c.diverged = true ↔ kept.2.Differs first.2
  -- so a schema that differs is dropped without a word just if the first one does not differ
  silent : c.diverged = false ∧
      (∃ e ∈ ContentConflict.dropped policy body.content, kept.2.Differs e.2) ↔
    ¬ kept.2.Differs first.2 ∧ ∃ e ∈ others, kept.2.Differs e.2
  warned {options : Options} {file : Ir.File} : c.diverged = true → options.contentConflict = policy →
    d.lower options = .ok file → DocumentLowering.diverged c ∈ file.errors

variable {policy : ConflictPolicy} {d : ApiDocument} {place : BodyPlace} {body : RequestBody}
  {c : ContentConflict}

theorem mem_conflicts : c ∈ d.conflicts policy ↔
    ∃ b ∈ d.bodies, of? policy b.1.location b.2.content = some c := by
  rw [conflicts_eq, List.mem_filterMap]

theorem conflict_unique (keyed : d.Keyed) (listed : (place, body) ∈ d.bodies)
    (elected : of? policy place.location body.content = some c) (other : ContentConflict) :
    other ∈ d.conflicts policy ∧ other.location = place.location ↔ other = c := by
  rw [mem_conflicts]
  constructor
  · rintro ⟨⟨⟨place', body'⟩, listedToo, electedToo⟩, same⟩
    rw [ContentConflict.of_location electedToo] at same
    obtain rfl := BodyPlace.location_injective same
    obtain rfl := body_unique keyed listed listedToo
    exact Option.some.inj (electedToo.symm.trans elected)
  · rintro rfl
    exact ⟨⟨_, listed, elected⟩, ContentConflict.of_location elected⟩

-- A divergence that is told of becomes a finding.
theorem diverged_found {options : Options} {file : Ir.File}
    (reported : c ∈ d.conflicts options.contentConflict) (diverged : c.diverged = true)
    (done : d.lower options = .ok file) : DocumentLowering.diverged c ∈ file.errors := by
  obtain ⟨title, description, parts, -, rfl⟩ := staged_of_lower done
  have noticed : DocumentLowering.diverged c ∈ d.notices options :=
    List.mem_append_right _ (List.mem_map_of_mem (List.mem_filter.mpr ⟨reported, diverged⟩))
  exact List.mem_append_left _ noticed

/-- An election tells whether the first media type that it drops has the schema of the one that it
keeps, and nothing of the others that it drops. -/
theorem divergence_told (policy : ConflictPolicy) (keyed : d.Keyed) (listed : (place, body) ∈ d.bodies)
    (twofold : Twofold body.content) :
    ∃ c kept first others, d.Tells policy place body c kept first others := by
  obtain ⟨kept, first, others, favoured, dropped, elected⟩ :=
    ContentConflict.of_twofold policy place.location twofold
  have unique := conflict_unique keyed listed elected
  refine ⟨_, kept, first, others, unique, ⟨rfl, favoured⟩, ⟨rfl, dropped⟩, ?_, decide_eq_true_iff,
    ?_, fun diverged same done => ?_⟩
  · rw [bodies_resolved]
    refine List.mem_map.mpr ⟨_, listed, ?_⟩
    simp only [RequestBody.mapContent, elect, if_pos twofold]
  · rw [dropped, decide_eq_false_iff_not]
    simp only [List.mem_cons, exists_eq_or_imp]
    exact and_congr_right fun same => or_iff_right same
  · subst same
    exact diverged_found ((unique _).mpr rfl).1 diverged done

-- A body with two JSON media types, of which only the second one has another schema than the form.
def uploadContent : Entries MediaType :=
  let typed (type : SchemaType) : MediaType :=
    ⟨some (.inline { Keywords.empty with type := some (.single type) }), [], []⟩
  [("application/json", typed .object), ("application/problem+json", typed .integer),
    ("multipart/form-data", typed .object)]

def uploadBody : RequestBody := { RequestBody.record.blank with content := uploadContent }

def uploads : ApiDocument :=
  { ApiDocument.ofSchemas [] with
    paths := [("/uploads", some { PathItem.record.blank with
      post := some { Operation.record.blank with requestBody := some (.inline uploadBody) } })] }

theorem uploads_untold :
    ∃ c kept first others,
      uploads.Tells .preferMultipart (.operation .paths "/uploads" .post) uploadBody c kept first others ∧
        c.diverged = false ∧ (∃ e ∈ others, kept.2.Differs e.2) ∧
        ∃ file, uploads.lower .default = .ok file ∧ file.errors = [] := by
  have keyed : uploads.Keyed := by
    refine ⟨fun area => ?_, fun present => ?_⟩
    · cases area <;> decide
    · cases present
      exact List.nodup_nil
  have listed : (.operation .paths "/uploads" .post, uploadBody) ∈ uploads.bodies :=
    mem_bodies_operation.mpr ⟨_, _, List.mem_singleton_self _, List.mem_singleton_self _, rfl⟩
  have lowers : (uploads.lower .default).toOption.any (fun file => file.errors.isEmpty) = true := by
    decide +kernel
  obtain ⟨file, done, quiet⟩ := ok_of_any lowers
  have compared : ((firstOf? .multipart uploadContent).any fun kept =>
      match ContentConflict.dropped .preferMultipart uploadContent with
      | first :: others => decide (¬ kept.2.Differs first.2 ∧ ∃ e ∈ others, kept.2.Differs e.2)
      | [] => false) = true := by
    decide +kernel
  obtain ⟨c, kept, first, others, told⟩ :=
    divergence_told .preferMultipart keyed listed (by decide +kernel)
  have favoured : firstOf? .multipart uploadContent = some kept := told.favours.2
  have dropped : ContentConflict.dropped .preferMultipart uploadContent = first :: others := told.drops.2
  rw [favoured, dropped] at compared
  obtain ⟨same, differs⟩ := of_decide_eq_true compared
  exact ⟨c, kept, first, others, told, (told.silent.mpr ⟨same, differs⟩).1, differs, file, done,
    List.isEmpty_iff.mp quiet⟩

end ApiDocument

end ApiLowering
