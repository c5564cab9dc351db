import ApiLowering.Proofs.Gathering

/-!
The order of the members of a composition. Compositions that list the same members in different orders
can be merged in the same cases, and the objects differ in presentation only: in the order of what they
hold, and in which of several declarations of a key is the property and which the conflict.
-/

set_option autoImplicit false

namespace ApiLowering

/-- Two objects with the same properties, as far as keys and requirements go, the same parents and the
same keys in conflict, in any order. -/
structure Ir.ObjectSchema.SameButOrder (a b : Ir.ObjectSchema Ir.Schema) : Prop where
  keys : ∀ key, key ∈ a.properties.map Ir.Property.key ↔ key ∈ b.properties.map Ir.Property.key
  required : ∀ p ∈ a.properties, ∀ q ∈ b.properties, p.key = q.key → p.required = q.required
  parents : ∀ id, id ∈ a.parents ↔ id ∈ b.parents
  additional : a.additionalProperties = b.additionalProperties
  conflicts : ∀ key, key ∈ a.conflicts.map Ir.PropertyConflict.propertyKey ↔
    key ∈ b.conflicts.map Ir.PropertyConflict.propertyKey

namespace SchemaLowering

open ApiLowering.Composition (Declaration Leads Open Visits)

variable {r : Resolver} {path : List String} {s : Schema} {members : List SchemaNode}

theorem merged_reordered (order : s.allOf.Perm members) (merged : IsMerged s) :
    IsMerged { s with allOf := members } := by
  obtain ⟨some, more⟩ := merged
  refine ⟨fun none => some (List.perm_nil.mp (none ▸ order)), more.imp_right fun many => ?_⟩
  have counted : (shapedMembers members).length = (shapedMembers s.allOf).length := by
    unfold shapedMembers
    rw [order.length_eq]
    split
    · exact order.length_eq.symm
    · exact (order.filter _).length_eq.symm
  exact counted ▸ many

theorem leads_reordered (order : s.allOf.Perm members) {p : Schema → Prop}
    (own : p s → p { s with allOf := members })
    (led : ∃ t, Leads r (.inline s) (.inline t) ∧ p t) :
    ∃ t, Leads r (.inline { s with allOf := members }) (.inline t) ∧ p t := by
  obtain ⟨t, led, holds⟩ := led
  cases led with
  | here => exact ⟨_, .here, own holds⟩
  | member listed further => exact ⟨t, .member (order.mem_iff.mp listed) further, holds⟩

theorem led_reordered (order : s.allOf.Perm members) {p : Schema → Prop}
    (own : p s ↔ p { s with allOf := members }) :
    (∃ t, Leads r (.inline s) (.inline t) ∧ p t) ↔
      ∃ t, Leads r (.inline { s with allOf := members }) (.inline t) ∧ p t :=
  ⟨leads_reordered order own.mp, leads_reordered (s := { s with allOf := members }) order.symm own.mpr⟩

theorem open_reordered (order : s.allOf.Perm members) (free : Open r (path, .inline s)) :
    Open r (path, .inline { s with allOf := members }) := by
  rintro e ⟨reached, target, id, node, visited, leads, failed⟩
  cases visited with
  | member listed further =>
    exact free e ⟨reached, target, id, node, .member (order.mem_iff.mpr listed) further, leads, failed⟩

theorem lowerable_reordered (order : s.allOf.Perm members)
    (lowerable : Lowerable r (path, .inline s)) :
    Lowerable r (path, .inline { s with allOf := members }) := by
  intro reached t visited
  cases visited with
  | here => exact lowerable path s .here
  | member listed further => exact lowerable reached t (.member (order.mem_iff.mpr listed) further)

theorem lowerComposed_reordered (order : s.allOf.Perm members)
    (done : ∃ schema, (lowerComposed r path s).outcome = .ok schema) :
    ∃ schema, (lowerComposed r path { s with allOf := members }).outcome = .ok schema := by
  obtain ⟨free, lowerable⟩ := lowerComposed_succeeds.mp done
  exact lowerComposed_succeeds.mpr
    ⟨open_reordered order free, lowerable_reordered order lowerable⟩

theorem contributes_reordered (order : s.allOf.Perm members) {d : Declaration} :
    Contributes r s d ↔ Contributes r { s with allOf := members } d :=
  led_reordered order Iff.rfl

theorem gathers_reordered (order : s.allOf.Perm members) {a b : Ir.ObjectSchema Ir.Schema}
    (one : Gathers r s a) (other : Gathers r { s with allOf := members } b) : a.SameButOrder b where
  keys key := by
    simp only [one.keys, other.keys, contributes_reordered order]
  required p here q there same := by
    rw [Bool.eq_iff_iff, one.required p here, other.required q there, same]
    exact led_reordered order Iff.rfl
  parents id := by
    simp only [one.parents, other.parents, order.mem_iff]
  additional := by
    rw [Bool.eq_iff_iff, one.additional, other.additional]
    exact led_reordered order Iff.rfl
  conflicts key := by
    simp only [one.conflicts, other.conflicts, contributes_reordered order]

theorem real_reordered (order : s.allOf.Perm members) (real : RealNode (.inline s)) :
    RealNode (.inline { s with allOf := members }) := by
  have own : Real s := given_here real
  refine SchemaNode.every_inline own fun node part => realNode_part real ?_
  cases part with
  | property listed => exact .property listed
  | items present => exact .items present
  | additional present => exact .additional present
  | all listed => exact .all (order.mem_iff.mpr listed)
  | one listed => exact .one listed
  | any listed => exact .any listed

-- What a merged composition is lowered to is what its walk gives.
theorem lowerInline_merged (merged : IsMerged s) :
    (lowerInline r path s).outcome = (lowerComposed r path s).outcome := by
  have done : (Extension.checkUnknown s.extensions).outcome = .ok () := rfl
  rw [lowerInline_eq, Report.bind_of_ok done, (form_composed_iff s).mpr merged]
  rfl

end SchemaLowering

open SchemaLowering

variable {options : Options} {d : ApiDocument} {path : List String} {s : Schema}
  {members : List SchemaNode}

/-- The bounds of every schema of a document that came from JSON are numbers, and so are those of the
schemas nested in it. -/
theorem fromJson_inline (parsed : d.FromJson) : ∀ s ∈ d.inlineSchemas, RealNode (.inline s) := by
  have reals : Reader.real.Gives Number.Real fun x => x.isNaN = false :=
    real_gives (fun _ _ => Binary64.isNaN_ofRatio _ _ _) fun _ real => real
  refine fromJson_gives (ApiDocument.read_schemas (gives_mono (schemaNode_gives reals) ?_)) parsed
  intro node bounds s here t nested
  rcases List.mem_cons.mp (SchemaNode.inlineSchemas.eq_2 s ▸ nested) with same | deeper
  · exact bounds t (same ▸ here)
  · exact bounds t (SchemaNode.inlineSchemas_nested node here deeper)

/-- In a document that came from JSON, a composition that is merged can be lowered whatever the order
of its members, and to objects that are the same but for the order of what they hold. -/
theorem merging_orderless (parsed : d.FromJson) (here : s ∈ d.inlineSchemas) (merged : IsMerged s)
    (order : s.allOf.Perm members) :
    ((∃ schema, (lowerInline (d.resolver options) path s).outcome = .ok schema) ↔
      ∃ schema, (lowerInline (d.resolver options) path { s with allOf := members }).outcome =
        .ok schema) ∧
    ∀ x y, (lowerInline (d.resolver options) path s).outcome = .ok x →
      (lowerInline (d.resolver options) path { s with allOf := members }).outcome = .ok y →
      ∃ a b, x = .object a ∧ y = .object b ∧ a.SameButOrder b := by
  have components : ∀ e ∈ (d.resolver options).schemas, RealNode e.2 :=
    ApiDocument.resolver_schemas options d ▸ fromJson_real parsed
  have real := fromJson_inline parsed s here
  rw [lowerInline_merged merged, lowerInline_merged (merged_reordered order merged)]
  constructor
  · exact ⟨lowerComposed_reordered order,
      lowerComposed_reordered (s := { s with allOf := members }) order.symm⟩
  · intro x y first second
    obtain ⟨a, rfl, one⟩ := lowerComposed_gathers components real first
    obtain ⟨b, rfl, other⟩ := lowerComposed_gathers components (real_reordered order real) second
    exact ⟨a, b, rfl, rfl, gathers_reordered order one other⟩

-- A gull is a bird, and says otherwise what its wings are.
def gullText : String :=
  "\x7b\"openapi\":\"3.1.0\",\"components\":\x7b\"schemas\":\x7b" ++
  "\"Bird\":\x7b\"properties\":\x7b\"wings\":\x7b\"type\":\"string\"\x7d\x7d\x7d," ++
  "\"Gull\":\x7b\"allOf\":[\x7b\"$ref\":\"#/components/schemas/Bird\"\x7d,\x7b\"required\":[\"call\"]," ++
  "\"properties\":\x7b\"call\":\x7b\x7d,\"wings\":\x7b\"type\":\"integer\"\x7d\x7d\x7d]\x7d\x7d\x7d\x7d"

-- Whether the first composition that is merged in the document of a text becomes an object with these
-- keys in conflict.
def conflictIn (text : String) (keys : List String) : Bool :=
  match ApiDocument.ofJsonText text with
  | .error _ => false
  | .ok d =>
    match d.inlineSchemas.find? fun s => form s matches .composed with
    | none => false
    | some s =>
      match (lowerInline (d.resolver .default) [] s).outcome with
      | .ok (.object o) => o.conflicts.map Ir.PropertyConflict.propertyKey = keys
      | _ => false

theorem conflictIn_true {text : String} {keys : List String} (holds : conflictIn text keys = true) :
    ∃ d s o, ApiDocument.ofJsonText text = .ok d ∧ s ∈ d.inlineSchemas ∧ IsMerged s ∧
      (lowerInline (d.resolver .default) [] s).outcome = .ok (.object o) ∧
      o.conflicts.map Ir.PropertyConflict.propertyKey = keys := by
  unfold conflictIn at holds
  split at holds
  · cases holds
  · rename_i d read
    split at holds
    · cases holds
    · rename_i s found
      have composed : form s = .composed := by
        have shape := List.find?_some found
        split at shape
        · assumption
        · cases shape
      split at holds
      · rename_i o done
        exact ⟨d, s, o, read, List.mem_of_find?_eq_some found, (form_composed_iff s).mp composed, done,
          of_decide_eq_true holds⟩
      · cases holds

theorem gull_orderless :
    ∃ d s a b, ApiDocument.ofJsonText gullText = .ok d ∧ s ∈ d.inlineSchemas ∧
      (lowerInline (d.resolver .default) [] s).outcome = .ok (.object a) ∧
      (lowerInline (d.resolver .default) [] { s with allOf := s.allOf.reverse }).outcome =
        .ok (.object b) ∧
      a.SameButOrder b ∧ "wings" ∈ b.conflicts.map Ir.PropertyConflict.propertyKey := by
  have holds : conflictIn gullText ["wings"] = true := by decide +kernel
  obtain ⟨d, s, o, read, here, merged, done, keys⟩ := conflictIn_true holds
  obtain ⟨alike, same⟩ := @merging_orderless .default d [] s _ (.text read) here merged
    (List.reverse_perm s.allOf).symm
  obtain ⟨y, reversed⟩ := alike.mp ⟨_, done⟩
  obtain ⟨a, b, object, rfl, only⟩ := same _ y done reversed
  cases object
  refine ⟨d, s, o, b, read, here, done, reversed, only, ?_⟩
  exact (only.conflicts "wings").mp (keys ▸ List.mem_cons_self)

end ApiLowering
