import ApiLowering.Proofs.Assembly
import ApiLowering.Proofs.Closure
import ApiLowering.Proofs.Decoding
import ApiLowering.Proofs.Discriminants
import ApiLowering.Proofs.Lookup

/-!
The order of components. Component schemas in another order are lowered to the same schemas in that
order; nothing else of the representation changes but the order of what was found wrong.
-/

set_option autoImplicit false

namespace ApiLowering

section

variable {α : Type} {key : String} {value : α} {entries others : Entries α}

theorem get_of_mem (distinct : (Entries.keys entries).Nodup) (listed : (key, value) ∈ entries) :
    Entries.get? key entries = some value := by
  induction entries with
  | nil => cases listed
  | cons e rest ih =>
    obtain ⟨k, v⟩ := e
    obtain ⟨fresh, distinct⟩ := List.nodup_cons.mp distinct
    rw [Entries.get?]
    rcases List.mem_cons.mp listed with same | later
    · cases same
      exact if_pos rfl
    · have different : k ≠ key := by
        rintro rfl
        exact fresh (List.mem_map.mpr ⟨_, later, rfl⟩)
      rw [if_neg different]
      exact ih distinct later

theorem get_perm (distinct : (Entries.keys entries).Nodup) (order : others.Perm entries)
    (key : String) : Entries.get? key others = Entries.get? key entries := by
  have distinctToo : (Entries.keys others).Nodup := (order.map Prod.fst).nodup_iff.mpr distinct
  refine Option.ext fun value => ⟨fun found => ?_, fun found => ?_⟩
  · exact get_of_mem distinct (order.mem_iff.mp (Resolver.get_mem found))
  · exact get_of_mem distinctToo (order.mem_iff.mpr (Resolver.get_mem found))

end

theorem insertSorted_pos {s t : String} {rest : List String} (before : s < t) :
    insertSorted s (t :: rest) = s :: t :: rest := by
  have different : s ≠ t := fun same => String.lt_irrefl t (same ▸ before)
  rw [insertSorted, if_neg different, if_pos before]

theorem insertSorted_neg {s t : String} {rest : List String} (after : t < s) :
    insertSorted s (t :: rest) = t :: insertSorted s rest := by
  have different : s ≠ t := fun same => String.lt_irrefl s (same ▸ after)
  rw [insertSorted, if_neg different, if_neg (String.lt_asymm after)]

theorem insertSorted_same {s : String} {rest : List String} :
    insertSorted s (s :: rest) = s :: rest := by
  rw [insertSorted, if_pos rfl]

theorem insertSorted_swap (a b : String) (set : List String) :
    insertSorted b (insertSorted a set) = insertSorted a (insertSorted b set) := by
  -- the two are symmetric, so the smaller one may come first
  have ordered {a b : String} (set : List String) (less : a < b) :
      insertSorted b (insertSorted a set) = insertSorted a (insertSorted b set) := by
    induction set with
    | nil => exact (insertSorted_neg less).trans (insertSorted_pos less).symm
    | cons t rest ih =>
      rcases Std.lt_trichotomy a t with before | same | after
      · rw [insertSorted_pos before, insertSorted_neg less]
        rcases Std.lt_trichotomy b t with beforeToo | same | after
        · rw [insertSorted_pos beforeToo, insertSorted_pos less]
        · subst same
          rw [insertSorted_same, insertSorted_pos less]
        · rw [insertSorted_neg after, insertSorted_pos before]
      · subst same
        rw [insertSorted_same, insertSorted_neg less, insertSorted_same]
      · have afterToo := String.lt_trans after less
        rw [insertSorted_neg after, insertSorted_neg afterToo, insertSorted_neg afterToo,
          insertSorted_neg after, ih]
  rcases Std.lt_trichotomy a b with less | same | more
  · exact ordered set less
  · rw [same]
  · exact (ordered set more).symm

theorem sortedSet_perm {texts others : List String} (order : others.Perm texts) :
    sortedSet others = sortedSet texts :=
  order.foldl_eq' (fun a _ b _ set => insertSorted_swap a b set) []

namespace Report

variable {α β γ : Type} {same : α → α → Prop} {alike : β → β → Prop}

-- If the first report succeeds, so does the second, with a value that is the same in some sense; it
-- finds the same things and notes the same references, in some order.
def Reorders (same : α → α → Prop) (a b : Report α) : Prop :=
  ∀ x, a.outcome = .ok x → ∃ y, b.outcome = .ok y ∧ same x y ∧
    b.findings.Perm a.findings ∧ b.marks.Perm a.marks

theorem reorders_refl (reflexive : ∀ x, same x x) (a : Report α) : Reorders same a a :=
  fun x done => ⟨x, done, reflexive x, .refl _, .refl _⟩

theorem reorders_pure {x y : α} (related : same x y) :
    Reorders same (pure x : Report α) (pure y) := by
  intro z done
  cases pure_ok done
  exact ⟨y, rfl, related, .refl _, .refl _⟩

theorem reorders_bind {a b : Report α} {f g : α → Report β} (first : Reorders same a b)
    (next : ∀ x y, same x y → Reorders alike (f x) (g y)) :
    Reorders alike (a >>= f) (b >>= g) := by
  intro v done
  obtain ⟨x, fromA, done⟩ := bind_ok done
  obtain ⟨y, fromB, related, found, noted⟩ := first x fromA
  obtain ⟨w, also, alikeToo, foundToo, notedToo⟩ := next x y related v done
  rw [bind_of_ok fromA, bind_of_ok fromB]
  exact ⟨w, also, alikeToo, found.append foundToo, noted.append notedToo⟩

theorem reorders_after (a : Report α) {f g : α → Report β}
    (next : ∀ x, Reorders alike (f x) (g x)) : Reorders alike (a >>= f) (a >>= g) :=
  have unmoved : Reorders Eq a a := reorders_refl (fun _ => rfl) a
  reorders_bind unmoved fun x _ equal => equal ▸ next x

theorem reorders_trans {a b c : Report α}
    (transitive : ∀ x y z, same x y → same y z → same x z)
    (first : Reorders same a b) (second : Reorders same b c) : Reorders same a c := by
  intro x done
  obtain ⟨y, fromB, related, found, noted⟩ := first x done
  obtain ⟨z, fromC, relatedToo, foundToo, notedToo⟩ := second y fromB
  exact ⟨z, fromC, transitive x y z related relatedToo, foundToo.trans found,
    notedToo.trans noted⟩

theorem forEach_of_ok {f : α → Report β} {a : α} {rest : List α} {b : β} {more : List β}
    (first : (f a).outcome = .ok b) (later : (forEach f rest).outcome = .ok more) :
    forEach f (a :: rest) = ⟨(f a).findings ++ (forEach f rest).findings,
      (f a).marks ++ (forEach f rest).marks, .ok (b :: more)⟩ := by
  have tail : (do
      let others ← forEach f rest
      return b :: others : Report (List β)) =
      ⟨(forEach f rest).findings, (forEach f rest).marks, .ok (b :: more)⟩ := by
    rw [bind_of_ok later]
    simp only [List.append_nil, pure, ok]
  rw [forEach, bind_of_ok first, tail]

-- Neighbours that trade places.
theorem reorders_swap (f : α → Report β) (a b : α) (rest : List α) :
    Reorders (fun xs ys => ys.Perm xs) (forEach f (b :: a :: rest)) (forEach f (a :: b :: rest)) := by
  intro all done
  obtain ⟨second, ofB, done⟩ := bind_ok done
  obtain ⟨tail, done, equal⟩ := bind_ok done
  obtain ⟨first, ofA, done⟩ := bind_ok done
  obtain ⟨more, later, same⟩ := bind_ok done
  cases pure_ok equal
  cases pure_ok same
  have before := forEach_of_ok ofB (congrArg outcome (forEach_of_ok ofA later))
  have after := forEach_of_ok ofA (congrArg outcome (forEach_of_ok ofB later))
  rw [forEach_of_ok ofA later] at before
  rw [forEach_of_ok ofB later] at after
  rw [before, after]
  exact ⟨first :: second :: more, rfl, .swap _ _ _, List.perm_append_comm_assoc _ _ _,
    List.perm_append_comm_assoc _ _ _⟩

/-- Items in another order give their results in that order, or one of them fails. -/
theorem forEach_reorders (f : α → Report β) {items others : List α} (order : items.Perm others) :
    Reorders (fun xs ys => ys.Perm xs) (forEach f items) (forEach f others) := by
  induction order with
  | nil => exact reorders_refl (fun _ => .refl _) _
  | cons a _ ih =>
    refine reorders_after _ fun b => reorders_bind ih fun xs ys related => ?_
    exact reorders_pure (related.cons b)
  | swap a b rest => exact reorders_swap f a b rest
  | trans _ _ first second =>
    exact reorders_trans (fun xs ys zs one two => two.trans one) first second

end Report

namespace ApiDocument

def withSchemas (d : ApiDocument) (schemas : Entries SchemaNode) : ApiDocument :=
  { d with components := d.components.map fun c => { c with schemas } }

-- The same document with its component schemas in another order. No two of them have the same id, as
-- in every document that was read.
structure Reordered (d e : ApiDocument) : Prop where
  rest : e = d.withSchemas e.componentSchemas
  schemas : d.componentSchemas.Perm e.componentSchemas
  distinct : (Entries.keys d.componentSchemas).Nodup

variable {d e : ApiDocument} {options : Options}

theorem withSchemas_own (d : ApiDocument) : d.withSchemas d.componentSchemas = d := by
  obtain ⟨openapi, info, servers, paths, webhooks, _ | c, tags, security, extensions⟩ := d <;> rfl

theorem withSchemas_twice (d : ApiDocument) (first second : Entries SchemaNode) :
    (d.withSchemas first).withSchemas second = d.withSchemas second := by
  obtain ⟨openapi, info, servers, paths, webhooks, _ | c, tags, security, extensions⟩ := d <;> rfl

theorem withSchemas_resolved (d : ApiDocument) (policy : ConflictPolicy)
    (schemas : Entries SchemaNode) :
    (d.withSchemas schemas).resolveConflicts policy =
      (d.resolveConflicts policy).withSchemas schemas := by
  obtain ⟨openapi, info, servers, paths, webhooks, _ | c, tags, security, extensions⟩ := d <;> rfl

-- What is read from the components apart from their schemas.
theorem withSchemas_conflicts (d : ApiDocument) (policy : ConflictPolicy)
    (schemas : Entries SchemaNode) : (d.withSchemas schemas).conflicts policy = d.conflicts policy := by
  cases stored : d.components <;> simp only [conflicts, withSchemas, stored] <;> rfl

theorem withSchemas_securitySchemes (d : ApiDocument) (schemas : Entries SchemaNode) :
    DocumentLowering.securitySchemes (d.withSchemas schemas) =
      DocumentLowering.securitySchemes d := by
  cases stored : d.components <;>
    simp only [DocumentLowering.securitySchemes, withSchemas, stored] <;> rfl

theorem Reordered.symm (same : d.Reordered e) : e.Reordered d where
  rest := by
    rw [same.rest, withSchemas_twice, withSchemas_own]
  schemas := same.schemas.symm
  distinct := (same.schemas.map Prod.fst).nodup_iff.mp same.distinct

theorem Reordered.resolved (same : d.Reordered e) (policy : ConflictPolicy) :
    (d.resolveConflicts policy).Reordered (e.resolveConflicts policy) where
  rest := by
    rw [componentSchemas_resolveConflicts, ← withSchemas_resolved, ← same.rest]
  schemas := by
    rw [componentSchemas_resolveConflicts, componentSchemas_resolveConflicts]
    exact same.schemas
  distinct := by
    rw [componentSchemas_resolveConflicts]
    exact same.distinct

theorem Reordered.resolver (same : d.Reordered e) (options : Options) :
    (Resolver.ofDocument d options).Alike (Resolver.ofDocument e options) where
  rest := by
    rw [Resolver.ofDocument_schemas, same.rest]
    cases stored : d.components with
    | none =>
      simp only [Resolver.ofDocument, withSchemas, componentSchemas, stored, Option.map_none]
    | some c =>
      simp only [Resolver.ofDocument, withSchemas, componentSchemas, stored, Option.map_some]
  schemas id := by
    rw [Resolver.ofDocument_schemas, Resolver.ofDocument_schemas]
    exact get_perm same.distinct same.schemas.symm id

theorem Reordered.inlineSchemas (same : d.Reordered e) : d.inlineSchemas.Perm e.inlineSchemas := by
  have schemas := same.schemas
  rw [same.rest]
  generalize e.componentSchemas = reordered at schemas ⊢
  unfold ApiDocument.inlineSchemas withSchemas
  refine List.Perm.append_left _ ?_
  cases stored : d.components with
  | none => exact .refl _
  | some c =>
    simp only [componentSchemas, stored] at schemas
    simp only [Option.map_some, Option.toList_some, List.flatMap_singleton]
    -- of the components, only the schemas stand in another order
    refine List.Perm.append_right _ (List.Perm.append_right _ (List.Perm.append_right _ ?_))
    exact (schemas.map Prod.snd).flatMap_right _

theorem Reordered.stripAll (same : d.Reordered e) {schemas others : Entries Ir.Schema}
    (order : others.Perm schemas) :
    (Discriminant.stripAll (Discriminant.ofDocument e) others).Perm
      (Discriminant.stripAll (Discriminant.ofDocument d) schemas) := by
  have stripped (id : String) (s : Ir.Schema) : Discriminant.strip (Discriminant.ofDocument e) id s =
      Discriminant.strip (Discriminant.ofDocument d) id s := by
    refine Discriminant.strip_congr (fun key => ?_) s
    simp only [Discriminant.mem_ofDocument, same.inlineSchemas.mem_iff]
  unfold Discriminant.stripAll
  simp only [stripped]
  exact order.map _

end ApiDocument

namespace DocumentLowering

-- The same parts but for the order of the schemas.
def SameParts (x y : Parts) : Prop :=
  y = { x with schemas := y.schemas } ∧ y.schemas.Perm x.schemas

theorem lowerSchemas_reorders (r : Resolver) (path : List String)
    {schemas others : Entries SchemaNode} (order : schemas.Perm others) :
    Report.Reorders (fun xs ys => ys.Perm xs) (lowerSchemas r path schemas)
      (lowerSchemas r path others) := Report.forEach_reorders _ order

theorem lowerParts_reorders {d e : ApiDocument} (same : d.Reordered e) {scope : Scope} {t : Resolver}
    (alike : scope.resolver.Alike t) :
    Report.Reorders SameParts (lowerParts scope d)
      (lowerParts { scope with resolver := t } e) := by
  have schemas := lowerSchemas_reorders scope.resolver scope.path same.schemas
  have loweredSchemas : lowerSchemas t = lowerSchemas scope.resolver := by
    funext path schemas
    unfold lowerSchemas
    rw [SchemaLowering.lowerComponent_lookup alike]
  have paths : e.paths = d.paths := by rw [same.rest]; rfl
  have webhooks : e.webhooks = d.webhooks := by rw [same.rest]; rfl
  have servers : e.servers = d.servers := by rw [same.rest]; rfl
  have tags : e.tags = d.tags := by rw [same.rest]; rfl
  have sdk : VariableLowering.lower t scope.path e =
      VariableLowering.lower scope.resolver scope.path d := by
    rw [VariableLowering.lower_lookup alike, same.rest]
    rfl
  unfold lowerParts
  rw [paths, webhooks, servers, tags, lowerPaths_lookup alike, lowerWebhooks_lookup alike]
  dsimp only
  rw [sdk, loweredSchemas]
  refine Report.reorders_after _ fun _ => Report.reorders_after _ fun _ => ?_
  refine Report.reorders_bind schemas fun xs ys order => ?_
  refine Report.reorders_after _ fun _ => Report.reorders_after _ fun _ => ?_
  exact Report.reorders_after _ fun _ => Report.reorders_pure ⟨rfl, order⟩

end DocumentLowering

variable {d e : ApiDocument} {options : Options} {file other : Ir.File}

open DocumentLowering (SameParts)

theorem ApiDocument.Reordered.securitySchemes (same : d.Reordered e) :
    DocumentLowering.securitySchemes e = DocumentLowering.securitySchemes d := by
  rw [same.rest, withSchemas_securitySchemes]

theorem ApiDocument.Reordered.supportedSchemes (same : d.Reordered e) :
    e.supportedSchemes = d.supportedSchemes :=
  congrArg SecurityLowering.supported same.securitySchemes

theorem ApiDocument.Reordered.notices (same : d.Reordered e) (options : Options) :
    e.notices options = d.notices options := by
  have elections : e.conflicts options.contentConflict = d.conflicts options.contentConflict := by
    rw [same.rest, withSchemas_conflicts]
  unfold ApiDocument.notices
  rw [same.securitySchemes, elections]

theorem ApiDocument.Reordered.report (same : d.Reordered e) (options : Options) :
    Report.Reorders SameParts (d.report options) (e.report options) := by
  have resolved := same.resolved options.contentConflict
  have scopes : e.loweringScope options = { d.loweringScope options with
      resolver := .ofDocument (e.resolveConflicts options.contentConflict) options } := by
    have security : e.security = d.security := by rw [same.rest]; rfl
    unfold ApiDocument.loweringScope
    rw [same.supportedSchemes]
    exact congrArg (Scope.mk _ _ _) security
  unfold ApiDocument.report
  rw [scopes]
  exact DocumentLowering.lowerParts_reorders resolved (resolved.resolver options)

-- The same representation but for the order of the schemas and of what was found wrong.
structure Ir.File.Reordered (file other : Ir.File) : Prop where
  rest : other = { file with schemas := other.schemas, errors := other.errors }
  schemas : other.schemas.Perm file.schemas
  errors : other.errors.Perm file.errors

theorem reordered_lowers (same : d.Reordered e) (done : d.lower options = .ok file) :
    ∃ other, e.lower options = .ok other ∧ file.Reordered other := by
  have info : e.info = d.info := by rw [same.rest]; rfl
  rcases lower_staged options d.info with ⟨cause, fails⟩ | ⟨title, description, staged⟩
  · cases done.symm.trans (fails d rfl)
  · rw [staged d rfl] at done
    obtain ⟨parts, outcome, made⟩ := except_map_ok done
    obtain ⟨others, outcomeToo, ⟨alike, order⟩, found, noted⟩ := same.report options parts outcome
    refine ⟨e.assembled options title description others, ?_, ?_⟩
    · rw [staged e info, outcomeToo]
      rfl
    · subst made
      refine ⟨?_, (same.resolved options.contentConflict).stripAll order, ?_⟩
      · unfold ApiDocument.assembled DocumentLowering.assemble
        dsimp only
        rw [alike, sortedSet_perm noted, same.supportedSchemes]
      · unfold ApiDocument.assembled DocumentLowering.assemble
        dsimp only
        rw [same.notices]
        exact found.append_left _

/-- The order of the component schemas does not matter: a document is lowered if it is lowered with
its component schemas in another order; the representations are the same then, with the same schema
under every id, but for the order of the errors. -/
theorem lower_reordered (same : d.Reordered e) :
    ((∃ file, d.lower options = .ok file) ↔ ∃ other, e.lower options = .ok other) ∧
      ∀ file other, d.lower options = .ok file → e.lower options = .ok other →
        other = { file with schemas := other.schemas, errors := other.errors } ∧
          (∀ id, Entries.get? id other.schemas = Entries.get? id file.schemas) ∧
          other.schemas.Perm file.schemas ∧ other.errors.Perm file.errors := by
  refine ⟨⟨?_, ?_⟩, fun file other done also => ?_⟩
  · rintro ⟨file, done⟩
    obtain ⟨other, also, -⟩ := reordered_lowers same done
    exact ⟨other, also⟩
  · rintro ⟨other, also⟩
    obtain ⟨file, done, -⟩ := reordered_lowers same.symm also
    exact ⟨file, done⟩
  · obtain ⟨again, lowered, reordered⟩ := reordered_lowers same done
    cases also.symm.trans lowered
    have distinct : (Entries.keys file.schemas).Nodup := by
      rw [lowered_keys done]
      exact same.distinct
    exact ⟨reordered.rest, get_perm distinct reordered.schemas, reordered.schemas,
      reordered.errors⟩

-- Two components with something wrong in each of them.
def strays : Entries SchemaNode := [("Cat", .reference "elsewhere"), ("Dog", .invalid .null)]

theorem strays_apart : (ApiDocument.ofSchemas strays).Reordered (.ofSchemas strays.reverse) where
  rest := rfl
  schemas := strays.reverse_perm.symm
  distinct := by decide

theorem strays_reordered :
    ∃ file other, (ApiDocument.ofSchemas strays).lower .default = .ok file ∧
      (ApiDocument.ofSchemas strays.reverse).lower .default = .ok other ∧
      file.errors.length = 2 ∧ other.errors.Perm file.errors ∧
      ∀ id, Entries.get? id other.schemas = Entries.get? id file.schemas := by
  have lowered : (((ApiDocument.ofSchemas strays).lower .default).toOption.any
      fun file => file.errors.length == 2) = true := by decide +kernel
  obtain ⟨file, done, counted⟩ := ok_of_any lowered
  obtain ⟨both, same⟩ := lower_reordered strays_apart
  obtain ⟨other, also⟩ := both.mp ⟨file, done⟩
  obtain ⟨-, schemas, -, errors⟩ := same file other done also
  exact ⟨file, other, done, also, beq_iff_eq.mp counted, errors, schemas⟩

end ApiLowering
