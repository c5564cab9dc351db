import ApiLowering.Proofs.Election
import ApiLowering.Proofs.Genuine
import ApiLowering.Proofs.Operations

/-!
How the lowering of a document fails. A failure beside a missing title comes from the lowering of a
schema, and so is genuine: bodies are settled before any operation is lowered, and every status has a
name.
-/

set_option autoImplicit false

namespace ApiLowering

open ContentConflict (BodySettled Settled)
open Report (Only ensuring)
open Report.Logic (ensuring_blind)

section

variable {scope : Scope} {bad : LoweringError → Prop}

-- Lowering a schema in the scope fails in no other way.
def Lowers (bad : LoweringError → Prop) (scope : Scope) : Prop :=
  ∀ node, Only bad (SchemaLowering.lower scope.resolver scope.path node)

theorem Lowers.rules (lowers : Lowers bad scope) :
    scope.Rules (ensuring bad) (fun _ => True) fun _ => True where
  tolerant := (ensuring_blind bad).tolerant
  gives := Resolver.gives_any _
  lower required _ _ := SchemaLowering.lowerOption_holds (fun _ _ => True) required
    (fun n _ => lowers n) trivial fun _ _ => trivial

-- No body has both kinds of content if those of the components and its own are settled.
theorem RequestLowering.lower_only (lowers : Lowers bad scope)
    (settled : scope.resolver.BodiesSettled) (location : String) {node : Option RequestBodyNode}
    (own : ∀ body ∈ node, BodySettled body) :
    (ensuring bad).Holds (fun found => ∀ request ∈ found, True) (lower scope location node) := by
  refine lower_holds lowers.rules.tolerant location (fun _ => Report.ensures_withoutMarks) ?_
    fun _ _ body _ => ?_
  · intro n present body stands json multipart
    have content : Settled body.content := by
      rcases body_mem stands with rfl | ⟨id, stored⟩
      · exact own _ present
      · exact settled _ stored
    rcases content with missing | missing
    · rw [missing] at json
      cases json
    · rw [missing] at multipart
      cases multipart
  · exact Report.ensures_mono (lowerContent_seats lowers.rules fun _ _ => trivial)
      fun _ _ _ _ => trivial

-- An attempt has its failure as a value.
theorem VariableLowering.lower_only (r : Resolver) (path : List String) (d : ApiDocument) :
    (ensuring bad).Holds (fun all => ∀ e ∈ all, True) (lower r path d) :=
  lower_holds (fun _ => True) (ensuring_blind bad).tolerant fun _ _ _ => trivial

namespace DocumentLowering

theorem scope_genuine (options : Options) (policy : ConflictPolicy) (reserved : List String)
    (d : ApiDocument) :
    Lowers (Genuine d.componentSchemas options.maxReferenceDepth)
      (DocumentLowering.scope options reserved (d.resolveConflicts policy)) := by
  intro node
  have genuine := SchemaLowering.lower_genuine (SchemaLowering.tracked_start
    (r := Resolver.ofDocument (d.resolveConflicts policy) options) SchemaLowering.Holds node)
  rw [Resolver.resolveConflicts_schemas, Resolver.ofDocument_maxDepth] at genuine
  exact genuine

theorem components_genuine (options : Options) (policy : ConflictPolicy) (d : ApiDocument) :
    ∀ e ∈ (d.resolveConflicts policy).componentSchemas,
      Only (Genuine d.componentSchemas options.maxReferenceDepth)
        (SchemaLowering.lowerComponent (Resolver.ofDocument (d.resolveConflicts policy) options) []
          e.1 e.2) := by
  intro e listed
  rw [← Resolver.ofDocument_schemas _ options] at listed
  have genuine := SchemaLowering.lowerComponent_genuine listed
  rw [Resolver.resolveConflicts_schemas, Resolver.ofDocument_maxDepth] at genuine
  exact genuine

theorem lowerParts_genuine (options : Options) (policy : ConflictPolicy) (reserved : List String)
    (d : ApiDocument) :
    Only (Genuine d.componentSchemas options.maxReferenceDepth)
      (lowerParts (DocumentLowering.scope options reserved (d.resolveConflicts policy))
        (d.resolveConflicts policy)) := by
  have settled := Resolver.resolveConflicts_settled policy d options
  have lowers := scope_genuine options policy reserved d
  have components := components_genuine options policy d
  have parts := lowerParts_holds (fun _ => True) lowers.rules (ensuring_blind _)
    (fun _ _ => trivial) (fun path item listed e among location =>
      RequestLowering.lower_only lowers settled location
        (ContentConflict.resolveItems_settled listed e (List.mem_filter.mp among).1))
    components (VariableLowering.lower_only _ _ _)
  exact Report.ensures_mono parts fun _ _ => trivial

end DocumentLowering

end

theorem lower_fails {options : Options} {d : ApiDocument} {e : LoweringError}
    (failed : d.lower options = .error e) :
    (d.info = none ∧ e = .missingInfo) ∨
      (∃ info, d.info = some info ∧
        (info.title = none ∧ e = .missingTitle ∨ info.title ≠ none ∧
          Genuine d.componentSchemas options.maxReferenceDepth e)) := by
  cases present : d.info with
  | none =>
    simp only [ApiDocument.lower, present] at failed
    exact .inl ⟨rfl, (Except.error.inj failed).symm⟩
  | some info =>
    refine .inr ⟨info, rfl, ?_⟩
    cases titled : info.title with
    | none =>
      simp only [ApiDocument.lower, present, titled] at failed
      exact .inl ⟨rfl, (Except.error.inj failed).symm⟩
    | some title =>
      refine .inr ⟨Option.some_ne_none title, ?_⟩
      have genuine := DocumentLowering.lowerParts_genuine options options.contentConflict
        (SecurityLowering.reserved (Entries.values
          (SecurityLowering.supported (DocumentLowering.securitySchemes d)))) d
      refine Report.ensures_error genuine ?_
      simp only [ApiDocument.lower, present, titled] at failed
      revert failed
      cases (DocumentLowering.lowerParts _ _).outcome with
      | error cause =>
        intro failed
        cases failed
        rfl
      | ok parts => exact fun failed => nomatch failed

theorem genuine_resolve {schemas : Entries SchemaNode} {limit : Nat} {e : LoweringError}
    (genuine : Genuine schemas limit e) :
    (∃ pointer chain, e = .resolve (.circular pointer chain)) ∨
      ∃ pointer depth, e = .resolve (.tooDeep pointer depth) := by
  cases e with
  | resolve cause =>
    cases cause with
    | circular pointer chain => exact .inl ⟨pointer, chain, rfl⟩
    | tooDeep pointer depth => exact .inr ⟨pointer, depth, rfl⟩
    | invalid pointer => cases genuine
  | emptyName => cases genuine
  | missingInfo => cases genuine
  | missingTitle => cases genuine
  | unresolvedConflict location => cases genuine

/-- Lowering fails for want of information, exactly when there is none, for want of a title, exactly
when the information has none, or at a reference that cannot be entered. -/
theorem lower_failures (options : Options) (d : ApiDocument) :
    (d.lower options = .error .missingInfo ↔ d.info = none) ∧
      (d.lower options = .error .missingTitle ↔ ∃ info, d.info = some info ∧ info.title = none) ∧
      ∀ e, d.lower options = .error e →
        e = .missingInfo ∨ e = .missingTitle ∨
          (∃ pointer chain, e = .resolve (.circular pointer chain)) ∨
          ∃ pointer depth, e = .resolve (.tooDeep pointer depth) := by
  refine ⟨⟨?_, ?_⟩, ⟨?_, ?_⟩, ?_⟩
  · intro failed
    rcases lower_fails failed with ⟨absent, -⟩ | ⟨info, -, ⟨-, other⟩ | ⟨-, genuine⟩⟩
    · exact absent
    · cases other
    · cases genuine
  · intro absent
    simp only [ApiDocument.lower, absent]
  · intro failed
    rcases lower_fails failed with ⟨-, other⟩ | ⟨info, present, ⟨untitled, -⟩ | ⟨-, genuine⟩⟩
    · cases other
    · exact ⟨info, present, untitled⟩
    · cases genuine
  · rintro ⟨info, present, missing⟩
    simp only [ApiDocument.lower, present, missing]
  · intro e failed
    rcases lower_fails failed with ⟨-, same⟩ | ⟨info, -, ⟨-, same⟩ | ⟨-, genuine⟩⟩
    · exact .inl same
    · exact .inr (.inl same)
    · exact .inr (.inr (genuine_resolve genuine))

def untitled : ApiDocument := { ApiDocument.ofSchemas [] with info := some ⟨none, none, none, []⟩ }

theorem untitled_fails : untitled.lower .default = .error .missingTitle :=
  (lower_failures .default untitled).2.1.mpr ⟨_, rfl, rfl⟩

/-- A circular reference is one: the chain ends with a cycle of components, each of which needs the
next. A reference is too deep only when there are more components than the limit allows. -/
theorem resolve_failures (options : Options) (d : ApiDocument) :
    (∀ pointer chain, d.lower options = .error (.resolve (.circular pointer chain)) →
      ∃ ids, Cycle d.componentSchemas ids ∧ ids.map Pointer.ofSchema <:+ chain) ∧
      ∀ pointer depth, d.lower options = .error (.resolve (.tooDeep pointer depth)) →
        options.maxReferenceDepth < d.componentSchemas.length := by
  have genuine {cause : ResolveError} (failed : d.lower options = .error (.resolve cause)) :
      Genuine d.componentSchemas options.maxReferenceDepth (.resolve cause) := by
    rcases lower_fails failed with ⟨-, other⟩ | ⟨info, -, ⟨-, other⟩ | ⟨-, genuine⟩⟩
    · cases other
    · cases other
    · exact genuine
  constructor
  · intro pointer chain failed
    exact genuine failed
  · intro pointer depth failed
    exact genuine failed

def childOf (id : String) : SchemaNode :=
  .inline { Keywords.empty with
    allOf := [.reference (Pointer.ofSchema id)]
    properties := [("own", .inline { Keywords.empty with type := some (.single .string) })] }

def failure? (result : Except LoweringError Ir.File) : Option LoweringError :=
  match result with
  | .error e => some e
  | .ok _ => none

theorem error_of_failure {result : Except LoweringError Ir.File} {e : LoweringError}
    (failed : failure? result = some e) : result = .error e := by
  cases result with
  | error cause => exact congrArg Except.error (Option.some.inj failed)
  | ok file => cases failed

-- two components that extend each other, and three in a row with room for two
theorem children_fail :
    (∃ ids, Cycle [("A", childOf "B"), ("B", childOf "A")] ids ∧
        ids.map Pointer.ofSchema <:+
          ["#/components/schemas/A", "#/components/schemas/B", "#/components/schemas/A"]) ∧
      2 < [("A", childOf "B"), ("B", childOf "C"), ("C", childOf "D")].length := by
  constructor
  · refine (resolve_failures .default (.ofSchemas [("A", childOf "B"), ("B", childOf "A")])).1
      "#/components/schemas/A" _ (error_of_failure ?_)
    decide +kernel
  · refine (resolve_failures ⟨.preferJson, 2⟩
      (.ofSchemas [("A", childOf "B"), ("B", childOf "C"), ("C", childOf "D")])).2
      "#/components/schemas/C" 2 (error_of_failure ?_)
    decide +kernel

end ApiLowering
