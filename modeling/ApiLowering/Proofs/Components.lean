import ApiLowering.Proofs.Election
import ApiLowering.Proofs.Objects

/-!
The component schemas of a lowered document. Each one comes from lowering the component of the same
id with nothing but its own pointer open, and lost the properties of its discriminants afterwards.
-/

set_option autoImplicit false

namespace ApiLowering

theorem get_forall₂ {α β : Type} {p : String × α → String × β → Prop} {entries : Entries α}
    {others : Entries β} (all : List.Forall₂ p entries others)
    (keyed : ∀ e other, p e other → other.1 = e.1) (key : String) :
    (Entries.get? key entries = none ∧ Entries.get? key others = none) ∨
      ∃ a b, Entries.get? key entries = some a ∧ Entries.get? key others = some b ∧
        p (key, a) (key, b) := by
  induction all with
  | nil => exact .inl ⟨rfl, rfl⟩
  | @cons e other rest more first _ ih =>
    obtain ⟨k, a⟩ := e
    obtain ⟨l, b⟩ := other
    have aligned : l = k := keyed _ _ first
    subst aligned
    by_cases same : l = key
    · subst same
      exact .inr ⟨a, b, by rw [Entries.get?, if_pos rfl], by rw [Entries.get?, if_pos rfl], first⟩
    · simpa only [Entries.get?, if_neg same] using ih

theorem keys_of_forall₂ {α β : Type} {p : String × α → String × β → Prop} {entries : Entries α}
    {others : Entries β} (all : List.Forall₂ p entries others)
    (keyed : ∀ e other, p e other → other.1 = e.1) : Entries.keys others = Entries.keys entries := by
  induction all with
  | nil => rfl
  | cons first _ ih =>
    rw [Entries.keys, Entries.keys, List.map_cons, List.map_cons, keyed _ _ first]
    exact congrArg _ ih

theorem ok_of_any {α : Type} {result : Except LoweringError α} {check : α → Bool}
    (done : result.toOption.any check = true) : ∃ a, result = .ok a ∧ check a = true := by
  cases result with
  | error e => cases done
  | ok a => exact ⟨a, rfl, done⟩

def Ir.Body.drop (dropped : List String) (body : Ir.Body) : Ir.Body :=
  ⟨body.properties.filter fun p => !dropped.contains p.key, body.parents,
    body.conflicts.filter fun c => !dropped.contains c.propertyKey⟩

theorem Discriminant.strip_body (table : Discriminant.Table) (id : String) (s : Ir.Schema) :
    (Discriminant.strip table id s).body? =
      s.body?.map (Ir.Body.drop (Discriminant.of table (Pointer.ofSchema id))) := by
  cases s <;> rfl

-- The references of a document as its lowering resolves them.
def ApiDocument.resolver (options : Options) (d : ApiDocument) : Resolver :=
  .ofDocument (d.resolveConflicts options.contentConflict) options

-- The keys that a component loses because it is a member of unions with a discriminant.
def ApiDocument.discriminants (options : Options) (d : ApiDocument) (id : String) : List String :=
  Discriminant.of (Discriminant.ofDocument (d.resolveConflicts options.contentConflict))
    (Pointer.ofSchema id)

theorem ApiDocument.resolver_schemas (options : Options) (d : ApiDocument) :
    (d.resolver options).schemas = d.componentSchemas :=
  Resolver.resolveConflicts_schemas options.contentConflict d options

variable {options : Options} {d : ApiDocument} {file : Ir.File} {r : Resolver} {id : String}
  {node : SchemaNode} {schema : Ir.Schema}

theorem lowerComponent_ok
    (done : (SchemaLowering.lowerComponent r [] id node).outcome = .ok schema) :
    ∃ inner, (SchemaLowering.lower r [Pointer.ofSchema id] node).outcome = .ok inner ∧
      schema.body? = inner.body? ∧
      ((SchemaLowering.lowerComponent r [] id node).findings = [] →
        (SchemaLowering.lower r [Pointer.ofSchema id] node).findings = []) := by
  cases entered : r.enter [] (Pointer.ofSchema id) with
  | error e =>
    rw [SchemaLowering.lowerComponent, entered] at done
    cases done
  | ok deeper =>
    rw [SchemaLowering.lowerComponent, entered] at done ⊢
    obtain ⟨-, rfl⟩ := Resolver.enter_ok entered
    obtain ⟨inner, within, done⟩ := Report.bind_ok done
    refine ⟨inner, within, ?_, fun silent => ?_⟩
    · split at done <;> cases done
      · exact Ir.Schema.body_setName _ _
      · rfl
    · exact (Report.bind_silent within (Report.under_silent silent)).1

open DocumentLowering in
theorem assembled_of_lower (done : d.lower options = .ok file) :
    ∃ title description reserved schemes before report parts,
      report = lowerParts (scope options reserved (d.resolveConflicts options.contentConflict))
        (d.resolveConflicts options.contentConflict) ∧
      report.outcome = .ok parts ∧
      file = assemble title description schemes (d.resolveConflicts options.contentConflict)
        (before ++ report.findings) report.marks parts := by
  cases present : d.info with
  | none =>
    simp only [ApiDocument.lower, present] at done
    cases done
  | some info =>
    cases titled : info.title with
    | none =>
      simp only [ApiDocument.lower, present, titled] at done
      cases done
    | some title =>
      simp only [ApiDocument.lower, present, titled] at done
      generalize made : lowerParts _ _ = report at done
      cases outcome : report.outcome with
      | error e =>
        rw [outcome] at done
        cases done
      | ok parts =>
        rw [outcome] at done
        exact ⟨title, _, _, _, _, report, parts, made.symm, outcome, (Except.ok.inj done).symm⟩

open DocumentLowering in
theorem lowerSchemas_of_lower (done : d.lower options = .ok file) :
    ∃ schemas, (lowerSchemas (d.resolver options) [] d.componentSchemas).outcome = .ok schemas ∧
      file.schemas = Discriminant.stripAll
        (Discriminant.ofDocument (d.resolveConflicts options.contentConflict)) schemas ∧
      (file.errors = [] →
        (lowerSchemas (d.resolver options) [] d.componentSchemas).findings = []) := by
  obtain ⟨_, _, reserved, _, before, report, parts, made, outcome, same⟩ := assembled_of_lower done
  subst made
  obtain ⟨paths, onPaths, outcome⟩ := Report.bind_ok outcome
  obtain ⟨webhooks, onWebhooks, outcome⟩ := Report.bind_ok outcome
  obtain ⟨schemas, onSchemas, outcome⟩ := Report.bind_ok outcome
  obtain ⟨sdkVariables, -, outcome⟩ := Report.bind_ok outcome
  obtain ⟨servers, -, outcome⟩ := Report.bind_ok outcome
  obtain ⟨tags, -, outcome⟩ := Report.bind_ok outcome
  cases outcome
  subst same
  rw [← ApiDocument.componentSchemas_resolveConflicts options.contentConflict d]
  refine ⟨schemas, onSchemas, rfl, ?_⟩
  intro silent
  have silent := (List.append_eq_nil_iff.mp silent).2
  have silent := (Report.bind_silent onPaths silent).2
  have silent := (Report.bind_silent onWebhooks silent).2
  exact (Report.bind_silent onSchemas silent).1

theorem components_of_lower (done : d.lower options = .ok file) :
    List.Forall₂
      (fun e out => out.1 = e.1 ∧ ∃ inner,
        (SchemaLowering.lower (d.resolver options) [Pointer.ofSchema e.1] e.2).outcome = .ok inner ∧
        out.2.body? = inner.body?.map (Ir.Body.drop (d.discriminants options e.1)) ∧
        (file.errors = [] → e ∈ d.componentSchemas →
          (SchemaLowering.lower (d.resolver options) [Pointer.ofSchema e.1] e.2).findings = []))
      d.componentSchemas file.schemas := by
  obtain ⟨schemas, lowered, same, quiet⟩ := lowerSchemas_of_lower done
  rw [same, Discriminant.stripAll, List.forall₂_map_right_iff]
  -- one by one: a component is lowered under its own id, and stripping looks at the id alone
  refine (Report.forEach_ok lowered).imp fun e out one => ?_
  obtain ⟨schema, component, named⟩ := Report.bind_ok one
  cases named
  obtain ⟨inner, within, body, silent⟩ := lowerComponent_ok component
  refine ⟨rfl, inner, within, ?_, fun clean listed => silent ?_⟩
  · rw [Discriminant.strip_body, body]
    rfl
  · exact (Report.bind_silent component (Report.forEach_silent lowered (quiet clean) e listed)).1

theorem component_of_file (done : d.lower options = .ok file)
    (present : Entries.get? id file.schemas = some schema) :
    ∃ node inner, Entries.get? id d.componentSchemas = some node ∧
      (SchemaLowering.lower (d.resolver options) [Pointer.ofSchema id] node).outcome = .ok inner ∧
      schema.body? = inner.body?.map (Ir.Body.drop (d.discriminants options id)) ∧
      (file.errors = [] →
        (SchemaLowering.lower (d.resolver options) [Pointer.ofSchema id] node).findings = []) := by
  rcases get_forall₂ (components_of_lower done) (fun _ _ paired => paired.1) id with
    ⟨-, absent⟩ | ⟨node, out, stored, here, -, inner, within, body, silent⟩
  · rw [absent] at present
    cases present
  · cases here.symm.trans present
    exact ⟨node, inner, stored, within, body, fun clean => silent clean (Resolver.get_mem stored)⟩

theorem strips_of_lower (done : d.lower options = .ok file) :
    List.Forall₂
      (fun e out => out.1 = e.1 ∧ ∃ whole,
        (SchemaLowering.lowerComponent (d.resolver options) [] e.1 e.2).outcome = .ok whole ∧
        out.2 = Discriminant.strip
          (Discriminant.ofDocument (d.resolveConflicts options.contentConflict)) e.1 whole)
      d.componentSchemas file.schemas := by
  obtain ⟨schemas, lowered, same, -⟩ := lowerSchemas_of_lower done
  rw [same, Discriminant.stripAll, List.forall₂_map_right_iff]
  refine (Report.forEach_ok lowered).imp fun e out one => ?_
  obtain ⟨whole, component, named⟩ := Report.bind_ok one
  cases named
  exact ⟨rfl, whole, component, rfl⟩

theorem stripped_of_file (done : d.lower options = .ok file)
    (present : Entries.get? id file.schemas = some schema) :
    ∃ node whole, Entries.get? id d.componentSchemas = some node ∧
      (SchemaLowering.lowerComponent (d.resolver options) [] id node).outcome = .ok whole ∧
      schema = Discriminant.strip
        (Discriminant.ofDocument (d.resolveConflicts options.contentConflict)) id whole := by
  rcases get_forall₂ (strips_of_lower done) (fun _ _ paired => paired.1) id with
    ⟨-, absent⟩ | ⟨node, out, stored, here, -, whole, component, stripped⟩
  · rw [absent] at present
    cases present
  · cases here.symm.trans present
    exact ⟨node, whole, stored, component, stripped⟩

theorem stripped_of_component (done : d.lower options = .ok file)
    (stored : Entries.get? id d.componentSchemas = some node) :
    ∃ whole, (SchemaLowering.lowerComponent (d.resolver options) [] id node).outcome = .ok whole ∧
      Entries.get? id file.schemas = some (Discriminant.strip
        (Discriminant.ofDocument (d.resolveConflicts options.contentConflict)) id whole) := by
  rcases get_forall₂ (strips_of_lower done) (fun _ _ paired => paired.1) id with
    ⟨absent, -⟩ | ⟨other, out, again, here, -, whole, component, stripped⟩
  · rw [absent] at stored
    cases stored
  · cases again.symm.trans stored
    dsimp only at stripped
    exact ⟨whole, component, stripped ▸ here⟩

theorem file_of_component (done : d.lower options = .ok file)
    (stored : Entries.get? id d.componentSchemas = some node) :
    ∃ schema inner, Entries.get? id file.schemas = some schema ∧
      (SchemaLowering.lower (d.resolver options) [Pointer.ofSchema id] node).outcome = .ok inner ∧
      schema.body? = inner.body?.map (Ir.Body.drop (d.discriminants options id)) := by
  rcases get_forall₂ (components_of_lower done) (fun _ _ paired => paired.1) id with
    ⟨absent, -⟩ | ⟨other, out, again, here, -, inner, within, body, -⟩
  · rw [absent] at stored
    cases stored
  · cases again.symm.trans stored
    exact ⟨out, inner, here, within, body⟩

end ApiLowering
