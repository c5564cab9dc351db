import ApiLowering.Proofs.Assembly
import ApiLowering.Proofs.Failure
import ApiLowering.Proofs.History

/-!
Variables of the client do not disturb the lowering. They are schemas of their own that are lowered in
the context of the document; what goes wrong in one of them ends with it, and nothing that is lowered
afterwards can tell.
-/

set_option autoImplicit false

namespace ApiLowering

open VariableLowering (lowerOne)

namespace Context

-- Lowers a variable in the context. Whatever its schema runs into, the failure goes no further.
noncomputable def lowerVariable (c : Context) (name : String) (value : Json) :
    Option (String × Ir.PrimitiveSchema) × Context :=
  match c.lowerSchema true [Extension.variablesKey, name] (VariableLowering.node value) with
  | (.ok (.primitive p), after) => (some (name, p), after)
  | (_, after) =>
    (none, after.record ⟨.malformedNode, [Extension.variablesKey, name],
      "variable " ++ name ++ " must be a primitive schema"⟩)

-- Each variable is lowered in the context that the one before it has left.
noncomputable def lowerVariables (c : Context) :
    List (String × Json) → Entries Ir.PrimitiveSchema × Context
  | [] => ([], c)
  | (name, value) :: rest =>
    let (found, after) := c.lowerVariable name value
    let (more, last) := after.lowerVariables rest
    (found.toList ++ more, last)

theorem lowerVariable_run (c : Context) (name : String) (value : Json) :
    c.run (lowerOne c.scope.resolver c.scope.path name value) =
      (.ok (c.lowerVariable name value).1, (c.lowerVariable name value).2) := by
  have plain (report : Report Ir.Schema) :
      (do
        let schema ← report
        return schema.unlessRequired true) = report := Report.next_pure report
  rw [lowerVariable, lowerSchema_eq, SchemaLowering.lowerAs, plain, lowerOne, Report.under_bind,
    run_bind, run_eq, run_eq]
  generalize SchemaLowering.lower c.scope.resolver c.scope.path (VariableLowering.node value) = report
  cases outcome : report.outcome with
  | error e =>
    simp only [Report.attempt, Report.under, outcome]
    rfl
  | ok schema =>
    simp only [Report.attempt, Report.under, outcome]
    cases schema with
    | primitive p => exact run_silent _ rfl rfl
    | object _ | union _ | enumeration _ | array _ _ | map _ _ | reference _ _ | unknown _ => rfl

theorem lowerVariable_frame (c : Context) (name : String) (value : Json) :
    c.Frame (c.lowerVariable name value).2 := by
  have framed := run_frame c (lowerOne c.scope.resolver c.scope.path name value)
  rw [lowerVariable_run] at framed
  exact framed

-- What a variable becomes depends on nothing that happened in the context before.
theorem lowerVariable_scope {c e : Context} (same : e.scope = c.scope) (name : String)
    (value : Json) : (e.lowerVariable name value).1 = (c.lowerVariable name value).1 := by
  have here := congrArg Prod.fst (lowerVariable_run c name value)
  have there := congrArg Prod.fst (lowerVariable_run e name value)
  rw [same] at there
  exact Except.ok.inj (there.symm.trans here)

theorem lowerVariables_run (c : Context) (raw : List (String × Json)) :
    c.run (Report.collect (fun e => lowerOne c.scope.resolver c.scope.path e.1 e.2) raw) =
      (.ok (c.lowerVariables raw).1, (c.lowerVariables raw).2) := by
  generalize within : c.scope = scope
  induction raw generalizing c with
  | nil => exact run_silent c rfl rfl
  | cons e rest ih =>
    obtain ⟨name, value⟩ := e
    have kept : (c.lowerVariable name value).2.scope = scope :=
      (lowerVariable_frame c name value).scope.trans within
    have first := lowerVariable_run c name value
    rw [within] at first
    rw [Report.collect, run_bind, first]
    dsimp only
    rw [run_bind, ih _ kept]
    exact run_silent _ rfl rfl

end Context

/-- Variables that are lowered one after the other in a context leave its frame: the references that
were open, the findings from before and the notes of requests are as they were, however a variable
fails. Each becomes what it would have become as the first one, and all of it is what the report of
the variables says. -/
theorem variables_framed (c : Context) (raw : List (String × Json)) :
    c.Frame (c.lowerVariables raw).2 ∧
      (c.lowerVariables raw).1 = raw.filterMap (fun e => (c.lowerVariable e.1 e.2).1) ∧
      c.run (Report.collect (fun e => lowerOne c.scope.resolver c.scope.path e.1 e.2) raw) =
        (.ok (c.lowerVariables raw).1, (c.lowerVariables raw).2) := by
  have run := Context.lowerVariables_run c raw
  refine ⟨?_, ?_, run⟩
  · have framed := Context.run_frame c
      (Report.collect (fun e => lowerOne c.scope.resolver c.scope.path e.1 e.2) raw)
    rw [run] at framed
    exact framed
  · have each (after : Context) (same : after.scope = c.scope) :
        (after.lowerVariables raw).1 = raw.filterMap fun e => (c.lowerVariable e.1 e.2).1 := by
      clear run
      induction raw generalizing after with
      | nil => rfl
      | cons e rest ih =>
        obtain ⟨name, value⟩ := e
        have kept := (Context.lowerVariable_frame after name value).scope.trans same
        change (after.lowerVariable name value).1.toList ++
          ((after.lowerVariable name value).2.lowerVariables rest).1 = _
        rw [ih _ kept, Context.lowerVariable_scope same, List.filterMap_cons]
        cases (c.lowerVariable name value).1 <;> rfl
    exact each c rfl

namespace DocumentLowering

-- What is lowered before the variables, and what after them.
def lowerLead (scope : Scope) (d : ApiDocument) :
    Report (LoweredItem × List Ir.Webhook × Entries Ir.Schema) := do
  let paths ← lowerPaths scope [] d.paths
  let webhooks ← lowerWebhooks scope d.webhooks
  let schemas ← lowerSchemas scope.resolver scope.path d.componentSchemas
  return (paths, webhooks, schemas)

def lowerTail (d : ApiDocument) : Report (List Ir.Server × List Ir.Tag) := do
  let servers ← Report.collect lowerServer d.servers.zipIdx
  let tags ← Report.collect lowerTag d.tags.zipIdx
  return (servers, tags)

def joined (lead : LoweredItem × List Ir.Webhook × Entries Ir.Schema)
    (sdkVariables : Entries Ir.PrimitiveSchema) (tail : List Ir.Server × List Ir.Tag) : Parts :=
  ⟨lead.1, lead.2.1, lead.2.2, sdkVariables, tail.1, tail.2⟩

theorem lowerParts_split (scope : Scope) (d : ApiDocument) :
    lowerParts scope d = (do
      let lead ← lowerLead scope d
      let sdkVariables ← VariableLowering.lower scope.resolver scope.path d
      let tail ← lowerTail d
      return joined lead sdkVariables tail) := by
  simp only [lowerParts, lowerLead, lowerTail, joined, bind_assoc, pure_bind]

end DocumentLowering

theorem VariableLowering.lower_succeeds (scope : Scope) (d : ApiDocument) :
    ∃ found, (VariableLowering.lower scope.resolver scope.path d).outcome = .ok found := by
  have only : Report.Ensures _ (fun _ => False)
      (VariableLowering.lower scope.resolver scope.path d) := lower_only scope.resolver scope.path d
  cases outcome : (VariableLowering.lower scope.resolver scope.path d).outcome with
  | ok found => exact ⟨found, rfl⟩
  | error e => exact (Report.ensures_error only outcome).elim

-- What does not fail has no part in a failure, and stands between what was found before and after.
theorem Report.around {α β γ δ : Type} {middle : Report β} {b : β} (first : Report α)
    (never : middle.outcome = .ok b) (last : Report γ) (f : α → β → γ → δ) :
    (do
        let a ← first
        let b ← middle
        let c ← last
        return f a b c : Report δ).outcome =
      (do
        let a ← first.outcome
        let c ← last.outcome
        return f a b c) := by
  cases opening : first.outcome with
  | error e =>
    rw [Report.bind_of_error opening]
    rfl
  | ok a =>
    rw [Report.bind_of_ok opening, Report.bind_of_ok never]
    cases closing : last.outcome with
    | error e =>
      rw [Report.bind_of_error closing]
      rfl
    | ok c =>
      rw [Report.bind_of_ok closing]
      rfl

-- What of a file the variables can have a part in, left out.
def Ir.File.withoutVariables (file : Ir.File) : Ir.File :=
  { file with sdkVariables := [], errors := [], nonRequestReferencedSchemas := [] }

theorem ApiDocument.report_around (options : Options) (d : ApiDocument) :
    ∃ found, (d.report options).outcome = (do
      let lead ← (DocumentLowering.lowerLead (d.loweringScope options)
        (d.resolveConflicts options.contentConflict)).outcome
      let tail ← (DocumentLowering.lowerTail (d.resolveConflicts options.contentConflict)).outcome
      return DocumentLowering.joined lead found tail) := by
  obtain ⟨found, never⟩ := VariableLowering.lower_succeeds (d.loweringScope options)
    (d.resolveConflicts options.contentConflict)
  refine ⟨found, ?_⟩
  rw [ApiDocument.report, DocumentLowering.lowerParts_split]
  exact Report.around _ never _ DocumentLowering.joined

/-- The lowering reads nothing but the variables from the extensions of a document itself. Documents
that differ in these extensions are both lowered or fail in the same way, whatever the schemas of the
variables run into; their files differ in nothing but the variables, the findings and the notes of what
is referred to. -/
theorem variables_isolated (options : Options) (d : ApiDocument) (extensions : Entries Json) :
    (({ d with extensions } : ApiDocument).lower options).map Ir.File.withoutVariables =
      (d.lower options).map Ir.File.withoutVariables := by
  rcases lower_staged options d.info with ⟨cause, fails⟩ | ⟨title, description, staged⟩
  · rw [fails d rfl, fails { d with extensions } rfl]
  · rw [staged d rfl, staged { d with extensions } rfl]
    obtain ⟨found, one⟩ := d.report_around options
    obtain ⟨others, other⟩ := ApiDocument.report_around options { d with extensions }
    -- everything in front of the variables and behind them is lowered from what both documents share
    have lead : DocumentLowering.lowerLead (({ d with extensions } : ApiDocument).loweringScope options)
        (({ d with extensions } : ApiDocument).resolveConflicts options.contentConflict) =
          DocumentLowering.lowerLead (d.loweringScope options)
            (d.resolveConflicts options.contentConflict) := rfl
    have tail : DocumentLowering.lowerTail
        (({ d with extensions } : ApiDocument).resolveConflicts options.contentConflict) =
          DocumentLowering.lowerTail (d.resolveConflicts options.contentConflict) := rfl
    rw [one, other, lead, tail]
    cases (DocumentLowering.lowerLead (d.loweringScope options)
      (d.resolveConflicts options.contentConflict)).outcome with
    | error e => rfl
    | ok lead =>
      cases (DocumentLowering.lowerTail (d.resolveConflicts options.contentConflict)).outcome with
      | error e => rfl
      | ok tail => rfl

-- A component that reduces to a reference to itself, and a variable whose composition runs into it.
def looped : ApiDocument :=
  { ApiDocument.ofSchemas [("Loop", .inline { Keywords.empty with
      allOf := [.reference (Pointer.ofSchema "Loop")] })] with
    extensions := [(Extension.variablesKey, .object [
      ("tied", .object [("allOf", .list [
        .object [("$ref", .text (Pointer.ofSchema "Loop"))],
        .object [("type", .text "object")]])]),
      ("region", .object [("type", .text "string")])])] }

example : (looped.lower .default).toOption.map (fun file =>
    (file.sdkVariables.map Prod.fst, file.errors.map Ir.Finding.breadcrumbs)) =
      some (["region"], [[Extension.variablesKey, "tied"]]) := by
  decide +kernel

end ApiLowering
