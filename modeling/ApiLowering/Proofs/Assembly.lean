import ApiLowering.Lowering.Document

/-!
The lowering of a document in two stages. A document with a title gives one report on its parts; its
intermediate representation is assembled from the outcome of the report and from what was noticed
before.
-/

set_option autoImplicit false

namespace ApiLowering

open DocumentLowering (Parts lowerParts)

namespace ApiDocument

variable (options : Options) (d : ApiDocument)

def supportedSchemes : Entries Ir.SecurityScheme :=
  SecurityLowering.supported (DocumentLowering.securitySchemes d)

-- What is found about security schemes and elections, before anything is lowered.
def notices : List Ir.Finding :=
  SecurityLowering.findings (DocumentLowering.securitySchemes d)
    ++ ((d.conflicts options.contentConflict).filter ContentConflict.diverged).map
      DocumentLowering.diverged

def loweringScope : Scope :=
  DocumentLowering.scope options (SecurityLowering.reserved (Entries.values d.supportedSchemes))
    (d.resolveConflicts options.contentConflict)

def report : Report Parts :=
  lowerParts (d.loweringScope options) (d.resolveConflicts options.contentConflict)

def assembled (title : String) (description : Option String) (parts : Parts) : Ir.File :=
  DocumentLowering.assemble title description d.supportedSchemes
    (d.resolveConflicts options.contentConflict) (d.notices options ++ (d.report options).findings)
    (d.report options).marks parts

end ApiDocument

variable {options : Options} {d : ApiDocument} {file : Ir.File}

/-- The information alone decides whether a document fails before its parts are lowered; if not, its
representation is assembled from the outcome of the report. -/
theorem lower_staged (options : Options) (info : Option Info) :
    (∃ cause, ∀ d : ApiDocument, d.info = info → d.lower options = .error cause) ∨
      ∃ title description, ∀ d : ApiDocument, d.info = info →
        d.lower options = (d.report options).outcome.map (d.assembled options title description) := by
  cases info with
  | none =>
    refine .inl ⟨.missingInfo, fun d present => ?_⟩
    simp only [ApiDocument.lower, present]
  | some info =>
    cases titled : info.title with
    | none =>
      refine .inl ⟨.missingTitle, fun d present => ?_⟩
      simp only [ApiDocument.lower, present, titled]
    | some title =>
      refine .inr ⟨title, info.description, fun d present => ?_⟩
      simp only [ApiDocument.lower, present, titled]
      rfl

/-- A document that is lowered is assembled from a successful report on its parts. -/
theorem staged_of_lower (done : d.lower options = .ok file) :
    ∃ title description parts, (d.report options).outcome = .ok parts ∧
      file = d.assembled options title description parts := by
  rcases lower_staged options d.info with ⟨cause, fails⟩ | ⟨title, description, staged⟩
  · cases done.symm.trans (fails d rfl)
  · rw [staged d rfl] at done
    cases outcome : (d.report options).outcome with
    | error e =>
      rw [outcome] at done
      cases done
    | ok parts =>
      rw [outcome] at done
      exact ⟨title, description, parts, rfl, (Except.ok.inj done).symm⟩

end ApiLowering
