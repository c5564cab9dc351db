import ApiLowering.Command.Basic
import ApiLowering.Command.Failure
import ApiLowering.Ir.Overview
import ApiLowering.Json.Printer
import ApiLowering.Lowering.Document
import ApiLowering.Project
import ApiLowering.Yaml.Document
import ApiLowering.Yaml.Printer

/-!
What the commands do to the files of the working directory, and what they print.
-/

set_option autoImplicit false

namespace ApiLowering

namespace FileTree

def configReadFailure (e : FileError) : Failure :=
  (Failure.ofFile e).during ("failed to read config " ++ Project.fileName ++ ": " ++ e.message)

def configParseFailure (e : DecodeError) : Failure :=
  ⟨"failed to parse config " ++ Project.fileName ++ ": " ++ e.message, [e.message]⟩

def project (files : FileTree) : Except Failure Project :=
  if files.holds Project.fileName then do
    let text ← (files.read Project.fileName).mapError configReadFailure
    (Yaml.decode Project.read text).mapError configParseFailure
  else .ok Project.default

-- A path tells the format of its document; without a telling name it is taken for YAML.
def formatOf (path : String) : DocumentFormat :=
  if Path.extension? path = some "json" then .json else .yaml

def document (files : FileTree) (path : String) : Except Failure ApiDocument := do
  let text ←
    (files.read path).mapError fun e => (Failure.ofFile e).during ("failed to read " ++ path)
  (ApiDocument.ofText (formatOf path) text).mapError Failure.ofDocument

def lowered (files : FileTree) (path : String) (options : Options) : Except Failure Ir.File := do
  let d ← document files path
  (d.lower options).mapError fun e =>
    (Failure.ofLowering e).during ("failed to convert " ++ path)

end FileTree

structure Outcome where
  code : Nat
  stdout : String
  stderr : String
  files : FileTree

namespace Outcome

def printing (text : String) (files : FileTree) : Outcome := ⟨0, text, "", files⟩

def noting (text : String) (files : FileTree) : Outcome := ⟨0, "", text, files⟩

def failing (noted : String) (failure : Failure) (files : FileTree) : Outcome :=
  ⟨1, "", noted ++ failure.render, files⟩

def count (label : String) (n : Nat) : String := "  " ++ label ++ ": " ++ toString n ++ "\n"

def writtenNote (path : String) (f : Ir.File) : String :=
  "Wrote " ++ path ++ " (" ++ toString f.endpoints.length ++ " endpoints, "
    ++ toString f.schemas.length ++ " schemas, " ++ toString f.errors.length ++ " warnings)\n"

def writeResult (files : FileTree) (path text : String) : Except Failure FileTree := do
  match Path.parent? path with
  | some parent =>
    (files.createDirectory parent).mapError fun e =>
      (Failure.ofFile e).during ("failed to create directory " ++ parent)
  | none => pure ()
  (files.write path text).mapError fun e => (Failure.ofFile e).during ("failed to write " ++ path)

def ofGenerate (files : FileTree) (input output : Option String) : Except Failure Outcome := do
  let project ← files.project
  let output := output.getD project.output
  let f ← files.lowered (input.getD project.input) project.conversion
  let files ← writeResult files output (f.toJson.renderIndented 0)
  return .noting (writtenNote output f) files

def documentNote (d : ApiDocument) : String :=
  "Valid OpenAPI " ++ d.openapi ++ " document\n" ++ count "Paths" d.paths.length
    ++ String.join (d.components.toList.map fun c => count "Schemas" c.schemas.length)

def findingsNote (findings : List Ir.Finding) : String :=
  if findings.isEmpty then "Validation successful.\n"
  else
    String.join (findings.map fun e => "  warning: " ++ e.render ++ "\n")
      ++ "Validation finished with " ++ toString findings.length ++ " warnings.\n"

def loweredNote (f : Ir.File) : String :=
  "  Title: " ++ f.title ++ "\n" ++ count "Endpoints" f.endpoints.length
    ++ count "Webhooks" f.webhooks.length ++ count "IR Schemas" f.schemas.length
    ++ findingsNote f.errors

def ofValidate (files : FileTree) (input : String) : Except Failure Outcome := do
  let project ← files.project
  let d ← files.document input
  match d.lower project.conversion with
  | .ok f => return .noting (documentNote d ++ loweredNote f) files
  | .error e => return .failing (documentNote d) (Failure.ofLowering e) files

def ofInspect (files : FileTree) (input : String) (format : OverviewFormat) :
    Except Failure Outcome := do
  let project ← files.project
  let f ← files.lowered input project.conversion
  let text :=
    match format with
    | .yaml => Yaml.render f.overview
    | .json => f.overview.renderIndented 0 ++ "\n"
  return .printing text files

def ofReferences (files : FileTree) (input : String) : Except Failure Outcome := do
  let project ← files.project
  let d ← files.document input
  let counts := d.referenceCounts project.conversion.contentConflict
  let json := Json.object (Entries.mapValues Json.ofNat counts)
  return .printing (json.canonical.renderIndented 0 ++ "\n") files

def planToJson (g : Generator) (plan : GeneratorPlan) : Json :=
  .object [("generator", .text (g.name ++ ":" ++ g.version)), ("config", plan.config),
    ("binds", Json.texts plan.binds)]

def ofPlan (files : FileTree) (snippet : Option String) : Except Failure Outcome := do
  let project ← files.project
  if project.generators.isEmpty then
    return .noting
      "No generators configured. Add a \x60generators\x60 section to your config.\n" files
  let plans ← project.generators.mapM fun g => do
    let plan ←
      (g.plan project.workspace project.organization snippet).mapError Failure.ofPlan
    return planToJson g plan
  return .printing ((Json.list plans).canonical.renderIndented 0 ++ "\n") files

def ofInit (files : FileTree) (force : Bool) : Except Failure Outcome := do
  if files.holds Project.fileName && !force then
    throw ⟨Project.fileName ++ " already exists. Use --force to overwrite.", []⟩
  let files ← (files.write Project.fileName Project.template).mapError Failure.ofFile
  return .noting ("Created " ++ Project.fileName ++ "\n") files

end Outcome

namespace Command

def attempt (files : FileTree) : Command → Except Failure Outcome
  | .generate input output => Outcome.ofGenerate files input output
  | .validate input => Outcome.ofValidate files input
  | .inspect input format => Outcome.ofInspect files input format
  | .references input => Outcome.ofReferences files input
  | .plan snippet => Outcome.ofPlan files snippet
  | .init force => Outcome.ofInit files force

-- A command that fails leaves the files as they were.
def run (command : Command) (files : FileTree) : Outcome :=
  match attempt files command with
  | .ok outcome => outcome
  | .error failure => .failing "" failure files

def input? (command : Command) (files : FileTree) : Option String :=
  match command with
  | .generate (some input) _ | .validate input | .inspect input _ | .references input => some input
  | .generate none _ => files.project.toOption.map Project.input
  | .plan _ | .init _ => none

end Command

end ApiLowering
