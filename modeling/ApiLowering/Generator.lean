import ApiLowering.Decode.Tagged
import ApiLowering.Json.Entry

/-!
Code generators. A project names the generators to be invoked and where their output goes; a plan
holds the configuration that a generator reads inside its container, and the files mounted there.
-/

set_option autoImplicit false

namespace ApiLowering

inductive OutputMode where
  | downloadFiles (path : String)
  | publish (registryUrl : Option String) (packageName : String)
  | github (owner repo : String)
  | unsupported
deriving DecidableEq, Repr

structure Generator where
  name : String
  version : String
  output : OutputMode
  config : Json

inductive PlanError where
  | unsupportedOutput (generator : String)
deriving DecidableEq, Repr

-- The configuration that a generator reads, and its mounts as `host:container`.
structure GeneratorPlan where
  config : Json
  binds : List String

namespace OutputMode

def pathRecord : Record String :=
  { name := "variant OutputMode::DownloadFiles"
    fields := [Field.required "path" Reader.text fun v _ => v]
    blank := "" }

def publishRecord : Record (Option String × String) :=
  { name := "variant OutputMode::Publish"
    fields := [
      Field.lenient "registry_url" Reader.text fun v p => (v, p.2),
      Field.required "package_name" Reader.text fun v p => (p.1, v)]
    blank := (none, "") }

def githubRecord : Record (String × String) :=
  { name := "variant OutputMode::Github"
    fields := [
      Field.required "owner" Reader.text fun v g => (v, g.2),
      Field.required "repo" Reader.text fun v g => (g.1, v)]
    blank := ("", "") }

def read : Reader OutputMode :=
  Reader.tagged "OutputMode" "mode" ["download_files", "publish", "github", "unsupported"] true
    fun kind mode node =>
      match kind with
      | "download_files" => (pathRecord.read mode node).map .downloadFiles
      | "publish" => (publishRecord.read mode node).map fun p => .publish p.1 p.2
      | "github" => (githubRecord.read mode node).map fun g => .github g.1 g.2
      | _ => Reader.nothing .unsupported mode node

def toJson : OutputMode → Json
  | .downloadFiles path => .object [("mode", .text "download_files"), ("path", .text path)]
  | .publish registryUrl packageName =>
    .object [("mode", .text "publish"), ("registry_url", (registryUrl.map .text).getD .null),
      ("package_name", .text packageName)]
  | .github owner repo =>
    .object [("mode", .text "github"), ("owner", .text owner), ("repo", .text repo)]
  | .unsupported => .object [("mode", .text "unsupported")]

end OutputMode

def PlanError.message : PlanError → String
  | .unsupportedOutput generator =>
    "generator " ++ generator ++ " uses an output mode this version does not support"

namespace Generator

def record : Record Generator :=
  { name := "GeneratorInvocation"
    fields := [
      Field.required "name" Reader.text fun v g => { g with name := v },
      Field.required "version" Reader.text fun v g => { g with version := v },
      Field.required "output" OutputMode.read fun v g => { g with output := v },
      Field.defaulted "config" Reader.value fun v g => { g with config := v }]
    blank := ⟨"", "", .unsupported, .null⟩ }

def read : Reader Generator := record.read

def toJson (g : Generator) : Json :=
  .object [("name", .text g.name), ("version", .text g.version), ("output", g.output.toJson),
    ("config", g.config)]

def outputDirectory : String := "/oir/output"
def irPath : String := "/oir/ir.json"
def snippetPath : String := "/oir/snippet.json"

def placeholderVersion : String := "0.0.1"

def delivery? : OutputMode → Option Json
  | .downloadFiles _ => some (.object [("type", .text "downloadFiles")])
  | .publish registryUrl packageName =>
    some (.object [("type", .text "publish"), ("version", .text placeholderVersion),
      ("registryUrl", .text (registryUrl.getD "")), ("packageName", .text packageName)])
  | .github owner repo =>
    some (.object [("type", .text "github"),
      ("repoUrl", .text ("https://github.com/" ++ owner ++ "/" ++ repo)),
      ("version", .text placeholderVersion)])
  | .unsupported => none

-- A snippet file is mounted for output to a repository only.
def mountedSnippet? (output : OutputMode) (snippet : Option String) : Option String :=
  match output with
  | .github _ _ => snippet
  | _ => none

def plan (g : Generator) (workspace organization : String) (snippet : Option String) :
    Except PlanError GeneratorPlan :=
  match delivery? g.output with
  | none => .error (.unsupportedOutput g.name)
  | some mode =>
    let mounted := mountedSnippet? g.output snippet
    let output : Json :=
      .object ([("mode", mode), ("path", .text outputDirectory)]
        ++ Json.optionEntry "snippetFilepath" (mounted.map fun _ => .text snippetPath))
    .ok {
      config := .object [("irFilepath", .text irPath), ("output", output),
        ("customConfig", g.config), ("workspaceName", .text workspace),
        ("organization", .text organization), ("environment", .text "local"),
        ("dryRun", .bool false)]
      binds := mounted.toList.map fun path => path ++ ":" ++ snippetPath }

end Generator

end ApiLowering
