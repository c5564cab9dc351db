import ApiLowering.Generator
import ApiLowering.Options

/-!
The configuration of a project: which document is lowered, where the result goes, the options of the
lowering, and the generators to be invoked.
-/

set_option autoImplicit false

namespace ApiLowering

structure Project where
  input : String
  output : String
  workspace : String
  organization : String
  conversion : Options
  generators : List Generator

namespace Project

def default : Project := ⟨"openapi.yaml", "ir.json", "api", "default", Options.default, []⟩

def record : Record Project :=
  { name := "Project"
    fields := [
      Field.defaulted "input" Reader.text fun v p => { p with input := v },
      Field.defaulted "output" Reader.text fun v p => { p with output := v },
      Field.defaulted "workspace" Reader.text fun v p => { p with workspace := v },
      Field.defaulted "organization" Reader.text fun v p => { p with organization := v },
      Field.defaulted "conversion" Options.read fun v p => { p with conversion := v },
      Field.defaulted "generators" (Reader.list Generator.read)
        fun v p => { p with generators := v }]
    blank := default }

def read : Reader Project := record.read

def toJson (p : Project) : Json :=
  .object [("input", .text p.input), ("output", .text p.output), ("workspace", .text p.workspace),
    ("organization", .text p.organization), ("conversion", p.conversion.toJson),
    ("generators", .list (p.generators.map Generator.toJson))]

def fileName : String := ".oir.yaml"

-- What a new configuration file holds: every default, and a generator to start from.
def template : String := "\n".intercalate [
  "# oir configuration: https://github.com/urmzd/openapi-ir",
  "input: openapi.yaml",
  "output: ir.json",
  "workspace: api",
  "organization: default",
  "",
  "conversion:",
  "  content_conflict: prefer_multipart  # prefer_multipart | prefer_json",
  "  max_reference_depth: 64",
  "",
  "generators: []",
  "  # - name: fernapi/fern-typescript-sdk",
  "  #   version: 0.9.0",
  "  #   output:",
  "  #     mode: download_files",
  "  #     path: ./generated/typescript",
  "  #   config: \x7b\x7d",
  ""]

end Project

end ApiLowering
