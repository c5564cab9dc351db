import ApiLowering.Command.Arguments
import ApiLowering.Command.Run

/-!
The command line: reads the files that a command needs, runs it on them, and writes what it changed.
-/

set_option autoImplicit false

namespace ApiLowering.CommandLine

def usage : String :=
  "usage: generate [-i PATH] [-o PATH] | validate -i PATH | inspect -i PATH [--format yaml|json]"
    ++ " | references -i PATH | plan [--snippet PATH] | init [--force]"

-- The tree with a file of the disk, if there is one at the path.
def load (path : String) (files : FileTree) : IO FileTree := do
  match ← (IO.FS.readFile path).toBaseIO with
  | .ok content => return Entries.put (Path.ofNames (Path.names path)) content files
  | .error _ => return files

def store (path content : String) : IO Unit := do
  match Path.parent? path with
  | some parent => IO.FS.createDirAll parent
  | none => pure ()
  IO.FS.writeFile path content

def execute (command : Command) : IO UInt32 := do
  let config ← load Project.fileName []
  let files ←
    match command.input? config with
    | some path => load path config
    | none => pure config
  let outcome := command.run files
  for (path, content) in outcome.files.changedSince files do
    store path content
  (← IO.getStdout).putStr outcome.stdout
  (← IO.getStderr).putStr outcome.stderr
  return UInt32.ofNat outcome.code

end ApiLowering.CommandLine

def main (args : List String) : IO UInt32 := do
  match ApiLowering.Command.ofArguments? args with
  | some command => ApiLowering.CommandLine.execute command
  | none =>
    (← IO.getStderr).putStrLn ApiLowering.CommandLine.usage
    return 2
