import ApiLowering.Document.Source
import ApiLowering.FileTree
import ApiLowering.Generator
import ApiLowering.Lowering.Report

/-!
Failures of commands, with what caused them, and their text.
-/

set_option autoImplicit false

namespace ApiLowering

def LoweringError.causes : LoweringError → List String
  | .resolve error => [error.message]
  | .emptyName => [LoweringError.emptyNameMessage]
  | _ => []

-- Why a command gives up, and the causes, each the cause of the one before.
structure Failure where
  message : String
  causes : List String
deriving DecidableEq, Repr

namespace Failure

def ofFile (e : FileError) : Failure := ⟨e.message, []⟩

def ofDocument : DocumentError → Failure
  | .decode format e => ⟨(DocumentError.decode format e).message, [e.message]⟩
  | e => ⟨e.message, []⟩

def ofLowering (e : LoweringError) : Failure := ⟨e.message, e.causes⟩

def ofPlan (e : PlanError) : Failure := ⟨e.message, []⟩

def during (message : String) (f : Failure) : Failure := ⟨message, f.message :: f.causes⟩

-- Further lines of a cause stand below its first one.
def hang (width : Nat) (cause : String) : String :=
  String.ofList (Text.expand '\n' ('\n' :: List.replicate width ' ') cause.toList)

def numbered (number : Nat) (cause : String) : String :=
  let digits := toString number
  String.ofList (List.replicate (5 - digits.length) ' ') ++ digits ++ ": " ++ hang 7 cause

def render (f : Failure) : String :=
  let causes :=
    match f.causes with
    | [] => []
    | [cause] => ["\n\nCaused by:\n    ", hang 4 cause]
    | causes => "\n\nCaused by:" :: causes.zipIdx.map fun (cause, i) => "\n" ++ numbered i cause
  "Error: " ++ f.message ++ String.join causes ++ "\n"

end Failure

end ApiLowering
