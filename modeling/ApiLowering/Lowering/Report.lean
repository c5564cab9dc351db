import ApiLowering.Ir.Finding

/-!
Reports: the result of a lowering step with the findings recorded and the references noted on the
way. A failure keeps what was recorded before it.
-/

set_option autoImplicit false

namespace ApiLowering

inductive ResolveError where
  -- The pointer is already being resolved; the chain leads from the first open reference to it.
  | circular (pointer : String) (chain : List String)
  | tooDeep (pointer : String) (depth : Nat)
  | invalid (pointer : String)
deriving DecidableEq, Repr

-- Failures that leave no representation to return.
inductive LoweringError where
  | resolve (error : ResolveError)
  | emptyName
  | missingInfo
  | missingTitle
  | unresolvedConflict (location : String)
deriving DecidableEq, Repr

def ResolveError.message : ResolveError → String
  | .circular pointer chain =>
    "circular reference detected at " ++ pointer ++ " (resolution path: "
      ++ " -> ".intercalate chain ++ ")"
  | .tooDeep pointer depth =>
    "reference " ++ pointer ++ " exceeds the maximum resolution depth of " ++ toString depth
  | .invalid pointer => "invalid reference format: " ++ pointer

def LoweringError.emptyNameMessage : String := "cannot derive a name from an empty identifier"

def LoweringError.message : LoweringError → String
  | .resolve error => "resolve error: " ++ error.message
  | .emptyName => "name error: " ++ emptyNameMessage
  | .missingInfo => "document has no `info` section"
  | .missingTitle => "document has no `info.title`"
  | .unresolvedConflict location =>
    "request body at " ++ location ++ " still declares both JSON and multipart content"

structure Report (α : Type) where
  findings : List Ir.Finding
  marks : List String
  outcome : Except LoweringError α

namespace Report

variable {α β : Type}

def ok (a : α) : Report α := ⟨[], [], .ok a⟩

def fail (e : LoweringError) : Report α := ⟨[], [], .error e⟩

def bind (r : Report α) (f : α → Report β) : Report β :=
  match r.outcome with
  | .error e => ⟨r.findings, r.marks, .error e⟩
  | .ok a =>
    let next := f a
    ⟨r.findings ++ next.findings, r.marks ++ next.marks, next.outcome⟩

instance : Monad Report where
  pure := ok
  bind := bind

def find (kind : Ir.FindingKind) (message : String) : Report Unit :=
  ⟨[⟨kind, [], message⟩], [], .ok ()⟩

def mark (id : String) : Report Unit := ⟨[], [id], .ok ()⟩

def under (keys : List String) (r : Report α) : Report α :=
  { r with findings := r.findings.map (Ir.Finding.under keys) }

-- References inside a request are not noted.
def withoutMarks (r : Report α) : Report α := { r with marks := [] }

-- A report that cannot fail, with the failure as a value.
def attempt (r : Report α) : Report (Except LoweringError α) := ⟨r.findings, r.marks, .ok r.outcome⟩

def forEach (f : α → Report β) : List α → Report (List β)
  | [] => ok []
  | a :: rest => do
    let b ← f a
    let more ← forEach f rest
    return b :: more

def collect (f : α → Report (Option β)) : List α → Report (List β)
  | [] => ok []
  | a :: rest => do
    let b ← f a
    let more ← collect f rest
    return b.toList ++ more

end Report

end ApiLowering
