import ApiLowering.Document.ContentConflict
import ApiLowering.Ir.Operation
import ApiLowering.Lowering.Schema
import ApiLowering.Lowering.Scope
import ApiLowering.Name.Status

/-!
Responses. Statuses that are not numbers are passed over; of the others, in ascending order, the
first successful one is the response and every client or server error is an error response.
-/

set_option autoImplicit false

namespace ApiLowering.ResponseLowering

open ContentConflict (firstOf?)

def resolve (r : Resolver) : ResponseNode → Report (Option Response)
  | .inline response => .ok (some response)
  | .reference target =>
    match r.response? target with
    | some response => .ok (some response)
    | none => do
      Report.find .danglingReference ("response reference " ++ target ++ " does not resolve")
      return none
  | .invalid _ => do
    Report.find .malformedNode "response is not a response object"
    return none

def digits? (cs : List Char) : Option Nat :=
  if cs ≠ [] ∧ cs.all Char.isDigit then
    some (cs.foldl (fun n c => 10 * n + (c.toNat - '0'.toNat)) 0)
  else none

-- A status in decimal digits, a plus sign allowed before them.
def status? (key : String) : Option UInt16 :=
  let digits :=
    match key.toList with
    | '+' :: rest => rest
    | cs => cs
  match digits? digits with
  | some n => if n < UInt16.size then some (UInt16.ofNat n) else none
  | none => none

structure Numbered where
  status : UInt16
  key : String
  node : ResponseNode

-- Insertion behind the entries of the same or a lower status.
def insert (n : Numbered) : List Numbered → List Numbered
  | [] => [n]
  | m :: rest => if n.status < m.status then n :: m :: rest else m :: insert n rest

def numbered (responses : Entries ResponseNode) : List Numbered :=
  (responses.filterMap fun e => (status? e.1).map fun status => ⟨status, e.1, e.2⟩).foldl
    (fun sorted n => insert n sorted) []

def isSuccess (n : Numbered) : Bool := 200 ≤ n.status && n.status ≤ 299

def isError (n : Numbered) : Bool := 400 ≤ n.status && n.status ≤ 599

-- An event stream is preferred to JSON, JSON to text, and text to a file of any other type.
def lowerSuccess (scope : Scope) (n : Numbered) : Report (Option Ir.Response) := do
  match ← resolve scope.resolver n.node with
  | none => return none
  | some response =>
    let description := response.description
    if n.status = 204 || response.content.isEmpty then return none
    else
      match firstOf? .eventStream response.content, firstOf? .json response.content with
      | some (_, media), _ => do
        let schema ← SchemaLowering.lowerOption scope.resolver scope.path true media.schema
        return some (.streaming n.status schema description)
      | none, some (_, media) => do
        let schema ← SchemaLowering.lowerOption scope.resolver scope.path true media.schema
        return some (.json n.status schema description)
      | none, none =>
        if (firstOf? .text response.content).isSome then return some (.text n.status description)
        else return some (.file n.status description)

-- Only JSON content gives an error response a schema.
def lowerError (scope : Scope) (n : Numbered) : Report (Option Ir.ErrorResponse) := do
  match ← resolve scope.resolver n.node with
  | none => return none
  | some response =>
    let schema ←
      match firstOf? .json response.content with
      | some (_, media) => do
        let schema ← SchemaLowering.lowerOption scope.resolver scope.path true media.schema
        pure (some schema)
      | none => pure none
    match NameVariants.derive? (Name.ofStatus n.status) none with
    | some name => return some ⟨n.status, name, schema, response.description⟩
    | none => Report.fail .emptyName

-- The response and the error responses of the numbered responses; `pending` until one was
-- successful.
def lowerEach (scope : Scope) :
    Bool → List Numbered → Report (Option Ir.Response × List Ir.ErrorResponse)
  | _, [] => .ok (none, [])
  | pending, n :: rest =>
    let keys := ["responses", n.key]
    if isSuccess n && pending then do
      let response ← (lowerSuccess scope n).under keys
      let more ← lowerEach scope false rest
      return (response, more.2)
    else if isError n then do
      let error ← (lowerError scope n).under keys
      let more ← lowerEach scope pending rest
      return (more.1, error.toList ++ more.2)
    else lowerEach scope pending rest

def lower (scope : Scope) (responses : Entries ResponseNode) :
    Report (Option Ir.Response × List Ir.ErrorResponse) :=
  lowerEach scope true (numbered responses)

end ApiLowering.ResponseLowering
