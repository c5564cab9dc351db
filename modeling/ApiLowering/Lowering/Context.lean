import ApiLowering.Lowering.Document

/-!
A lowering in progress: which references are open, what was found, and which components were
referred to from outside a request.
-/

set_option autoImplicit false

namespace ApiLowering

structure Context where
  scope : Scope
  discriminants : Discriminant.Table
  findings : List Ir.Finding
  referenced : List String
  inRequest : Bool

namespace Context

def ofDocument (options : Options) (reserved : List String) (d : ApiDocument) : Context where
  scope := DocumentLowering.scope options reserved d
  discriminants := Discriminant.ofDocument d
  findings := []
  referenced := []
  inRequest := false

def record (c : Context) (finding : Ir.Finding) : Context :=
  { c with findings := c.findings ++ [finding] }

def mark (c : Context) (id : String) : Context :=
  if c.inRequest then c else { c with referenced := insertSorted id c.referenced }

def enter (c : Context) (pointer : String) : Except ResolveError Context :=
  (c.scope.resolver.enter c.scope.path pointer).map fun path =>
    { c with scope := { c.scope with path } }

def exit (c : Context) : Context :=
  { c with scope := { c.scope with path := c.scope.path.dropLast } }

-- Takes over what a report found and noted, whether it failed or not.
def run {α : Type} (c : Context) (report : Report α) : Except LoweringError α × Context :=
  (report.outcome,
    report.marks.foldl mark { c with findings := c.findings ++ report.findings })

-- Does something inside a request; afterwards the context is in a request if it was before.
def insideRequest {α : Type} (c : Context) (action : Context → α × Context) : α × Context :=
  let (result, after) := action { c with inRequest := true }
  (result, { after with inRequest := c.inRequest })

end Context

end ApiLowering
