import ApiLowering.Document.Schema.Decode
import ApiLowering.Lowering.Schema

/-!
Variables of the client, declared by an extension of the document. Only primitive schemas can be
variables.
-/

set_option autoImplicit false

namespace ApiLowering.VariableLowering

def node (value : Json) : SchemaNode :=
  match SchemaNode.read .json (Tree.ofJson value) with
  | .ok node => node
  | .error _ => .invalid value

def lowerOne (r : Resolver) (path : List String) (name : String) (value : Json) :
    Report (Option (String × Ir.PrimitiveSchema)) :=
  (do
    match ← (SchemaLowering.lower r path (node value)).attempt with
    | .ok (.primitive p) => return some (name, p)
    | _ => do
      Report.find .malformedNode ("variable " ++ name ++ " must be a primitive schema")
      return none
    : Report (Option (String × Ir.PrimitiveSchema))).under [Extension.variablesKey, name]

def lower (r : Resolver) (path : List String) (d : ApiDocument) :
    Report (Entries Ir.PrimitiveSchema) :=
  match Entries.get? Extension.variablesKey d.extensions with
  | some (.object raw) => Report.collect (fun e => lowerOne r path e.1 e.2) raw
  | _ => .ok []

end ApiLowering.VariableLowering
