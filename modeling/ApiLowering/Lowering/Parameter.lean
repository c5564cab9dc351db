import ApiLowering.Ir.Operation
import ApiLowering.Lowering.Schema
import ApiLowering.Lowering.Scope

/-!
Parameters. Those of an operation take the place of those of its path item with the same name and
location; cookies and headers that carry credentials are no parameters.
-/

set_option autoImplicit false

namespace ApiLowering

structure LoweredParameters where
  path : List Ir.Parameter
  query : List Ir.Parameter
  headers : List Ir.Parameter

namespace ParameterLowering

def resolve (r : Resolver) : ParameterNode → Report (Option Parameter)
  | .inline p => .ok (some p)
  | .reference target =>
    match r.parameter? target with
    | some p => .ok (some p)
    | none => do
      Report.find .danglingReference ("parameter reference " ++ target ++ " does not resolve")
      return none
  | .invalid _ => do
    Report.find .malformedNode "parameter is missing `name` or `in`"
    return none

-- A parameter that is already there keeps its place and gets the new definition.
def put (parameter : Parameter) : List Parameter → List Parameter
  | [] => [parameter]
  | p :: rest =>
    if p.name = parameter.name ∧ p.location = parameter.location then parameter :: rest
    else p :: put parameter rest

def isSent (scope : Scope) (p : Parameter) : Bool :=
  match p.location with
  | .cookie => false
  | .header => !scope.isReserved p.name
  | _ => true

def variableName? (p : Parameter) : Option String :=
  match p.location with
  | .path => Extension.text? p.extensions Extension.variableKey
  | _ => none

def isRequired (p : Parameter) : Bool := p.required || p.location = .path

def lowerOne (scope : Scope) (p : Parameter) :
    Report (Option (ParameterLocation × Ir.Parameter)) :=
  let raw := (Extension.text? p.extensions Extension.parameterNameKey).getD p.name
  (match NameVariants.derive? raw (some p.name) with
    | none => do
      Report.find .invalidIdentifier "parameter name is empty"
      return none
    | some name => do
      let required := isRequired p
      let schema ← SchemaLowering.lowerOption scope.resolver scope.path required p.schema
      return some (p.location, ⟨name, schema, required, p.description, variableName? p⟩)
    : Report (Option (ParameterLocation × Ir.Parameter))).under ["parameters", p.name]

def located (location : ParameterLocation) (all : List (ParameterLocation × Ir.Parameter)) :
    List Ir.Parameter :=
  (all.filter fun p => p.1 = location).map Prod.snd

def lower (scope : Scope) (shared own : List ParameterNode) : Report LoweredParameters := do
  let resolved ← Report.collect (resolve scope.resolver) (shared ++ own)
  let merged := resolved.foldl (fun seen p => put p seen) []
  let lowered ← Report.collect (lowerOne scope) (merged.filter (isSent scope))
  return ⟨located .path lowered, located .query lowered, located .header lowered⟩

end ParameterLowering

end ApiLowering
