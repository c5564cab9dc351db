import ApiLowering.Ir.Security
import ApiLowering.Lowering.Extension
import ApiLowering.Document.Security

/-!
Security schemes. Schemes that the intermediate representation cannot express have no counterpart.
-/

set_option autoImplicit false

namespace ApiLowering.SecurityLowering

-- The scopes of all flows in order; of several descriptions of one scope the first one stays.
def scopes (flows : List OAuthFlow) : Entries String :=
  (flows.flatMap fun f => f.scopes).foldl
    (fun seen e => if Entries.contains e.1 seen then seen else seen ++ [e]) []

def lowerScope (scope : String × String) : Ir.OAuthScope :=
  ⟨scope.1, if scope.2.isEmpty then none else some scope.2⟩

def lower? (s : SecurityScheme) : Option Ir.SecurityScheme :=
  match s.type with
  | .http =>
    match s.scheme.map Text.lowerAscii with
    | some "basic" => some (.basic s.description)
    | some "bearer" => some (.bearer s.description)
    | _ => none
  | .apiKey =>
    match s.location, s.name with
    | some .header, some header =>
      let override := Extension.headerOverride s.extensions
      let name := override.name.bind fun raw => NameVariants.derive? raw (some header)
      some (.header header name override.lead s.description)
    | _, _ => none
  | .oauth2 =>
    let flows := (s.flows.map OAuthFlows.toList).getD []
    some (.oauth ((scopes flows).map lowerScope) s.description)
  | .openIdConnect => some (.bearer s.description)
  | .mutualTls => none
  | .unsupported => none

def reserved (schemes : List Ir.SecurityScheme) : List String :=
  sortedSet (schemes.map Ir.SecurityScheme.headerName)

def supported (schemes : Entries SecuritySchemeNode) : Entries Ir.SecurityScheme :=
  schemes.filterMap fun e =>
    match e.2 with
    | .inline s => (lower? s).map fun lowered => (e.1, lowered)
    | .invalid _ => none

def unsupported (id : String) : Ir.Finding :=
  ⟨.unsupportedSecurityScheme, ["securitySchemes", id],
    "security scheme " ++ id ++ " is not supported and was skipped"⟩

def malformed (id : String) : Ir.Finding :=
  ⟨.malformedNode, ["securitySchemes", id],
    "security scheme " ++ id ++ " is not a valid security scheme object"⟩

-- The findings about schemes without a counterpart; those that are no schemes come last.
def findings (schemes : Entries SecuritySchemeNode) : List Ir.Finding :=
  let about (test : SecuritySchemeNode → Bool) : List String :=
    Entries.keys (schemes.filter fun e => test e.2)
  (about fun node => match node with
      | .inline s => (lower? s).isNone
      | .invalid _ => false).map unsupported
    ++ (about fun node => match node with
      | .inline _ => false
      | .invalid _ => true).map malformed

end ApiLowering.SecurityLowering
