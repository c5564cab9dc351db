import ApiLowering.Document.Schema.Encode

/-!
Security schemes and requirements of a document.
-/

set_option autoImplicit false

namespace ApiLowering

inductive SecuritySchemeType where
  | apiKey
  | http
  | oauth2
  | openIdConnect
  | mutualTls
  | unsupported
deriving DecidableEq, Repr

inductive ApiKeyLocation where
  | query
  | header
  | cookie
  | unsupported
deriving DecidableEq, Repr

structure OAuthFlow where
  authorizationUrl : Option String
  tokenUrl : Option String
  scopes : Entries String
deriving DecidableEq, Repr

structure OAuthFlows where
  implicitFlow : Option OAuthFlow
  password : Option OAuthFlow
  clientCredentials : Option OAuthFlow
  authorizationCode : Option OAuthFlow
deriving DecidableEq, Repr

structure SecurityScheme where
  type : SecuritySchemeType
  description : Option String
  name : Option String
  location : Option ApiKeyLocation
  scheme : Option String
  bearerFormat : Option String
  flows : Option OAuthFlows
  extensions : Entries Json

inductive SecuritySchemeNode where
  | inline (scheme : SecurityScheme)
  | invalid (value : Json)

abbrev SecurityRequirement : Type := Entries (List String)

namespace SecuritySchemeType

def named : Entries SecuritySchemeType :=
  [("apiKey", .apiKey), ("http", .http), ("oauth2", .oauth2), ("openIdConnect", .openIdConnect),
    ("mutualTLS", .mutualTls)]

def read : Reader SecuritySchemeType := fun mode node =>
  (Reader.choice (Entries.keys named ++ ["unsupported"]) true mode node).map fun n =>
    (Entries.get? n named).getD .unsupported

def name : SecuritySchemeType → String
  | .apiKey => "apiKey"
  | .http => "http"
  | .oauth2 => "oauth2"
  | .openIdConnect => "openIdConnect"
  | .mutualTls => "mutualTLS"
  | .unsupported => "unsupported"

end SecuritySchemeType

namespace ApiKeyLocation

def named : Entries ApiKeyLocation := [("query", .query), ("header", .header), ("cookie", .cookie)]

def read : Reader ApiKeyLocation := fun mode node =>
  (Reader.choice (Entries.keys named ++ ["unsupported"]) true mode node).map fun n =>
    (Entries.get? n named).getD .unsupported

def name : ApiKeyLocation → String
  | .query => "query"
  | .header => "header"
  | .cookie => "cookie"
  | .unsupported => "unsupported"

end ApiKeyLocation

namespace OAuthFlow

def record : Record OAuthFlow :=
  { name := "OAuthFlow"
    fields := [
      Field.optional "authorizationUrl" Reader.text fun v f => { f with authorizationUrl := v },
      Field.optional "tokenUrl" Reader.text fun v f => { f with tokenUrl := v },
      Field.defaulted "scopes" (Reader.entries Reader.text) fun v f => { f with scopes := v }]
    blank := ⟨none, none, []⟩ }

def toJson (f : OAuthFlow) : Json :=
  .object (Json.optionEntry "authorizationUrl" (f.authorizationUrl.map .text)
    ++ Json.optionEntry "tokenUrl" (f.tokenUrl.map .text)
    ++ [("scopes", .object (Entries.mapValues .text f.scopes))])

end OAuthFlow

namespace OAuthFlows

def record : Record OAuthFlows :=
  { name := "OAuthFlows"
    fields := [
      Field.optional "implicit" OAuthFlow.record.read fun v f => { f with implicitFlow := v },
      Field.optional "password" OAuthFlow.record.read fun v f => { f with password := v },
      Field.optional "clientCredentials" OAuthFlow.record.read
        fun v f => { f with clientCredentials := v },
      Field.optional "authorizationCode" OAuthFlow.record.read
        fun v f => { f with authorizationCode := v }]
    blank := ⟨none, none, none, none⟩ }

def toJson (f : OAuthFlows) : Json :=
  .object (Json.optionEntry "implicit" (f.implicitFlow.map OAuthFlow.toJson)
    ++ Json.optionEntry "password" (f.password.map OAuthFlow.toJson)
    ++ Json.optionEntry "clientCredentials" (f.clientCredentials.map OAuthFlow.toJson)
    ++ Json.optionEntry "authorizationCode" (f.authorizationCode.map OAuthFlow.toJson))

def toList (f : OAuthFlows) : List OAuthFlow :=
  [f.implicitFlow, f.password, f.clientCredentials, f.authorizationCode].filterMap id

end OAuthFlows

namespace SecurityScheme

def record : Record SecurityScheme :=
  { name := "SecurityScheme"
    fields := [
      Field.defaulted "type" SecuritySchemeType.read fun v s => { s with type := v },
      Field.optional "description" Reader.text fun v s => { s with description := v },
      Field.optional "name" Reader.text fun v s => { s with name := v },
      Field.optional "in" ApiKeyLocation.read fun v s => { s with location := v },
      Field.optional "scheme" Reader.text fun v s => { s with scheme := v },
      Field.optional "bearerFormat" Reader.text fun v s => { s with bearerFormat := v },
      Field.optional "flows" OAuthFlows.record.read fun v s => { s with flows := v }]
    blank := ⟨.unsupported, none, none, none, none, none, none, []⟩ }

def read : Reader SecurityScheme := record.readExtended fun extensions s => { s with extensions }

def toJson (s : SecurityScheme) : Json :=
  .object ([("type", .text s.type.name)]
    ++ Json.optionEntry "description" (s.description.map .text)
    ++ Json.optionEntry "name" (s.name.map .text)
    ++ Json.optionEntry "in" (s.location.map fun l => .text l.name)
    ++ Json.optionEntry "scheme" (s.scheme.map .text)
    ++ Json.optionEntry "bearerFormat" (s.bearerFormat.map .text)
    ++ Json.optionEntry "flows" (s.flows.map OAuthFlows.toJson)
    ++ s.extensions)

end SecurityScheme

namespace SecuritySchemeNode

-- A scheme of the wrong shape is kept as it is.
def read : Reader SecuritySchemeNode := fun mode node => do
  let held ← node.holdIn mode
  match SecurityScheme.read .held held with
  | .ok s => return .inline s
  | .error _ => (Reader.value .held held).map .invalid

def toJson : SecuritySchemeNode → Json
  | .inline s => s.toJson
  | .invalid value => value

end SecuritySchemeNode

namespace SecurityRequirement

def read : Reader SecurityRequirement := Reader.entries (Reader.list Reader.text)

def toJson (r : SecurityRequirement) : Json := .object (Entries.mapValues Json.texts r)

end SecurityRequirement

end ApiLowering
