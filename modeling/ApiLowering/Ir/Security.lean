import ApiLowering.Ir.Schema.Decode
import ApiLowering.Ir.Schema.Encode

/-!
Authentication schemes of the intermediate representation.
-/

set_option autoImplicit false

namespace ApiLowering.Ir

structure OAuthScope where
  name : String
  description : Option String
deriving DecidableEq, Repr

-- A header scheme keeps the header it is sent in; its name is that of the parameter which carries
-- the credential.
inductive SecurityScheme where
  | basic (description : Option String)
  | bearer (description : Option String)
  | header (headerName : String) (name : Option NameVariants) (lead : Option String)
      (description : Option String)
  | oauth (scopes : List OAuthScope) (description : Option String)
deriving DecidableEq, Repr

namespace OAuthScope

def record : Record OAuthScope :=
  { name := "IrOAuthScope"
    fields := [
      Field.required "name" Reader.text fun v s => { s with name := v },
      Field.lenient "description" Reader.text fun v s => { s with description := v }]
    blank := ⟨"", none⟩ }

def toJson (s : OAuthScope) : Json :=
  .object ([("name", .text s.name)] ++ Json.optionEntry "description" (s.description.map .text))

end OAuthScope

namespace SecurityScheme

def headerName : SecurityScheme → String
  | .header headerName _ _ _ => headerName
  | _ => "Authorization"

def descriptionRecord (name : String) : Record (Option String) :=
  { name, fields := [Field.lenient "description" Reader.text fun v _ => v], blank := none }

structure HeaderFields where
  headerName : String
  name : Option NameVariants
  lead : Option String
  description : Option String

def headerRecord : Record HeaderFields :=
  { name := "variant IrSecurityScheme::Header"
    fields := [
      Field.required "headerName" Reader.text fun v h => { h with headerName := v },
      Field.lenient "name" NameVariants.read fun v h => { h with name := v },
      Field.lenient "prefix" Reader.text fun v h => { h with lead := v },
      Field.lenient "description" Reader.text fun v h => { h with description := v }]
    blank := ⟨"", none, none, none⟩ }

def oauthRecord : Record (List OAuthScope × Option String) :=
  { name := "variant IrSecurityScheme::Oauth"
    fields := [
      Field.required "scopes" (Reader.list OAuthScope.record.read) fun v o => (v, o.2),
      Field.lenient "description" Reader.text fun v o => (o.1, v)]
    blank := ([], none) }

def read : Reader SecurityScheme :=
  Reader.tagged "IrSecurityScheme" "type" ["basic", "bearer", "header", "oauth"] false
    fun kind mode node =>
      match kind with
      | "basic" =>
        ((descriptionRecord "variant IrSecurityScheme::Basic").read mode node).map .basic
      | "bearer" =>
        ((descriptionRecord "variant IrSecurityScheme::Bearer").read mode node).map .bearer
      | "header" =>
        (headerRecord.read mode node).map fun h => .header h.headerName h.name h.lead h.description
      | _ => (oauthRecord.read mode node).map fun o => .oauth o.1 o.2

def toJson : SecurityScheme → Json
  | .basic description =>
    .object ([("type", .text "basic")] ++ Json.optionEntry "description" (description.map .text))
  | .bearer description =>
    .object ([("type", .text "bearer")] ++ Json.optionEntry "description" (description.map .text))
  | .header headerName name lead description =>
    .object ([("type", .text "header"), ("headerName", .text headerName)]
      ++ Json.optionEntry "name" (name.map NameVariants.toJson)
      ++ Json.optionEntry "prefix" (lead.map .text)
      ++ Json.optionEntry "description" (description.map .text))
  | .oauth scopes description =>
    .object ([("type", .text "oauth"), ("scopes", .list (scopes.map OAuthScope.toJson))]
      ++ Json.optionEntry "description" (description.map .text))

end SecurityScheme

end ApiLowering.Ir
