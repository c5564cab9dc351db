import ApiLowering.Ir.File

/-!
The overview of an intermediate representation: what there is, by name and kind, without the shapes.
-/

set_option autoImplicit false

namespace ApiLowering.Ir

def Request.kind : Request → String
  | .json _ _ _ _ => "json"
  | .multipart _ _ _ _ => "multipart"
  | .bytes _ _ _ => "bytes"

-- Every object of an overview has its keys in ascending order.
def Endpoint.overview (e : Endpoint) : Json :=
  .object [
    ("authed", .bool e.authed),
    ("method", .text e.method.name),
    ("name", .text e.name.camelCase),
    ("path", .text e.path),
    ("request", ((e.request.map fun r => .text r.kind)).getD .null),
    ("tags", Json.texts e.tags)]

def File.overview (f : File) : Json :=
  .object [
    ("endpoints", .list (f.endpoints.map Endpoint.overview)),
    ("schemas", .list (f.schemas.map fun (id, schema) =>
      .object [("id", .text id), ("kind", .text schema.kind)])),
    ("securitySchemes", Json.texts (Entries.keys f.securitySchemes)),
    ("title", .text f.title),
    ("warnings", Json.ofNat f.errors.length),
    ("webhooks", Json.texts (f.webhooks.map fun w => w.name.camelCase))]

end ApiLowering.Ir
