import ApiLowering.Document.ContentConflict
import ApiLowering.Ir.Operation
import ApiLowering.Lowering.Schema
import ApiLowering.Lowering.Scope

/-!
Request bodies. JSON and form content are lowered to a schema, multipart content to its fields, and
binary content to no more than its media type. References met inside a request are not noted.
-/

set_option autoImplicit false

namespace ApiLowering.RequestLowering

open ContentConflict (firstOf?)

def resolve (r : Resolver) : RequestBodyNode → Report (Option RequestBody)
  | .inline body => .ok (some body)
  | .reference target =>
    match r.requestBody? target with
    | some body => .ok (some body)
    | none => do
      Report.find .danglingReference ("request body reference " ++ target ++ " does not resolve")
      return none
  | .invalid _ => do
    Report.find .malformedNode "requestBody is not a request body object"
    return none

def isBinary (s : Schema) : Bool :=
  s.format == some "binary" || Entries.contains "contentMediaType" s.extensions

-- Whether a schema describes an uploaded file, and then whether it is a list of them.
def fileShape? (r : Resolver) (s : Schema) : Option Bool :=
  if isBinary s then some false
  else
    match s.items.bind r.dereference with
    | some items => if s.type == some (.single .array) && isBinary items then some true else none
    | none => none

def lowerField (scope : Scope) (media : MediaType) (required : List String) (key : String)
    (node : SchemaNode) : Report (Option Ir.MultipartProperty) :=
  (match NameVariants.derive? key none with
    | none => do
      Report.find .invalidIdentifier "multipart field name is empty"
      return none
    | some name => do
      let required := required.contains key
      let resolved := scope.resolver.dereference node
      let kind ←
        match resolved.bind (fileShape? scope.resolver) with
        | some isArray =>
          pure (.file isArray ((Entries.get? key media.encoding).bind fun e => e.contentType))
        | none => do
          let schema ← SchemaLowering.lowerAs scope.resolver scope.path required node
          pure (.field schema)
      return some ⟨key, name, kind, required, resolved.bind fun s => s.description⟩
    : Report (Option Ir.MultipartProperty)).under [key]

-- The fields of multipart content; content that leads to no inline schema has none.
def lowerFields (scope : Scope) (media : MediaType) : Report (List Ir.MultipartProperty) :=
  match media.schema.bind scope.resolver.dereference with
  | none => .ok []
  | some object =>
    Report.collect (fun e => lowerField scope media object.required e.1 e.2) object.properties

def unsupported (content : Entries MediaType) : Report Unit :=
  let finding (type : String) : Ir.Finding :=
    ⟨.unsupportedContentType, [], "request content type " ++ type ++ " is not supported"⟩
  ⟨(Entries.keys content).map finding, [], .ok ()⟩

-- Lowers a body that holds no more than one of JSON and multipart content.
def lowerContent (scope : Scope) (body : RequestBody) : Report (Option Ir.Request) :=
  let first (kind : MediaKind) := firstOf? kind body.content
  match (first .json).or (first .formUrlEncoded), first .multipart, first .octetStream with
  | some (type, media), _, _ => do
    let schema ← SchemaLowering.lowerOption scope.resolver scope.path true media.schema
    return some (.json type schema body.description body.required)
  | none, some (type, media), _ => do
    let fields ← lowerFields scope media
    return some (.multipart type fields body.description body.required)
  | none, none, some (type, _) => .ok (some (.bytes type body.description body.required))
  | none, none, none => do
    unsupported body.content
    return none

-- Lowers the body of a request. `location` tells where a body with both kinds of content stands.
def lower (scope : Scope) (location : String) : Option RequestBodyNode → Report (Option Ir.Request)
  | none => .ok none
  | some node =>
    (do
      match ← resolve scope.resolver node with
      | none => return none
      | some body =>
        if (firstOf? .json body.content).isSome && (firstOf? .multipart body.content).isSome then
          Report.fail (.unresolvedConflict location)
        else (lowerContent scope body).under ["requestBody"]
      : Report (Option Ir.Request)).withoutMarks

end ApiLowering.RequestLowering
