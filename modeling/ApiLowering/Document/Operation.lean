import ApiLowering.HttpMethod
import ApiLowering.Document.Body
import ApiLowering.Document.Parameter
import ApiLowering.Document.Security

/-!
Operations, and the path items that hold them by method.
-/

set_option autoImplicit false

namespace ApiLowering

structure Operation where
  operationId : Option String
  summary : Option String
  description : Option String
  tags : List String
  parameters : List ParameterNode
  requestBody : Option RequestBodyNode
  responses : Entries ResponseNode
  deprecated : Option Bool
  security : Option (List SecurityRequirement)
  extensions : Entries Json

structure PathItem where
  summary : Option String
  description : Option String
  parameters : List ParameterNode
  get : Option Operation
  put : Option Operation
  post : Option Operation
  patch : Option Operation
  delete : Option Operation
  options : Option Operation
  head : Option Operation
  trace : Option Operation
  extensions : Entries Json

namespace Operation

def record : Record Operation :=
  { name := "Operation"
    fields := [
      Field.optional "operationId" Reader.text fun v o => { o with operationId := v },
      Field.optional "summary" Reader.text fun v o => { o with summary := v },
      Field.optional "description" Reader.text fun v o => { o with description := v },
      Field.defaulted "tags" (Reader.list Reader.text) fun v o => { o with tags := v },
      Field.defaulted "parameters" (Reader.list ParameterNode.read)
        fun v o => { o with parameters := v },
      Field.optional "requestBody" RequestBodyNode.read fun v o => { o with requestBody := v },
      Field.defaulted "responses" (Reader.entries ResponseNode.read)
        fun v o => { o with responses := v },
      Field.optional "deprecated" Reader.bool fun v o => { o with deprecated := v },
      Field.optional "security" (Reader.list SecurityRequirement.read)
        fun v o => { o with security := v }]
    blank := ⟨none, none, none, [], [], none, [], none, none, []⟩ }

def read : Reader Operation := record.readExtended fun extensions o => { o with extensions }

def toJson (o : Operation) : Json :=
  .object (Json.optionEntry "operationId" (o.operationId.map .text)
    ++ Json.optionEntry "summary" (o.summary.map .text)
    ++ Json.optionEntry "description" (o.description.map .text)
    ++ Json.listEntry "tags" (o.tags.map .text)
    ++ Json.listEntry "parameters" (o.parameters.map ParameterNode.toJson)
    ++ Json.optionEntry "requestBody" (o.requestBody.map RequestBodyNode.toJson)
    ++ Json.mapEntry "responses" (Entries.mapValues ResponseNode.toJson o.responses)
    ++ Json.optionEntry "deprecated" (o.deprecated.map .bool)
    ++ Json.optionEntry "security"
      (o.security.map fun s => .list (s.map SecurityRequirement.toJson))
    ++ o.extensions)

def schemas (o : Operation) : List Schema :=
  o.parameters.flatMap ParameterNode.schemas
    ++ o.requestBody.toList.flatMap RequestBodyNode.schemas
    ++ (Entries.values o.responses).flatMap ResponseNode.schemas

end Operation

namespace PathItem

def record : Record PathItem :=
  let operation := Operation.read
  { name := "PathItem"
    fields := [
      Field.optional "summary" Reader.text fun v p => { p with summary := v },
      Field.optional "description" Reader.text fun v p => { p with description := v },
      Field.defaulted "parameters" (Reader.list ParameterNode.read)
        fun v p => { p with parameters := v },
      Field.optional "get" operation fun v p => { p with get := v },
      Field.optional "put" operation fun v p => { p with put := v },
      Field.optional "post" operation fun v p => { p with post := v },
      Field.optional "patch" operation fun v p => { p with patch := v },
      Field.optional "delete" operation fun v p => { p with delete := v },
      Field.optional "options" operation fun v p => { p with options := v },
      Field.optional "head" operation fun v p => { p with head := v },
      Field.optional "trace" operation fun v p => { p with trace := v }]
    blank := ⟨none, none, [], none, none, none, none, none, none, none, none, []⟩ }

def read : Reader PathItem := record.readExtended fun extensions p => { p with extensions }

-- The operations of the item in a fixed order of methods.
def operations (p : PathItem) : List (HttpMethod × Operation) :=
  [(HttpMethod.get, p.get), (.put, p.put), (.post, p.post), (.patch, p.patch),
    (.delete, p.delete), (.options, p.options), (.head, p.head), (.trace, p.trace)].filterMap
    fun e => e.2.map fun o => (e.1, o)

def mapOperations (f : HttpMethod → Operation → Operation) (p : PathItem) : PathItem :=
  { p with
    get := p.get.map (f .get)
    put := p.put.map (f .put)
    post := p.post.map (f .post)
    patch := p.patch.map (f .patch)
    delete := p.delete.map (f .delete)
    options := p.options.map (f .options)
    head := p.head.map (f .head)
    trace := p.trace.map (f .trace) }

def toJson (p : PathItem) : Json :=
  let operation (name : String) (o : Option Operation) :=
    Json.optionEntry name (o.map Operation.toJson)
  .object (Json.optionEntry "summary" (p.summary.map .text)
    ++ Json.optionEntry "description" (p.description.map .text)
    ++ Json.listEntry "parameters" (p.parameters.map ParameterNode.toJson)
    ++ operation "get" p.get ++ operation "put" p.put ++ operation "post" p.post
    ++ operation "patch" p.patch ++ operation "delete" p.delete
    ++ operation "options" p.options ++ operation "head" p.head ++ operation "trace" p.trace
    ++ p.extensions)

def schemas (p : PathItem) : List Schema :=
  p.parameters.flatMap ParameterNode.schemas ++ p.operations.flatMap fun e => e.2.schemas

end PathItem

end ApiLowering
