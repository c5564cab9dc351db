import ApiLowering.Document.Basic
import ApiLowering.MediaKind
import ApiLowering.Options

/-!
Request bodies that are given both as JSON and as multipart data. One of the two representations is
elected in every inline body, and the other one's media types are dropped.
-/

set_option autoImplicit false

namespace ApiLowering

structure ContentConflict where
  location : String
  kept : String
  discarded : String
  diverged : Bool
deriving DecidableEq, Repr

namespace ContentConflict

def firstOf? (kind : MediaKind) (content : Entries MediaType) : Option (String × MediaType) :=
  content.find? fun e => MediaKind.of e.1 = kind

-- The kind that a policy keeps and the kind that it drops.
def ranked : ConflictPolicy → MediaKind × MediaKind
  | .preferMultipart => (.multipart, .json)
  | .preferJson => (.json, .multipart)

def of? (policy : ConflictPolicy) (location : String) (content : Entries MediaType) :
    Option ContentConflict :=
  match firstOf? (ranked policy).1 content, firstOf? (ranked policy).2 content with
  | some kept, some dropped =>
    some {
      location
      kept := kept.1
      discarded := dropped.1
      diverged := !SchemaNode.equalOption kept.2.schema dropped.2.schema }
  | _, _ => none

-- The content of a body after the election; without a conflict it stays as it is.
def resolveContent (policy : ConflictPolicy) (content : Entries MediaType) : Entries MediaType :=
  if (of? policy "" content).isSome then
    content.filter fun e => MediaKind.of e.1 ≠ (ranked policy).2
  else content

def resolveBody (policy : ConflictPolicy) : RequestBodyNode → RequestBodyNode
  | .inline body => .inline { body with content := resolveContent policy body.content }
  | other => other

def inBody? (policy : ConflictPolicy) (location : String) : RequestBodyNode → Option ContentConflict
  | .inline body => of? policy location body.content
  | _ => none

def resolveItem (policy : ConflictPolicy) (item : PathItem) : PathItem :=
  item.mapOperations fun _ o => { o with requestBody := o.requestBody.map (resolveBody policy) }

def inItem (policy : ConflictPolicy) (lead : String) (item : PathItem) : List ContentConflict :=
  item.operations.filterMap fun (method, o) =>
    o.requestBody.bind (inBody? policy (lead ++ "." ++ method.lowerName))

def resolveItems (policy : ConflictPolicy) (items : Entries (Option PathItem)) :
    Entries (Option PathItem) :=
  Entries.mapValues (fun item => item.map (resolveItem policy)) items

def inItems (policy : ConflictPolicy) (area : String) (items : Entries (Option PathItem)) :
    List ContentConflict :=
  items.flatMap fun (key, item) => item.toList.flatMap (inItem policy (area ++ "." ++ key))

end ContentConflict

namespace ApiDocument

def resolveConflicts (policy : ConflictPolicy) (d : ApiDocument) : ApiDocument :=
  { d with
    paths := ContentConflict.resolveItems policy d.paths
    webhooks := ContentConflict.resolveItems policy d.webhooks
    components := d.components.map fun c =>
      { c with
        requestBodies := Entries.mapValues (ContentConflict.resolveBody policy) c.requestBodies } }

-- The elections made, in the order of paths, webhooks and components.
def conflicts (policy : ConflictPolicy) (d : ApiDocument) : List ContentConflict :=
  ContentConflict.inItems policy "paths" d.paths
    ++ ContentConflict.inItems policy "webhooks" d.webhooks
    ++ d.components.toList.flatMap fun c =>
      c.requestBodies.filterMap fun (name, body) =>
        ContentConflict.inBody? policy ("components.requestBodies." ++ name) body

end ApiDocument

end ApiLowering
