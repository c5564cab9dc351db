import ApiLowering.Decode.Reader

/-!
The methods of operations.
-/

set_option autoImplicit false

namespace ApiLowering

inductive HttpMethod where
  | get
  | post
  | put
  | delete
  | patch
  | options
  | head
  | trace
deriving DecidableEq, Repr

namespace HttpMethod

def name : HttpMethod → String
  | .get => "GET"
  | .post => "POST"
  | .put => "PUT"
  | .delete => "DELETE"
  | .patch => "PATCH"
  | .options => "OPTIONS"
  | .head => "HEAD"
  | .trace => "TRACE"

def lowerName (m : HttpMethod) : String := Text.lowerAscii m.name

def all : List HttpMethod := [.get, .post, .put, .delete, .patch, .options, .head, .trace]

def ofName? (name : String) : Option HttpMethod := all.find? fun m => m.name = name

def read : Reader HttpMethod := fun mode node =>
  (Reader.choice (all.map name) false mode node).map fun n => (ofName? n).getD .get

end HttpMethod

end ApiLowering
