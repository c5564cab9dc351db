import ApiLowering.Lowering.Resolution

/-!
What the lowering of an operation depends on beside the operation itself.
-/

set_option autoImplicit false

namespace ApiLowering

structure Scope where
  resolver : Resolver
  path : List String
  reserved : List String
  -- The security requirements of an operation that declares none.
  security : Option (List SecurityRequirement)

namespace Scope

def isReserved (scope : Scope) (header : String) : Bool :=
  scope.reserved.contains (Text.lowerAscii header)

end Scope

end ApiLowering
