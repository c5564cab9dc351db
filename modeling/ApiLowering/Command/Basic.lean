/-!
What the program can be asked to do.
-/

set_option autoImplicit false

namespace ApiLowering

inductive OverviewFormat where
  | yaml
  | json
deriving DecidableEq, Repr

inductive Command where
  | generate (input output : Option String)
  | validate (input : String)
  | inspect (input : String) (format : OverviewFormat)
  | references (input : String)
  | plan (snippet : Option String)
  | init (force : Bool)
deriving DecidableEq, Repr

end ApiLowering
