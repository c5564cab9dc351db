import ApiLowering.Name.Casing

/-!
A name in every casing, together with the text that stands for it on the wire.
-/

set_option autoImplicit false

namespace ApiLowering

structure NameVariants where
  originalValue : String
  wireValue : String
  camelCase : String
  pascalCase : String
  snakeCase : String
  screamingSnakeCase : String
deriving DecidableEq, Repr, BEq

namespace NameVariants

-- The text whose casings a raw identifier gets: its words joined by underscores.
def joined (raw : String) : List Char :=
  match Name.words raw.toList with
  | [] => "unnamed".toList
  | words => List.intercalate ['_'] words

-- Every casing of `raw`, which also stands on the wire unless `wire` is given. Only the empty text
-- has no name.
def derive? (raw : String) (wire : Option String) : Option NameVariants :=
  if raw.isEmpty then none
  else
    let text := joined raw
    some {
      originalValue := raw
      wireValue := wire.getD raw
      camelCase := Name.camelCase text
      pascalCase := Name.pascalCase text
      snakeCase := Name.snakeCase text
      screamingSnakeCase := Name.screamingSnakeCase text }

def uniform (text : String) : NameVariants := ⟨text, text, text, text, text, text⟩

end NameVariants

end ApiLowering
