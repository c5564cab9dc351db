import ApiLowering.Proofs.Components
import ApiLowering.Proofs.Optionality
import ApiLowering.Proofs.Unions

/-!
Nullability of unions. A union without a discriminator is nullable if one of its members is a null type,
whether it stays a union or collapses to its only other member. Under a discriminator a null member is
one member more, which needs a discriminant value like any other: the union is nullable only if the schema
that declares it says so itself.
-/

set_option autoImplicit false

namespace ApiLowering.SchemaLowering

variable {r : Resolver} {path : List String} {s : Schema} {d : Discriminator} {node : SchemaNode}
  {schema : Ir.Schema}

-- A schema is nullable by its own keywords.
def OwnNullable (s : Schema) : Prop := s.nullable = some true ∨ s.typeIncludesNull = true

theorem ownInfo_nullable (s : Schema) : (ownInfo s).nullable = true ↔ OwnNullable s := by
  simp only [ownInfo, OwnNullable, Bool.or_eq_true, beq_iff_eq]

theorem unionNullable_of_member (listed : node ∈ (unionMembers s).2) (null : node.isNullType = true) :
    unionNullable s = true := by
  have some : (unionMembers s).2.any SchemaNode.isNullType = true :=
    List.any_eq_true.mpr ⟨node, listed, null⟩
  rw [unionNullable, some, Bool.or_true]

theorem lowerTagged_nullable (done : (lowerTagged r path s d).outcome = .ok schema) :
    schema.info.nullable = (ownInfo s).nullable := by
  obtain ⟨variants, mapped, base, -, -, same⟩ := lowerTagged_parts done
  rw [same]
  rfl

theorem lowerUnion_nullable (done : (lowerUnion r path s).outcome = .ok schema) :
    schema.info.nullable = unionNullable s := by
  obtain ⟨variants, -, done⟩ := Report.bind_ok done
  obtain ⟨base, -, done⟩ := Report.bind_ok done
  rw [← Report.pure_ok done]
  rfl

-- What a schema is reduced or collapsed to keeps its own nullability beside what is added to it.
theorem lowerAmended_nullable {keys : List String} {description : Option String} {nullable : Bool}
    (done : (lowerAmended r path keys node description nullable).outcome = .ok schema) :
    ∃ inner, (lower r path node).outcome = .ok inner ∧
      schema.info.nullable = (inner.info.nullable || nullable) := by
  obtain ⟨inner, lowered, done⟩ := Report.bind_ok done
  refine ⟨inner, lowered, ?_⟩
  rw [← Report.pure_ok done, amend, Ir.Schema.info_mapInfo]

theorem unlessRequired_nullable (required : Bool) (s : Ir.Schema) :
    (s.unlessRequired required).info.nullable = s.info.nullable := by
  cases required with
  | true => rfl
  | false =>
    change (s.setOptional true).info.nullable = _
    rw [Ir.Schema.setOptional, Ir.Schema.info_mapInfo]

/-- A union with a null type among its members is nullable exactly if it has no discriminator or the
schema is nullable by its own keywords. -/
theorem null_members_noticed {required : Bool} (bare : s.allOf = [])
    (listed : node ∈ (unionMembers s).2) (null : node.isNullType = true)
    (done : (lowerAs r path required (.inline s)).outcome = .ok schema) :
    schema.info.nullable = true ↔ s.discriminator = none ∨ OwnNullable s := by
  obtain ⟨whole, lowered, done⟩ := Report.bind_ok done
  rw [lower] at lowered
  rw [← Report.pure_ok done, unlessRequired_nullable, ← ownInfo_nullable]
  have united := unionMembers_united (List.ne_nil_of_mem listed)
  have formed := lowerInline_ok lowered
  cases present : s.discriminator with
  | some d =>
    rw [form_tagged bare united present] at formed
    rw [lowerTagged_nullable formed]
    simp only [reduceCtorEq, false_or]
  | none =>
    -- both ways of a union without a discriminator look at the members first
    have counted := unionNullable_of_member listed null
    refine iff_of_true ?_ (.inl rfl)
    rcases form_untagged bare united present with shape | ⟨index, member, shape⟩
    · rw [shape] at formed
      rw [lowerUnion_nullable formed, counted]
    · rw [shape] at formed
      obtain ⟨inner, -, same⟩ := lowerAmended_nullable formed
      rw [same, counted, Bool.or_true]

-- A pet or none, with and without a discriminator.
def anyPet (discriminator : Option Discriminator) : Schema :=
  { Keywords.empty with
    oneOf := [.reference (Pointer.ofSchema "Cat"), .ofType .null, .reference (Pointer.ofSchema "Dog")]
    discriminator }

theorem anyPet_noticed :
    (∃ schema, (lowerAs (petShop.resolver .default) [] true (.inline (anyPet none))).outcome = .ok schema ∧
      schema.info.nullable = true) ∧
    ∃ schema, (lowerAs (petShop.resolver .default) [] true
        (.inline (anyPet (some ⟨"petType", []⟩)))).outcome = .ok schema ∧
      schema.info.nullable = false := by
  have null {d : Option Discriminator} : SchemaNode.ofType .null ∈ (unionMembers (anyPet d)).2 :=
    .tail _ (.head _)
  constructor
  · have lowers : ((lowerAs (petShop.resolver .default) [] true
        (.inline (anyPet none))).outcome.toOption.any fun _ => true) = true := by decide +kernel
    obtain ⟨schema, done, -⟩ := ok_of_any lowers
    exact ⟨schema, done, (null_members_noticed rfl null rfl done).mpr (.inl rfl)⟩
  · have lowers : ((lowerAs (petShop.resolver .default) [] true
        (.inline (anyPet (some ⟨"petType", []⟩)))).outcome.toOption.any fun _ => true) = true := by
      decide +kernel
    obtain ⟨schema, done, -⟩ := ok_of_any lowers
    refine ⟨schema, done, Bool.eq_false_iff.mpr fun nullable => ?_⟩
    rcases (null_members_noticed rfl null rfl done).mp nullable with plain | own | typed
    · cases plain
    · cases own
    · cases typed

end ApiLowering.SchemaLowering
