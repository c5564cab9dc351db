import ApiLowering.Proofs.FirstWins
import ApiLowering.Proofs.Malformed

/-!
Constraints beside the member that a composition is reduced to. A schema that does no more than constrain
values counts as an annotation, but what it says is not among the annotations that are added to the
member. So what the other members constrain has no effect on the lowering: a constraint is kept, or its
loss is found, only where the member sees to that by itself.
-/

set_option autoImplicit false

namespace ApiLowering

inductive Constraint where
  | minimum (value : Binary64)
  | maximum (value : Binary64)
  | minLength (value : UInt64)
  | maxLength (value : UInt64)
  | pattern (value : String)

def Constraint.DeclaredBy (s : Schema) : Constraint → Prop
  | .minimum value => s.minimum = some value
  | .maximum value => s.maximum = some value
  | .minLength value => s.minLength = some value
  | .maxLength value => s.maxLength = some value
  | .pattern value => s.pattern = some value

namespace Ir

def PrimitiveType.numbers? : PrimitiveType → Option NumberConstraints
  | .int constraints | .int64 constraints | .float constraints | .double constraints =>
    some constraints
  | _ => none

def PrimitiveType.strings? : PrimitiveType → Option StringConstraints
  | .string constraints => some constraints
  | _ => none

def PrimitiveType.Carries (type : PrimitiveType) : Constraint → Prop
  | .minimum value => type.numbers?.bind NumberConstraints.minimum = some value
  | .maximum value => type.numbers?.bind NumberConstraints.maximum = some value
  | .minLength value => type.strings?.bind StringConstraints.minLength = some value
  | .maxLength value => type.strings?.bind StringConstraints.maxLength = some value
  | .pattern value => type.strings?.bind StringConstraints.pattern = some value

-- A primitive schema carries its constraints, and a union those of its variants.
inductive Schema.Carries (c : Constraint) : Schema → Prop where
  | primitive {p : PrimitiveSchema} (carried : p.value.Carries c) : Carries c (.primitive p)
  | variant {u : UnionSchema Schema} {v : Variant Schema} (listed : v ∈ u.variants)
      (carried : Carries c v.schema) : Carries c (.union u)

theorem Schema.Carries.annotated {c : Constraint} {s : Schema} (f : Meta → Meta)
    (carries : s.Carries c) : (s.mapInfo f).Carries c := by
  cases carries with
  | primitive carried => exact .primitive carried
  | variant listed carried => exact .variant listed carried

theorem Schema.Carries.unannotated {c : Constraint} {s : Schema} {f : Meta → Meta}
    (carries : (s.mapInfo f).Carries c) : s.Carries c := by
  cases s with
  | primitive p =>
    cases carries with
    | primitive carried => exact .primitive carried
  | union u =>
    cases carries with
    | variant listed carried => exact .variant listed carried
  | object _ | enumeration _ | array _ _ | map _ _ | reference _ _ | unknown _ => cases carries

end Ir

namespace Report

-- A constraint is kept if the lowered schema carries it, or if something is found to be malformed.
def Keeps (c : Constraint) (report : Report Ir.Schema) : Prop :=
  (∃ schema, report.outcome = .ok schema ∧ schema.Carries c) ∨
    ∃ f ∈ report.findings, f.isMalformed

variable {α : Type} {c : Constraint} {report : Report Ir.Schema}

theorem keeps_under (keys : List String) : (report.under keys).Keeps c ↔ report.Keeps c := by
  refine or_congr Iff.rfl ?_
  simp only [under, List.mem_map, exists_exists_and_eq_and]
  rfl

theorem keeps_annotated (f : Ir.Meta → Ir.Meta) :
    (report >>= fun schema => pure (schema.mapInfo f)).Keeps c ↔ report.Keeps c := by
  cases done : report.outcome with
  | error e => simp only [Keeps, bind_of_error done, done, reduceCtorEq, false_and, exists_false]
  | ok schema =>
    have found : (report >>= fun schema => pure (schema.mapInfo f)).findings = report.findings :=
      findings_last done _
    rw [Keeps, found, bind_of_ok done, Keeps, done]
    refine or_congr ?_ Iff.rfl
    constructor
    · rintro ⟨_, same, carries⟩
      cases same
      exact ⟨schema, rfl, carries.unannotated⟩
    · rintro ⟨_, same, carries⟩
      cases same
      exact ⟨_, rfl, carries.annotated f⟩

theorem keeps_next {first : Report α} {next : α → Report Ir.Schema} {a : α}
    (done : first.outcome = .ok a) (well : ∀ f ∈ first.findings, ¬ f.isMalformed) :
    (first >>= next).Keeps c ↔ (next a).Keeps c := by
  rw [Keeps, bind_of_ok done, Keeps]
  refine or_congr Iff.rfl ?_
  constructor
  · rintro ⟨f, here, malformed⟩
    rcases List.mem_append.mp here with before | after
    · exact absurd malformed (well f before)
    · exact ⟨f, after, malformed⟩
  · rintro ⟨f, here, malformed⟩
    exact ⟨f, List.mem_append_right _ here, malformed⟩

end Report

def Keywords.withoutConstraints {α : Type} (s : Keywords α) : Keywords α :=
  { s with minimum := none, maximum := none, minLength := none, maxLength := none, pattern := none }

def SchemaNode.withoutConstraints : SchemaNode → SchemaNode
  | .inline s => .inline s.withoutConstraints
  | node => node

namespace SchemaLowering

variable {r : Resolver} {path : List String} {s : Schema} {index : Nat} {member : SchemaNode}
  {members others : List SchemaNode}

-- Whether a schema only annotates does not depend on what it constrains.
theorem annotates_withoutConstraints (node : SchemaNode) :
    node.withoutConstraints.annotates = node.annotates := by
  cases node <;> rfl

theorem soleShaped_annotates (members : List SchemaNode) :
    soleShaped? members =
      if members.length = 1 then some 0
      else
        match ((members.map SchemaNode.annotates).zipIdx.filter fun m => !m.1).map Prod.snd with
        | [index] => some index
        | _ => none := by
  have indices : ((members.map SchemaNode.annotates).zipIdx.filter fun m => !m.1).map Prod.snd =
      (members.zipIdx.filter fun m => !m.1.annotates).map Prod.snd := by
    rw [List.zipIdx_map, List.filter_map, List.map_map]
    rfl
  rw [indices, soleShaped?]
  split
  · rfl
  · generalize (members.zipIdx.filter fun m => !m.1.annotates) = shaped
    rcases shaped with _ | ⟨_, _ | _⟩ <;> rfl

theorem soleShaped_unconstrained
    (same : others.map SchemaNode.withoutConstraints = members.map SchemaNode.withoutConstraints) :
    soleShaped? others = soleShaped? members := by
  have kinds : others.map SchemaNode.annotates = members.map SchemaNode.annotates := by
    have only : SchemaNode.annotates ∘ SchemaNode.withoutConstraints = SchemaNode.annotates :=
      funext annotates_withoutConstraints
    rw [← only, ← List.map_map, same, List.map_map]
  have counted : others.length = members.length := by
    simpa only [List.length_map] using congrArg List.length same
  rw [soleShaped_annotates, soleShaped_annotates, kinds, counted]

theorem annotate_withoutConstraints (info : Ir.Meta) (members : List SchemaNode) :
    annotate info (members.map SchemaNode.withoutConstraints) = annotate info members := by
  have inlines : (members.map SchemaNode.withoutConstraints).filterMap SchemaNode.inline? =
      (members.filterMap SchemaNode.inline?).map Keywords.withoutConstraints := by
    rw [List.filterMap_map, List.map_filterMap]
    congr 1
    funext node
    cases node <;> rfl
  rw [annotate, annotate, inlines, List.filter_map, List.foldl_map, List.any_map]
  rfl

theorem form_unconstrained (reduces : form s = .reduced index member)
    (same : others.map SchemaNode.withoutConstraints = s.allOf.map SchemaNode.withoutConstraints)
    (kept : others[index]? = s.allOf[index]?) :
    form { s with allOf := others } = .reduced index member := by
  obtain ⟨own, sole, here⟩ := form_reduced_iff.mp reduces
  exact form_reduced_iff.mpr ⟨own, (soleShaped_unconstrained same).trans sole, kept.trans here⟩

-- What the other members constrain can be changed at will.
theorem lowerInline_unconstrained (reduces : form s = .reduced index member)
    (same : others.map SchemaNode.withoutConstraints = s.allOf.map SchemaNode.withoutConstraints)
    (kept : others[index]? = s.allOf[index]?) :
    lowerInline r path { s with allOf := others } = lowerInline r path s := by
  have annotations : annotate (ownInfo s) others = annotate (ownInfo s) s.allOf := by
    rw [← annotate_withoutConstraints, same, annotate_withoutConstraints]
  rw [lowerInline_eq, lowerInline_eq, form_unconstrained reduces same kept, reduces, lowerForm,
    lowerForm]
  change (_ >>= fun _ => lowerAmended r path _ member (annotate (ownInfo s) others).1
    (annotate (ownInfo s) others).2) = _
  rw [annotations]

theorem checkUnknown_wellFormed {extensions : Entries Json} {f : Ir.Finding}
    (here : f ∈ (Extension.checkUnknown extensions).findings) : ¬ f.isMalformed := by
  obtain ⟨key, -, same⟩ := List.mem_map.mp here
  subst same
  exact nofun

theorem amended_keeps {keys : List String} {description : Option String} {nullable : Bool}
    {c : Constraint} :
    (lowerAmended r path keys member description nullable).Keeps c ↔
      (lower r path member).Keeps c :=
  (Report.keeps_annotated _).trans (Report.keeps_under keys)

/-- Where a composition reduces to a member, the constraints that the other members declare change
nothing, neither the schema nor the findings: a constraint is kept exactly if the lowering of that member
keeps it by itself. -/
theorem reduction_constraints (reduces : form s = .reduced index member) :
    (∀ others : List SchemaNode,
      others.map SchemaNode.withoutConstraints = s.allOf.map SchemaNode.withoutConstraints →
      others[index]? = s.allOf[index]? →
      lowerInline r path { s with allOf := others } = lowerInline r path s) ∧
    ∀ c, (lowerInline r path s).Keeps c ↔ (lower r path member).Keeps c := by
  refine ⟨fun _ => lowerInline_unconstrained reduces, fun c => ?_⟩
  rw [lowerInline_eq, reduces, lowerForm]
  exact (Report.keeps_next rfl fun _ => checkUnknown_wellFormed).trans amended_keeps

-- A code is a text of three letters or more, as its second member says.
def codeOf (length : UInt64) : Schema :=
  { Keywords.empty with
    allOf := [.inline { Keywords.empty with type := some (.single .string) },
      .inline { Keywords.empty with minLength := some length }] }

theorem code_unconstrained :
    ∃ member, form (codeOf 3) = .reduced 0 member ∧
      (∃ t, (codeOf 3).allOf[1]? = some (.inline t) ∧ (Constraint.minLength 3).DeclaredBy t) ∧
      lowerInline kennel [] (codeOf 9) = lowerInline kennel [] (codeOf 3) ∧
      ¬ (lowerInline kennel [] (codeOf 3)).Keeps (.minLength 3) := by
  have reduces : form (codeOf 3) =
    .reduced 0 (.inline { Keywords.empty with type := some (.single .string) }) := rfl
  obtain ⟨free, kept⟩ := @reduction_constraints kennel [] _ _ _ reduces
  refine ⟨_, reduces, ⟨_, rfl, rfl⟩, free (codeOf 9).allOf rfl rfl, fun keeps => ?_⟩
  have plain : lower kennel [] (.inline { Keywords.empty with type := some (.single .string) }) =
      .ok (.primitive ⟨⟨none, false, false⟩, .string ⟨none, none, none, none⟩⟩) := by
    rw [lower, lowerInline_eq]
    rfl
  rcases plain ▸ (kept _).mp keeps with ⟨_, same, carries⟩ | ⟨f, here, -⟩
  · cases same
    cases carries with
    | primitive carried => cases carried
  · cases here

end SchemaLowering

end ApiLowering
