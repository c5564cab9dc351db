import ApiLowering.Proofs.Conservation
import ApiLowering.Proofs.WellFormed

/-!
Where parameters come from. Every parameter of an endpoint or a webhook was lowered from a parameter
of the same name and location that its operation or its item declares, in place or by a reference.
-/

set_option autoImplicit false

namespace ApiLowering

theorem Report.collect_source {α β : Type} {f : α → Report (Option β)} {items : List α}
    {all : List β} (done : (collect f items).outcome = .ok all) {b : β} (listed : b ∈ all) :
    ∃ a ∈ items, (f a).outcome = .ok (some b) := by
  induction items generalizing all with
  | nil =>
    cases pure_ok done
    cases listed
  | cons a rest ih =>
    obtain ⟨found, more, first, later, rfl⟩ := oneMore_ok done
    rcases List.mem_append.mp listed with here | there
    · cases Option.mem_toList.mp here
      exact ⟨a, List.mem_cons_self, first⟩
    · obtain ⟨source, among, made⟩ := ih later there
      exact ⟨source, List.mem_cons_of_mem _ among, made⟩

def LoweredParameters.at (parameters : LoweredParameters) : ParameterLocation → List Ir.Parameter
  | .path => parameters.path
  | .query => parameters.query
  | .header => parameters.headers
  | .cookie => []

def Ir.Endpoint.parameters (e : Endpoint) : LoweredParameters :=
  ⟨e.pathParameters, e.queryParameters, e.headers⟩

namespace ParameterLowering

variable {scope : Scope} {shared own : List ParameterNode}

theorem mem_of_located {location : ParameterLocation} {all : List (ParameterLocation × Ir.Parameter)}
    {p : Ir.Parameter} (listed : p ∈ located location all) : (location, p) ∈ all := by
  obtain ⟨⟨place, made⟩, kept, rfl⟩ := List.mem_map.mp listed
  obtain ⟨among, same⟩ := List.mem_filter.mp kept
  exact of_decide_eq_true same ▸ among

/-- Every parameter was lowered from one that is declared at its location and is sent. -/
theorem lower_declared {parameters : LoweredParameters}
    (done : (lower scope shared own).outcome = .ok parameters) {location : ParameterLocation}
    {p : Ir.Parameter} (listed : p ∈ parameters.at location) :
    ∃ node ∈ shared ++ own, ∃ q, parameter? scope.resolver node = some q ∧ isSent scope q ∧
      q.location = location ∧ (lowerOne scope q).outcome = .ok (some (location, p)) := by
  obtain ⟨resolved, found, done⟩ := Report.bind_ok done
  obtain ⟨lowered, collected, done⟩ := Report.bind_ok done
  cases Report.pure_ok done
  have among : (location, p) ∈ lowered := by
    cases location with
    | cookie => cases listed
    | path | query | header => exact mem_of_located listed
  obtain ⟨q, kept, made⟩ := Report.collect_source collected among
  obtain ⟨merged, sent⟩ := List.mem_filter.mp kept
  rcases mem_foldl (fun _ _ => mem_put) merged with declared | none
  · obtain ⟨node, given, leads⟩ := Report.collect_source found declared
    rw [(resolve_resolves _ node).outcome] at leads
    exact ⟨node, given, q, Except.ok.inj leads, sent, (lowerOne_ok made).1.symm, made⟩
  · cases none

end ParameterLowering

namespace Site

open ParameterLowering (parameter? isSent lowerOne lower_declared)

variable {scope : Scope} {s : Site} {location : ParameterLocation} {p : Ir.Parameter}

/-- The parameter was lowered from one that the operation or its item declares. -/
def Sends (scope : Scope) (s : Site) (location : ParameterLocation) (p : Ir.Parameter) : Prop :=
  ∃ node ∈ s.shared ++ s.operation.parameters, ∃ q, parameter? scope.resolver node = some q ∧
    isSent scope q ∧ q.location = location ∧ (lowerOne scope q).outcome = .ok (some (location, p))

-- A parameter is declared there under the name.
def Declares (r : Resolver) (s : Site) (location : ParameterLocation) (name : String) : Prop :=
  ∃ node ∈ s.shared ++ s.operation.parameters, ∃ q, parameter? r node = some q ∧
    q.location = location ∧ q.name = name

theorem sends_declares (sends : s.Sends scope location p) :
    s.Declares scope.resolver location p.name.wireValue := by
  obtain ⟨node, listed, q, leads, -, located, made⟩ := sends
  have wire : p.name.wireValue = q.name := congrArg Prod.fst (ParameterLowering.lowerOne_place made)
  exact ⟨node, listed, q, leads, located, wire.symm⟩

theorem becomes_ok {e : Ir.Endpoint} (made : s.Becomes scope e) :
    e.name = OperationLowering.name s.path s.method s.operation ∧
      ∀ location, ∀ p ∈ e.parameters.at location, s.Sends scope location p := by
  obtain ⟨parameters, merged, made⟩ := made
  obtain ⟨request, -, made⟩ := Report.bind_ok made
  obtain ⟨⟨response, errors⟩, -, made⟩ := Report.bind_ok made
  cases Report.pure_ok made
  exact ⟨rfl, fun location p listed => lower_declared merged listed⟩

theorem raises_ok {w : Ir.Webhook} (raised : s.Raises scope w) :
    w.name = OperationLowering.name s.path s.method s.operation ∧
      ∀ p ∈ w.headers, s.Sends scope .header p := by
  obtain ⟨parameters, merged, raised⟩ := raised
  obtain ⟨headers, -, named, -⟩ := OperationLowering.lowerWebhook_ok raised
  refine ⟨named, fun p listed => ?_⟩
  rw [headers] at listed
  have header : p ∈ parameters.at .header := listed
  exact lower_declared merged header

end Site

namespace Resolver

variable {r t : Resolver}

theorem parameterWithin_congr (same : t.parameters = r.parameters) (fuel : Nat) (pointer : String) :
    t.parameterWithin fuel pointer = r.parameterWithin fuel pointer := by
  induction fuel generalizing pointer with
  | zero => rfl
  | succ fuel ih => rw [parameterWithin, parameterWithin, same]; simp only [ih]

-- Elections leave the parameters of the components as they are.
theorem parameter_elected (policy : ConflictPolicy) (d : ApiDocument) (options : Options) :
    (ofDocument (d.resolveConflicts policy) options).parameter? =
      (ofDocument d options).parameter? := by
  funext pointer
  have parameters : (ofDocument (d.resolveConflicts policy) options).parameters =
      (ofDocument d options).parameters := by
    cases stored : d.components with
    | none => simp only [ofDocument, ApiDocument.resolveConflicts, stored, Option.map_none]
    | some c => simp only [ofDocument, ApiDocument.resolveConflicts, stored, Option.map_some]
  unfold parameter?
  rw [ofDocument_maxDepth, ofDocument_maxDepth, parameterWithin_congr parameters]

end Resolver

/-- A parameter that is declared after the elections is declared in the document. -/
theorem Site.declares_elected {options : Options} {d : ApiDocument} {s : Site}
    {location : ParameterLocation} {name : String}
    (declares : (s.elected options.contentConflict).Declares (d.loweringScope options).resolver
      location name) :
    s.Declares (.ofDocument d options) location name := by
  obtain ⟨node, listed, q, leads, found⟩ := declares
  refine ⟨node, listed, q, ?_, found⟩
  cases node with
  | inline parameter => exact leads
  | reference target =>
    rw [← leads]
    exact (congrFun (Resolver.parameter_elected options.contentConflict d options) target).symm
  | invalid value => exact leads

end ApiLowering
