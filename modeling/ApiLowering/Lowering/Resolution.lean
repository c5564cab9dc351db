import ApiLowering.Document.Basic
import ApiLowering.Options
import ApiLowering.Pointer
import ApiLowering.Lowering.Report

/-!
References to components. A schema reference is entered at most once on a resolution path, so what
is pending, the components that are not on the path, grows smaller with every reference entered.
-/

set_option autoImplicit false

namespace ApiLowering

structure Resolver where
  schemas : Entries SchemaNode
  parameters : Entries ParameterNode
  requestBodies : Entries RequestBodyNode
  responses : Entries ResponseNode
  maxDepth : Nat

inductive SchemaLookup where
  | found (id : String) (node : SchemaNode)
  | missing (id : String)
  | unsupported

namespace Resolver

def ofDocument (d : ApiDocument) (options : Options) : Resolver :=
  match d.components with
  | some c => ⟨c.schemas, c.parameters, c.requestBodies, c.responses, options.maxReferenceDepth⟩
  | none => ⟨[], [], [], [], options.maxReferenceDepth⟩

def lookupSchema (r : Resolver) (pointer : String) : SchemaLookup :=
  match Pointer.componentId? "schemas" pointer with
  | none => .unsupported
  | some id =>
    match Entries.get? id r.schemas with
    | some node => .found id node
    | none => .missing id

-- The weight of the elements that count.
def total {α : Type} (counts : α → Bool) (weight : α → Nat) : List α → Nat
  | [] => 0
  | a :: rest =>
    if counts a then weight a + total counts weight rest else total counts weight rest

def isUnvisited (path : List String) (component : String × SchemaNode) : Bool :=
  !path.contains (Pointer.ofSchema component.1)

noncomputable def pending (r : Resolver) (path : List String) : Nat :=
  total (isUnvisited path) (fun c => sizeOf c.2 + 1) r.schemas

def enter (r : Resolver) (path : List String) (pointer : String) :
    Except ResolveError (List String) :=
  if path.contains pointer then .error (.circular pointer (path ++ [pointer]))
  else if r.maxDepth ≤ path.length then .error (.tooDeep pointer r.maxDepth)
  else .ok (path ++ [pointer])

theorem enter_ok {r : Resolver} {path next : List String} {pointer : String}
    (entered : r.enter path pointer = .ok next) :
    path.contains pointer = false ∧ next = path ++ [pointer] := by
  unfold enter at entered
  split at entered
  · cases entered
  · rename_i fresh
    split at entered
    · cases entered
    · cases entered
      exact ⟨by simpa using fresh, rfl⟩

theorem get_mem {α : Type} {key : String} {value : α} {entries : Entries α}
    (present : Entries.get? key entries = some value) : (key, value) ∈ entries := by
  induction entries with
  | nil => cases present
  | cons head tail ih =>
    obtain ⟨k, v⟩ := head
    by_cases same : k = key
    · subst same
      simp only [Entries.get?, if_true, Option.some.injEq] at present
      subst present
      exact List.mem_cons_self
    · simp only [Entries.get?, same, if_false] at present
      exact List.mem_cons_of_mem _ (ih present)

theorem lookup_mem {r : Resolver} {pointer id : String} {node : SchemaNode}
    (found : r.lookupSchema pointer = .found id node) : (id, node) ∈ r.schemas := by
  unfold lookupSchema at found
  split at found
  · cases found
  · split at found
    · rename_i present
      cases found
      exact get_mem present
    · cases found

theorem total_le {α : Type} {weak strong : α → Bool} (weight : α → Nat) (items : List α)
    (imp : ∀ a, strong a = true → weak a = true) :
    total strong weight items ≤ total weak weight items := by
  induction items with
  | nil => exact Nat.le_refl _
  | cons a rest ih =>
    by_cases first : strong a = true
    · rw [total, total, if_pos first, if_pos (imp a first)]
      omega
    · rw [total, total, if_neg first]
      split <;> omega

-- A stronger test keeps less weight, by that of any element that passes the weaker test alone.
theorem total_add_le {α : Type} {weak strong : α → Bool} (weight : α → Nat) {a : α}
    {items : List α} (imp : ∀ x, strong x = true → weak x = true) (here : a ∈ items)
    (passes : weak a = true) (fails : strong a = false) :
    total strong weight items + weight a ≤ total weak weight items := by
  induction items with
  | nil => cases here
  | cons x rest ih =>
    rcases List.mem_cons.mp here with same | there
    · subst same
      have less := total_le weight rest imp
      rw [total, total, if_pos passes, fails, if_neg Bool.false_ne_true]
      omega
    · have less := ih there
      by_cases first : strong x = true
      · rw [total, total, if_pos first, if_pos (imp x first)]
        omega
      · rw [total, total, if_neg first]
        split <;> omega

theorem pending_enter {r : Resolver} {path next : List String} {id : String}
    {node : SchemaNode} (known : (id, node) ∈ r.schemas)
    (entered : r.enter path (Pointer.ofSchema id) = .ok next) :
    r.pending next + (sizeOf node + 1) ≤ r.pending path := by
  obtain ⟨fresh, rfl⟩ := enter_ok entered
  refine total_add_le (fun c : String × SchemaNode => sizeOf c.2 + 1) ?_ known ?_ ?_
  · intro e outside
    simp only [isUnvisited, Bool.not_eq_true', List.contains_eq_mem, List.mem_append,
      decide_eq_false_iff_not, not_or] at outside ⊢
    exact outside.1
  · simp only [isUnvisited, fresh, Bool.not_false]
  · simp [isUnvisited]

-- Follows schema references, at most `fuel` nodes long, to an inline schema.
def inlineWithin (r : Resolver) : Nat → SchemaNode → Option Schema
  | 0, _ => none
  | _ + 1, .inline s => some s
  | _ + 1, .invalid _ => none
  | fuel + 1, .reference target =>
    match r.lookupSchema target with
    | .found _ node => r.inlineWithin fuel node
    | _ => none

def dereference (r : Resolver) (node : SchemaNode) : Option Schema := r.inlineWithin r.maxDepth node

def parameterWithin (r : Resolver) : Nat → String → Option Parameter
  | 0, _ => none
  | fuel + 1, pointer =>
    match (Pointer.componentId? "parameters" pointer).bind
        fun id => Entries.get? id r.parameters with
    | some (.inline p) => some p
    | some (.reference target) => r.parameterWithin fuel target
    | _ => none

def parameter? (r : Resolver) (pointer : String) : Option Parameter :=
  r.parameterWithin r.maxDepth pointer

def requestBodyWithin (r : Resolver) : Nat → String → Option RequestBody
  | 0, _ => none
  | fuel + 1, pointer =>
    match (Pointer.componentId? "requestBodies" pointer).bind
        fun id => Entries.get? id r.requestBodies with
    | some (.inline b) => some b
    | some (.reference target) => r.requestBodyWithin fuel target
    | _ => none

def requestBody? (r : Resolver) (pointer : String) : Option RequestBody :=
  r.requestBodyWithin r.maxDepth pointer

def responseWithin (r : Resolver) : Nat → String → Option Response
  | 0, _ => none
  | fuel + 1, pointer =>
    match (Pointer.componentId? "responses" pointer).bind fun id => Entries.get? id r.responses with
    | some (.inline b) => some b
    | some (.reference target) => r.responseWithin fuel target
    | _ => none

def response? (r : Resolver) (pointer : String) : Option Response :=
  r.responseWithin r.maxDepth pointer

end Resolver

end ApiLowering
