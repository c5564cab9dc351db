import ApiLowering.Proofs.Resolving
import ApiLowering.Proofs.Throughout

/-!
The positions at which the lowering of operations puts schemas: in parameters, in requests and in
responses. A logic of reports that holds of the schemas that are lowered for them holds of what a scope
makes of parameters and bodies, whatever it speaks about.
-/

set_option autoImplicit false

namespace ApiLowering

open ContentConflict (firstOf?)
open Ir.Finding (plain_of_kind)
open Report (Logic)

namespace Ir

-- A schema where it stands, and whether it is optional there.
abbrev Seat : Type := Bool × Schema

def Parameter.seat (p : Parameter) : Seat := (!p.required, p.schema)

def MultipartProperty.seats (p : MultipartProperty) : List Seat :=
  p.kind.schemas.map fun s => (!p.required, s)

def Request.seats : Request → List Seat
  | .json _ schema _ _ => [(false, schema)]
  | .multipart _ properties _ _ => properties.flatMap MultipartProperty.seats
  | .bytes _ _ _ => []

def Response.seats (r : Response) : List Seat := r.schemas.map fun s => (false, s)

def ErrorResponse.seats (e : ErrorResponse) : List Seat := e.schema.toList.map fun s => (false, s)

end Ir

theorem mem_foldl {α : Type} {add : List α → α → List α} {a : α}
    (added : ∀ set b, a ∈ add set b → a = b ∨ a ∈ set) {items set : List α}
    (here : a ∈ items.foldl add set) : a ∈ items ∨ a ∈ set := by
  induction items generalizing set with
  | nil => exact .inr here
  | cons first rest ih =>
    rcases ih here with later | before
    · exact .inl (List.mem_cons_of_mem _ later)
    · rcases added set first before with same | old
      · exact .inl (List.mem_cons.mpr (.inl same))
      · exact .inr old

-- The inline schemas that references of any kind lead to are given.
structure Resolver.Gives (given : Schema → Prop) (r : Resolver) : Prop where
  schemas : ∀ e ∈ r.schemas, ∀ s ∈ e.2.inlineSchemas, given s
  parameters : ∀ e ∈ r.parameters, ∀ s ∈ e.2.schemas, given s
  requestBodies : ∀ e ∈ r.requestBodies, ∀ s ∈ e.2.schemas, given s
  responses : ∀ e ∈ r.responses, ∀ s ∈ e.2.schemas, given s

/-- What a logic has to say for it to hold of what is lowered in a scope: it does not mind plain
findings, and a schema that is lowered from given ones is good where it is put. -/
structure Scope.Rules (logic : Logic) (given : Schema → Prop) (good : Ir.Seat → Prop)
    (scope : Scope) : Prop where
  tolerant : logic.Tolerant
  gives : scope.resolver.Gives given
  lower (required : Bool) {node : Option SchemaNode}
    (inside : ∀ s ∈ SchemaNode.optionSchemas node, given s) :
    logic.Holds (fun schema => good (!required, schema))
      (SchemaLowering.lowerOption scope.resolver scope.path required node)

variable {logic : Logic} {scope : Scope} {given : Schema → Prop} {good : Ir.Seat → Prop}
  {r : Resolver}

theorem Resolver.Gives.mono {better : Schema → Prop} (gives : r.Gives given)
    (imp : ∀ s, given s → better s) : r.Gives better where
  schemas e listed s here := imp s (gives.schemas e listed s here)
  parameters e listed s here := imp s (gives.parameters e listed s here)
  requestBodies e listed s here := imp s (gives.requestBodies e listed s here)
  responses e listed s here := imp s (gives.responses e listed s here)

theorem Resolver.gives_any (r : Resolver) : r.Gives fun _ => True :=
  ⟨fun _ _ _ _ => trivial, fun _ _ _ _ => trivial, fun _ _ _ _ => trivial, fun _ _ _ _ => trivial⟩

theorem Resolver.inlineWithin_given (gives : r.Gives given) {fuel : Nat} {node : SchemaNode}
    {s : Schema} (inside : ∀ t ∈ node.inlineSchemas, given t)
    (found : r.inlineWithin fuel node = some s) :
    ∀ t ∈ (SchemaNode.inline s).inlineSchemas, given t := by
  induction fuel generalizing node with
  | zero => cases found
  | succ fuel ih =>
    cases node with
    | inline t =>
      cases found
      exact inside
    | invalid value => cases found
    | reference target =>
      rw [inlineWithin] at found
      split at found
      · rename_i leads
        exact ih (gives.schemas _ (lookup_mem leads)) found
      · cases found

theorem firstOf_given {kind : MediaKind} {content : Entries MediaType} {type : String}
    {media : MediaType} (inside : ∀ s ∈ MediaType.contentSchemas content, given s)
    (first : firstOf? kind content = some (type, media)) :
    ∀ s ∈ SchemaNode.optionSchemas media.schema, given s := by
  have listed := List.mem_of_find?_eq_some first
  exact fun s here => inside s (List.mem_flatMap.mpr ⟨_, listed, here⟩)

namespace ParameterLowering

theorem parameter_given (gives : r.Gives given) {node : ParameterNode} {p : Parameter}
    (inside : ∀ s ∈ node.schemas, given s) (stands : parameter? r node = some p) :
    ∀ s ∈ SchemaNode.optionSchemas p.schema, given s := by
  rcases parameter_mem stands with rfl | ⟨id, stored⟩
  · exact inside
  · exact gives.parameters _ stored

theorem mem_put {parameter p : Parameter} {seen : List Parameter} (here : p ∈ put parameter seen) :
    p = parameter ∨ p ∈ seen := by
  induction seen with
  | nil => exact .inl (List.mem_singleton.mp here)
  | cons first rest ih =>
    rw [put] at here
    split at here
    · rcases List.mem_cons.mp here with same | later
      · exact .inl same
      · exact .inr (List.mem_cons_of_mem _ later)
    · rcases List.mem_cons.mp here with same | later
      · exact .inr (List.mem_cons.mpr (.inl same))
      · rcases ih later with same | before
        · exact .inl same
        · exact .inr (List.mem_cons_of_mem _ before)

theorem mem_located {location : ParameterLocation} {all : List (ParameterLocation × Ir.Parameter)}
    {p : Ir.Parameter} (here : p ∈ located location all) : ∃ e ∈ all, e.2 = p := by
  obtain ⟨e, listed, same⟩ := List.mem_map.mp here
  exact ⟨e, (List.mem_filter.mp listed).1, same⟩

theorem lowerOne_holds (rules : scope.Rules logic given good) {p : Parameter}
    (inside : ∀ s ∈ SchemaNode.optionSchemas p.schema, given s) :
    logic.Holds (fun found => ∀ e ∈ found, good e.2.seat) (lowerOne scope p) := by
  refine logic.holds_under _ ?_
  split
  · exact rules.tolerant.missing (plain_of_kind (by decide) (by decide) _ _)
  · exact logic.holds_next (rules.lower _ inside) fun schema is => logic.holds_some is

/-- What holds of the parameters that an item and an operation declare together. -/
theorem lower_holds (rules : scope.Rules logic given good) {shared own : List ParameterNode}
    (inside : ∀ node ∈ shared ++ own, ∀ s ∈ node.schemas, given s) :
    logic.Holds (fun ps => ∀ p ∈ ps.path ++ ps.query ++ ps.headers, good p.seat)
      (lower scope shared own) := by
  have resolves : logic.Holds (fun ps => ∀ p ∈ ps, ∀ s ∈ SchemaNode.optionSchemas p.schema, given s)
      (Report.collect (resolve scope.resolver) (shared ++ own)) := by
    refine logic.holds_collect fun node listed => ?_
    refine logic.holds_mono ((resolve_resolves _ node).holds rules.tolerant) fun found same p here => ?_
    exact parameter_given rules.gives (inside node listed) (same ▸ here)
  refine logic.holds_next resolves fun resolved among => ?_
  have each : logic.Holds (fun es => ∀ e ∈ es, good e.2.seat) (Report.collect (lowerOne scope)
      ((resolved.foldl (fun seen p => put p seen) []).filter (isSent scope))) := by
    refine logic.holds_collect fun p listed => lowerOne_holds rules ?_
    rcases mem_foldl (fun _ _ => mem_put) (List.mem_filter.mp listed).1 with here | none
    · exact among p here
    · cases none
  refine logic.holds_next each fun lowered all => logic.holds_pure fun p here => ?_
  have found : ∃ e ∈ lowered, e.2 = p := by
    simp only [List.mem_append] at here
    rcases here with (path | query) | header
    · exact mem_located path
    · exact mem_located query
    · exact mem_located header
  obtain ⟨e, listed, same⟩ := found
  exact same ▸ all e listed

end ParameterLowering

namespace RequestLowering

theorem body_given (gives : r.Gives given) {node : RequestBodyNode} {body : RequestBody}
    (inside : ∀ s ∈ node.schemas, given s) (stands : body? r node = some body) :
    ∀ s ∈ MediaType.contentSchemas body.content, given s := by
  rcases body_mem stands with rfl | ⟨id, stored⟩
  · exact inside
  · exact gives.requestBodies _ stored

theorem lowerField_holds (rules : scope.Rules logic given good) (media : MediaType)
    (required : List String) (key : String) {node : SchemaNode}
    (inside : ∀ s ∈ node.inlineSchemas, given s) :
    logic.Holds (fun found => ∀ p ∈ found, ∀ seat ∈ p.seats, good seat)
      (lowerField scope media required key node) := by
  refine logic.holds_under _ ?_
  split
  · exact rules.tolerant.missing (plain_of_kind (by decide) (by decide) _ _)
  · dsimp only
    split
    · exact logic.holds_some fun _ here => absurd here List.not_mem_nil
    · have within : ∀ s ∈ SchemaNode.optionSchemas (some node), given s := inside
      refine logic.holds_next (rules.lower _ within) fun schema is => ?_
      exact logic.holds_some (List.forall_mem_singleton.mpr is)

theorem lowerFields_holds (rules : scope.Rules logic given good) {media : MediaType}
    (inside : ∀ s ∈ SchemaNode.optionSchemas media.schema, given s) :
    logic.Holds (fun ps => ∀ p ∈ ps, ∀ seat ∈ p.seats, good seat) (lowerFields scope media) := by
  unfold lowerFields
  split
  · exact logic.holds_pure fun _ here => absurd here List.not_mem_nil
  · rename_i object found
    obtain ⟨node, present, leads⟩ := Option.bind_eq_some_iff.mp found
    rw [present] at inside
    have within := Resolver.inlineWithin_given rules.gives inside leads
    exact logic.holds_collect fun e listed => lowerField_holds rules media _ e.1
      (SchemaLowering.given_part within (.property listed))

theorem unsupported_holds (tolerant : logic.Tolerant) (content : Entries MediaType) :
    logic.Holds (fun _ => True) (unsupported content) := by
  refine Logic.holds_findings fun f here => tolerant f ?_
  obtain ⟨type, -, rfl⟩ := List.mem_map.mp here
  exact plain_of_kind (by decide) (by decide) _ _

/-- What holds of a request by its JSON schema, by its fields or of any request of bytes, holds of that
of a body. -/
theorem lowerContent_holds (tolerant : logic.Tolerant) {body : RequestBody}
    {asked : Ir.Request → Prop}
    (json : ∀ type media,
      (firstOf? .json body.content).or (firstOf? .formUrlEncoded body.content) = some (type, media) →
        logic.Holds (fun schema => asked (.json type schema body.description body.required))
          (SchemaLowering.lowerOption scope.resolver scope.path true media.schema))
    (multipart : ∀ type media, firstOf? .multipart body.content = some (type, media) →
      logic.Holds (fun fields => asked (.multipart type fields body.description body.required))
        (lowerFields scope media))
    (bytes : ∀ type, asked (.bytes type body.description body.required)) :
    logic.Holds (fun found => ∀ request ∈ found, asked request) (lowerContent scope body) := by
  unfold lowerContent
  dsimp only
  split
  · rename_i first
    exact logic.holds_next (json _ _ first) fun schema is => logic.holds_some is
  · rename_i first
    exact logic.holds_next (multipart _ _ first) fun fields are => logic.holds_some are
  · exact logic.holds_some (bytes _)
  · exact logic.holds_next (unsupported_holds tolerant _) fun _ _ => logic.holds_none

/-- What holds of the content of a body, wherever it stands, holds of a request. Nothing that is noted
in a request is kept, and a body may hold two kinds of content. -/
theorem lower_holds (tolerant : logic.Tolerant) {asked : Ir.Request → Prop} (location : String)
    {node : Option RequestBodyNode}
    (unmarked : ∀ lowered : Report (Option Ir.Request),
      logic.Holds (fun found => ∀ request ∈ found, asked request) lowered →
        logic.Holds (fun found => ∀ request ∈ found, asked request) lowered.withoutMarks)
    (twofold : ∀ n ∈ node, ∀ body, body? scope.resolver n = some body →
      (firstOf? .json body.content).isSome → (firstOf? .multipart body.content).isSome →
        logic.Holds (fun (found : Option Ir.Request) => ∀ request ∈ found, asked request)
          (Report.fail (.unresolvedConflict location)))
    (content : ∀ n ∈ node, ∀ body, body? scope.resolver n = some body →
      logic.Holds (fun found => ∀ request ∈ found, asked request) (lowerContent scope body)) :
    logic.Holds (fun found => ∀ request ∈ found, asked request) (lower scope location node) := by
  cases node with
  | none => exact logic.holds_none
  | some node =>
    refine unmarked _ (logic.holds_next ((resolve_resolves _ node).holds tolerant) fun found same => ?_)
    cases found with
    | none => exact logic.holds_none
    | some body =>
      dsimp only
      split
      · rename_i both
        obtain ⟨json, multipart⟩ := Bool.and_eq_true_iff.mp both
        exact twofold node rfl body same.symm json multipart
      · exact logic.holds_under _ (content node rfl body same.symm)

-- The seats of a request are those of its content.
theorem lowerContent_seats (rules : scope.Rules logic given good) {body : RequestBody}
    (inside : ∀ s ∈ MediaType.contentSchemas body.content, given s) :
    logic.Holds (fun found => ∀ request ∈ found, ∀ seat ∈ request.seats, good seat)
      (lowerContent scope body) := by
  refine lowerContent_holds rules.tolerant ?_ ?_ ?_
  · intro type media first
    have inside : ∀ s ∈ SchemaNode.optionSchemas media.schema, given s := by
      rcases Option.or_eq_some_iff.mp first with json | ⟨-, form⟩
      · exact firstOf_given inside json
      · exact firstOf_given inside form
    exact logic.holds_mono (rules.lower true inside) fun schema is =>
      List.forall_mem_singleton.mpr is
  · intro type media first
    refine logic.holds_mono (lowerFields_holds rules (firstOf_given inside first)) ?_
    intro fields all seat here
    obtain ⟨p, listed, among⟩ := List.mem_flatMap.mp here
    exact all p listed seat among
  · exact fun _ _ here => absurd here List.not_mem_nil

/-- What holds of the request of an operation, for a logic that says nothing of failures. -/
theorem lower_seats (rules : scope.Rules logic given good) (location : String)
    {node : Option RequestBodyNode}
    (unmarked : ∀ {lowered : Report (Option Ir.Request)},
      logic.Holds (fun found => ∀ request ∈ found, ∀ seat ∈ request.seats, good seat) lowered →
        logic.Holds (fun found => ∀ request ∈ found, ∀ seat ∈ request.seats, good seat)
          lowered.withoutMarks)
    (fails : ∀ e, logic.Holds (fun (found : Option Ir.Request) =>
      ∀ request ∈ found, ∀ seat ∈ request.seats, good seat) (Report.fail e))
    (inside : ∀ n ∈ node, ∀ s ∈ n.schemas, given s) :
    logic.Holds (fun found => ∀ request ∈ found, ∀ seat ∈ request.seats, good seat)
      (lower scope location node) :=
  lower_holds rules.tolerant location (fun _ => unmarked) (fun _ _ _ _ _ _ => fails _)
    fun n present _ stands =>
      lowerContent_seats rules (body_given rules.gives (inside n present) stands)

end RequestLowering

namespace ResponseLowering

theorem response_given (gives : r.Gives given) {node : ResponseNode} {response : Response}
    (inside : ∀ s ∈ node.schemas, given s) (stands : response? r node = some response) :
    ∀ s ∈ MediaType.contentSchemas response.content, given s := by
  rcases response_mem stands with rfl | ⟨id, stored⟩
  · exact inside
  · exact gives.responses _ stored

theorem lowerSuccess_holds (rules : scope.Rules logic given good) {n : Numbered}
    (inside : ∀ s ∈ n.node.schemas, given s) :
    logic.Holds (fun found => ∀ response ∈ found, ∀ seat ∈ response.seats, good seat)
      (lowerSuccess scope n) := by
  refine logic.holds_next ((resolve_resolves _ n.node).holds rules.tolerant) fun found same => ?_
  cases found with
  | none => exact logic.holds_none
  | some response =>
    have lowered {kind : MediaKind} {type : String} {media : MediaType}
        (first : firstOf? kind response.content = some (type, media)) :
        logic.Holds (fun schema => good (false, schema))
          (SchemaLowering.lowerOption scope.resolver scope.path true media.schema) :=
      rules.lower true (firstOf_given (response_given rules.gives inside same.symm) first)
    dsimp only
    split
    · exact logic.holds_none
    · split
      · rename_i first
        exact logic.holds_next (lowered first) fun schema is =>
          logic.holds_some (List.forall_mem_singleton.mpr is)
      · rename_i first
        exact logic.holds_next (lowered first) fun schema is =>
          logic.holds_some (List.forall_mem_singleton.mpr is)
      · split
        · exact logic.holds_some fun _ here => absurd here List.not_mem_nil
        · exact logic.holds_some fun _ here => absurd here List.not_mem_nil

theorem ofStatus_isEmpty (status : UInt16) : (Name.ofStatus status).isEmpty = false := by
  unfold Name.ofStatus
  split <;> simp

theorem derive_ofStatus (status : UInt16) :
    ∃ name, NameVariants.derive? (Name.ofStatus status) none = some name := by
  rw [NameVariants.derive?, ofStatus_isEmpty]
  exact ⟨_, rfl⟩

/-- What holds of an error response by its name and by its schema, if it has one, holds of that of a
numbered response. -/
theorem lowerError_holds (sound : Ir.Schema → Prop) (tolerant : logic.Tolerant) {n : Numbered}
    {failure : Ir.ErrorResponse → Prop}
    (json : ∀ response, response? scope.resolver n.node = some response → ∀ type media,
      firstOf? .json response.content = some (type, media) → logic.Holds sound
        (SchemaLowering.lowerOption scope.resolver scope.path true media.schema))
    (named : ∀ name, NameVariants.derive? (Name.ofStatus n.status) none = some name →
      ∀ schema : Option Ir.Schema, (∀ s ∈ schema, sound s) →
        ∀ description, failure ⟨n.status, name, schema, description⟩) :
    logic.Holds (fun found => ∀ error ∈ found, failure error) (lowerError scope n) := by
  refine logic.holds_next ((resolve_resolves _ n.node).holds tolerant) fun found same => ?_
  cases found with
  | none => exact logic.holds_none
  | some response =>
    -- no status is spelled as nothing, which alone would have no name
    obtain ⟨name, derived⟩ := derive_ofStatus n.status
    simp only [derived]
    split
    · rename_i first
      refine logic.holds_next (json response same.symm _ _ first) fun schema is => ?_
      exact logic.holds_some (named name derived _ (fun s here => Option.some.inj here ▸ is) _)
    · exact logic.holds_some
        (named name derived _ (fun s here => absurd here (Option.not_mem_none s)) _)

-- What holds of each response and each error response holds of those of numbered ones.
theorem lowerEach_holds {success : Ir.Response → Prop} {failure : Ir.ErrorResponse → Prop}
    {all : List Numbered}
    (onSuccess : ∀ n ∈ all,
      logic.Holds (fun found => ∀ response ∈ found, success response) (lowerSuccess scope n))
    (onError : ∀ n ∈ all,
      logic.Holds (fun found => ∀ error ∈ found, failure error) (lowerError scope n))
    (pending : Bool) :
    logic.Holds (fun out => (∀ response ∈ out.1, success response) ∧ ∀ error ∈ out.2, failure error)
      (lowerEach scope pending all) := by
  induction all generalizing pending with
  | nil =>
    exact logic.holds_pure ⟨fun _ here => absurd here (Option.not_mem_none _),
      fun _ here => absurd here List.not_mem_nil⟩
  | cons n rest ih =>
    have later := ih (fun m listed => onSuccess m (List.mem_cons_of_mem _ listed))
      fun m listed => onError m (List.mem_cons_of_mem _ listed)
    rw [lowerEach]
    split
    · refine logic.holds_next (logic.holds_under _ (onSuccess n List.mem_cons_self))
        fun response is => ?_
      exact logic.holds_next (later false) fun more others => logic.holds_pure ⟨is, others.2⟩
    · split
      · refine logic.holds_next (logic.holds_under _ (onError n List.mem_cons_self))
          fun error is => ?_
        refine logic.holds_next (later pending) fun more others => ?_
        refine logic.holds_pure ⟨others.1, fun e here => ?_⟩
        rcases List.mem_append.mp here with first | after
        · exact is e (Option.mem_toList.mp first)
        · exact others.2 e after
      · exact later pending

theorem mem_insert {n m : Numbered} {sorted : List Numbered} (here : m ∈ insert n sorted) :
    m = n ∨ m ∈ sorted := by
  induction sorted with
  | nil => exact .inl (List.mem_singleton.mp here)
  | cons first rest ih =>
    rw [insert] at here
    split at here
    · exact List.mem_cons.mp here
    · rcases List.mem_cons.mp here with same | later
      · exact .inr (List.mem_cons.mpr (.inl same))
      · rcases ih later with same | before
        · exact .inl same
        · exact .inr (List.mem_cons_of_mem _ before)

theorem numbered_listed {n : Numbered} {responses : Entries ResponseNode}
    (here : n ∈ numbered responses) : n.node ∈ Entries.values responses := by
  rcases mem_foldl (fun _ _ => mem_insert) here with listed | none
  · obtain ⟨e, present, same⟩ := List.mem_filterMap.mp listed
    obtain ⟨status, -, same⟩ := Option.map_eq_some_iff.mp same
    subst same
    exact List.mem_map_of_mem present
  · cases none

/-- What holds of the response and the error responses of an operation. -/
theorem lower_holds (rules : scope.Rules logic given good) {responses : Entries ResponseNode}
    (inside : ∀ node ∈ Entries.values responses, ∀ s ∈ node.schemas, given s) :
    logic.Holds (fun out => (∀ response ∈ out.1, ∀ seat ∈ Ir.Response.seats response, good seat) ∧
      ∀ error ∈ out.2, ∀ seat ∈ Ir.ErrorResponse.seats error, good seat) (lower scope responses) := by
  have each (n : Numbered) (listed : n ∈ numbered responses) : ∀ s ∈ n.node.schemas, given s :=
    inside n.node (numbered_listed listed)
  refine lowerEach_holds (fun n listed => lowerSuccess_holds rules (each n listed))
    (fun n listed => lowerError_holds (fun s => good (false, s)) rules.tolerant ?_ ?_) true
  · exact fun response stands _ _ first =>
      rules.lower true (firstOf_given (response_given rules.gives (each n listed) stands) first)
  · exact fun _ _ _ all _ => List.forall_mem_map.mpr fun s here => all s (Option.mem_toList.mp here)

end ResponseLowering

end ApiLowering
