import ApiLowering.Proofs.InRange
import ApiLowering.Tree.JsonText

/-!
Trees of JSON texts. Nothing in them waits to be given a value, and every number is in range: that
holds of every token, and of what the builder makes of the tokens, finished or not.
-/

set_option autoImplicit false

namespace ApiLowering

def Scalar.Real (value : Scalar) : Prop := ∀ n, value = .number n → n.Real

-- A tree without plain scalars and tags in which every number is one.
inductive Tree.Real : Tree → Prop where
  | scalar {value : Scalar} (real : value.Real) : Real (.scalar value)
  | list {items : List Tree} {stop : Option Fault} (each : ∀ node ∈ items, Real node) :
      Real (.list items stop)
  | map {entries : List (Key × Tree)} {stop : Option Fault} (each : ∀ e ∈ entries, Real e.2) :
      Real (.map entries stop)
  | flawed {flaw : Flaw} : Real (.flawed flaw)

def Scalar.Over (kind : Number → Prop) (value : Scalar) : Prop := ∀ n, value = .number n → kind n

-- A tree without plain scalars and tags in which every number is of the kind.
inductive Tree.Over (kind : Number → Prop) : Tree → Prop where
  | scalar {value : Scalar} (each : value.Over kind) : Over kind (.scalar value)
  | list {items : List Tree} {stop : Option Fault} (each : ∀ node ∈ items, Over kind node) :
      Over kind (.list items stop)
  | map {entries : List (Key × Tree)} {stop : Option Fault} (each : ∀ e ∈ entries, Over kind e.2) :
      Over kind (.map entries stop)
  | flawed {flaw : Flaw} : Over kind (.flawed flaw)

abbrev Tree.InRange (node : Tree) : Prop := node.Over Number.InRange

theorem Tree.Over.mono {kind wider : Number → Prop} {node : Tree} (within : node.Over kind)
    (wide : ∀ n, kind n → wider n) : node.Over wider := by
  induction within with
  | scalar each => exact .scalar fun n same => wide n (each n same)
  | list _ ih => exact .list ih
  | map _ ih => exact .map ih
  | flawed => exact .flawed

theorem Tree.Real.overReal {node : Tree} (real : node.Real) : node.Over Number.Real := by
  induction real with
  | scalar real => exact .scalar real
  | list _ ih => exact .list ih
  | map _ ih => exact .map ih
  | flawed => exact .flawed

namespace JsonText

theorem scalar_text (s : String) : (Scalar.text s).Over Number.InRange := by
  intro n same
  cases same

def Token.InRange : Token → Prop
  | .scalar value => value.Over Number.InRange
  | _ => True

theorem wordToken_inRange {word : String} {value : Scalar} {cs : List Char}
    (within : value.Over Number.InRange) : (wordToken word value cs).1.InRange := by
  unfold wordToken
  split
  · exact within
  · trivial

theorem nextToken_inRange (c : Char) (rest : List Char) : (nextToken c rest).1.InRange := by
  unfold nextToken
  split
  · trivial
  · trivial
  · trivial
  · trivial
  · trivial
  · trivial
  · dsimp only
    split <;> trivial
  · exact wordToken_inRange fun n same => nomatch same
  · exact wordToken_inRange fun n same => nomatch same
  · exact wordToken_inRange fun n same => nomatch same
  · split
    · split
      · rename_i number _ read
        intro n same
        cases same
        exact readNumber_inRange read
      · trivial
    · trivial

theorem tokensWithin_inRange (fuel : Nat) (cs : List Char) :
    ∀ token ∈ tokensWithin fuel cs, token.InRange := by
  induction fuel generalizing cs with
  | zero => exact fun _ here => absurd here List.not_mem_nil
  | succ fuel ih =>
    rw [tokensWithin]
    split
    · exact fun _ here => absurd here List.not_mem_nil
    · rename_i c rest _
      exact List.forall_mem_cons.mpr ⟨nextToken_inRange c rest, ih _⟩

def Frame.InRange : Frame → Prop
  | .list items => ∀ node ∈ items, node.InRange
  | .map entries _ => ∀ e ∈ entries, e.2.InRange

theorem Frame.list_inRange : Frame.InRange (.list []) :=
  fun _ here => absurd here List.not_mem_nil

theorem Frame.map_inRange : Frame.InRange (.map [] none) :=
  fun _ here => absurd here List.not_mem_nil

theorem Frame.node_inRange {frame : Frame} (within : frame.InRange) (stop : Option Fault) :
    (frame.node stop).InRange := by
  cases frame with
  | list items => exact .list fun node here => within node (List.mem_reverse.mp here)
  | map entries key => exact .map fun e here => within e (List.mem_reverse.mp here)

namespace Builder

structure InRange (b : Builder) : Prop where
  frames : ∀ frame ∈ b.frames, frame.InRange
  root : ∀ node ∈ b.root, node.InRange

variable {b : Builder}

theorem empty_inRange : empty.InRange :=
  ⟨fun _ here => absurd here List.not_mem_nil, fun _ here => nomatch here⟩

theorem add_inRange {node : Tree} (within : b.InRange) (fine : node.InRange) :
    (b.add node).InRange := by
  unfold add
  split
  · refine ⟨fun _ here => absurd here List.not_mem_nil, fun root here => ?_⟩
    cases here
    exact fine
  · rename_i items outer innermost
    have first : Frame.InRange (.list items) := within.frames _ (innermost ▸ List.mem_cons_self)
    refine ⟨List.forall_mem_cons.mpr ⟨List.forall_mem_cons.mpr ⟨fine, first⟩, ?_⟩, within.root⟩
    exact fun frame here => within.frames frame (innermost ▸ List.mem_cons_of_mem _ here)
  · rename_i entries key outer innermost
    have first : Frame.InRange (.map entries key) := within.frames _ (innermost ▸ List.mem_cons_self)
    refine ⟨List.forall_mem_cons.mpr ⟨List.forall_mem_cons.mpr ⟨fine, first⟩, ?_⟩, within.root⟩
    exact fun frame here => within.frames frame (innermost ▸ List.mem_cons_of_mem _ here)

theorem limited_inRange {node : Tree} (fine : node.InRange) (depth : Nat) :
    (limited depth node).InRange := by
  unfold limited
  split
  · exact .flawed
  · exact fine

theorem close_inRange (within : b.InRange) (stop : Option Fault) : (b.close stop).InRange := by
  unfold close
  split
  · exact within
  · rename_i frame outer innermost
    have first : frame.InRange := within.frames frame (innermost ▸ List.mem_cons_self)
    refine add_inRange ⟨fun other here => ?_, within.root⟩
      (limited_inRange (Frame.node_inRange first stop) _)
    exact within.frames other (innermost ▸ List.mem_cons_of_mem _ here)

theorem closeAll_inRange (count : Nat) (within : b.InRange) : (closeAll count b).InRange := by
  induction count generalizing b with
  | zero => exact within
  | succ count ih =>
    rw [closeAll]
    split
    · exact within
    · exact ih (close_inRange within none)

theorem expect_inRange (within : b.InRange) (expected : Expected) : InRange { b with expected } :=
  ⟨within.frames, within.root⟩

theorem fail_inRange (within : b.InRange) (flaw : Flaw) : (b.fail flaw).root.InRange := by
  have getD {found : Option Tree} (fine : ∀ node ∈ found, node.InRange) :
      (found.getD (.flawed flaw)).InRange := by
    cases found with
    | none => exact .flawed
    | some node => exact fine node rfl
  unfold fail
  dsimp only
  split
  · rename_i root present
    exact within.root root present
  · refine getD (closeAll_inRange _ ?_).root
    split
    · exact add_inRange within .flawed
    · exact add_inRange within .flawed
    · exact add_inRange within .flawed
    · split
      · exact within
      · exact close_inRange within _

theorem push_inRange {frame : Frame} (within : b.InRange) (fresh : frame.InRange)
    (expected : Expected) : InRange { b with frames := frame :: b.frames, expected } :=
  ⟨List.forall_mem_cons.mpr ⟨fresh, within.frames⟩, within.root⟩

theorem take_inRange {token : Token} {next : Builder} (within : b.InRange) (fine : token.InRange)
    (taken : b.take token = .ok next) : next.InRange := by
  have named {entries : List (Key × Tree)} {found : Option Key} {outer : List Frame}
      (innermost : b.frames = .map entries found :: outer) (key : Key) :
      InRange { b with frames := .map entries (some key) :: outer, expected := .colon } := by
    have first : Frame.InRange (.map entries found) := within.frames _ (innermost ▸ List.mem_cons_self)
    refine ⟨List.forall_mem_cons.mpr ⟨first, fun frame here => ?_⟩, within.root⟩
    exact within.frames frame (innermost ▸ List.mem_cons_of_mem _ here)
  unfold take at taken
  dsimp only at taken
  -- one case for each pair of what is expected and what the token is
  repeat' split at taken
  all_goals cases taken
  -- what is left is a builder with a node more, with a frame closed or opened, or with a key
  all_goals first
    | exact add_inRange within (.scalar (scalar_text _))
    | exact add_inRange within (.scalar fine)
    | exact add_inRange within .flawed
    | exact close_inRange within _
    | exact push_inRange within Frame.list_inRange _
    | exact push_inRange within Frame.map_inRange _
    | exact expect_inRange within _
    | exact named (by assumption) _

theorem run_inRange {tokens : List Token} (within : b.InRange)
    (fine : ∀ token ∈ tokens, token.InRange) : (run b tokens).root.InRange := by
  induction tokens generalizing b with
  | nil =>
    rw [run]
    split
    · rename_i root present
      exact within.root root present
    · exact fail_inRange within _
  | cons token rest ih =>
    rw [run]
    split
    · rename_i next taken
      exact ih (take_inRange within (fine token List.mem_cons_self) taken)
        fun other here => fine other (List.mem_cons_of_mem _ here)
    · exact fail_inRange within _

end Builder

theorem read_inRange (text : String) : (read text).root.InRange :=
  Builder.run_inRange Builder.empty_inRange (tokensWithin_inRange _ _)

end JsonText

end ApiLowering
