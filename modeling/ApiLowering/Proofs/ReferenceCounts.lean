import Mathlib.Data.Set.Card
import Mathlib.Logic.Relation
import ApiLowering.Proofs.Places
import ApiLowering.ReferenceCount

/-!
What the table of reference counts says. Under each pointer stands how many objects of the tree refer
to it, without those that lie inside another reference; and it does not matter in which order lists
and objects hold what they hold.
-/

set_option autoImplicit false

namespace ApiLowering

open Json (Step Place)

namespace Json

-- No object has two entries under one key, as in every JSON value that was read.
inductive Keyed : Json → Prop where
  | null : Keyed .null
  | bool (value : Bool) : Keyed (.bool value)
  | number (value : Number) : Keyed (.number value)
  | text (value : String) : Keyed (.text value)
  | list {items : List Json} (each : ∀ item ∈ items, Keyed item) : Keyed (.list items)
  | object {entries : Entries Json} (distinct : (Entries.keys entries).Nodup)
      (each : ∀ e ∈ entries, Keyed e.2) : Keyed (.object entries)

-- The place holds an object with the pointer as a text under `$ref`.
def Refers (tree : Json) (place : Place) (pointer : String) : Prop :=
  tree.at? (place ++ [.key "$ref"]) = some (.text pointer)

-- The places that refer to the pointer and lie strictly inside no place that refers to anything.
def occurrences (tree : Json) (pointer : String) : Set Place :=
  {place | tree.Refers place pointer ∧
    ∀ outer, outer <+: place → outer ≠ place → ∀ other, ¬tree.Refers outer other}

-- The items of a list or the entries of an object in another order, or such a change inside one of
-- them.
inductive Rearranges : Json → Json → Prop where
  | items {items others : List Json} (order : others.Perm items) :
      Rearranges (.list items) (.list others)
  | entries {entries others : Entries Json} (order : others.Perm entries) :
      Rearranges (.object entries) (.object others)
  | item (before after : List Json) {value other : Json} (inside : Rearranges value other) :
      Rearranges (.list (before ++ value :: after)) (.list (before ++ other :: after))
  | entry (before after : Entries Json) (key : String) {value other : Json}
      (inside : Rearranges value other) :
      Rearranges (.object (before ++ (key, value) :: after))
        (.object (before ++ (key, other) :: after))

-- What a value holds directly, each part under the step that leads to it.
def parts : Json → List (Step × Json)
  | .list items => items.zipIdx.map fun e => (.item e.2, e.1)
  | .object entries => entries.map fun e => (.key e.1, e.2)
  | _ => []

variable {tree value : Json} {step : Step} {place rest : Place} {pointer other : String}
  {items : List Json} {entries : Entries Json}

@[simp] theorem keyed_text (s : String) : (Json.text s).Keyed := .text s

@[simp] theorem keyed_list : (Json.list items).Keyed ↔ ∀ item ∈ items, item.Keyed :=
  ⟨fun | .list each => each, .list⟩

@[simp] theorem keyed_object : (Json.object entries).Keyed ↔
    (Entries.keys entries).Nodup ∧ ∀ e ∈ entries, e.2.Keyed :=
  ⟨fun | .object distinct each => ⟨distinct, each⟩, fun ⟨distinct, each⟩ => .object distinct each⟩

theorem mem_parts (keyed : tree.Keyed) :
    (step, value) ∈ tree.parts ↔ tree.at? [step] = some value := by
  cases keyed with
  | @list items each =>
    rw [parts, List.mem_map]
    constructor
    · rintro ⟨⟨item, index⟩, listed, same⟩
      cases same
      rw [at_item]
      exact List.mk_mem_zipIdx_iff_getElem?.mp listed
    · intro here
      rcases at_cases here with ⟨_, _, _, isObject, _⟩ | ⟨index, _, rfl, same, stored⟩
      · cases isObject
      · cases same
        exact ⟨(value, index), List.mk_mem_zipIdx_iff_getElem?.mpr stored, rfl⟩
  | @object entries distinct each =>
    rw [parts, List.mem_map]
    constructor
    · rintro ⟨⟨key, v⟩, listed, same⟩
      cases same
      rw [at_key]
      exact get_of_mem distinct listed
    · intro here
      rcases at_cases here with ⟨key, _, rfl, same, stored⟩ | ⟨_, _, _, isList, _⟩
      · cases same
        exact ⟨(key, value), Resolver.get_mem stored, rfl⟩
      · cases isList
  | null | bool _ | number _ | text _ =>
    constructor
    · intro listed
      cases listed
    · intro here
      cases step <;> cases here

theorem parts_distinct (keyed : tree.Keyed) : (tree.parts.map Prod.fst).Nodup := by
  cases keyed with
  | @list items each =>
    have steps : (parts (.list items)).map Prod.fst =
        (items.zipIdx.map Prod.snd).map Step.item := by
      rw [parts, List.map_map, List.map_map]
      rfl
    rw [steps, List.zipIdx_map_snd]
    exact List.Nodup.map (fun _ _ => Step.item.inj) List.nodup_range'
  | @object entries distinct each =>
    have steps : (parts (.object entries)).map Prod.fst = (Entries.keys entries).map Step.key := by
      rw [parts, Entries.keys, List.map_map, List.map_map]
      rfl
    rw [steps]
    exact distinct.map fun _ _ => Step.key.inj
  | _ => exact List.nodup_nil

theorem refers_cons (here : tree.at? [step] = some value) :
    tree.Refers (step :: place) pointer ↔ value.Refers place pointer := by
  rw [Refers, Refers, List.cons_append, at_cons here]

theorem refers_split (refers : tree.Refers (step :: place) pointer) :
    ∃ value, tree.at? [step] = some value ∧ value.Refers place pointer :=
  at_split refers

-- A reference is the only occurrence in it, of its own pointer.
theorem occurrences_reference (refers : tree.Refers [] other) :
    tree.occurrences pointer = if pointer = other then {[]} else ∅ := by
  ext place
  constructor
  · rintro ⟨refersToo, outermost⟩
    by_cases whole : place = []
    · subst whole
      cases refers.symm.trans refersToo
      rw [if_pos rfl]
      exact Set.mem_singleton []
    · exact absurd refers (outermost [] List.nil_prefix (Ne.symm whole) other)
  · intro listed
    by_cases same : pointer = other
    · rw [if_pos same, Set.mem_singleton_iff] at listed
      subst same listed
      exact ⟨refers, fun outer before inside => absurd (List.prefix_nil.mp before) inside⟩
    · rw [if_neg same] at listed
      exact listed.elim

-- What is not a reference itself has the occurrences that are in its parts.
theorem occurrences_parts (keyed : tree.Keyed) (plain : ∀ other, ¬tree.Refers [] other) :
    tree.occurrences pointer =
      ⋃ part ∈ tree.parts, (part.1 :: ·) '' part.2.occurrences pointer := by
  ext place
  simp only [Set.mem_iUnion, Set.mem_image]
  constructor
  · rintro ⟨refers, outermost⟩
    cases place with
    | nil => exact absurd refers (plain pointer)
    | cons step place =>
      obtain ⟨value, here, refers⟩ := refers_split refers
      -- a reference further out in the part is one further out in the whole
      refine ⟨(step, value), (mem_parts keyed).mpr here, place, ⟨refers, ?_⟩, rfl⟩
      intro outer before inside other refersToo
      refine outermost (step :: outer) ((List.prefix_cons_inj step).mpr before) ?_ other
        ((refers_cons here).mpr refersToo)
      exact fun same => inside (List.cons.inj same).2
  · rintro ⟨⟨step, value⟩, listed, place, ⟨refers, outermost⟩, rfl⟩
    have here := (mem_parts keyed).mp listed
    refine ⟨(refers_cons here).mpr refers, ?_⟩
    intro outer before inside other refersToo
    cases outer with
    | nil => exact plain other refersToo
    | cons first outer =>
      obtain ⟨same, within⟩ := List.cons_prefix_cons.mp before
      cases same
      refine outermost outer within ?_ other ((refers_cons here).mp refersToo)
      exact fun same => inside (congrArg (step :: ·) same)

theorem forall_parts_list (holds : Json → Prop) (each : ∀ item ∈ items, holds item) :
    ∀ part ∈ (Json.list items).parts, holds part.2 := by
  intro part listed
  obtain ⟨e, among, rfl⟩ := List.mem_map.mp listed
  exact each e.1 (List.fst_mem_of_mem_zipIdx among)

theorem forall_parts_object (holds : Json → Prop) (each : ∀ e ∈ entries, holds e.2) :
    ∀ part ∈ (Json.object entries).parts, holds part.2 := by
  intro part listed
  obtain ⟨e, among, rfl⟩ := List.mem_map.mp listed
  exact each e among

end Json

namespace ReferenceCount

variable {tree : Json} {pointer other : String} {entries : Entries Json} {items : List Json}

theorem pointer_iff : pointer? entries = some pointer ↔
    Entries.get? "$ref" entries = some (.text pointer) := by
  unfold pointer?
  cases stored : Entries.get? "$ref" entries with
  | none => exact ⟨nofun, nofun⟩
  | some value =>
    cases value with
    | text s => rw [Option.some.injEq, Option.some.injEq, Json.text.injEq]
    | _ => exact ⟨nofun, nofun⟩

theorem refers_object :
    (Json.object entries).Refers [] pointer ↔ pointer? entries = some pointer := by
  rw [Json.Refers, List.nil_append, Json.at_key, pointer_iff]

theorem pointersInList_eq (items : List Json) : pointersInList items = items.flatMap pointers := by
  induction items with
  | nil => rfl
  | cons item rest ih => rw [pointersInList, ih, List.flatMap_cons]

theorem pointersInEntries_eq (entries : Entries Json) :
    pointersInEntries entries = entries.flatMap fun e => pointers e.2 := by
  induction entries with
  | nil => rfl
  | cons e rest ih => rw [pointersInEntries, ih, List.flatMap_cons]

theorem pointers_list (items : List Json) : pointers (.list items) = items.flatMap pointers := by
  rw [pointers, pointersInList_eq]

theorem pointers_reference (found : pointer? entries = some pointer) :
    pointers (.object entries) = [pointer] := by
  rw [pointers, found]

theorem pointers_plain (absent : pointer? entries = none) :
    pointers (.object entries) = entries.flatMap fun e => pointers e.2 := by
  rw [pointers, absent]
  exact pointersInEntries_eq entries

theorem pointers_parts (plain : ∀ other, ¬tree.Refers [] other) :
    pointers tree = tree.parts.flatMap fun part => pointers part.2 := by
  cases tree with
  | list items =>
    have held : items = items.zipIdx.map Prod.fst := (List.zipIdx_map_fst 0 items).symm
    rw [pointers_list, Json.parts, List.flatMap_map]
    conv_lhs => rw [held, List.flatMap_map]
  | object entries =>
    have absent : pointer? entries = none :=
      Option.eq_none_iff_forall_ne_some.mpr fun other found => plain other (refers_object.mpr found)
    rw [pointers_plain absent, Json.parts, List.flatMap_map]
  | _ => rfl

-- How many occurrences a value has is how often its list has the pointer.
def Exact (tree : Json) (pointer : String) : Prop :=
  (tree.occurrences pointer).Finite ∧
    (tree.occurrences pointer).ncard = (pointers tree).count pointer

-- The steps are distinct, so no occurrence is in two parts.
theorem exact_parts {parts : List (Step × Json)} (distinct : (parts.map Prod.fst).Nodup)
    (each : ∀ part ∈ parts, Exact part.2 pointer) :
    (⋃ part ∈ parts, (part.1 :: ·) '' part.2.occurrences pointer).Finite ∧
      (⋃ part ∈ parts, (part.1 :: ·) '' part.2.occurrences pointer).ncard =
        (parts.flatMap fun part => pointers part.2).count pointer := by
  induction parts with
  | nil => simp
  | cons part rest ih =>
    obtain ⟨fresh, distinct⟩ := List.nodup_cons.mp distinct
    obtain ⟨⟨finite, number⟩, each⟩ := List.forall_mem_cons.mp each
    obtain ⟨finiteRest, numberRest⟩ := ih distinct each
    have whole : (⋃ p ∈ part :: rest, (p.1 :: ·) '' p.2.occurrences pointer) =
        (part.1 :: ·) '' part.2.occurrences pointer ∪
          ⋃ p ∈ rest, (p.1 :: ·) '' p.2.occurrences pointer := by
      simp only [List.mem_cons, Set.iUnion_iUnion_eq_or_left]
    have apart : Disjoint ((part.1 :: ·) '' part.2.occurrences pointer)
        (⋃ p ∈ rest, (p.1 :: ·) '' p.2.occurrences pointer) := by
      rw [Set.disjoint_left]
      rintro _ ⟨place, _, rfl⟩ among
      simp only [Set.mem_iUnion, Set.mem_image] at among
      obtain ⟨p, listed, place, _, same⟩ := among
      exact fresh (List.mem_map.mpr ⟨p, listed, (List.cons.inj same).1⟩)
    have finiteHere := finite.image (part.1 :: ·)
    rw [whole]
    refine ⟨finiteHere.union finiteRest, ?_⟩
    rw [Set.ncard_union_eq apart finiteHere finiteRest,
      Set.ncard_image_of_injective _ (List.cons_injective), number, numberRest, List.flatMap_cons,
      List.count_append]

theorem exact_reference (refers : tree.Refers [] other) : Exact tree pointer := by
  obtain ⟨entries, rfl⟩ : ∃ entries, tree = .object entries := by
    rcases Json.at_cases refers with ⟨_, entries, _, same, _⟩ | ⟨_, _, isItem, _⟩
    · exact ⟨entries, same⟩
    · cases isItem
  rw [Exact, Json.occurrences_reference refers, pointers_reference (refers_object.mp refers)]
  by_cases same : pointer = other
  · rw [if_pos same, same, List.count_singleton_self]
    exact ⟨Set.finite_singleton [], Set.ncard_singleton []⟩
  · rw [if_neg same, List.count_eq_zero_of_not_mem (same ∘ List.mem_singleton.mp)]
    exact ⟨Set.finite_empty, Set.ncard_empty Place⟩

theorem exact_step (keyed : tree.Keyed) (each : ∀ part ∈ tree.parts, Exact part.2 pointer) :
    Exact tree pointer := by
  by_cases reference : ∃ other, tree.Refers [] other
  · obtain ⟨other, refers⟩ := reference
    exact exact_reference refers
  · have plain := not_exists.mp reference
    rw [Exact, Json.occurrences_parts keyed plain, pointers_parts plain]
    exact exact_parts (Json.parts_distinct keyed) each

theorem exact_of_keyed (keyed : tree.Keyed) (pointer : String) : Exact tree pointer := by
  induction keyed with
  | list each ih => exact exact_step (.list each) (Json.forall_parts_list (Exact · pointer) ih)
  | object distinct each ih =>
    exact exact_step (.object distinct each) (Json.forall_parts_object (Exact · pointer) ih)
  | null => exact exact_step .null nofun
  | bool value => exact exact_step (.bool value) nofun
  | number value => exact exact_step (.number value) nofun
  | text value => exact exact_step (.text value) nofun

theorem get_increment (counts : Entries Nat) :
    Entries.get? other (increment counts pointer) =
      if other = pointer then some ((Entries.get? pointer counts).getD 0 + 1)
      else Entries.get? other counts :=
  get_putSorted

theorem get_incremented (pointer : String) (found : List String) (counts : Entries Nat) :
    Entries.get? pointer (found.foldl increment counts) =
      if found.count pointer = 0 then Entries.get? pointer counts
      else some ((Entries.get? pointer counts).getD 0 + found.count pointer) := by
  induction found generalizing counts with
  | nil => rfl
  | cons first rest ih =>
    rw [List.foldl_cons, ih, get_increment]
    by_cases same : pointer = first
    · subst same
      rw [if_pos rfl, List.count_cons_self, if_neg (Nat.succ_ne_zero _), Option.getD_some]
      by_cases last : rest.count pointer = 0
      · rw [if_pos last, last]
      · rw [if_neg last, Nat.add_assoc, Nat.add_comm 1]
    · rw [if_neg same, List.count_cons_of_ne (Ne.symm same)]

theorem get_count (tree : Json) (pointer : String) :
    Entries.get? pointer (count tree) =
      if (pointers tree).count pointer = 0 then none else some ((pointers tree).count pointer) := by
  have counted := get_incremented pointer (pointers tree) []
  rwa [Entries.get?, Option.getD_none, Nat.zero_add] at counted

theorem count_ascends (tree : Json) : (Entries.keys (count tree)).Pairwise (· < ·) := by
  have folded (found : List String) (counts : Entries Nat)
      (ascends : (Entries.keys counts).Pairwise (· < ·)) :
      (Entries.keys (found.foldl increment counts)).Pairwise (· < ·) := by
    induction found generalizing counts with
    | nil => exact ascends
    | cons first rest ih =>
      apply ih
      rw [increment, keys_putSorted]
      exact insertSorted_pairwise ascends
  exact folded _ [] List.Pairwise.nil

theorem count_perm {other : Json} (order : (pointers other).Perm (pointers tree)) :
    count other = count tree := by
  apply ascends_ext (count_ascends other) (count_ascends tree)
  intro key
  rw [get_count, get_count, order.count_eq]

-- What is rearranged is a list or an object and so is no text.
theorem rearranged_text {value other : Json} (inside : Json.Rearranges value other)
    (pointer : String) :
    value ≠ .text pointer ∧ other ≠ .text pointer := by
  cases inside <;> exact ⟨Json.noConfusion, Json.noConfusion⟩

theorem pointer_entry (before after : Entries Json) (key : String) {value other : Json}
    (inside : Json.Rearranges value other) :
    pointer? (before ++ (key, other) :: after) = pointer? (before ++ (key, value) :: after) := by
  -- the entry may be the one under `$ref`, but it is a text neither before nor after
  have stored (pointer : String) :
      Entries.get? "$ref" (before ++ (key, other) :: after) = some (.text pointer) ↔
        Entries.get? "$ref" (before ++ (key, value) :: after) = some (.text pointer) := by
    obtain ⟨notBefore, notAfter⟩ := rearranged_text inside pointer
    induction before with
    | nil =>
      rw [List.nil_append, List.nil_append, Entries.get?, Entries.get?]
      by_cases here : key = "$ref"
      · simp only [if_pos here, Option.some.injEq, notBefore, notAfter]
      · rw [if_neg here, if_neg here]
    | cons e rest ih =>
      obtain ⟨k, v⟩ := e
      rw [List.cons_append, List.cons_append, Entries.get?, Entries.get?]
      by_cases here : k = "$ref"
      · rw [if_pos here, if_pos here]
      · rw [if_neg here, if_neg here]
        exact ih
  refine Option.ext fun pointer => ?_
  rw [pointer_iff, pointer_iff]
  exact stored pointer

-- Another value holds the same pointers as often, and its objects have distinct keys too.
def SamePointers (value other : Json) : Prop := other.Keyed ∧ (pointers other).Perm (pointers value)

theorem items_rearranged {others : List Json} (keyed : (Json.list items).Keyed)
    (order : others.Perm items) : SamePointers (.list items) (.list others) := by
  have each := Json.keyed_list.mp keyed
  refine ⟨.list fun item listed => each item (order.mem_iff.mp listed), ?_⟩
  rw [pointers_list, pointers_list]
  exact order.flatMap_right _

theorem entries_rearranged {others : Entries Json} (keyed : (Json.object entries).Keyed)
    (order : others.Perm entries) : SamePointers (.object entries) (.object others) := by
  obtain ⟨distinct, each⟩ := Json.keyed_object.mp keyed
  have distinctToo : (Entries.keys others).Nodup := (order.map Prod.fst).nodup_iff.mpr distinct
  refine ⟨.object distinctToo fun e listed => each e (order.mem_iff.mp listed), ?_⟩
  have same : pointer? others = pointer? entries := by
    rw [pointer?, get_perm distinct order, pointer?]
  cases found : pointer? entries with
  | some pointer => rw [pointers_reference found, pointers_reference (same.trans found)]
  | none =>
    rw [pointers_plain found, pointers_plain (same.trans found)]
    exact order.flatMap_right _

theorem item_rearranged {before after : List Json} {value other : Json}
    (keyed : (Json.list (before ++ value :: after)).Keyed)
    (inside : value.Keyed → SamePointers value other) :
    SamePointers (.list (before ++ value :: after)) (.list (before ++ other :: after)) := by
  obtain ⟨fineBefore, later⟩ := List.forall_mem_append.mp (Json.keyed_list.mp keyed)
  obtain ⟨fine, fineAfter⟩ := List.forall_mem_cons.mp later
  obtain ⟨fineToo, order⟩ := inside fine
  have laterToo := List.forall_mem_cons.mpr ⟨fineToo, fineAfter⟩
  refine ⟨.list (List.forall_mem_append.mpr ⟨fineBefore, laterToo⟩), ?_⟩
  rw [pointers_list, pointers_list, List.flatMap_append, List.flatMap_append, List.flatMap_cons,
    List.flatMap_cons]
  exact (order.append_right _).append_left _

theorem entry_rearranged {before after : Entries Json} {key : String} {value other : Json}
    (keyed : (Json.object (before ++ (key, value) :: after)).Keyed)
    (step : Json.Rearranges value other) (inside : value.Keyed → SamePointers value other) :
    SamePointers (.object (before ++ (key, value) :: after))
      (.object (before ++ (key, other) :: after)) := by
  obtain ⟨distinct, each⟩ := Json.keyed_object.mp keyed
  obtain ⟨fineBefore, later⟩ := List.forall_mem_append.mp each
  obtain ⟨fine, fineAfter⟩ := List.forall_mem_cons.mp later
  obtain ⟨fineToo, order⟩ := inside fine
  have laterToo : ∀ e ∈ (key, other) :: after, e.2.Keyed :=
    List.forall_mem_cons.mpr ⟨fineToo, fineAfter⟩
  have keys : Entries.keys (before ++ (key, other) :: after) =
      Entries.keys (before ++ (key, value) :: after) := by
    rw [keys_append, keys_append]
    rfl
  refine ⟨.object (keys.symm ▸ distinct) (List.forall_mem_append.mpr ⟨fineBefore, laterToo⟩), ?_⟩
  have same := pointer_entry before after key step
  cases found : pointer? (before ++ (key, value) :: after) with
  | some pointer => rw [pointers_reference found, pointers_reference (same.trans found)]
  | none =>
    rw [pointers_plain found, pointers_plain (same.trans found), List.flatMap_append,
      List.flatMap_append, List.flatMap_cons, List.flatMap_cons]
    exact (order.append_right _).append_left _

theorem rearranged {value other : Json} (step : Json.Rearranges value other)
    (keyed : value.Keyed) : SamePointers value other := by
  induction step with
  | items order => exact items_rearranged keyed order
  | entries order => exact entries_rearranged keyed order
  | item before after _ ih => exact item_rearranged keyed ih
  | entry before after key inside ih => exact entry_rearranged keyed inside ih

theorem rearranged_all {value other : Json}
    (steps : Relation.ReflTransGen Json.Rearranges value other) (keyed : value.Keyed) :
    SamePointers value other := by
  induction steps with
  | refl => exact ⟨keyed, .refl _⟩
  | tail _ step ih =>
    obtain ⟨keyedThere, order⟩ := ih
    obtain ⟨keyedHere, orderHere⟩ := rearranged step keyedThere
    exact ⟨keyedHere, orderHere.trans order⟩

/-- Every pointer stands in the table with the number of its occurrences, or not at all if it has
none, and rearranging the tree at any depth leaves the table as it is. -/
theorem references_counted {tree : Json} (keyed : tree.Keyed) :
    (Entries.keys (count tree)).Pairwise (· < ·) ∧
      (∀ pointer, (tree.occurrences pointer).Finite ∧
        Entries.get? pointer (count tree) =
          if (tree.occurrences pointer).ncard = 0 then none
          else some (tree.occurrences pointer).ncard) ∧
      ∀ other, Relation.ReflTransGen Json.Rearranges tree other → count other = count tree := by
  refine ⟨count_ascends tree, fun pointer => ?_, fun other steps => ?_⟩
  · obtain ⟨finite, number⟩ := exact_of_keyed keyed pointer
    rw [number]
    exact ⟨finite, get_count tree pointer⟩
  · exact count_perm (rearranged_all steps keyed).2

-- A reference with another one inside, references in a list, and a `$ref` that is no text.
def bundle : Json :=
  .object [
    ("list", .list [.object [("$ref", .text "#/x")],
      .object [("nested", .object [("$ref", .text "#/x")])]]),
    ("notRef", .object [("$ref", .list [.object [("$ref", .text "#/z")]])]),
    ("a", .object [("$ref", .text "#/x"),
      ("properties", .object [("b", .object [("$ref", .text "#/y")])])])]

theorem bundle_counted :
    bundle.Keyed ∧ count bundle = [("#/x", 3), ("#/z", 1)] ∧
      (bundle.occurrences "#/x").ncard = 3 ∧ (bundle.occurrences "#/z").ncard = 1 ∧
      (bundle.occurrences "#/y").ncard = 0 := by
  have keyed : bundle.Keyed := by simp [bundle, Entries.keys]
  have counts : count bundle = [("#/x", 3), ("#/z", 1)] := by decide +kernel
  obtain ⟨-, counted, -⟩ := references_counted keyed
  have number (pointer : String) : (bundle.occurrences pointer).ncard =
      (Entries.get? pointer [("#/x", 3), ("#/z", 1)]).getD 0 := by
    rw [← counts, (counted pointer).2]
    by_cases absent : (bundle.occurrences pointer).ncard = 0
    · rw [if_pos absent, absent, Option.getD_none]
    · rw [if_neg absent, Option.getD_some]
  exact ⟨keyed, counts, number "#/x", number "#/z", number "#/y"⟩

end ReferenceCount

end ApiLowering
