import ApiLowering.Pointer

/-!
Pointers tell components apart: what escaping does to an id can be undone.
-/

set_option autoImplicit false

namespace ApiLowering.Pointer

open Text

theorem contract_cons {first second replacement c : Char} (other : c ≠ first) (rest : List Char) :
    contract first second replacement (c :: rest) =
      c :: contract first second replacement rest := by
  cases rest with
  | nil => rfl
  | cons d more => simp only [contract, other, false_and, if_false]

theorem contract_pair (first second replacement : Char) (rest : List Char) :
    contract first second replacement (first :: second :: rest) =
      replacement :: contract first second replacement rest := by
  simp only [contract, and_self, if_true]

theorem contract_expand {first second : Char} (cs : List Char) :
    contract first second first (expand first [first, second] cs) = cs := by
  induction cs with
  | nil => rfl
  | cons c rest ih =>
    simp only [expand, List.flatMap_cons] at ih ⊢
    by_cases same : c = first
    · subst same
      simp only [if_true, List.cons_append, List.nil_append, contract_pair, ih]
    · simp only [same, if_false, List.cons_append, List.nil_append, contract_cons same, ih]

theorem contract_escape (cs : List Char) :
    contract '~' '1' '/' (escape cs) = expand '~' ['~', '0'] cs := by
  induction cs with
  | nil => rfl
  | cons c rest ih =>
    simp only [escape, expand, List.flatMap_cons, List.flatMap_append] at ih ⊢
    by_cases tilde : c = '~'
    · -- an escaped tilde is followed by a zero, so it is not mistaken for half of a slash
      subst tilde
      simp only [if_true, List.flatMap_cons, List.flatMap_nil, List.append_nil,
        List.cons_append, List.nil_append, Char.reduceEq, if_false]
      rw [contract, if_neg (by decide), contract_cons (by decide), ih]
    · simp only [tilde, if_false, List.flatMap_cons, List.flatMap_nil, List.append_nil,
        List.cons_append, List.nil_append]
      by_cases slash : c = '/'
      · subst slash
        simp only [if_true, List.cons_append, List.nil_append, contract_pair, ih]
      · simp only [slash, if_false, List.cons_append, List.nil_append, contract_cons tilde, ih]

theorem unescape_escape (cs : List Char) : unescape (escape cs) = cs := by
  rw [unescape, contract_escape, contract_expand]

theorem ofSchema_injective : Function.Injective ofSchema := by
  intro a b same
  have escaped := String.ofList_injective ((String.append_right_inj _).mp same)
  have plain := congrArg unescape escaped
  rw [unescape_escape, unescape_escape] at plain
  exact String.toList_injective plain

theorem slash_escaped (cs : List Char) : '/' ∉ escape cs := by
  intro here
  obtain ⟨c, -, among⟩ := List.mem_flatMap.mp here
  by_cases slash : c = '/'
  · rw [if_pos slash] at among
    exact absurd among (by decide)
  · rw [if_neg slash, List.mem_singleton] at among
    exact slash among.symm

theorem split_whole {sep : Char} {cs : List Char} (absent : sep ∉ cs) : split sep cs = [cs] := by
  induction cs with
  | nil => rfl
  | cons c rest ih =>
    obtain ⟨other, later⟩ := List.ne_and_not_mem_of_not_mem_cons absent
    rw [split, if_neg (Ne.symm other), ih later]

theorem split_cons {sep : Char} {piece rest : List Char} (absent : sep ∉ piece) :
    split sep (piece ++ sep :: rest) = piece :: split sep rest := by
  induction piece with
  | nil => rw [List.nil_append, split, if_pos rfl]
  | cons c more ih =>
    obtain ⟨other, later⟩ := List.ne_and_not_mem_of_not_mem_cons absent
    rw [List.cons_append, split, if_neg (Ne.symm other), ih later]

theorem dropLead_append (lead rest : List Char) : dropLead? lead (lead ++ rest) = some rest := by
  induction lead with
  | nil => rfl
  | cons l lead ih => rw [List.cons_append, dropLead?, if_pos rfl, ih]

theorem ofSchema_toList (id : String) :
    (ofSchema id).toList =
      "#/components/".toList ++ ("schemas".toList ++ '/' :: escape id.toList) := by
  have lead : "#/components/schemas/".toList =
      "#/components/".toList ++ ("schemas".toList ++ ['/']) := by decide
  have whole : (ofSchema id).toList = "#/components/schemas/".toList ++ escape id.toList := by
    unfold ofSchema
    exact (String.toList_append ..).trans (congrArg _ String.toList_ofList)
  refine whole.trans ((congrArg (· ++ _) lead).trans ?_)
  -- the texts themselves do not matter any more, and are long to unfold
  generalize "#/components/".toList = root
  generalize "schemas".toList = area
  simp only [List.append_assoc, List.singleton_append]

-- The pointer of a schema leads to it again, unless its id is empty.
theorem componentId_ofSchema {id : String} (named : id ≠ "") :
    componentId? "schemas" (ofSchema id) = some id := by
  have escaped : escape id.toList ≠ [] := by
    intro empty
    have back := unescape_escape id.toList
    rw [empty] at back
    exact named (String.toList_injective back.symm)
  have pieces : split '/' ("schemas".toList ++ '/' :: escape id.toList) =
      ["schemas".toList, escape id.toList] := by
    rw [split_cons (by decide), split_whole (slash_escaped _)]
  unfold componentId?
  rw [ofSchema_toList, dropLead_append]
  simp only [pieces]
  rw [if_pos ⟨String.ofList_toList, escaped⟩, unescape_escape, String.ofList_toList]

end ApiLowering.Pointer
