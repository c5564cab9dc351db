import ApiLowering.Proofs.Canonical
import ApiLowering.Proofs.Discriminants
import ApiLowering.Proofs.Reordering

/-!
Places in JSON values: paths of keys and indices from a whole value to a part of it. What stands at a
place can be looked up and replaced.
-/

set_option autoImplicit false

namespace ApiLowering

section

variable {α : Type} {key : String} {a : α} {entries : Entries α}

theorem get_mapValues {β : Type} (f : α → β) :
    Entries.get? key (Entries.mapValues f entries) = (Entries.get? key entries).map f := by
  induction entries with
  | nil => rfl
  | cons e rest ih =>
    obtain ⟨k, v⟩ := e
    have mapped : Entries.mapValues f ((k, v) :: rest) = (k, f v) :: Entries.mapValues f rest := rfl
    rw [mapped, Entries.get?, Entries.get?, ih]
    by_cases same : k = key
    · rw [if_pos same, if_pos same]
      rfl
    · rw [if_neg same, if_neg same]

-- A key that is there is put where it stood.
theorem put_present (here : key ∈ Entries.keys entries) :
    Entries.keys (Entries.put key a entries) = Entries.keys entries := by
  induction entries with
  | nil => cases here
  | cons e rest ih =>
    obtain ⟨k, v⟩ := e
    by_cases same : k = key
    · subst same
      rw [Entries.put, if_pos rfl]
      rfl
    · have later : key ∈ Entries.keys rest := (List.mem_cons.mp here).resolve_left (Ne.symm same)
      rw [Entries.put, if_neg same]
      exact congrArg (k :: ·) (ih later)

theorem put_self (here : Entries.get? key entries = some a) : Entries.put key a entries = entries := by
  induction entries with
  | nil => cases here
  | cons e rest ih =>
    obtain ⟨k, v⟩ := e
    by_cases same : k = key
    · subst same
      rw [Entries.get?, if_pos rfl] at here
      cases here
      rw [Entries.put, if_pos rfl]
    · rw [Entries.get?, if_neg same] at here
      rw [Entries.put, if_neg same, ih here]

theorem mem_put_iff {other : String} {b : α} (distinct : (Entries.keys entries).Nodup) :
    (other, b) ∈ Entries.put key a entries ↔
      (other = key ∧ b = a) ∨ (other ≠ key ∧ (other, b) ∈ entries) := by
  have distinctToo : (Entries.keys (Entries.put key a entries)).Nodup := (put_keys distinct).1
  have looked : (other, b) ∈ Entries.put key a entries ↔
      Entries.get? other (Entries.put key a entries) = some b :=
    ⟨fun here => get_of_mem distinctToo here, fun found => Resolver.get_mem found⟩
  rw [looked, get_put]
  by_cases same : other = key
  · rw [if_pos same, Option.some.injEq]
    simp only [same, true_and, ne_eq, not_true_eq_false, false_and, or_false, eq_comm]
  · rw [if_neg same]
    simp only [same, false_and, ne_eq, not_false_eq_true, true_and, false_or]
    exact ⟨fun found => Resolver.get_mem found, fun here => get_of_mem distinct here⟩

end

namespace Json

-- A step from a value into it.
inductive Step where
  | key (name : String)
  | item (index : Nat)
deriving DecidableEq, Repr

-- The steps from a whole value to a part of it.
abbrev Place : Type := List Step

def at? : Json → Place → Option Json
  | value, [] => some value
  | .object entries, .key name :: place => (Entries.get? name entries).bind fun v => at? v place
  | .list items, .item index :: place => items[index]?.bind fun v => at? v place
  | _, _ :: _ => none

-- The value with another part at the place; a value without the place stays as it is.
def replace : Json → Place → Json → Json
  | _, [], part => part
  | .object entries, .key name :: place, part =>
    match Entries.get? name entries with
    | some v => .object (Entries.put name (replace v place part) entries)
    | none => .object entries
  | .list items, .item index :: place, part =>
    match items[index]? with
    | some v => .list (items.set index (replace v place part))
    | none => .list items
  | value, _ :: _, _ => value

variable {part value found : Json} {step : Step} {place rest : Place} {name : String} {index : Nat}
  {entries : Entries Json} {items : List Json}

theorem at_object : (Json.object entries).at? (.key name :: place) =
    (Entries.get? name entries).bind fun v => v.at? place := rfl

theorem at_list : (Json.list items).at? (.item index :: place) =
    items[index]?.bind fun v => v.at? place := rfl

theorem at_key : (Json.object entries).at? [.key name] = Entries.get? name entries :=
  at_object.trans (Option.bind_fun_some _)

theorem at_item : (Json.list items).at? [.item index] = items[index]? :=
  at_list.trans (Option.bind_fun_some _)

theorem replace_object (here : Entries.get? name entries = some value) :
    (Json.object entries).replace (.key name :: place) part =
      .object (Entries.put name (value.replace place part) entries) := by
  rw [replace, here]

theorem replace_list (here : items[index]? = some value) :
    (Json.list items).replace (.item index :: place) part =
      .list (items.set index (value.replace place part)) := by
  rw [replace, here]

theorem replace_key (here : Entries.get? name entries = some value) :
    (Json.object entries).replace [.key name] part = .object (Entries.put name part entries) :=
  replace_object here

theorem replace_item (here : items[index]? = some value) :
    (Json.list items).replace [.item index] part = .list (items.set index part) :=
  replace_list here

-- The step leads into an object or into a list.
theorem at_cases (here : value.at? [step] = some found) :
    (∃ name entries, step = .key name ∧ value = .object entries ∧
      Entries.get? name entries = some found) ∨
    ∃ index items, step = .item index ∧ value = .list items ∧ items[index]? = some found := by
  cases step with
  | key name =>
    cases value with
    | object entries => exact .inl ⟨name, entries, rfl, rfl, at_key ▸ here⟩
    | _ => cases here
  | item index =>
    cases value with
    | list items => exact .inr ⟨index, items, rfl, rfl, at_item ▸ here⟩
    | _ => cases here

theorem at_cons (here : value.at? [step] = some found) :
    value.at? (step :: place) = found.at? place := by
  rcases at_cases here with ⟨name, entries, rfl, rfl, stored⟩ | ⟨index, items, rfl, rfl, stored⟩
  · rw [at_object, stored, Option.bind_some]
  · rw [at_list, stored, Option.bind_some]

theorem replace_cons (here : value.at? [step] = some found) :
    value.replace (step :: place) part = value.replace [step] (found.replace place part) := by
  rcases at_cases here with ⟨name, entries, rfl, rfl, stored⟩ | ⟨index, items, rfl, rfl, stored⟩
  · rw [replace_object stored, replace_key stored]
  · rw [replace_list stored, replace_item stored]

theorem at_split (here : value.at? (step :: place) = some found) :
    ∃ v, value.at? [step] = some v ∧ v.at? place = some found := by
  cases inside : value.at? [step] with
  | some v => exact ⟨v, rfl, at_cons inside ▸ here⟩
  | none =>
    cases value with
    | object entries =>
      cases step with
      | key name =>
        rw [at_object, at_key.symm.trans inside] at here
        cases here
      | item => cases here
    | list items =>
      cases step with
      | key => cases here
      | item index =>
        rw [at_list, at_item.symm.trans inside] at here
        cases here
    | _ => cases step <;> cases here

theorem at_append (here : value.at? place = some found) :
    value.at? (place ++ rest) = found.at? rest := by
  induction place generalizing value with
  | nil =>
    cases here
    rfl
  | cons step place ih =>
    obtain ⟨v, inside, here⟩ := at_split here
    rw [List.cons_append, at_cons inside, ih here]

namespace Proper

theorem at_step (proper : value.Proper) (here : value.at? [step] = some found) : found.Proper := by
  rcases at_cases here with ⟨name, entries, rfl, rfl, stored⟩ | ⟨index, items, rfl, rfl, stored⟩
  · cases proper with
    | object _ each => exact each _ (Resolver.get_mem stored)
  · cases proper with
    | list each => exact each _ (List.mem_of_getElem? stored)

theorem at_place (proper : value.Proper) (here : value.at? place = some found) : found.Proper := by
  induction place generalizing value with
  | nil =>
    cases here
    exact proper
  | cons step place ih =>
    obtain ⟨v, inside, here⟩ := at_split here
    exact ih (proper.at_step inside) here

theorem replace_step (proper : value.Proper) (fine : part.Proper)
    (here : value.at? [step] = some found) : (value.replace [step] part).Proper := by
  rcases at_cases here with ⟨name, entries, rfl, rfl, stored⟩ | ⟨index, items, rfl, rfl, stored⟩
  · rw [replace_key stored]
    cases proper with
    | object ascends each =>
      have same : Entries.keys (Entries.put name part entries) = Entries.keys entries :=
        put_present (mem_keys_of_mem (Resolver.get_mem stored))
      exact .object (same.symm ▸ ascends) (put_values fine each)
  · rw [replace_item stored]
    cases proper with
    | list each =>
      refine .list fun item here => ?_
      rcases List.mem_or_eq_of_mem_set here with old | new
      · exact each item old
      · exact new ▸ fine

/-- A proper value with a proper part in place of another one is proper. -/
theorem replace (proper : value.Proper) (fine : part.Proper) (here : value.at? place = some found) :
    (value.replace place part).Proper := by
  induction place generalizing value with
  | nil => exact fine
  | cons step place ih =>
    obtain ⟨v, inside, here⟩ := at_split here
    rw [replace_cons inside]
    exact proper.replace_step (ih (proper.at_step inside) here) inside

end Proper

end Json

end ApiLowering
