import ApiLowering.Proofs.Lenience

/-!
Decoders that agree. Two decoders that do the same to small values make the same of the lists, maps
and records of such values; so the bound on the nesting of schema nodes does not matter, and reading
them satisfies one equation without it.
-/

set_option autoImplicit false

namespace ApiLowering

namespace Reader

variable {β ν : Type} {height : Nat}

-- Two decoders that do the same to every JSON value of less than the height.
def Agree (height : Nat) (first second : Reader β) : Prop :=
  ∀ mode (value : Json), (Tree.ofJson value).height < height →
    first mode (Tree.ofJson value) = second mode (Tree.ofJson value)

variable {first second : Reader β}

theorem optional_agree (agree : Agree height first second) :
    Agree height (optional first) (optional second) := by
  intro mode value low
  by_cases absent : value = .null
  · rw [absent]
    rfl
  · rw [optional_present absent, optional_present absent, agree mode value low]

theorem each_agree {mode : Mode} {items : List Json}
    (same : ∀ item ∈ items, first mode (Tree.ofJson item) = second mode (Tree.ofJson item)) :
    each (first mode) (Tree.ofJsonList items) = each (second mode) (Tree.ofJsonList items) := by
  induction items with
  | nil => rfl
  | cons item rest ih =>
    obtain ⟨here, later⟩ := List.forall_mem_cons.mp same
    rw [Tree.ofJsonList, each, each, here, ih later]

theorem list_agree (agree : Agree height first second) :
    Agree height (list first) (list second) := by
  intro mode value low
  cases value with
  | list items =>
    rw [list_ofJson, list_ofJson]
    exact each_agree fun item here => agree mode item (Nat.lt_trans (Tree.height_item here) low)
  | _ => rfl

theorem eachEntry_agree {mode : Mode} {es : Entries Json}
    (same : ∀ e ∈ es, first mode (Tree.ofJson e.2) = second mode (Tree.ofJson e.2)) :
    eachEntry mode (first mode) (Tree.ofJsonEntries es) =
      eachEntry mode (second mode) (Tree.ofJsonEntries es) := by
  induction es with
  | nil => rfl
  | cons e rest ih =>
    obtain ⟨key, item⟩ := e
    obtain ⟨here, later⟩ := List.forall_mem_cons.mp same
    rw [Tree.ofJsonEntries, eachEntry, eachEntry, here, ih later]

theorem entries_agree (agree : Agree height first second) :
    Agree height (entries first) (entries second) := by
  intro mode value low
  cases value with
  | object es =>
    rw [entries_ofJson, entries_ofJson, eachEntry_agree fun e here =>
      agree mode e.2 (Nat.lt_trans (Tree.height_entry here) low)]
  | _ => rfl

theorem lenient_agree {reference : String → ν} {wrap : β → ν} {invalid : Json → ν}
    (agree : Agree height first second) :
    Agree height (lenient reference first wrap invalid) (lenient reference second wrap invalid) := by
  intro mode value low
  rw [lenient_ofJson, lenient_ofJson, agree .held value low]

end Reader

namespace Field

variable {α β : Type} {height : Nat} {name : String} {first second : Reader β}

structure Agree (height : Nat) (f g : Field α) : Prop where
  name : f.name = g.name
  absence : f.absence = g.absence
  read : ∀ mode (value : Json) record, (Tree.ofJson value).height < height →
    f.read mode (Tree.ofJson value) record = g.read mode (Tree.ofJson value) record

theorem agree_refl (f : Field α) : Agree height f f := ⟨rfl, rfl, fun _ _ _ _ => rfl⟩

theorem optional_agree {set : Option β → α → α} (agree : Reader.Agree height first second) :
    Agree height (optional name first set) (optional name second set) where
  name := rfl
  absence := rfl
  read mode value _ low := congrArg (Except.map _) (Reader.optional_agree agree mode value low)

theorem defaulted_agree {set : β → α → α} (agree : Reader.Agree height first second) :
    Agree height (defaulted name first set) (defaulted name second set) where
  name := rfl
  absence := rfl
  read mode value _ low := congrArg (Except.map _) (agree mode value low)

end Field

namespace Record

variable {α : Type} {height : Nat} {mode : Mode} {fields others : List (Field α)}
  {es : Entries Json} {before : Progress α}

theorem field_agree (agree : List.Forall₂ (Field.Agree height) fields others) (name : String) :
    Option.Rel (Field.Agree height) (field? fields name) (field? others name) := by
  induction agree with
  | nil => exact .none
  | @cons f g fields others first _ ih =>
    simp only [field?, List.find?_cons, first.name]
    cases decide (g.name = name) with
    | true => exact .some first
    | false => exact ih

theorem missing_agree (agree : List.Forall₂ (Field.Agree height) fields others)
    (seen : List String) : missing? fields seen = missing? others seen := by
  induction agree with
  | nil => rfl
  | @cons f g fields others first _ ih =>
    simp only [missing?, List.find?_cons, first.name, first.absence]
    cases decide (g.absence = .refused) && !seen.contains g.name with
    | true => exact congrArg some first.name
    | false => exact ih

theorem readField_agree {f g : Field α} {value : Json} (agree : Field.Agree height f g)
    (low : (Tree.ofJson value).height < height) :
    readField mode f (Tree.ofJson value) before = readField mode g (Tree.ofJson value) before := by
  rw [readField, readField, agree.name, agree.read mode value before.record low]

theorem readOpen_agree (agree : List.Forall₂ (Field.Agree height) fields others)
    (low : ∀ e ∈ es, (Tree.ofJson e.2).height < height) :
    readOpen mode fields (Tree.ofJsonEntries es) before =
      readOpen mode others (Tree.ofJsonEntries es) before := by
  induction es generalizing before with
  | nil => rfl
  | cons e rest ih =>
    obtain ⟨name, v⟩ := e
    obtain ⟨here, later⟩ := List.forall_mem_cons.mp low
    rw [Tree.ofJsonEntries, readOpen, readOpen]
    simp only [Key.read, Tree.ofJson_holdIn, bind, Except.bind]
    have related := field_agree agree name
    cases one : field? fields name with
    | none =>
      rw [one] at related
      cases two : field? others name with
      | none => exact ih later
      | some g =>
        rw [two] at related
        cases related
    | some f =>
      rw [one] at related
      cases two : field? others name with
      | none =>
        rw [two] at related
        cases related
      | some g =>
        rw [two] at related
        cases related with
        | some same =>
          simp only [readField_agree same here]
          cases readField mode g (Tree.ofJson v) before with
          | error e => rfl
          | ok next => exact ih later

/-- Records whose fields agree on the parts of a value agree on the value. -/
theorem readWith_agree {r s : Record α} {finish : List (Key × Tree) → α → Except DecodeError α}
    (agree : List.Forall₂ (Field.Agree height) r.fields s.fields) (blank : r.blank = s.blank)
    (name : r.name = s.name) :
    Reader.Agree (height + 1) (r.readWith finish) (s.readWith finish) := by
  intro mode value low
  cases value with
  | object es =>
    have below : ∀ e ∈ es, (Tree.ofJson e.2).height < height := fun e here =>
      Nat.lt_of_lt_of_le (Tree.height_entry here) (Nat.le_of_lt_succ low)
    simp only [readWith, Tree.ofJson, Tree.bare, blank, readOpen_agree agree below, complete,
      missing_agree agree]
  | _ =>
    simp only [readWith, Tree.ofJson, Tree.bare, Reader.isVoid, label, name, Bool.false_eq_true,
      if_false]

end Record

namespace SchemaNode

variable {height : Nat} {first second : Reader SchemaNode}

theorem readAdditional_agree (agree : Reader.Agree height first second) :
    Reader.Agree height (readAdditional first) (readAdditional second) := by
  intro mode value low
  rw [readAdditional, readAdditional, agree mode value low]

theorem schema_agree (agree : Reader.Agree height first second) :
    Reader.Agree (height + 1) (schema first) (schema second) := by
  have same (f : Field Schema) : Field.Agree height f f := Field.agree_refl f
  have fields : List.Forall₂ (Field.Agree height) (record first).fields (record second).fields :=
    .cons (same _) <| .cons (same _) <| .cons (same _) <| .cons (same _) <| .cons (same _) <|
    .cons (Field.defaulted_agree (Reader.entries_agree agree)) <| .cons (same _) <|
    .cons (Field.optional_agree (readAdditional_agree agree)) <|
    .cons (Field.optional_agree agree) <|
    .cons (Field.defaulted_agree (Reader.list_agree agree)) <|
    .cons (Field.defaulted_agree (Reader.list_agree agree)) <|
    .cons (Field.defaulted_agree (Reader.list_agree agree)) <|
    .cons (same _) <| .cons (same _) <| .cons (same _) <| .cons (same _) <| .cons (same _) <|
    .cons (same _) <| .cons (same _) <| .cons (same _) .nil
  unfold schema Record.readExtended
  exact Record.readWith_agree fields rfl rfl

theorem readWithin_agree {levels more : Nat} (enough : height ≤ levels) (enoughToo : height ≤ more) :
    Reader.Agree height (readWithin levels) (readWithin more) := by
  induction height generalizing levels more with
  | zero => exact fun _ _ low => absurd low (Nat.not_lt_zero _)
  | succ height ih =>
    cases levels with
    | zero => exact absurd enough (Nat.not_succ_le_zero _)
    | succ levels =>
      cases more with
      | zero => exact absurd enoughToo (Nat.not_succ_le_zero _)
      | succ more =>
        have nested := ih (Nat.le_of_succ_le_succ enough) (Nat.le_of_succ_le_succ enoughToo)
        exact Reader.lenient_agree (schema_agree nested)

/-- Reading a schema node of a JSON value, without a bound on how deep it nests. -/
theorem read_lenient (mode : Mode) (value : Json) :
    read mode (Tree.ofJson value) =
      Reader.lenient .reference (schema read) .inline .invalid mode (Tree.ofJson value) := by
  have nested : Reader.Agree (Tree.ofJson value).height (readWithin (Tree.ofJson value).height) read :=
    fun mode part low => readWithin_agree low (Nat.le_refl _) mode part (Nat.lt_succ_self _)
  exact Reader.lenient_agree (schema_agree nested) mode value (Nat.lt_succ_self _)

end SchemaNode

end ApiLowering
