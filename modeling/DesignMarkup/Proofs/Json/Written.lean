/-
  DesignMarkup/Proofs/Json/Written.lean
  =====================================
  **A text as it is written.**  A value keeps the members of an object in the order of
  their keys and each key once.  The readers that know what they are looking for see the
  text before that: members in the order in which they stand, some of them twice.

  `scanWritten` reads a value and leaves its members as they stand, and `Value.sorted` puts
  them in order afterwards.  Both together are `scanValue` (`scanValue_eq`), so that every
  text that is the text of some value has a written form (`parseValue_eq_ok_iff`).

  `ValueAt` is the layout of what is written: one case for what is neither list nor object,
  one for lists and one for objects.  The typed readers look at the first character of a
  value only, and `null_of_valueAt` to `object_of_valueAt` say what it announces.
-/
import DesignMarkup.Json.Record
import DesignMarkup.Proofs.Json.Layout

namespace DesignMarkup.Json

/-- Read a value and leave its members in the order written. -/
def scanWritten (fuel : Nat) : Nat → Text → Outcome (Value × Text)
  | 0, text =>
    match skipSpace text with
    | '[' :: rest => rejectPast .nestedTooDeep ('[' :: rest)
    | '{' :: rest => rejectPast .nestedTooDeep ('{' :: rest)
    | other => scanScalar fuel other
  | depth + 1, text =>
    match skipSpace text with
    | '[' :: rest => do
      let (items, rest) ← scanArray .keep (scanWritten fuel depth) fuel rest
      .ok (.array items, rest)
    | '{' :: rest => do
      let (members, rest) ← scanObject .keep (scanWritten fuel depth) fuel rest
      .ok (.object members, rest)
    | other => scanScalar fuel other

mutual

/-- The value with the members of all its objects in order, the last of equal keys winning. -/
def Value.sorted : Value → Value
  | .array items => .array (sortedItems items)
  | .object members => .object (sortMembers (sortedMembers members))
  | v => v

def sortedItems : List Value → List Value
  | [] => []
  | v :: rest => v.sorted :: sortedItems rest

def sortedMembers : List (String × Value) → List (String × Value)
  | [] => []
  | (key, v) :: rest => (key, v.sorted) :: sortedMembers rest

end

theorem sortedItems_eq_map (items : List Value) : sortedItems items = items.map Value.sorted := by
  induction items with
  | nil => rfl
  | cons v rest ih => rw [sortedItems, ih, List.map_cons]

theorem sortedMembers_eq_map (members : List (String × Value)) :
    sortedMembers members = members.map (Prod.map id Value.sorted) := by
  induction members with
  | nil => rfl
  | cons m rest ih =>
    obtain ⟨key, v⟩ := m
    rw [sortedMembers, ih, List.map_cons]
    rfl

/-! ### Lists and members of what is read -/

section Mapping

variable {α β γ : Type}

theorem map_bind (x : Outcome α) (g : β → Outcome γ) (f : α → β) :
    (x.map f >>= g) = (x >>= fun a => g (f a)) := by
  cases x <;> rfl

theorem bind_map (x : Outcome α) (g : α → Outcome β) (f : β → γ) :
    (x >>= g).map f = (x >>= fun a => (g a).map f) := by
  cases x <;> rfl

variable (f : α → β) {mode : Mode} {item : Text → Outcome (α × Text)}

/-- The scan, and `f` of what it reads. -/
def scanMap (scan : Text → Outcome (α × Text)) : Text → Outcome (β × Text) := fun text =>
  (scan text).map (Prod.map f id)

theorem scanItems_map (fuel : Nat) :
    scanItems mode (scanMap f item) fuel = scanMap (List.map f) (scanItems mode item fuel) := by
  induction fuel with
  | zero => rfl
  | succ fuel ih =>
    funext text
    simp only [scanItems, scanMap, ih, map_bind, bind_map, Prod.map_fst, Prod.map_snd, id_eq]
    congr 1
    funext r
    split
    · rfl
    · rfl
    · split
      · rfl
      · rfl
      · rw [bind_map]
        rfl
    · rfl

theorem scanArray_map (fuel : Nat) :
    scanArray mode (scanMap f item) fuel = scanMap (List.map f) (scanArray mode item fuel) := by
  funext text
  simp only [scanArray, scanMap, scanItems_map]
  split
  · rfl
  · rfl
  · rfl

theorem scanMembers_map (fuel : Nat) :
    scanMembers mode (scanMap f item) fuel =
      scanMap (List.map (Prod.map id f)) (scanMembers mode item fuel) := by
  induction fuel with
  | zero => rfl
  | succ fuel ih =>
    funext text
    simp only [scanMembers, scanMap, ih, map_bind, bind_map, Prod.map_fst, Prod.map_snd, id_eq]
    congr 1
    funext key
    congr 1
    funext colon
    congr 1
    funext r
    split
    · rfl
    · rfl
    · split
      · cases mode <;> rfl
      · rfl
      · rw [bind_map]
        rfl
    · rfl

theorem scanObject_map (fuel : Nat) :
    scanObject mode (scanMap f item) fuel =
      scanMap (List.map (Prod.map id f)) (scanObject mode item fuel) := by
  funext text
  simp only [scanObject, scanMap, scanMembers_map]
  split
  · rfl
  · rfl
  · rfl

end Mapping

/-! ### Values -/

theorem sorted_of_scanScalar {fuel : Nat} {text rest : Text} {v : Value}
    (h : scanScalar fuel text = .ok (v, rest)) : v.sorted = v := by
  cases scalarAt_of_scanScalar h <;> rfl

theorem scanScalar_map (fuel : Nat) : scanMap Value.sorted (scanScalar fuel) = scanScalar fuel := by
  funext text
  rw [scanMap]
  cases h : scanScalar fuel text with
  | error r => rfl
  | ok r =>
    obtain ⟨v, rest⟩ := r
    rw [Except.map, Prod.map_apply, sorted_of_scanScalar h, id_eq]

/-- The text begins with neither a bracket nor a brace. -/
def AtScalar (text : Text) : Prop := ∀ rest, text ≠ '[' :: rest ∧ text ≠ '{' :: rest

theorem opening_cases (text : Text) :
    (∃ rest, text = '[' :: rest) ∨ (∃ rest, text = '{' :: rest) ∨ AtScalar text := by
  by_cases ha : ∃ rest, text = '[' :: rest
  · exact Or.inl ha
  · by_cases ho : ∃ rest, text = '{' :: rest
    · exact Or.inr (Or.inl ho)
    · exact Or.inr (Or.inr fun rest => ⟨fun h => ha ⟨rest, h⟩, fun h => ho ⟨rest, h⟩⟩)

theorem scanValue_scalar {fuel depth : Nat} {text : Text} (h : AtScalar (skipSpace text)) :
    scanValue fuel depth text = scanScalar fuel (skipSpace text) := by
  cases depth with
  | zero =>
    rw [scanValue]
    split
    · next rest heq => exact absurd heq (h rest).1
    · next rest heq => exact absurd heq (h rest).2
    · rfl
  | succ depth =>
    rw [scanValue]
    split
    · next rest heq => exact absurd heq (h rest).1
    · next rest heq => exact absurd heq (h rest).2
    · rfl

theorem scanWritten_scalar {fuel depth : Nat} {text : Text} (h : AtScalar (skipSpace text)) :
    scanWritten fuel depth text = scanScalar fuel (skipSpace text) := by
  cases depth with
  | zero =>
    rw [scanWritten]
    split
    · next rest heq => exact absurd heq (h rest).1
    · next rest heq => exact absurd heq (h rest).2
    · rfl
  | succ depth =>
    rw [scanWritten]
    split
    · next rest heq => exact absurd heq (h rest).1
    · next rest heq => exact absurd heq (h rest).2
    · rfl

/-- **Reading a value is reading what is written and putting it in order.** -/
theorem scanValue_eq (fuel depth : Nat) :
    scanValue fuel depth = scanMap Value.sorted (scanWritten fuel depth) := by
  induction depth with
  | zero =>
    funext text
    rw [scanMap]
    rcases opening_cases (skipSpace text) with ⟨rest, h⟩ | ⟨rest, h⟩ | h
    · rw [scanValue, scanWritten, h]
      rfl
    · rw [scanValue, scanWritten, h]
      rfl
    · rw [scanValue_scalar h, scanWritten_scalar h]
      exact (congrFun (scanScalar_map fuel) _).symm
  | succ depth ih =>
    funext text
    rw [scanMap]
    rcases opening_cases (skipSpace text) with ⟨rest, h⟩ | ⟨rest, h⟩ | h
    · simp only [scanValue, scanWritten, h]
      rw [ih, scanArray_map, scanMap, map_bind, bind_map]
      congr 1
      funext r
      simp only [Except.map, Prod.map, Value.sorted, sortedItems_eq_map, id_eq]
    · simp only [scanValue, scanWritten, h]
      rw [ih, scanObject_map, scanMap, map_bind, bind_map]
      congr 1
      funext r
      simp only [Except.map, Prod.map, Value.sorted, sortedMembers_eq_map, id_eq]
    · rw [scanValue_scalar h, scanWritten_scalar h]
      exact (congrFun (scanScalar_map fuel) _).symm

theorem advances_scanWritten (fuel depth : Nat) : Advances (scanWritten fuel depth) := by
  induction depth with
  | zero =>
    intro text w rest h
    rcases opening_cases (skipSpace text) with ⟨tail, hopen⟩ | ⟨tail, hopen⟩ | hopen
    · rw [scanWritten, hopen] at h
      cases h
    · rw [scanWritten, hopen] at h
      cases h
    · rw [scanWritten_scalar hopen] at h
      exact (advances_scanScalar fuel h).trans_le (length_skipSpace_le text)
  | succ depth ih =>
    intro text w rest h
    rcases opening_cases (skipSpace text) with ⟨tail, hopen⟩ | ⟨tail, hopen⟩ | hopen
    · simp only [scanWritten, hopen] at h
      obtain ⟨⟨items, last⟩, hitems, h⟩ := bind_eq_ok.mp h
      cases h
      exact (advances_scanArray ih fuel hitems).trans (length_lt_of_skipSpace hopen)
    · simp only [scanWritten, hopen] at h
      obtain ⟨⟨members, last⟩, hmembers, h⟩ := bind_eq_ok.mp h
      cases h
      exact (advances_scanObject ih fuel hmembers).trans (length_lt_of_skipSpace hopen)
    · rw [scanWritten_scalar hopen] at h
      exact (advances_scanScalar fuel h).trans_le (length_skipSpace_le text)

/-! ### How a value lies in a text -/

/-- A value by its first character, and what is left after it. -/
inductive ValueAt (fuel : Nat) : Nat → Text → Value → Text → Prop
  | scalar {depth : Nat} {text rest : Text} {w : Value} (h : ScalarAt fuel text w rest) :
    ValueAt fuel depth text w rest
  | array {depth : Nat} {tail rest : Text} {items : List Value}
    (h : ItemsAt (scanWritten fuel depth) true tail items rest) :
    ValueAt fuel (depth + 1) ('[' :: tail) (.array items) rest
  | object {depth : Nat} {tail rest : Text} {members : List (String × Value)}
    (h : MembersAt (scanKey .keep fuel) (scanWritten fuel depth) true tail members rest) :
    ValueAt fuel (depth + 1) ('{' :: tail) (.object members) rest

/-- **A value that is read lies in the text as its first character announces.** -/
theorem valueAt_of_scanWritten {fuel depth : Nat} {text rest : Text} {w : Value}
    (hfuel : text.length < fuel) (h : scanWritten fuel depth text = .ok (w, rest)) :
    ValueAt fuel depth (skipSpace text) w rest := by
  rcases opening_cases (skipSpace text) with ⟨tail, hopen⟩ | ⟨tail, hopen⟩ | hopen
  · cases depth with
    | zero =>
      rw [scanWritten, hopen] at h
      cases h
    | succ depth =>
      simp only [scanWritten, hopen] at h
      obtain ⟨⟨items, last⟩, hitems, h⟩ := bind_eq_ok.mp h
      cases h
      rw [hopen]
      exact .array (itemsAt_of_scanArray hitems)
  · cases depth with
    | zero =>
      rw [scanWritten, hopen] at h
      cases h
    | succ depth =>
      simp only [scanWritten, hopen] at h
      obtain ⟨⟨members, last⟩, hmembers, h⟩ := bind_eq_ok.mp h
      cases h
      have hlt := length_lt_of_skipSpace hopen
      rw [hopen]
      exact .object (membersAt_of_scanObject (advances_scanWritten fuel depth) (by omega) hmembers)
  · rw [scanWritten_scalar hopen] at h
    exact .scalar (scalarAt_of_scanScalar h)

section FirstCharacter

variable {fuel depth : Nat} {tail rest : Text} {w : Value}

theorem not_valueAt_nil : ¬ValueAt fuel depth [] w rest := by
  rintro (h | h | h)
  cases h

theorem null_of_valueAt (h : ValueAt fuel depth ('n' :: tail) w rest) :
    w = .null ∧ scanWord ['u', 'l', 'l'] tail = .ok ((), rest) := by
  obtain h | h | h := h
  cases h with
  | null hword => exact ⟨rfl, hword⟩
  | number hc _ => exact absurd hc (by decide)

theorem string_of_valueAt (h : ValueAt fuel depth ('"' :: tail) w rest) :
    ∃ s, w = .string s ∧ scanString .keep fuel tail = .ok (s, rest) := by
  obtain h | h | h := h
  cases h with
  | string hstring => exact ⟨_, rfl, hstring⟩
  | number hc _ => exact absurd hc (by decide)

theorem array_of_valueAt (h : ValueAt fuel (depth + 1) ('[' :: tail) w rest) :
    ∃ items, w = .array items ∧ ItemsAt (scanWritten fuel depth) true tail items rest := by
  cases h with
  | scalar h =>
    cases h with
    | number hc _ => exact absurd hc (by decide)
  | array hitems => exact ⟨_, rfl, hitems⟩

theorem object_of_valueAt (h : ValueAt fuel (depth + 1) ('{' :: tail) w rest) :
    ∃ members, w = .object members ∧
      MembersAt (scanKey .keep fuel) (scanWritten fuel depth) true tail members rest := by
  cases h with
  | scalar h =>
    cases h with
    | number hc _ => exact absurd hc (by decide)
  | object hmembers => exact ⟨_, rfl, hmembers⟩

variable {text : Text}

theorem text_of_null (h : ValueAt fuel depth text .null rest) : ∃ tail, text = 'n' :: tail := by
  obtain h | h | h := h
  cases h
  exact ⟨_, rfl⟩

theorem text_of_string {s : String} (h : ValueAt fuel depth text (.string s) rest) :
    ∃ tail, text = '"' :: tail := by
  obtain h | h | h := h
  cases h
  exact ⟨_, rfl⟩

theorem text_of_array {items : List Value} (h : ValueAt fuel depth text (.array items) rest) :
    ∃ tail, text = '[' :: tail := by
  cases h with
  | scalar h => cases h
  | array _ => exact ⟨_, rfl⟩

theorem text_of_object {members : List (String × Value)}
    (h : ValueAt fuel depth text (.object members) rest) : ∃ tail, text = '{' :: tail := by
  cases h with
  | scalar h => cases h
  | object _ => exact ⟨_, rfl⟩

end FirstCharacter

/-! ### Whole texts -/

/-- Read a text that is a value. -/
def parseValue (text : String) : Except ParseError Value :=
  (Reader.run (ν := Empty) (fun fuel => Reader.scan (scanValue fuel maxDepth)) text).1

/-- What is written in a text that is a value. -/
def written? (text : String) : Option Value :=
  match scanWritten (text.toList.length + 1) maxDepth text.toList with
  | .ok (w, rest) => if (skipSpace rest).isEmpty then some w else none
  | .error _ => none

theorem written?_eq_some_iff {text : String} {w : Value} :
    written? text = some w ↔ ∃ rest,
      scanWritten (text.toList.length + 1) maxDepth text.toList = .ok (w, rest) ∧
        skipSpace rest = [] := by
  unfold written?
  constructor
  · intro h
    split at h
    · next w' rest hscan =>
      split_ifs at h with hempty
      obtain rfl := Option.some.inj h
      exact ⟨rest, hscan, List.isEmpty_iff.mp hempty⟩
    · cases h
  · rintro ⟨rest, hscan, hspace⟩
    rw [hscan]
    simp only [hspace, List.isEmpty_nil, if_true]

/-- **A text that is a value has a written form,** which the value is in order of keys. -/
theorem parseValue_eq_ok_iff {text : String} {v : Value} :
    parseValue text = .ok v ↔ ∃ w, written? text = some w ∧ w.sorted = v := by
  simp only [parseValue, Reader.run, Reader.scan, scanValue_eq, scanMap, written?_eq_some_iff]
  constructor
  · intro h
    cases hscan : scanWritten (text.toList.length + 1) maxDepth text.toList with
    | error r =>
      rw [hscan] at h
      cases h
    | ok r =>
      obtain ⟨w, rest⟩ := r
      rw [hscan] at h
      simp only [Except.map, Prod.map_apply, id_eq] at h
      split at h
      · next hspace => exact ⟨w, ⟨rest, rfl, hspace⟩, Except.ok.inj h⟩
      · cases h
  · rintro ⟨w, ⟨rest, hscan, hspace⟩, rfl⟩
    rw [hscan]
    simp only [Except.map, Prod.map_apply, id_eq, hspace]

end DesignMarkup.Json
