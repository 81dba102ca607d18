/-
  DesignMarkup/Proofs/Text/Blank.lean
  ===================================
  **What trimming leaves.**  A text is trimmed for a property if neither its first nor its last
  character has it.  `trimBoth` gives a trimmed text, leaves a trimmed one as it is, and does
  not see what stands around a text as long as all of that has the property.
-/
import DesignMarkup.Text.Blank
import Mathlib.Data.List.DropRight

namespace DesignMarkup.Text

variable {p : Char → Bool} {text : List Char}

theorem trimBoth_eq (p : Char → Bool) (text : List Char) :
    trimBoth p text = (text.dropWhile p).rdropWhile p := rfl

theorem mem_of_mem_trimBoth {c : Char} (h : c ∈ trimBoth p text) : c ∈ text :=
  (List.dropWhile_suffix p).subset ((List.rdropWhile_prefix p _).subset h)

/-! ### Around a text -/

theorem trimBoth_append_left {front : List Char} (h : ∀ c ∈ front, p c = true)
    (text : List Char) : trimBoth p (front ++ text) = trimBoth p text := by
  rw [trimBoth_eq, List.dropWhile_append_of_pos h, trimBoth_eq]

theorem trimBoth_append_right {back : List Char} (h : ∀ c ∈ back, p c = true)
    (text : List Char) : trimBoth p (text ++ back) = trimBoth p text := by
  have hback : back.dropWhile p = [] := List.dropWhile_eq_nil_iff.mpr h
  rw [trimBoth_eq, trimBoth_eq, List.dropWhile_append]
  split_ifs with hempty
  · rw [hback, List.isEmpty_iff.mp hempty]
  · rw [List.rdropWhile, List.reverse_append,
      List.dropWhile_append_of_pos fun c hc => h c (List.mem_reverse.mp hc), List.rdropWhile]

/-- What a character without the property stops. -/
theorem dropWhile_append_cons {stop : Char} (h : p stop = false) (front rest : List Char) :
    (front ++ stop :: rest).dropWhile p = front.dropWhile p ++ stop :: rest := by
  induction front with
  | nil => exact List.dropWhile_cons_of_neg (by simp [h])
  | cons c front ih =>
    by_cases hc : p c = true
    · rw [List.cons_append, List.dropWhile_cons_of_pos hc, List.dropWhile_cons_of_pos hc, ih]
    · rw [List.cons_append, List.dropWhile_cons_of_neg hc, List.dropWhile_cons_of_neg hc,
        List.cons_append]

theorem trimBoth_append_cons {stop : Char} (hstop : p stop = false) {rest : List Char}
    (hrest : ∀ c ∈ rest, p c = false) (front : List Char) :
    trimBoth p (front ++ stop :: rest) = front.dropWhile p ++ stop :: rest := by
  rw [trimBoth_eq, dropWhile_append_cons hstop, List.rdropWhile_eq_self_iff]
  intro hne
  rw [List.getLast_append_of_ne_nil hne (List.cons_ne_nil stop rest)]
  rcases List.mem_cons.mp (List.getLast_mem (List.cons_ne_nil stop rest)) with hlast | hlast
  · simp [hlast, hstop]
  · simp [hrest _ hlast]

/-! ### Trimmed texts -/

/-- Neither end of the text has the property `p`. -/
structure IsTrimmed (p : Char → Bool) (text : List Char) : Prop where
  first : ∀ c, text.head? = some c → p c = false
  last : ∀ c, text.getLast? = some c → p c = false

theorem isTrimmed_iff : IsTrimmed p text ↔
    (∀ c, text.head? = some c → p c = false) ∧ ∀ c, text.getLast? = some c → p c = false :=
  ⟨fun h => ⟨h.first, h.last⟩, fun h => ⟨h.1, h.2⟩⟩

instance (p : Char → Bool) (text : List Char) : Decidable (IsTrimmed p text) :=
  decidable_of_iff
    (text.head?.all (fun c => !p c) = true ∧ text.getLast?.all (fun c => !p c) = true)
    (by simp only [Option.all_eq_true, Bool.not_eq_true', isTrimmed_iff])

theorem isTrimmed_trimBoth (p : Char → Bool) (text : List Char) :
    IsTrimmed p (trimBoth p text) := by
  constructor
  · intro c hc
    obtain ⟨back, hback⟩ := List.rdropWhile_prefix p (text.dropWhile p)
    have hhead := List.head?_dropWhile_not p text
    rw [← hback, List.head?_append, ← trimBoth_eq, hc, Option.some_or] at hhead
    exact hhead
  · intro c hc
    obtain ⟨hne, rfl⟩ := List.mem_getLast?_eq_getLast hc
    exact Bool.eq_false_iff.mpr (List.rdropWhile_last_not p _ hne)

theorem trimBoth_of_isTrimmed (h : IsTrimmed p text) : trimBoth p text = text := by
  have hfront : text.dropWhile p = text := by
    cases text with
    | nil => rfl
    | cons c rest => rw [List.dropWhile_cons_of_neg (by simp [h.first c rfl])]
  rw [trimBoth_eq, hfront, List.rdropWhile_eq_self_iff]
  intro hne
  simp [h.last _ (List.getLast?_eq_some_getLast hne)]

theorem isTrimmed_of_forall (h : ∀ c ∈ text, p c = false) : IsTrimmed p text :=
  ⟨fun c hc => h c (List.mem_of_head? hc), fun c hc => h c (List.mem_of_getLast? hc)⟩

/-- Inside a trimmed text a character can give way to another without the property. -/
theorem IsTrimmed.replace {a b : List Char} {c d : Char} (h : IsTrimmed p (a ++ c :: b))
    (hd : p d = false) : IsTrimmed p (a ++ d :: b) := by
  constructor
  · intro e he
    cases a with
    | nil =>
      obtain rfl : d = e := Option.some.inj he
      exact hd
    | cons first a => exact h.first e he
  · intro e he
    cases b with
    | nil =>
      rw [List.getLast?_concat] at he
      obtain rfl : d = e := Option.some.inj he
      exact hd
    | cons next b =>
      rw [List.getLast?_append_cons, List.getLast?_cons_cons] at he
      apply h.last e
      rw [List.getLast?_append_cons, List.getLast?_cons_cons, he]

/-- What stands around a trimmed text is dropped, and no more. -/
theorem trimBoth_surrounded {front back : List Char} (h : IsTrimmed p text)
    (hfront : ∀ c ∈ front, p c = true) (hback : ∀ c ∈ back, p c = true) :
    trimBoth p (front ++ text ++ back) = text := by
  rw [trimBoth_append_right hback, trimBoth_append_left hfront, trimBoth_of_isTrimmed h]

/-! ### White space -/

/-- All of the text is white space. -/
def AllBlank (text : String) : Prop := ∀ c ∈ text.toList, isBlank c = true

instance (text : String) : Decidable (AllBlank text) :=
  decidable_of_iff (text.toList.all isBlank = true) List.all_eq_true

/-- No white space stands at either end. -/
def IsTidy (text : String) : Prop := IsTrimmed isBlank text.toList
deriving Decidable

theorem trim_surrounded {u text v : String} (h : IsTidy text) (hu : AllBlank u) (hv : AllBlank v) :
    trim (u ++ text ++ v) = text := by
  rw [trim, String.toList_append, String.toList_append, trimBoth_surrounded h hu hv,
    String.ofList_toList]

theorem isTidy_trim (text : String) : IsTidy (trim text) := by
  rw [IsTidy, trim, String.toList_ofList]
  exact isTrimmed_trimBoth isBlank text.toList

theorem mem_of_mem_trim {c : Char} {text : String} (h : c ∈ (trim text).toList) :
    c ∈ text.toList := by
  rw [trim, String.toList_ofList] at h
  exact mem_of_mem_trimBoth h

theorem trim_of_isTidy {text : String} (h : IsTidy text) : trim text = text := by
  rw [trim, trimBoth_of_isTrimmed h, String.ofList_toList]

end DesignMarkup.Text
