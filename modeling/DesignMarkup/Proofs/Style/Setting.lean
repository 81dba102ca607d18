/-
  DesignMarkup/Proofs/Style/Setting.lean
  ======================================
  **What declarations hold after a run of settings.**  A property that is set for the first
  time comes last; one that is set again keeps its place and gets the new value.  So the
  properties stand in the order in which they were first set, each once, and each has the
  value that it was given last.

  What one setting does to the properties (`keys_setIn`) and to the values (`lookup_setIn`) is
  said apart.  `IsAfter` ties both to the settings made so far; one more setting keeps it
  (`IsAfter.set`), and so does a run of them (`IsAfter.setAll`).
-/
import DesignMarkup.Proofs.Json.Members
import DesignMarkup.Proofs.Style.Properties
import Mathlib.Data.List.Induction

namespace DesignMarkup

/-! ### Lists without their repetitions -/

section EraseDups

variable {α : Type} [DecidableEq α]

/-- An element at the end counts if it did not come before. -/
theorem eraseDups_concat (l : List α) (a : α) :
    (l ++ [a]).eraseDups = if a ∈ l then l.eraseDups else l.eraseDups ++ [a] := by
  rw [List.eraseDups_append, List.removeAll, List.filter_singleton]
  by_cases h : a ∈ l
  · have hnew : (!List.elem a l) = false := by simpa using h
    rw [if_pos h, hnew]
    exact List.append_nil _
  · have hnew : (!List.elem a l) = true := by simpa using h
    rw [if_neg h, hnew]
    rfl

theorem nodup_eraseDups (l : List α) : l.eraseDups.Nodup := by
  induction l using List.reverseRecOn with
  | nil => exact List.nodup_nil
  | append_singleton l a ih =>
    rw [eraseDups_concat]
    split_ifs with h
    · exact ih
    · refine ih.append (List.nodup_singleton a) ?_
      rw [List.disjoint_singleton, List.mem_eraseDups]
      exact h

end EraseDups

namespace Declarations

/-! ### One setting -/

theorem keys_setIn (property value : String) (pairs : List (String × String)) :
    (setIn property value pairs).map Prod.fst =
      if property ∈ pairs.map Prod.fst then pairs.map Prod.fst
      else pairs.map Prod.fst ++ [property] := by
  split_ifs with h
  · induction pairs with
    | nil => exact absurd h List.not_mem_nil
    | cons first rest ih =>
      rw [setIn]
      split_ifs with hfirst
      · rfl
      · have hrest := (List.mem_cons.mp h).resolve_left fun heq => hfirst heq.symm
        rw [List.map_cons, List.map_cons, ih hrest]
  · rw [setIn_of_notMem h, List.map_append]
    rfl

theorem lookup_setIn (property value other : String) (pairs : List (String × String)) :
    (setIn property value pairs).lookup other =
      if other = property then some value else pairs.lookup other := by
  induction pairs with
  | nil => exact Json.lookup_cons_eq property value other []
  | cons first rest ih =>
    obtain ⟨key, old⟩ := first
    rw [setIn]
    split_ifs with hkey hother hother
    · rw [hother, hkey, List.lookup_cons_self]
    · rw [Json.lookup_cons_eq, Json.lookup_cons_eq, hkey, if_neg hother, if_neg hother]
    · rw [Json.lookup_cons_eq, ih, if_pos hother, if_neg fun heq => hkey (heq.symm.trans hother)]
    · rw [Json.lookup_cons_eq, Json.lookup_cons_eq, ih, if_neg hother]

/-- Two properties that are there already can be set in either order. -/
theorem setIn_comm {property property' : String} {pairs : List (String × String)}
    (hne : property ≠ property') (h : property ∈ pairs.map Prod.fst)
    (h' : property' ∈ pairs.map Prod.fst) (value value' : String) :
    setIn property value (setIn property' value' pairs) =
      setIn property' value' (setIn property value pairs) := by
  induction pairs with
  | nil => exact absurd h List.not_mem_nil
  | cons first rest ih =>
    obtain ⟨key, old⟩ := first
    by_cases hkey : key = property
    · subst hkey
      simp only [setIn, if_neg hne, if_true]
    · by_cases hkey' : key = property'
      · subst hkey'
        simp only [setIn, if_neg hkey, if_true]
      · have hrest := (List.mem_cons.mp h).resolve_left fun heq => hkey heq.symm
        have hrest' := (List.mem_cons.mp h').resolve_left fun heq => hkey' heq.symm
        simp only [setIn, if_neg hkey, if_neg hkey', ih hrest hrest']

/-! ### A run of settings -/

/-- The property was set to the value, and not again after that. -/
def WasLastSet (pairs : List (String × String)) (property value : String) : Prop :=
  ∃ before after, pairs = before ++ (property, value) :: after ∧
    property ∉ after.map Prod.fst

/-- Looked for from the end, the first setting of a property is the last that was made. -/
theorem lookup_reverse_eq_some_iff {pairs : List (String × String)} {property value : String} :
    pairs.reverse.lookup property = some value ↔ WasLastSet pairs property value := by
  rw [List.lookup_eq_some_iff]
  constructor
  · rintro ⟨after, before, hsplit, hafter⟩
    refine ⟨before.reverse, after.reverse, ?_, fun hmem => ?_⟩
    · rw [← List.reverse_inj, hsplit]
      simp
    · obtain ⟨pair, hpair, rfl⟩ := List.mem_map.mp hmem
      exact bne_iff_ne.mp (hafter pair (List.mem_reverse.mp hpair)) rfl
  · rintro ⟨before, after, rfl, hafter⟩
    refine ⟨after.reverse, before.reverse, by simp, fun pair hpair => bne_iff_ne.mpr ?_⟩
    rintro rfl
    exact hafter (List.mem_map_of_mem (List.mem_reverse.mp hpair))

/-- What `pairs` make of declarations when they are set one after the other. -/
structure IsAfter (pairs : List (String × String)) (d : Declarations) : Prop where
  order : d.toList.map Prod.fst = (pairs.map Prod.fst).eraseDups
  value : ∀ property, d.get? property = pairs.reverse.lookup property

theorem isAfter_empty : IsAfter [] empty := ⟨rfl, fun _ => rfl⟩

/-- **One more setting.** -/
theorem IsAfter.set {pairs : List (String × String)} {d : Declarations} (h : IsAfter pairs d)
    (property value : String) :
    IsAfter (pairs ++ [(property, value)]) (d.set property value) where
  order := by
    rw [Declarations.set, keys_setIn, h.order, List.map_append, List.map_singleton,
      eraseDups_concat]
    simp only [List.mem_eraseDups]
  value other := by
    rw [get?, Declarations.set, lookup_setIn, List.reverse_append, List.reverse_singleton,
      List.singleton_append, Json.lookup_cons_eq, ← h.value, get?]

/-- **A run of settings.** -/
theorem IsAfter.setAll {before : List (String × String)} {d : Declarations}
    (h : IsAfter before d) (pairs : List (String × String)) :
    IsAfter (before ++ pairs) (d.setAll pairs) := by
  induction pairs generalizing before d with
  | nil =>
    rw [List.append_nil]
    exact h
  | cons pair rest ih =>
    have hrest := ih (h.set pair.1 pair.2)
    rw [List.append_assoc, List.singleton_append] at hrest
    exact hrest

theorem isAfter_ofList (pairs : List (String × String)) : IsAfter pairs (ofList pairs) :=
  isAfter_empty.setAll pairs

namespace IsAfter

variable {pairs : List (String × String)} {d : Declarations}

theorem nodup (h : IsAfter pairs d) : (d.toList.map Prod.fst).Nodup := by
  rw [h.order]
  exact nodup_eraseDups _

theorem mem_keys_iff (h : IsAfter pairs d) {property : String} :
    property ∈ d.toList.map Prod.fst ↔ property ∈ pairs.map Prod.fst := by
  rw [h.order, List.mem_eraseDups]

theorem get?_eq_some_iff (h : IsAfter pairs d) {property value : String} :
    d.get? property = some value ↔ WasLastSet pairs property value := by
  rw [h.value, lookup_reverse_eq_some_iff]

theorem mem_iff (h : IsAfter pairs d) {property value : String} :
    (property, value) ∈ d.toList ↔ WasLastSet pairs property value := by
  rw [← h.get?_eq_some_iff]
  exact ⟨Json.lookup_of_mem h.nodup, Json.mem_of_lookup⟩

theorem get?_eq_none_iff (h : IsAfter pairs d) {property : String} :
    d.get? property = none ↔ property ∉ pairs.map Prod.fst := by
  rw [← h.mem_keys_iff, get?, Json.lookup_eq_none_iff_notMem]

theorem isEmpty_iff (h : IsAfter pairs d) : d.isEmpty = true ↔ pairs = [] := by
  have hkeys : d.toList = [] ↔ pairs.map Prod.fst = [] := by
    rw [← List.map_eq_nil_iff (f := Prod.fst), List.eq_nil_iff_forall_not_mem,
      List.eq_nil_iff_forall_not_mem]
    simp only [h.mem_keys_iff]
  rw [isEmpty, List.isEmpty_iff, hkeys, List.map_eq_nil_iff]

end IsAfter

/-- **Declarations are a map in the order of first setting.**  Whatever is set, one after the
    other, each property comes once, the properties are in the order in which they were first
    set, and each has the value that it was given last.  That value is what is found under it,
    and nothing is found under a property that was not set.  There are no declarations just if
    nothing was set.  Two different properties that are there can be set in either order. -/
theorem keys_values_ofList (pairs : List (String × String)) :
    ((ofList pairs).toList.map Prod.fst).Nodup ∧
    (ofList pairs).toList.map Prod.fst = (pairs.map Prod.fst).eraseDups ∧
    (∀ property value, (property, value) ∈ (ofList pairs).toList ↔
      WasLastSet pairs property value) ∧
    (∀ property value, (ofList pairs).get? property = some value ↔
      WasLastSet pairs property value) ∧
    (∀ property, (ofList pairs).get? property = none ↔ property ∉ pairs.map Prod.fst) ∧
    ((ofList pairs).isEmpty = true ↔ pairs = []) ∧
    ∀ property property' value value', property ≠ property' →
      property ∈ pairs.map Prod.fst → property' ∈ pairs.map Prod.fst →
      ((ofList pairs).set property value).set property' value' =
        ((ofList pairs).set property' value').set property value := by
  have hafter := isAfter_ofList pairs
  refine ⟨hafter.nodup, hafter.order, fun _ _ => hafter.mem_iff,
    fun _ _ => hafter.get?_eq_some_iff, fun _ => hafter.get?_eq_none_iff, hafter.isEmpty_iff, ?_⟩
  intro property property' value value' hne h h'
  have hthere := hafter.mem_keys_iff.mpr h
  have hthere' := hafter.mem_keys_iff.mpr h'
  exact congrArg Declarations.mk (setIn_comm hne.symm hthere' hthere value' value)

example : (ofList [("a", "1"), ("b", "2"), ("a", "3")]).text = "a: 3; b: 2;" := by decide

end Declarations

end DesignMarkup
