/-
  DesignMarkup/Proofs/Json/Members.lean
  =====================================
  **The members of an object are a map.**  Members stand in strictly ascending order of
  their keys (`IsAscending`), so that no key occurs twice.  Putting a member in its place
  keeps the order, and neither that nor taking a member out touches the other keys.

  `setMember` is both in one: a value for a key, or none.  `sortMembers` puts members in
  their places one by one; where no key occurs twice it only reorders them
  (`perm_sortMembers`).
-/
import DesignMarkup.Json.Value
import Mathlib.Tactic.Common

namespace DesignMarkup.Json

variable {α : Type}

/-- Each key is greater than the one before it. -/
def IsAscending (members : List (String × α)) : Prop := members.Pairwise fun a b => a.1 < b.1

instance (members : List (String × α)) : Decidable (IsAscending members) := by
  unfold IsAscending
  infer_instance

/-- Give the key a value, or take the member of the key out. -/
def setMember (key : String) : Option α → List (String × α) → List (String × α)
  | some value, members => insertMember key value members
  | none, members => members.filter fun m => m.1 != key

theorem lookup_cons_eq {κ : Type} [DecidableEq κ] (key : κ) (value : α) (other : κ)
    (rest : List (κ × α)) :
    ((key, value) :: rest).lookup other =
      if other = key then some value else rest.lookup other := by
  split_ifs with h
  · rw [h, List.lookup_cons_self]
  · rw [List.lookup_cons, beq_false_of_ne h]

theorem mem_of_lookup {κ : Type} [DecidableEq κ] {key : κ} {value : α} {pairs : List (κ × α)}
    (h : pairs.lookup key = some value) : (key, value) ∈ pairs := by
  obtain ⟨before, after, rfl, -⟩ := List.lookup_eq_some_iff.mp h
  exact List.mem_append_right before List.mem_cons_self

/-- A pair is found under its key, if no other pair has that key. -/
theorem lookup_of_mem {κ : Type} [DecidableEq κ] {key : κ} {value : α} {pairs : List (κ × α)}
    (h : (pairs.map Prod.fst).Nodup) (hmem : (key, value) ∈ pairs) :
    pairs.lookup key = some value := by
  obtain ⟨before, after, rfl⟩ := List.append_of_mem hmem
  refine List.lookup_eq_some_iff.mpr ⟨before, after, rfl, fun p hp => ?_⟩
  rw [List.map_append, List.map_cons, List.nodup_append] at h
  exact bne_iff_ne.mpr (h.2.2 p.1 (List.mem_map_of_mem hp) key List.mem_cons_self).symm

theorem lookup_eq_none_iff_notMem {κ : Type} [DecidableEq κ] {key : κ} {pairs : List (κ × α)} :
    pairs.lookup key = none ↔ key ∉ pairs.map Prod.fst := by
  rw [List.lookup_eq_none_iff, List.mem_map]
  constructor
  · rintro h ⟨pair, hpair, rfl⟩
    exact absurd rfl (bne_iff_ne.mp (h pair hpair))
  · intro h pair hpair
    apply bne_iff_ne.mpr
    rintro rfl
    exact h ⟨pair, hpair, rfl⟩

theorem IsAscending.nodup_keys {members : List (String × α)} (h : IsAscending members) :
    (members.map Prod.fst).Nodup :=
  List.pairwise_map.mpr (List.Pairwise.imp String.ne_of_lt h)

/-! ### Putting a member in its place -/

theorem mem_insertMember {key : String} {value : α} {m : String × α}
    {members : List (String × α)} (h : m ∈ insertMember key value members) :
    m = (key, value) ∨ m ∈ members := by
  induction members with
  | nil => exact Or.inl (List.mem_singleton.mp h)
  | cons first rest ih =>
    obtain ⟨k, v⟩ := first
    unfold insertMember at h
    split_ifs at h with hlt heq
    · exact List.mem_cons.mp h
    · exact (List.mem_cons.mp h).imp_right (List.mem_cons_of_mem (k, v))
    · rcases List.mem_cons.mp h with rfl | h
      · exact Or.inr List.mem_cons_self
      · exact (ih h).imp_right (List.mem_cons_of_mem (k, v))

theorem isAscending_insertMember {members : List (String × α)} (h : IsAscending members)
    (key : String) (value : α) : IsAscending (insertMember key value members) := by
  induction members with
  | nil => exact List.pairwise_singleton _ _
  | cons first rest ih =>
    obtain ⟨k, v⟩ := first
    obtain ⟨hfirst, hrest⟩ := List.pairwise_cons.mp h
    unfold insertMember
    split_ifs with hlt heq
    · refine List.pairwise_cons.mpr ⟨fun m hm => ?_, h⟩
      rcases List.mem_cons.mp hm with rfl | hm
      · exact hlt
      · exact String.lt_trans hlt (hfirst m hm)
    · subst heq
      exact List.pairwise_cons.mpr ⟨hfirst, hrest⟩
    · have hgt : k < key := by
        by_contra hle
        exact heq (String.le_antisymm (String.not_lt.mp hle) (String.not_lt.mp hlt))
      refine List.pairwise_cons.mpr ⟨fun m hm => ?_, ih hrest⟩
      rcases mem_insertMember hm with rfl | hm
      · exact hgt
      · exact hfirst m hm

/-- What is looked for under other keys is found where it was. -/
theorem find?_insertMember {p : String × α → Bool} {key : String} (h : ∀ v, p (key, v) = false)
    (value : α) (members : List (String × α)) :
    (insertMember key value members).find? p = members.find? p := by
  induction members with
  | nil => rw [insertMember, List.find?_cons, h]
  | cons first rest ih =>
    obtain ⟨k, v⟩ := first
    unfold insertMember
    split_ifs with hlt heq
    · rw [List.find?_cons, h]
    · subst heq
      rw [List.find?_cons, List.find?_cons, h, h]
    · rw [List.find?_cons, List.find?_cons, ih]

/-- A new key is put somewhere between the others. -/
theorem perm_insertMember {key : String} {members : List (String × α)}
    (h : key ∉ members.map Prod.fst) (value : α) :
    (insertMember key value members).Perm ((key, value) :: members) := by
  induction members with
  | nil => exact List.Perm.refl _
  | cons first rest ih =>
    obtain ⟨k, v⟩ := first
    obtain ⟨hne, hrest⟩ := not_or.mp fun hmem => h (List.mem_cons.mpr hmem)
    unfold insertMember
    split_ifs with hlt
    · exact List.Perm.refl _
    · exact ((ih hrest).cons (k, v)).trans (List.Perm.swap ..)

/-! ### Members in order -/

theorem isAscending_sortMembers (members : List (String × α)) :
    IsAscending (sortMembers members) := by
  have hfold : ∀ soFar : List (String × α), IsAscending soFar →
      IsAscending (members.foldl (fun ms m => insertMember m.1 m.2 ms) soFar) := by
    induction members with
    | nil => exact fun _ h => h
    | cons m rest ih => exact fun soFar h => ih _ (isAscending_insertMember h m.1 m.2)
  exact hfold [] List.Pairwise.nil

/-- **Members with different keys are only put in another order.** -/
theorem perm_sortMembers {members : List (String × α)} (h : (members.map Prod.fst).Nodup) :
    (sortMembers members).Perm members := by
  have hfold : ∀ soFar : List (String × α), ((members ++ soFar).map Prod.fst).Nodup →
      (members.foldl (fun ms m => insertMember m.1 m.2 ms) soFar).Perm (members ++ soFar) := by
    clear h
    induction members with
    | nil => exact fun _ _ => List.Perm.refl _
    | cons m rest ih =>
      intro soFar hnodup
      have hmiddle : ((rest ++ m :: soFar).map Prod.fst).Nodup :=
        (List.perm_middle.map Prod.fst).nodup_iff.mpr hnodup
      have hnew : m.1 ∉ soFar.map Prod.fst := by
        rw [List.map_append, List.map_cons] at hmiddle
        exact (List.nodup_cons.mp (List.nodup_append.mp hmiddle).2.1).1
      have hinsert : (rest ++ insertMember m.1 m.2 soFar).Perm (rest ++ m :: soFar) :=
        (perm_insertMember hnew m.2).append_left rest
      have hrest := ih (insertMember m.1 m.2 soFar) ((hinsert.map Prod.fst).nodup_iff.mpr hmiddle)
      exact (hrest.trans hinsert).trans List.perm_middle
  rw [← List.append_nil members] at h
  exact (hfold [] h).trans (List.Perm.of_eq (List.append_nil members))

/-! ### Setting a member -/

theorem isAscending_setMember {members : List (String × α)} (h : IsAscending members)
    (key : String) (value : Option α) : IsAscending (setMember key value members) := by
  cases value with
  | none => exact List.Pairwise.filter _ h
  | some value => exact isAscending_insertMember h key value

theorem mem_setMember {key : String} {value : Option α} {m : String × α}
    {members : List (String × α)} (h : m ∈ setMember key value members) :
    m.1 = key ∨ m ∈ members := by
  cases value with
  | none => exact Or.inr (List.mem_filter.mp h).1
  | some value => exact (mem_insertMember h).imp_left (congrArg Prod.fst)

/-- **Setting a member leaves the other keys alone.** -/
theorem find?_setMember {p : String × α → Bool} {key : String} (h : ∀ v, p (key, v) = false)
    (value : Option α) (members : List (String × α)) :
    (setMember key value members).find? p = members.find? p := by
  cases value with
  | some value => exact find?_insertMember h value members
  | none =>
    rw [setMember, List.find?_filter]
    congr 1
    funext m
    by_cases hm : m.1 = key
    · obtain ⟨k, v⟩ := m
      subst hm
      simp [h]
    · simp [hm]

theorem lookup_insertMember (key : String) (value : α) (members : List (String × α)) (k : String) :
    (insertMember key value members).lookup k =
      if k = key then some value else members.lookup k := by
  by_cases hk : k = key
  · subst hk
    rw [if_pos rfl]
    induction members with
    | nil => exact List.lookup_cons_self
    | cons first rest ih =>
      obtain ⟨first, v⟩ := first
      unfold insertMember
      split_ifs with hlt heq
      · exact List.lookup_cons_self
      · exact List.lookup_cons_self
      · rw [List.lookup_cons, beq_false_of_ne heq]
        exact ih
  · have hskip : ∀ rest : List (String × α), ((key, value) :: rest).lookup k = rest.lookup k := by
      intro rest
      rw [List.lookup_cons, beq_false_of_ne hk]
    rw [if_neg hk]
    induction members with
    | nil => exact hskip []
    | cons first rest ih =>
      obtain ⟨first, v⟩ := first
      unfold insertMember
      split_ifs with hlt heq
      · exact hskip _
      · subst heq
        rw [hskip, List.lookup_cons, beq_false_of_ne hk]
      · rw [List.lookup_cons, List.lookup_cons, ih]

theorem lookup_setMember_self (key : String) (value : α) (members : List (String × α)) :
    (setMember key (some value) members).lookup key = some value := by
  rw [setMember, lookup_insertMember, if_pos rfl]

end DesignMarkup.Json
