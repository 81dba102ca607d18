/-
  DesignMarkup/Proofs/Design/Readable.lean
  ========================================
  **Which values are nodes.**  An object is a node unless it carries both names of the
  box, and an array is one unless it has more items than a node has fields; nothing else
  is.  What stands under a key or in a place of the array has no say in it.

  `IsReadable` is that condition.  `ofValue_eq_ok` and `isReadable_of_ofValue` are its two
  directions; the first also says what the node has in each of its fields, in the object
  form by name and in the array form by place (`valueOf`).
-/
import DesignMarkup.Proofs.Design.Fields
import Mathlib.Data.List.Pairwise

namespace DesignMarkup

open Json (Value IsAscending)

/-- No key occurs twice in the outermost object. -/
def Json.Value.HasDistinctKeys : Value → Prop
  | .object members => (members.map Prod.fst).Nodup
  | _ => True

instance (v : Value) : Decidable v.HasDistinctKeys := by
  unfold Json.Value.HasDistinctKeys
  cases v <;> infer_instance

namespace Node

/-- Not both names of the box are among the keys. -/
def HasOneBox (members : List (String × Value)) : Prop :=
  Field.box.key ∉ members.map Prod.fst ∨ Field.shortBoxKey ∉ members.map Prod.fst

instance (members : List (String × Value)) : Decidable (HasOneBox members) := by
  unfold HasOneBox
  infer_instance

def IsReadable : Value → Prop
  | .object members => HasOneBox members
  | .array items => items.length ≤ Field.all.length
  | _ => False

instance : DecidablePred IsReadable := fun v => by
  unfold IsReadable
  cases v <;> infer_instance

/-! ### Objects -/

/-- An object with different keys names no field twice, unless it is the box. -/
theorem nodup_named_iff {members : List (String × Value)} (hk : (members.map Prod.fst).Nodup) :
    (named members).Nodup ↔ HasOneBox members := by
  rw [named, List.Nodup, List.pairwise_filterMap]
  constructor
  · intro h
    by_contra hboth
    obtain ⟨hlong, hshort⟩ := not_or.mp hboth
    obtain ⟨m, hm, hmkey⟩ := List.mem_map.mp (not_not.mp hlong)
    obtain ⟨m', hm', hmkey'⟩ := List.mem_map.mp (not_not.mp hshort)
    have : Std.Symm fun a b : String × Value => ∀ f, Field.ofKey? a.1 = some f →
        ∀ g, Field.ofKey? b.1 = some g → f ≠ g :=
      ⟨fun a b hab f hf g hg => (hab g hg f hf).symm⟩
    have hne : m ≠ m' := by
      rintro rfl
      exact absurd (hmkey.symm.trans hmkey') (by decide)
    refine h.forall hm hm' hne .box ?_ .box ?_ rfl
    · rw [hmkey]
      rfl
    · rw [hmkey']
      rfl
  · intro hb
    refine List.Pairwise.imp_of_mem (fun {a b} hamem hbmem hne f hf g hg heq => ?_)
      (List.pairwise_map.mp hk)
    subst heq
    have hakey : a.1 ∈ members.map Prod.fst := List.mem_map_of_mem hamem
    have hbkey : b.1 ∈ members.map Prod.fst := List.mem_map_of_mem hbmem
    rcases Field.eq_of_ofKey? hf hg hne with ⟨h, h'⟩ | ⟨h, h'⟩
    · rw [h] at hakey
      rw [h'] at hbkey
      exact hb.elim (· hakey) (· hbkey)
    · rw [h] at hakey
      rw [h'] at hbkey
      exact hb.elim (· hbkey) (· hakey)

/-- An object of which a node comes names no field twice, nor one met before. -/
theorem nodup_of_ofMembers {members : List (String × Value)} {seen : List Field} {n n' : Node}
    (h : (ofMembers members seen n).value = .ok n') :
    (named members).Nodup ∧ ∀ f ∈ named members, f ∉ seen := by
  induction members generalizing seen n with
  | nil => exact ⟨List.nodup_nil, fun _ hf => absurd hf List.not_mem_nil⟩
  | cons first rest ih =>
    obtain ⟨key, v⟩ := first
    rw [ofMembers] at h
    cases hkey : Field.ofKey? key with
    | none =>
      have hnamed : named ((key, v) :: rest) = named rest := List.filterMap_cons_none hkey
      rw [hkey] at h
      rw [hnamed]
      exact ih h
    | some f =>
      have hnamed : named ((key, v) :: rest) = f :: named rest := List.filterMap_cons_some hkey
      simp only [hkey] at h
      split_ifs at h with hseen
      obtain ⟨hrest, hnew⟩ := ih h
      rw [hnamed]
      constructor
      · exact List.nodup_cons.mpr ⟨fun hf => hnew f hf List.mem_cons_self, hrest⟩
      · intro g hg
        rcases List.mem_cons.mp hg with rfl | hg
        · simpa using hseen
        · exact fun hold => hnew g hg (List.mem_cons_of_mem f hold)

/-! ### Arrays -/

/-- **An array with no more items than there are fields is a node,** and each field of the
    node has what stands in its place. -/
theorem ofItems_eq_ok {fields : List Field} (hf : fields.Nodup) {items : List Value}
    (h : items.length ≤ fields.length) (length : Nat) (n : Node) :
    ∃ n', (ofItems length fields items n).value = .ok n' ∧
      ∀ f, n'.get f = contentAt f ((fields.zip items).lookup f) n := by
  induction items generalizing fields n with
  | nil => exact ⟨n, by rw [ofItems]; rfl, fun f => by rw [List.zip_nil_right]; rfl⟩
  | cons v rest ih =>
    cases fields with
    | nil => exact absurd h (Nat.not_succ_le_zero rest.length)
    | cons g fields =>
      obtain ⟨hg, hfields⟩ := List.nodup_cons.mp hf
      obtain ⟨n', hok, hget⟩ := ih hfields (Nat.le_of_succ_le_succ h) (assign g v n).value
      refine ⟨n', by rw [ofItems]; exact hok, fun f => ?_⟩
      rw [hget, List.zip_cons_cons, List.lookup_cons]
      by_cases hfg : f = g
      · subst hfg
        have hnone : (fields.zip rest).lookup f = none :=
          List.lookup_eq_none_iff.mpr fun p hp =>
            bne_iff_ne.mpr fun heq => hg (heq ▸ (List.of_mem_zip hp).1)
        rw [hnone, beq_self_eq_true]
        rfl
      · rw [beq_false_of_ne hfg]
        exact contentAt_congr (get_assign_of_ne hfg v n) _

theorem ofItems_eq_error {fields : List Field} {items : List Value}
    (h : fields.length < items.length) (length : Nat) (n : Node) :
    (ofItems length fields items n).value = .error (.tooLong length) := by
  induction fields generalizing items n with
  | nil =>
    cases items with
    | nil => exact absurd h (Nat.lt_irrefl 0)
    | cons v rest => rfl
  | cons f fields ih =>
    cases items with
    | nil => exact absurd h (Nat.not_lt_zero _)
    | cons v rest =>
      rw [ofItems]
      exact ih (Nat.lt_of_succ_lt_succ h) _

/-! ### Values -/

/-- The value that an object or an array has for a field. -/
def valueOf (v : Value) (f : Field) : Option Value :=
  match v with
  | .object members => valueAt f members
  | .array items => (Field.all.zip items).lookup f
  | _ => none

/-- **A readable value is a node,** and each field of it has what the value has for it. -/
theorem ofValue_eq_ok {v : Value} (hk : v.HasDistinctKeys) (h : IsReadable v) :
    ∃ n, (ofValue v).value = .ok n ∧ ∀ f, n.get f = contentAt f (valueOf v f) blank := by
  cases v with
  | object members =>
    rw [ofValue]
    exact ofMembers_eq_ok ((nodup_named_iff hk).mpr h) (fun _ _ => List.not_mem_nil) blank
  | array items =>
    rw [ofValue]
    exact ofItems_eq_ok (by decide) h items.length blank
  | null | boolean _ | number _ | string _ => exact False.elim h

/-- **What a node comes of is readable.** -/
theorem isReadable_of_ofValue {v : Value} (hk : v.HasDistinctKeys) {n : Node}
    (h : (ofValue v).value = .ok n) : IsReadable v := by
  cases v with
  | object members =>
    rw [ofValue] at h
    exact (nodup_named_iff hk).mp (nodup_of_ofMembers h).1
  | array items =>
    by_contra hlong
    rw [ofValue, ofItems_eq_error (Nat.lt_of_not_le hlong)] at h
    cases h
  | null | boolean _ | number _ | string _ => cases h

end Node

end DesignMarkup
