/-
  DesignMarkup/Proofs/Asset/Collisions.lean
  =========================================
  **Which paths collide.**  A manifest keeps the same facts twice, as a list of assets and as a
  table of the nodes at each path.  The two agree (`IsConsistent`): a node stands at a path of
  the table just if the list has an asset of it there, and it stands there once.  Recording an
  asset keeps that (`IsConsistent.record`), and so do any number of them
  (`isConsistent_recordAll`).  That a path has more than one node in the table is then the same
  as that the list has assets of two different nodes there (`mem_collisions`).
-/
import DesignMarkup.Proofs.Asset.Place
import DesignMarkup.Proofs.Json.Members
import DesignMarkup.Proofs.Text.Ascending
import Mathlib.Data.Finset.Card

namespace DesignMarkup.Manifest

/-- The ids that a table has at a path. -/
def idsAt (owners : List (String × List String)) (path : String) : List String :=
  (owners.lookup path).getD []

theorem idsAt_claim (owners : List (String × List String)) (a : Asset) (path : String) :
    idsAt (claim owners a) path =
      if path = a.ref then
        if a.id ∈ idsAt owners path then idsAt owners path else idsAt owners path ++ [a.id]
      else idsAt owners path := by
  rw [idsAt, claim, Json.lookup_insertMember]
  by_cases hpath : path = a.ref
  · subst hpath
    rw [if_pos rfl, if_pos rfl, Option.getD_some]
    rfl
  · rw [if_neg hpath, if_neg hpath]
    rfl

/-- The table tells of each path which nodes have assets there, each node once. -/
structure IsConsistent (m : Manifest) : Prop where
  ascending : Json.IsAscending m.owners
  nodup : ∀ path, (idsAt m.owners path).Nodup
  mem : ∀ path id, id ∈ idsAt m.owners path ↔ ∃ a ∈ m.entries, a.ref = path ∧ a.id = id

theorem isConsistent_empty : IsConsistent empty where
  ascending := .nil
  nodup _ := .nil
  mem path id := by simp [empty, idsAt]

namespace IsConsistent

variable {m : Manifest}

/-- **Recording an asset keeps the table in agreement with the list.** -/
theorem record (h : IsConsistent m) (a : Asset) : IsConsistent (m.record a) where
  ascending := Json.isAscending_insertMember h.ascending _ _
  nodup path := by
    rw [Manifest.record, idsAt_claim]
    split_ifs with hpath hid
    · exact h.nodup path
    · exact List.nodup_append.mpr ⟨h.nodup path, List.nodup_singleton a.id, fun x hx y hy => by
        rintro rfl
        rw [List.mem_singleton.mp hy] at hx
        exact hid hx⟩
    · exact h.nodup path
  mem path id := by
    have hnew : (∃ b ∈ m.entries ++ [a], b.ref = path ∧ b.id = id) ↔
        (∃ b ∈ m.entries, b.ref = path ∧ b.id = id) ∨ a.ref = path ∧ a.id = id := by
      simp only [List.mem_append, List.mem_singleton, or_and_right, exists_or, exists_eq_left]
    rw [Manifest.record, idsAt_claim, hnew, ← h.mem]
    split_ifs with hpath hid
    · -- the node has an asset there already
      subst hpath
      refine (or_iff_left_of_imp ?_).symm
      rintro ⟨-, rfl⟩
      exact hid
    · subst hpath
      rw [List.mem_append, List.mem_singleton, eq_comm (a := id)]
      simp
    · exact (or_iff_left fun hboth => hpath hboth.1.symm).symm

/-- More than one node is listed for a path just if assets of two nodes are there. -/
theorem mem_collisions (h : IsConsistent m) {path : String} :
    path ∈ m.collisions ↔
      ∃ a ∈ m.entries, ∃ b ∈ m.entries, a.ref = path ∧ b.ref = path ∧ a.id ≠ b.id := by
  have htable : path ∈ m.collisions ↔ 1 < (idsAt m.owners path).length := by
    simp only [collisions, List.mem_map, List.mem_filter, decide_eq_true_eq]
    constructor
    · rintro ⟨⟨path, ids⟩, ⟨hmem, hmore⟩, rfl⟩
      rwa [idsAt, Json.lookup_of_mem h.ascending.nodup_keys hmem, Option.getD_some]
    · intro hmore
      cases hlookup : m.owners.lookup path with
      | none =>
        rw [idsAt, hlookup] at hmore
        exact absurd hmore (Nat.not_lt_zero 1)
      | some ids =>
        rw [idsAt, hlookup] at hmore
        exact ⟨(path, ids), ⟨Json.mem_of_lookup hlookup, hmore⟩, rfl⟩
  rw [htable, ← List.toFinset_card_of_nodup (h.nodup path), Finset.one_lt_card]
  simp only [List.mem_toFinset, h.mem]
  constructor
  · rintro ⟨_, ⟨a, ha, hpath, rfl⟩, _, ⟨b, hb, hpath', rfl⟩, hne⟩
    exact ⟨a, ha, b, hb, hpath, hpath', hne⟩
  · rintro ⟨a, ha, b, hb, hpath, hpath', hne⟩
    exact ⟨a.id, ⟨a, ha, hpath, rfl⟩, b.id, ⟨b, hb, hpath', rfl⟩, hne⟩

/-- The paths that collide are in the order of their bytes. -/
theorem pairwise_collisions (h : IsConsistent m) :
    m.collisions.Pairwise fun p q => Text.bytes p < Text.bytes q := by
  rw [collisions, List.pairwise_map]
  exact (h.ascending.filter _).imp fun hlt => (Text.bytes_lt_iff _ _).mpr hlt

end IsConsistent

/-! ### Any number of assets -/

theorem recordAll_cons (m : Manifest) (a : Asset) (rest : List Asset) :
    m.recordAll (a :: rest) = (m.record a).recordAll rest := by
  rw [recordAll, recordAll, record, List.append_assoc, List.singleton_append, List.foldl_cons]

theorem isConsistent_recordAll {m : Manifest} (h : IsConsistent m) (assets : List Asset) :
    IsConsistent (m.recordAll assets) := by
  induction assets generalizing m with
  | nil =>
    rw [recordAll, List.append_nil]
    exact h
  | cons a rest ih =>
    rw [recordAll_cons]
    exact ih (h.record a)

/-- Enter assets one after the other: the paths that this tells, and the manifest after it. -/
def enterAll (m : Manifest) : List Asset → List String × Manifest
  | [] => ([], m)
  | a :: rest =>
    let (path, m) := m.enter a
    let (paths, m) := enterAll m rest
    (path :: paths, m)

theorem enterAll_eq (m : Manifest) (assets : List Asset) :
    m.enterAll assets = (assets.map Asset.ref, m.recordAll assets) := by
  induction assets generalizing m with
  | nil => rw [enterAll, recordAll, List.append_nil]; rfl
  | cons a rest ih =>
    rw [enterAll, enter, recordAll_cons]
    simp only [ih, List.map_cons]

/-- **The report of collisions is exact.**  Whatever assets are entered into an empty manifest,
    it lists them in order, each with the path that was told for it.  The paths that it reports
    are in the order of their bytes, and they are those at which there are assets of two
    different nodes.  A node that comes again and again is not reported, and an image and an
    icon are never at one path. -/
theorem collisions_enterAll (assets : List Asset) :
    let told := (Manifest.empty.enterAll assets).1
    let m := (Manifest.empty.enterAll assets).2
    m.entries = assets ∧ m.entries.map Asset.ref = told ∧
      (m.collisions.Pairwise fun p q => Text.bytes p < Text.bytes q) ∧
      (∀ path, path ∈ m.collisions ↔
        ∃ a ∈ m.entries, ∃ b ∈ m.entries, a.ref = path ∧ b.ref = path ∧ a.id ≠ b.id) ∧
      (∀ path id, (∀ a ∈ m.entries, a.ref = path → a.id = id) → path ∉ m.collisions) ∧
      ∀ a ∈ m.entries, ∀ b ∈ m.entries, a.kind ≠ b.kind → a.ref ≠ b.ref := by
  rw [enterAll_eq]
  have hconsistent := isConsistent_recordAll isConsistent_empty assets
  refine ⟨rfl, rfl, hconsistent.pairwise_collisions, fun path => hconsistent.mem_collisions,
    fun path id hsame hmem => ?_, fun a _ b _ hkind hpath => ?_⟩
  · obtain ⟨a, ha, b, hb, hpath, hpath', hne⟩ := hconsistent.mem_collisions.mp hmem
    exact hne ((hsame a ha hpath).trans (hsame b hb hpath').symm)
  · exact hkind (Asset.path_eq_iff.mp hpath).1

end DesignMarkup.Manifest
