/-
  DesignMarkup/Proofs/Files/Changes.lean
  ======================================
  **What writing does to a tree.**  Work on files puts files where there is no directory, and
  directories where there is nothing.  `FileTree.Changed` says of two trees, before and after,
  that no more than that happened, the files at some places only and the directories at some
  places only.  Changes add up (`Changed.trans`), and a tree that is changed like this has grown.

  A file that was written is found by its path (`saved_of_save`), and the directories that
  were made for it lie around it (`Path.Around`).  All of that holds in the tree after the
  work, and so in each later one.
-/
import DesignMarkup.Proofs.Api.Client
import DesignMarkup.Proofs.Files.Following

namespace DesignMarkup

/-- `Path.Around a path`: the path `a` is `path` or is around it. -/
inductive Path.Around (a : String) : String → Prop where
  | self : Around a a
  | out {path parent : String} (hparent : parent? path = some parent) (h : Around a parent) :
      Around a path

namespace FileTree

open DesignMarkup.Path (IsName names Around)

/-- From `t` to `t'` there were no changes but files at `written`, which no directory gave way
    to, and new directories at `made`. -/
structure Changed (t t' : FileTree) (written made : Place → Prop) : Prop where
  current : t'.current = t.current
  entry : ∀ place, t'.entryAt? place = t.entryAt? place ∨
    (written place ∧ t.entryAt? place ≠ some .directory ∧ (t'.fileAt? place).isSome = true) ∨
    (made place ∧ t.entryAt? place = none ∧ t'.entryAt? place = some .directory)

namespace Changed

variable {t t' t'' : FileTree} {written written' made made' : Place → Prop} {place : Place}

theorem refl (t : FileTree) : t.Changed t written made := ⟨rfl, fun _ => Or.inl rfl⟩

theorem mono (h : t.Changed t' written made) (hwritten : ∀ place, written place → written' place)
    (hmade : ∀ place, made place → made' place) : t.Changed t' written' made' := by
  refine ⟨h.current, fun place => ?_⟩
  rcases h.entry place with hsame | ⟨hplace, hrest⟩ | ⟨hplace, hrest⟩
  · exact Or.inl hsame
  · exact Or.inr (Or.inl ⟨hwritten place hplace, hrest⟩)
  · exact Or.inr (Or.inr ⟨hmade place hplace, hrest⟩)

theorem grows (h : t.Changed t' written made) : t.GrowsTo t' := by
  refine ⟨h.current, fun place hdirectory => ?_, fun place hthere => ?_⟩
  · rcases h.entry place with hsame | ⟨-, hnot, -⟩ | ⟨-, -, hmade⟩
    · rw [hsame, hdirectory]
    · exact absurd hdirectory hnot
    · exact hmade
  · rcases h.entry place with hsame | ⟨-, -, hfile⟩ | ⟨-, hnone, -⟩
    · rw [hsame]
      exact hthere
    · obtain ⟨content, hcontent⟩ := Option.isSome_iff_exists.mp hfile
      rw [entryAt?_of_fileAt? hcontent]
      rfl
    · rw [hnone] at hthere
      cases hthere

theorem trans (h : t.Changed t' written made) (h' : t'.Changed t'' written made) :
    t.Changed t'' written made := by
  refine ⟨h'.current.trans h.current, fun place => ?_⟩
  rcases h'.entry place with hsame' | ⟨hplace', hnot', hfile'⟩ | ⟨hplace', hnone', hmade'⟩
  · rcases h.entry place with hsame | ⟨hplace, hnot, hfile⟩ | ⟨hplace, hnone, hmade⟩
    · exact Or.inl (hsame'.trans hsame)
    · rw [← fileAt?_congr hsame'] at hfile
      exact Or.inr (Or.inl ⟨hplace, hnot, hfile⟩)
    · exact Or.inr (Or.inr ⟨hplace, hnone, hsame'.trans hmade⟩)
  · have hnot : t.entryAt? place ≠ some .directory := fun hdirectory =>
      hnot' (h.grows.directory place hdirectory)
    exact Or.inr (Or.inl ⟨hplace', hnot, hfile'⟩)
  · have hnone : t.entryAt? place = none := by
      cases hentry : t.entryAt? place with
      | none => rfl
      | some entry =>
        have hthere := h.grows.there place (by rw [hentry]; rfl)
        rw [hnone'] at hthere
        cases hthere
    exact Or.inr (Or.inr ⟨hplace', hnone, hmade'⟩)

/-- Files elsewhere are as they were. -/
theorem fileAt? (h : t.Changed t' written made) (hplace : ¬written place) :
    t'.fileAt? place = t.fileAt? place := by
  rcases h.entry place with hsame | ⟨hwritten, -⟩ | ⟨-, hnone, hmade⟩
  · exact fileAt?_congr hsame
  · exact absurd hwritten hplace
  · rw [FileTree.fileAt?, FileTree.fileAt?, hnone, hmade]

/-- A path that leads to none of the places has the content that it had. -/
theorem read (h : t.Changed t' written made) {path : String} {content : ByteArray}
    (hread : t.read path = .ok content)
    (hplace : ∀ place, t'.find path = .ok place → ¬written place) :
    t'.read path = .ok content := by
  obtain ⟨place, hfind, hfile⟩ := read_eq_ok.mp hread
  have hfind' := h.grows.find hfind
  refine read_eq_ok.mpr ⟨place, hfind', ?_⟩
  rw [h.fileAt? (hplace place hfind'), hfile]

theorem putFile (hroot : place ≠ []) (hnot : t.entryAt? place ≠ some .directory)
    (content : ByteArray) (hwritten : written place) :
    t.Changed (t.put place (.file content)) written made := by
  refine ⟨rfl, fun other => ?_⟩
  by_cases h : other = place
  · subst h
    refine Or.inr (Or.inl ⟨hwritten, hnot, ?_⟩)
    simp [FileTree.fileAt?, entryAt?_put hroot]
  · simp [entryAt?_put hroot, h]

theorem putDirectory (hroot : place ≠ []) (hnone : t.entryAt? place = none)
    (hmade : made place) : t.Changed (t.put place .directory) written made := by
  refine ⟨rfl, fun other => ?_⟩
  by_cases h : other = place
  · subst h
    exact Or.inr (Or.inr ⟨hmade, hnone, by simp [entryAt?_put hroot]⟩)
  · simp [entryAt?_put hroot, h]

end Changed

/-! ### Writing a file -/

/-- The file of a path has the content, and no other file changed. -/
structure Saved (t t' : FileTree) (path : String) (content : ByteArray) (made : Place → Prop) :
    Prop where
  changed : t.Changed t' (fun place => t'.find path = .ok place) made
  read : t'.read path = .ok content

section Writing

variable {t t' : FileTree} {path : String} {content : ByteArray} {made : Place → Prop}

theorem concat_ne_root (directory : Place) (name : String) : directory ++ [name] ≠ [] := by simp

theorem saved_of_write (h : t.write path content = .ok t') : t.Saved t' path content made := by
  simp only [write, bind, Except.bind] at h
  cases hplace : t.newPlace path with
  | error e => simp [hplace] at h
  | ok place =>
    obtain ⟨before, name, directory, hnew, rfl⟩ := isNewPlace_of_newPlace hplace
    have hroot := concat_ne_root directory (String.ofList name)
    simp only [hplace] at h
    split at h
    · cases h
    next hnot =>
      cases h
      have hput : (t.put (directory ++ [String.ofList name]) (.file content)).entryAt?
          (directory ++ [String.ofList name]) = some (.file content) := by
        simp [entryAt?_put hroot]
      have hput' : t.Changed (t.put (directory ++ [String.ofList name]) (.file content))
          (fun _ => True) made := .putFile hroot hnot content trivial
      have hfind := (hnew.grows hput'.grows).find (by rw [hput]; rfl)
      exact ⟨.putFile hroot hnot content hfind,
        read_eq_ok.mpr ⟨_, hfind, fileAt?_of_entryAt? hput⟩⟩

theorem saved_of_overwrite (h : t.overwrite path content = (true, t')) :
    t.Saved t' path content made := by
  unfold overwrite at h
  split at h
  · cases h
    exact saved_of_write ‹_›
  · cases h

theorem takesFile_of_overwrite (h : t.overwrite path content = (true, t')) :
    t.TakesFile path := by
  unfold overwrite at h
  split at h
  next hwrite =>
    simp only [write, bind, Except.bind] at hwrite
    split at hwrite
    · cases hwrite
    next hplace =>
      obtain ⟨before, name, directory, hnew, -⟩ := isNewPlace_of_newPlace hplace
      exact ⟨before, name, directory, hnew⟩
  · cases h

theorem eq_of_overwrite (h : t.overwrite path content = (false, t')) : t' = t := by
  unfold overwrite at h
  split at h <;> simp_all

end Writing

/-! ### Making directories -/

section Making

variable {t t' : FileTree} {path : String}

/-- All that making a directory does: a name is added where the path around leads. -/
theorem makeDirectory_eq_ok (h : t.makeDirectory path = .ok t') :
    ∃ parent name directory, admissible path = .ok () ∧ Path.parent? path = some parent ∧
      Path.fileName? path = some name ∧ (String.ofList name).utf8ByteSize ≤ maxName ∧
      t.follow (t.start path) (names parent) = .ok directory ∧
      t.entryAt? directory = some .directory ∧
      t.entryAt? (directory ++ [String.ofList name]) = none ∧
      t' = t.put (directory ++ [String.ofList name]) .directory := by
  simp only [makeDirectory, bind, Except.bind] at h
  split at h
  · cases h
  next hadmissible =>
    split_ifs at h
    split at h
    next parent name hparent hname =>
      split at h
      · cases h
      next directory hfollow =>
        split at h
        next hdirectory =>
          split at h
          · cases h
          next place hwithin =>
            split at h
            · cases h
            next hnone =>
              cases h
              obtain ⟨hsize, rfl⟩ := within_eq_ok.mp hwithin
              have haround : t.follow (t.start path) (names parent) = .ok directory := by
                split_ifs at hfollow with hempty
                · subst hempty
                  exact hfollow
                · exact follow_filter hfollow
              exact ⟨parent, name, directory, hadmissible, hparent, hname, hsize, haround,
                hdirectory, hnone, rfl⟩
        · cases h
        · cases h
    · cases h

theorem changed_of_makeDirectory {written : Place → Prop} (h : t.makeDirectory path = .ok t') :
    t.Changed t' written fun place => t'.find path = .ok place := by
  obtain ⟨parent, name, directory, hadmissible, hparent, hname, hsize, hfollow, hdirectory, hnone,
    rfl⟩ := makeDirectory_eq_ok h
  obtain ⟨hnames, -, hisName⟩ := Path.names_parent hname hparent
  have hroot := concat_ne_root directory (String.ofList name)
  have hput : (t.put (directory ++ [String.ofList name]) .directory).entryAt?
      (directory ++ [String.ofList name]) = some .directory := by
    simp [entryAt?_put hroot]
  have hput' : t.Changed (t.put (directory ++ [String.ofList name]) .directory)
      written fun _ => True := .putDirectory hroot hnone trivial
  have hgrows := hput'.grows
  have hempty : path ≠ "" := by
    rintro rfl
    cases hname
  have hfind : (t.put (directory ++ [String.ofList name]) .directory).find path =
      .ok (directory ++ [String.ofList name]) := by
    refine find_eq_ok.mpr ⟨hadmissible, hempty, follow_of_filter hput ?_⟩
    -- the names of the path are those around it and one more
    change (t.put _ .directory).follow _ (names path) = _
    rw [hnames, hgrows.start]
    refine follow_append_iff.mpr ⟨directory, hgrows.follow hfollow, ?_⟩
    refine follow_cons_iff.mpr ⟨_, ?_, rfl⟩
    exact .name (hgrows.directory _ hdirectory) hisName hsize (by rw [hput]; rfl)
  exact .putDirectory hroot hnone hfind

/-- The directories of a path, in the tree `t`. -/
def IsAround (t : FileTree) (path : String) (place : Place) : Prop :=
  ∃ a, Around a path ∧ t.find a = .ok place

theorem IsAround.grows {place : Place} (h : t.IsAround path place) (hgrows : t.GrowsTo t') :
    t'.IsAround path place := by
  obtain ⟨a, ha, hplace⟩ := h
  exact ⟨a, ha, hgrows.find hplace⟩

theorem IsAround.out {parent : String} {place : Place} (h : t.IsAround parent place)
    (hparent : Path.parent? path = some parent) : t.IsAround path place := by
  obtain ⟨a, ha, hplace⟩ := h
  exact ⟨a, .out hparent ha, hplace⟩

/-- However far the work comes, it makes directories around the path and nothing else. -/
theorem changed_makeDirectories {written : Place → Prop} (fuel : Nat) (path : String)
    (t : FileTree) :
    t.Changed (makeDirectories fuel path t).2 written
      ((makeDirectories fuel path t).2.IsAround path) := by
  induction fuel generalizing path t with
  | zero => exact .refl t
  | succ fuel ih =>
    have hone : ∀ {t t' : FileTree}, t.makeDirectory path = .ok t' →
        t.Changed t' written (t'.IsAround path) :=
      fun h => (changed_of_makeDirectory h).mono (fun _ h => h) fun place hplace =>
        ⟨path, .self, hplace⟩
    by_cases hempty : path = ""
    · rw [makeDirectories, if_pos hempty]
      exact .refl t
    · rw [makeDirectories, if_neg hempty]
      split
      next t' hmade => exact hone hmade
      next hmade =>
        split
        · exact .refl t
        next parent hparent =>
          have hparents := (ih parent t).mono (fun _ h => h) fun place hplace =>
            hplace.out hparent
          split
          next e t' hresult =>
            rw [hresult] at hparents
            exact hparents
          next t' hresult =>
            rw [hresult] at hparents
            split
            next t'' hlast =>
              have hgrows := (hone hlast).grows
              refine Changed.trans (hparents.mono (fun _ h => h) ?_) (hone hlast)
              exact fun place hplace => hplace.grows hgrows
            · simp only
              split_ifs <;> exact hparents
      · simp only
        split_ifs <;> exact .refl t

end Making

/-! ### Saving a file with its directories -/

section Saving

variable {t t' : FileTree} {path : String} {content : ByteArray}

theorem saved_of_save (h : t.save path content = (true, t')) :
    t.Saved t' path content (t'.IsAround path) := by
  unfold save at h
  split at h
  · exact saved_of_overwrite h
  next parent hparent =>
    have hmade := @changed_makeDirectories (fun place => t'.find path = .ok place)
      (path.length + 1) parent t
    split at h
    next t₁ hresult =>
      rw [hresult] at hmade
      have hsaved := @saved_of_overwrite _ _ _ _ (t'.IsAround path) h
      have hgrows := hsaved.changed.grows
      refine ⟨Changed.trans (hmade.mono (fun _ h => h) ?_) hsaved.changed, hsaved.read⟩
      exact fun place hplace => (hplace.out hparent).grows hgrows
    · cases h

theorem changed_of_save (h : t.save path content = (false, t')) :
    t.Changed t' (fun _ => False) (t'.IsAround path) := by
  unfold save at h
  split at h
  · rw [eq_of_overwrite h]
    exact .refl t
  next parent hparent =>
    have hmade := (@changed_makeDirectories (fun _ => False) (path.length + 1) parent t).mono
      (fun _ h => h) fun place hplace => hplace.out hparent
    split at h
    next t₁ hresult =>
      rw [eq_of_overwrite h]
      rw [hresult] at hmade
      exact hmade
    next e t₁ hresult =>
      cases h
      rw [hresult] at hmade
      exact hmade

end Saving

end FileTree

end DesignMarkup
