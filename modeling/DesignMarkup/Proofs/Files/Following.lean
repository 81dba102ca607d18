/-
  DesignMarkup/Proofs/Files/Following.lean
  ========================================
  **Where paths lead, and that they keep leading there.**  Following a path is a walk with
  one component at a time (`FileTree.Enters`).  What one component does is said once, in
  `follow_cons_iff`; all else about following is induction over the components with it.

  A tree grows (`FileTree.GrowsTo`) when nothing that is there goes away and directories stay
  directories.  In a tree that has grown each path still leads to its place
  (`GrowsTo.find`).  So the places that paths led to while a run was under way can be read off
  the tree that it left.

  Empty components and single dots lead nowhere else, and a path can be followed by its names
  alone (`follow_names`).
-/
import DesignMarkup.Files.Tree
import DesignMarkup.Proofs.Files.Path

namespace DesignMarkup.FileTree

open DesignMarkup.Path (IsName names)

/-! ### What stands at a place -/

/-- The content of the file at a place. -/
def fileAt? (t : FileTree) (place : Place) : Option ByteArray :=
  match t.entryAt? place with
  | some (.file content) => some content
  | _ => none

theorem entryAt?_of_fileAt? {t : FileTree} {place : Place} {content : ByteArray}
    (h : t.fileAt? place = some content) : t.entryAt? place = some (.file content) := by
  unfold fileAt? at h
  split at h
  · cases h
    assumption
  · cases h

theorem fileAt?_of_entryAt? {t : FileTree} {place : Place} {content : ByteArray}
    (h : t.entryAt? place = some (.file content)) : t.fileAt? place = some content := by
  rw [fileAt?, h]

theorem fileAt?_congr {t t' : FileTree} {place : Place}
    (h : t'.entryAt? place = t.entryAt? place) : t'.fileAt? place = t.fileAt? place := by
  rw [fileAt?, fileAt?, h]

theorem lookup_putIn (place other : Place) (entry : Entry) (entries : List (Place × Entry)) :
    (putIn place entry entries).lookup other =
      if other = place then some entry else entries.lookup other := by
  induction entries with
  | nil => by_cases h : other = place <;> simp [putIn, h]
  | cons first rest ih =>
    obtain ⟨p, e⟩ := first
    simp only [putIn]
    by_cases hp : p = place
    · subst hp
      by_cases h : other = p
      · simp [h]
      · simp [h, List.lookup_cons, beq_false_of_ne h]
    · by_cases h : other = p
      · subst h
        simp [hp]
      · simp [hp, List.lookup_cons, ih, beq_false_of_ne h]

theorem entryAt?_put {place : Place} (h : place ≠ []) (t : FileTree) (entry : Entry)
    (other : Place) :
    (t.put place entry).entryAt? other =
      if other = place then some entry else t.entryAt? other := by
  by_cases hroot : other = []
  · simp [entryAt?, hroot, Ne.symm h]
  · simp [entryAt?, hroot, put, lookup_putIn]

/-! ### One component -/

/-- What one component does: from one place it leads to another. -/
inductive Enters (t : FileTree) (place : Place) : List Char → Place → Prop where
  | stay {component : List Char} (hdirectory : t.entryAt? place = some .directory)
      (hidle : Path.isIdle component = true) : Enters t place component place
  | up (hdirectory : t.entryAt? place = some .directory) :
      Enters t place ['.', '.'] place.dropLast
  | name {component : List Char} (hdirectory : t.entryAt? place = some .directory)
      (hname : IsName component) (hsize : (String.ofList component).utf8ByteSize ≤ maxName)
      (hthere : (t.entryAt? (place ++ [String.ofList component])).isSome = true) :
      Enters t place component (place ++ [String.ofList component])

section Following

variable {t : FileTree} {place place' : Place} {component : List Char}
  {rest : List (List Char)}

theorem Enters.directory (h : t.Enters place component place') :
    t.entryAt? place = some .directory := by
  cases h <;> assumption

theorem within_eq_ok :
    within place component = .ok place' ↔
      (String.ofList component).utf8ByteSize ≤ maxName ∧
        place' = place ++ [String.ofList component] := by
  simp only [within]
  split_ifs with hsize
  · simp [Nat.not_le_of_lt hsize]
  · simp [Nat.le_of_not_lt hsize, eq_comm]

theorem follow_cons_iff :
    t.follow place (component :: rest) = .ok place' ↔
      ∃ next, t.Enters place component next ∧ t.follow next rest = .ok place' := by
  constructor
  · intro h
    simp only [follow] at h
    split at h
    · cases h
    · cases h
    next hdirectory =>
      split_ifs at h with hidle hup
      · exact ⟨place, .stay hdirectory hidle, h⟩
      · subst hup
        exact ⟨place.dropLast, .up hdirectory, h⟩
      · split at h
        · cases h
        next hwithin =>
          obtain ⟨hsize, rfl⟩ := within_eq_ok.mp hwithin
          split at h
          · cases h
          next hthere =>
            exact ⟨_, .name hdirectory ⟨by simpa using hidle, hup⟩ hsize (by simp [hthere]), h⟩
  · rintro ⟨next, henters, h⟩
    cases henters with
    | stay hdirectory hidle => simp [follow, hdirectory, hidle, h]
    | up hdirectory => simp [follow, hdirectory, Path.isIdle, h]
    | name hdirectory hname hsize hthere =>
      obtain ⟨entry, hentry⟩ := Option.isSome_iff_exists.mp hthere
      have hwithin : within place component = .ok (place ++ [String.ofList component]) :=
        within_eq_ok.mpr ⟨hsize, rfl⟩
      simp [follow, hdirectory, hname.not_idle, hname.not_up, hwithin, hentry, h]

theorem follow_append_iff {components : List (List Char)} :
    t.follow place (components ++ rest) = .ok place' ↔
      ∃ next, t.follow place components = .ok next ∧ t.follow next rest = .ok place' := by
  induction components generalizing place with
  | nil => simp [follow]
  | cons component components ih =>
    simp only [List.cons_append, follow_cons_iff, ih]
    constructor
    · rintro ⟨first, henters, next, hfollow, h⟩
      exact ⟨next, ⟨first, henters, hfollow⟩, h⟩
    · rintro ⟨next, ⟨first, henters, hfollow⟩, h⟩
      exact ⟨first, henters, next, hfollow, h⟩

/-- A name leads one step further down. -/
theorem follow_name (hname : IsName component) (h : t.follow place [component] = .ok place') :
    place' = place ++ [String.ofList component] := by
  obtain ⟨next, henters, hnext⟩ := follow_cons_iff.mp h
  obtain rfl : next = place' := by simpa [follow] using hnext
  cases henters with
  | stay _ hidle =>
    rw [hname.not_idle] at hidle
    cases hidle
  | up _ => exact absurd rfl hname.not_up
  | name _ _ _ _ => rfl

/-! ### Names alone -/

theorem follow_filter {components : List (List Char)}
    (h : t.follow place components = .ok place') :
    t.follow place (components.filter fun component => !Path.isIdle component) = .ok place' := by
  induction components generalizing place with
  | nil => exact h
  | cons component components ih =>
    obtain ⟨next, henters, hnext⟩ := follow_cons_iff.mp h
    cases hidle : Path.isIdle component with
    | true =>
      cases henters with
      | stay _ _ => simpa [hidle] using ih hnext
      | up _ => cases hidle
      | name _ hname _ _ =>
        rw [hname.not_idle] at hidle
        cases hidle
    | false =>
      simp only [List.filter_cons, hidle, Bool.not_false, if_true]
      exact follow_cons_iff.mpr ⟨next, henters, ih hnext⟩

theorem directory_of_follow {components : List (List Char)}
    (h : t.follow place components = .ok place') (hend : t.entryAt? place' = some .directory) :
    t.entryAt? place = some .directory := by
  cases components with
  | nil =>
    obtain rfl : place = place' := by simpa [follow] using h
    exact hend
  | cons component components =>
    obtain ⟨next, henters, -⟩ := follow_cons_iff.mp h
    exact henters.directory

/-- To a directory, components that say nothing are no hindrance. -/
theorem follow_of_filter {components : List (List Char)}
    (hend : t.entryAt? place' = some .directory)
    (h : t.follow place (components.filter fun component => !Path.isIdle component) = .ok place') :
    t.follow place components = .ok place' := by
  induction components generalizing place with
  | nil => exact h
  | cons component components ih =>
    have hstart := directory_of_follow h hend
    cases hidle : Path.isIdle component with
    | true =>
      simp only [List.filter_cons, hidle, Bool.not_true, Bool.false_eq_true, if_false] at h
      exact follow_cons_iff.mpr ⟨place, .stay hstart hidle, ih h⟩
    | false =>
      simp only [List.filter_cons, hidle, Bool.not_false, if_true] at h
      obtain ⟨next, henters, hnext⟩ := follow_cons_iff.mp h
      exact follow_cons_iff.mpr ⟨next, henters, ih hnext⟩

end Following

/-! ### Whole paths -/

section Paths

variable {t : FileTree} {path : String} {place : Place}

theorem find_eq_ok :
    t.find path = .ok place ↔
      admissible path = .ok () ∧ path ≠ "" ∧
        t.follow (t.start path) (Path.split path.toList) = .ok place := by
  simp only [find, bind, Except.bind]
  cases admissible path with
  | error e => simp
  | ok _ =>
    by_cases hpath : path = ""
    · simp [hpath]
    · simp [hpath]

theorem follow_names (h : t.find path = .ok place) :
    t.follow (t.start path) (names path) = .ok place :=
  follow_filter (find_eq_ok.mp h).2.2

/-- A relative path that is taken from around another path is followed from where that one's
    last component stands. -/
theorem follow_within {before : List (List Char)} {last : List Char} {directory : Place}
    {inner : String} (hsplit : Path.split path.toList = before ++ [last])
    (hidle : Path.isIdle last = false) (hfollow : t.follow (t.start path) before = .ok directory)
    (hrelative : Path.isAbsolute inner = false)
    (hfind : t.find (Path.within ((Path.parent? path).getD ".") inner) = .ok place) :
    t.follow directory (names inner) = .ok place := by
  have hcomponents : Path.dropIdle (Path.split path.toList).reverse = last :: before.reverse := by
    rw [hsplit, List.reverse_append]
    exact Path.dropIdle_of_not_idle hidle
  obtain ⟨parent, hparent, hnames, habsolute⟩ := Path.parent?_eq hcomponents
  rw [hparent, Option.getD_some] at hfind
  have hstart : t.start (Path.within parent inner) = t.start path := by
    rw [start, start, Path.isAbsolute_within parent hrelative, habsolute]
  have hwhole := follow_names hfind
  rw [Path.names_within parent hrelative, hstart, hnames, List.filter_reverse,
    List.reverse_reverse] at hwhole
  obtain ⟨next, hnext, hrest⟩ := follow_append_iff.mp hwhole
  obtain rfl : directory = next := Except.ok.inj ((follow_filter hfollow).symm.trans hnext)
  exact hrest

theorem readText_of_absent (h : t.isPresent path = false) :
    ∃ e, t.readText path = .error e := by
  simp only [isPresent] at h
  split at h
  · cases h
  next e hfind =>
    refine ⟨e, ?_⟩
    simp only [readText, read, hfind, bind, Except.bind]

theorem read_eq_ok {content : ByteArray} :
    t.read path = .ok content ↔
      ∃ place, t.find path = .ok place ∧ t.fileAt? place = some content := by
  simp only [read, bind, Except.bind]
  cases hfind : t.find path with
  | error e => simp
  | ok place =>
    simp only [Except.ok.injEq, exists_eq_left', fileAt?]
    cases t.entryAt? place with
    | none => simp
    | some entry => cases entry <;> simp

/-- A place for a file: a name in a directory. -/
structure IsNewPlace (t : FileTree) (path : String) (before : List (List Char)) (name : List Char)
    (directory : Place) : Prop where
  admissible : admissible path = .ok ()
  split : Path.split path.toList = before ++ [name]
  isName : IsName name
  size : (String.ofList name).utf8ByteSize ≤ maxName
  follow : t.follow (t.start path) before = .ok directory
  directory : t.entryAt? directory = some .directory

/-- There is a place for the file of a path. -/
def TakesFile (t : FileTree) (path : String) : Prop :=
  ∃ before name directory, t.IsNewPlace path before name directory

theorem isNewPlace_of_newPlace (h : t.newPlace path = .ok place) :
    ∃ before name directory, t.IsNewPlace path before name directory ∧
      place = directory ++ [String.ofList name] := by
  simp only [newPlace, bind, Except.bind] at h
  cases hadmissible : admissible path with
  | error e => simp [hadmissible] at h
  | ok _ =>
    simp only [hadmissible] at h
    split at h
    · split_ifs at h
    next name hlast =>
      obtain ⟨before, hnamed⟩ := List.getLast?_eq_some_iff.mp hlast
      rw [hnamed, List.dropLast_concat] at h
      split at h
      · cases h
      next directory hfollow =>
        split at h
        next hdirectory =>
          split_ifs at h with hbad
          simp only [not_or, not_lt] at hbad
          obtain ⟨hlength, hdot, hup⟩ := hbad
          -- as many components as named ones: none at the end is empty
          have hprefix : (before ++ [name]) <+: Path.split path.toList := by
            rw [← hnamed, ← List.reverse_suffix, List.reverse_reverse]
            exact List.dropWhile_suffix _
          have hsplit := hprefix.eq_of_length_le hlength
          have hname : name ≠ [] := by
            intro hempty
            have hhead := List.head?_dropWhile_not List.isEmpty (Path.split path.toList).reverse
            rw [← List.reverse_reverse (List.dropWhile _ _), hnamed] at hhead
            simp [hempty] at hhead
          obtain ⟨hsize, rfl⟩ := within_eq_ok.mp h
          refine ⟨before, name, directory, ⟨hadmissible, hsplit.symm, ⟨?_, hup⟩, hsize, hfollow,
            hdirectory⟩, rfl⟩
          simp [Path.isIdle, hname, hdot]
        · cases h
        · cases h

/-- Whether something is at the end of a path or is still to be made there, it has the last name
    of the path, in the directory that the components before lead to. -/
theorem follow_of_found_or_new {before : List (List Char)} {name : List Char}
    (hsplit : Path.split path.toList = before ++ [name]) (hname : IsName name)
    (h : t.find path = .ok place ∨ t.newPlace path = .ok place) :
    ∃ directory, t.follow (t.start path) before = .ok directory ∧
      place = directory ++ [String.ofList name] := by
  rcases h with hfind | hnew
  · have hfollow := (find_eq_ok.mp hfind).2.2
    rw [hsplit] at hfollow
    obtain ⟨directory, hdirectory, hlast⟩ := follow_append_iff.mp hfollow
    exact ⟨directory, hdirectory, follow_name hname hlast⟩
  · obtain ⟨around, last, directory, hplace, rfl⟩ := isNewPlace_of_newPlace hnew
    have hsame : before ++ [name] = around ++ [last] := hsplit.symm.trans hplace.split
    obtain ⟨rfl, hlast⟩ := List.append_inj' hsame rfl
    obtain rfl := (List.cons_eq_cons.mp hlast).1
    exact ⟨directory, hplace.follow, rfl⟩

end Paths

/-! ### Growth -/

/-- Nothing that is there goes away, and a directory stays one. -/
structure GrowsTo (t t' : FileTree) : Prop where
  current : t'.current = t.current
  directory : ∀ place, t.entryAt? place = some .directory → t'.entryAt? place = some .directory
  there : ∀ place, (t.entryAt? place).isSome = true → (t'.entryAt? place).isSome = true

namespace GrowsTo

variable {t t' t'' : FileTree} {place place' : Place}

theorem trans (h : t.GrowsTo t') (h' : t'.GrowsTo t'') : t.GrowsTo t'' :=
  ⟨h'.current.trans h.current, fun place hplace => h'.directory place (h.directory place hplace),
    fun place hplace => h'.there place (h.there place hplace)⟩

theorem start (h : t.GrowsTo t') (path : String) : t'.start path = t.start path := by
  rw [FileTree.start, FileTree.start, h.current]

theorem follow (h : t.GrowsTo t') {components : List (List Char)}
    (hfollow : t.follow place components = .ok place') :
    t'.follow place components = .ok place' := by
  induction components generalizing place with
  | nil => exact hfollow
  | cons component components ih =>
    obtain ⟨next, henters, hnext⟩ := follow_cons_iff.mp hfollow
    refine follow_cons_iff.mpr ⟨next, ?_, ih hnext⟩
    cases henters with
    | stay hdirectory hidle => exact .stay (h.directory _ hdirectory) hidle
    | up hdirectory => exact .up (h.directory _ hdirectory)
    | name hdirectory hname hsize hthere =>
      exact .name (h.directory _ hdirectory) hname hsize (h.there _ hthere)

theorem find (h : t.GrowsTo t') {path : String} (hfind : t.find path = .ok place) :
    t'.find path = .ok place := by
  obtain ⟨hadmissible, hpath, hfollow⟩ := find_eq_ok.mp hfind
  refine find_eq_ok.mpr ⟨hadmissible, hpath, ?_⟩
  rw [h.start]
  exact h.follow hfollow

end GrowsTo

/-! ### New places -/

namespace IsNewPlace

variable {t t' : FileTree} {path : String} {before : List (List Char)} {name : List Char}
  {directory place : Place}

theorem grows (h : t.IsNewPlace path before name directory) (hgrows : t.GrowsTo t') :
    t'.IsNewPlace path before name directory := by
  refine ⟨h.admissible, h.split, h.isName, h.size, ?_, hgrows.directory _ h.directory⟩
  rw [hgrows.start]
  exact hgrows.follow h.follow

theorem ne_empty (h : t.IsNewPlace path before name directory) : path ≠ "" := by
  rintro rfl
  have hsplit : [] ++ [[]] = before ++ [name] := h.split
  obtain ⟨-, hname⟩ := List.append_inj' hsplit rfl
  have hidle := h.isName.not_idle
  rw [← (List.cons_eq_cons.mp hname).1] at hidle
  exact absurd hidle (by decide)

/-- Once something is there, the path leads there. -/
theorem find (h : t.IsNewPlace path before name directory)
    (hthere : (t.entryAt? (directory ++ [String.ofList name])).isSome = true) :
    t.find path = .ok (directory ++ [String.ofList name]) := by
  refine find_eq_ok.mpr ⟨h.admissible, h.ne_empty, ?_⟩
  rw [h.split]
  refine follow_append_iff.mpr ⟨directory, h.follow, ?_⟩
  exact follow_cons_iff.mpr ⟨_, .name h.directory h.isName h.size hthere, rfl⟩

theorem place_eq (h : t.IsNewPlace path before name directory) (hfind : t.find path = .ok place) :
    place = directory ++ [String.ofList name] := by
  have hfollow := (find_eq_ok.mp hfind).2.2
  rw [h.split] at hfollow
  obtain ⟨next, hnext, hname⟩ := follow_append_iff.mp hfollow
  obtain rfl : directory = next := Except.ok.inj (h.follow.symm.trans hnext)
  exact follow_name h.isName hname

end IsNewPlace

theorem TakesFile.grows {t t' : FileTree} {path : String} (h : t.TakesFile path)
    (hgrows : t.GrowsTo t') : t'.TakesFile path := by
  obtain ⟨before, name, directory, hnew⟩ := h
  exact ⟨before, name, directory, hnew.grows hgrows⟩

end DesignMarkup.FileTree
