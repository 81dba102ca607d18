/-
  DesignMarkup/Proofs/Asset/Place.lean
  ====================================
  **Where an asset is downloaded to.**  The path of an asset has two names, that of a directory
  for its kind and that of a file made of token characters and one point.  Neither can lead
  anywhere else, whatever the name of the layer.  So the file lies right in the directory of
  its kind, wherever that one is taken from (`IsFileIn`, `path_contained`).  For a page that is
  next to the page (`place_downloadPath`), and assets with different paths are different files.
-/
import DesignMarkup.Command.Run
import DesignMarkup.Proofs.Asset.Token
import DesignMarkup.Proofs.Files.Following

namespace DesignMarkup

namespace Asset

/-- The name of the file of an asset. -/
def file (a : Asset) : String := fileName a.name a.kind ++ "." ++ a.kind.extension

theorem localPath_eq (a : Asset) :
    localPath a.name a.kind = a.kind.directory ++ "/" ++ a.file := by
  simp only [localPath, file, String.append_assoc]

theorem ref_eq (a : Asset) : a.ref = "./" ++ (a.kind.directory ++ "/" ++ a.file) := by
  rw [Asset.ref, path, localPath_eq]

theorem slash_notMem_file (a : Asset) : '/' ∉ a.file.toList := by
  intro h
  simp only [file, fileName, String.toList_append, List.mem_append] at h
  rcases h with (h | h) | h
  · split_ifs at h
    · revert h
      cases a.kind <;> decide
    · exact absurd (isTokenChar_of_mem_token h) (by decide)
  · exact absurd h (by decide)
  · revert h
    cases a.kind <;> decide

theorem isName_directory (kind : AssetKind) : Path.IsName kind.directory.toList := by
  cases kind <;> exact ⟨by decide, by decide⟩

theorem isName_file (a : Asset) : Path.IsName a.file.toList := by
  apply Path.isName_of_length
  have hextension : a.kind.extension.toList.length = 3 := by cases a.kind <;> rfl
  simp only [file, String.toList_append, List.length_append, hextension]
  omega

/-- No asset has the extension of a stylesheet. -/
theorem file_ne_stylesheet (a : Asset) (stem : List Char) :
    a.file ≠ String.ofList (stem ++ '.' :: "css".toList) := by
  intro hsame
  have hchars := congrArg String.toList hsame
  simp only [file, String.toList_append, String.toList_ofList, List.append_assoc] at hchars
  cases hkind : a.kind with
  | image =>
    rw [hkind] at hchars
    exact absurd (List.append_inj' hchars rfl).2 (by decide)
  | icon =>
    rw [hkind] at hchars
    exact absurd (List.append_inj' hchars rfl).2 (by decide)

/-- Both parts of the path are names: there is nothing in it that leads elsewhere. -/
theorem names_localPath (a : Asset) :
    Path.names (localPath a.name a.kind) = [a.kind.directory.toList, a.file.toList] := by
  have hdirectory : '/' ∉ a.kind.directory.toList := by cases a.kind <;> decide
  rw [localPath_eq, Path.names_append_slash,
    Path.names_eq_singleton hdirectory (isName_directory a.kind),
    Path.names_eq_singleton a.slash_notMem_file a.isName_file]
  rfl

theorem isAbsolute_localPath (name : String) (kind : AssetKind) :
    Path.isAbsolute (localPath name kind) = false := by
  cases kind <;> simp [Path.isAbsolute, localPath, AssetKind.directory]

/-- **Paths are as different as the files they name:** one kind has them in one directory, where
    the name of the file decides. -/
theorem path_eq_iff {name name' : String} {kind kind' : AssetKind} :
    path name kind = path name' kind' ↔
      kind = kind' ∧ fileName name kind = fileName name' kind' := by
  constructor
  · intro h
    have hlocal : localPath name kind = localPath name' kind' := by
      simpa only [path, String.append_right_inj] using h
    have hnames := names_localPath ⟨"", name, kind⟩
    change Path.names (localPath name kind) = _ at hnames
    rw [hlocal, names_localPath ⟨"", name', kind'⟩] at hnames
    simp only [List.cons.injEq, and_true, String.toList_inj] at hnames
    obtain ⟨hdirectory, hfile⟩ := hnames
    obtain rfl : kind = kind' := by
      cases kind <;> cases kind' <;> first | rfl | exact absurd hdirectory (by decide)
    exact ⟨rfl, by simpa only [file, String.append_left_inj] using hfile.symm⟩
  · rintro ⟨rfl, hname⟩
    rw [path, path, localPath, localPath, hname]

end Asset

namespace Command

theorem dropDotSlashes_ref (a : Asset) :
    String.ofList (dropDotSlashes a.ref.toList) = Asset.localPath a.name a.kind := by
  have hlocal : ∀ text : List Char, text.head? = some 'i' → dropDotSlashes text = text := by
    intro text htext
    cases text with
    | nil => rfl
    | cons c rest =>
      obtain rfl : c = 'i' := by simpa using htext
      rfl
  have hfront : (Asset.localPath a.name a.kind).toList.head? = some 'i' := by
    cases hkind : a.kind <;> simp [Asset.localPath, AssetKind.directory]
  have href : a.ref.toList = '.' :: '/' :: (Asset.localPath a.name a.kind).toList := by
    simp [Asset.ref, Asset.path]
  rw [href, dropDotSlashes, hlocal _ hfront, String.ofList_toList]

variable {t : FileTree} {path base : String} {before : List (List Char)} {name : List Char}
  {directory place : Place}

/-- From a directory the path of an asset leads right into the directory of its kind. -/
theorem follow_asset (a : Asset)
    (h : t.follow directory [a.kind.directory.toList, a.file.toList] = .ok place) :
    place = directory ++ [a.kind.directory, a.file] := by
  obtain ⟨inner, hinner, hfile⟩ := FileTree.follow_append_iff.mp
    (show t.follow directory ([a.kind.directory.toList] ++ [a.file.toList]) = .ok place from h)
  rw [FileTree.follow_name (Asset.isName_directory a.kind) hinner] at hfile
  rw [FileTree.follow_name a.isName_file hfile]
  simp

/-- **The file of an asset lies right in the directory of its kind,** which lies where the page
    does. -/
theorem place_downloadPath (h : t.IsNewPlace path before name directory) (a : Asset)
    (hfind : t.find (downloadPath ((Path.parent? path).getD ".") a) = .ok place) :
    place = directory ++ [a.kind.directory, a.file] := by
  have hrest := FileTree.follow_within h.split h.isName.not_idle h.follow
    (Asset.isAbsolute_localPath a.name a.kind) (by rwa [downloadPath, dropDotSlashes_ref] at hfind)
  rw [Asset.names_localPath] at hrest
  exact follow_asset a hrest

theorem downloadPath_eq (base : String) (a : Asset) :
    downloadPath base a = Path.within base a.kind.directory ++ "/" ++ a.file := by
  have hrelative : Path.isAbsolute a.kind.directory = false := by cases a.kind <;> decide
  have hlocal := Asset.isAbsolute_localPath a.name a.kind
  rw [downloadPath, dropDotSlashes_ref, Path.within, Path.within, hlocal, hrelative,
    Asset.localPath_eq]
  split_ifs <;> simp only [String.append_assoc]

/-- The components of a download: those of the base, the directory, and the file. -/
theorem split_downloadPath (base : String) (a : Asset) :
    ∃ before, Path.split (downloadPath base a).toList =
        before ++ [a.kind.directory.toList] ++ [a.file.toList] ∧
      Path.split (Path.within base a.kind.directory).toList =
        before ++ [a.kind.directory.toList] ∧
      before.filter (fun component => !Path.isIdle component) = Path.names base := by
  have hslash : '/' ∉ a.kind.directory.toList := by cases a.kind <;> decide
  obtain ⟨before, hdirectory, hbefore⟩ := Path.split_within base hslash
  refine ⟨before, ?_, hdirectory, hbefore⟩
  have hchars : (downloadPath base a).toList =
      (Path.within base a.kind.directory).toList ++ '/' :: a.file.toList := by
    simp [downloadPath_eq]
  rw [hchars, Path.split_append, hdirectory, Path.split_eq_singleton a.slash_notMem_file]

/-- Assets that lead to one place have one path. -/
theorem ref_eq_of_place {directory : Place} {a b : Asset}
    (h : directory ++ [a.kind.directory, a.file] = directory ++ [b.kind.directory, b.file]) :
    a.ref = b.ref := by
  simp only [List.append_cancel_left_eq, List.cons.injEq, and_true] at h
  rw [Asset.ref_eq, Asset.ref_eq, h.1, h.2]

/-! ### The file of an asset -/

/-- `path` is that of the file `name` right in the directory `inner` of `base`: as a text, and in
    every tree, whether the file is there or is made. -/
structure IsFileIn (path base inner name : String) : Prop where
  parent : Path.parent? path = some (Path.within base inner)
  fileName : Path.fileName? path = some name.toList
  place : ∀ (t : FileTree) place, t.find path = .ok place ∨ t.newPlace path = .ok place →
    ∃ directory, t.follow (t.start base) (Path.names base) = .ok directory ∧
      place = directory ++ [inner, name]

theorem isFileIn_downloadPath (base : String) (a : Asset) :
    IsFileIn (downloadPath base a) base a.kind.directory a.file := by
  obtain ⟨before, hsplit, hdirectory, hbefore⟩ := split_downloadPath base a
  constructor
  · rw [downloadPath_eq]
    exact Path.parent?_append_slash hdirectory (Asset.isName_directory a.kind).not_idle
      a.slash_notMem_file a.isName_file.not_idle
  · exact Path.fileName?_eq hsplit a.isName_file
  · intro t place hplace
    obtain ⟨inner, hinner, rfl⟩ :=
      FileTree.follow_of_found_or_new hsplit a.isName_file hplace
    obtain ⟨directory, hfollow, hlast⟩ := FileTree.follow_append_iff.mp hinner
    have hstart : t.start (downloadPath base a) = t.start base := by
      rw [FileTree.start, FileTree.start, downloadPath, dropDotSlashes_ref,
        Path.isAbsolute_within base (Asset.isAbsolute_localPath a.name a.kind)]
    have hnames := FileTree.follow_filter hfollow
    rw [hbefore, hstart] at hnames
    refine ⟨directory, hnames, ?_⟩
    rw [FileTree.follow_name (Asset.isName_directory a.kind) hlast]
    simp

/-- Wherever the path of an asset leads from, it ends in the file of the asset. -/
theorem getLast?_downloadPath (a : Asset) (hfind : t.find (downloadPath base a) = .ok place) :
    place.getLast? = some a.file := by
  obtain ⟨directory, -, rfl⟩ := (isFileIn_downloadPath base a).place t place (Or.inl hfind)
  simp

/-- **No name leads out of the directories of assets.**  Whatever the name of a layer, its path is
    that of a token right in the directory of its kind; the download drops the two characters in
    front of that directory and no more, and goes to just this file. -/
theorem path_contained (name : String) (kind : AssetKind) :
    Asset.IsToken (Asset.fileName name kind) ∧
      Asset.path name kind =
        "./" ++ kind.directory ++ "/" ++ Asset.fileName name kind ++ "." ++ kind.extension ∧
      dropDotSlashes (Asset.path name kind).toList = (Asset.path name kind).toList.drop 2 ∧
      (∀ id base, IsFileIn (downloadPath base ⟨id, name, kind⟩) base kind.directory
        (Asset.fileName name kind ++ "." ++ kind.extension)) ∧
      ∀ name' kind', Asset.path name kind = Asset.path name' kind' ↔
        kind = kind' ∧ Asset.fileName name kind = Asset.fileName name' kind' := by
  refine ⟨Asset.isToken_fileName name kind, ?_, ?_, fun id base => ?_, fun _ _ =>
    Asset.path_eq_iff⟩
  · simp only [Asset.path, Asset.localPath, String.append_assoc]
  · have hdropped : String.ofList (dropDotSlashes (Asset.path name kind).toList) =
        Asset.localPath name kind := dropDotSlashes_ref ⟨"", name, kind⟩
    rw [← String.toList_inj, String.toList_ofList] at hdropped
    rw [hdropped]
    simp [Asset.path]
  · exact isFileIn_downloadPath base ⟨id, name, kind⟩

theorem path_contained_hostile :
    let hostile : Asset := ⟨"1:2", "../../etc\\C:\x00É", .icon⟩
    let t : FileTree := .addDirectory ⟨[], ["home"]⟩ ["home", "out", "icons"]
    hostile.ref = "./icons/etcc.svg" ∧ t.find (downloadPath "out" hostile) = .error .notFound ∧
      t.newPlace (downloadPath "out" hostile) = .ok ["home", "out", "icons", "etcc.svg"] ∧
      ∃ directory, t.follow (t.start "out") (Path.names "out") = .ok directory ∧
        ["home", "out", "icons", "etcc.svg"] = directory ++ ["icons", "etcc.svg"] := by
  intro hostile t
  have hnew : t.newPlace (downloadPath "out" hostile) =
      .ok ["home", "out", "icons", "etcc.svg"] := by decide +kernel
  have hname : Asset.fileName hostile.name .icon ++ "." ++ AssetKind.icon.extension =
      "etcc.svg" := by decide
  have hfile := (path_contained hostile.name .icon).2.2.2.1 "1:2" "out"
  rw [hname] at hfile
  exact ⟨by decide, by decide +kernel, hnew, hfile.place t _ (Or.inr hnew)⟩

end Command

end DesignMarkup
