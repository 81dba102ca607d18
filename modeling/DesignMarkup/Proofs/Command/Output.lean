/-
  DesignMarkup/Proofs/Command/Output.lean
  =======================================
  **The page and its stylesheet.**  The page is written first and the stylesheet next to it, in
  the same directory under the same stem.  So they are two files unless the page itself has the
  extension of a stylesheet, and then what is left is the stylesheet.
-/
import DesignMarkup.Proofs.Command.Fetching
import DesignMarkup.Proofs.Files.Changes

namespace DesignMarkup.Command

open FileTree (IsNewPlace)

/-- Where a path leads to that the page or its stylesheet is written to. -/
def IsOutputPlace (t : FileTree) (path : String) (output : Output) (place : Place) : Prop :=
  t.find path = .ok place ∨ output.css ≠ "" ∧ t.find (stylesheetPath path) = .ok place

/-- The files of a page and its stylesheet.  A page that has the extension of a stylesheet gives
    way to its own. -/
structure HoldsOutput (t : FileTree) (path : String) (output : Output) (title : String) :
    Prop where
  page : output.css = "" ∨ Path.extension? path ≠ some "css".toList →
    t.read path = .ok (output.page title).toUTF8
  sheet : output.css ≠ "" → t.read (stylesheetPath path) = .ok output.css.toUTF8
  lost : output.css ≠ "" → Path.extension? path = some "css".toList →
    t.read path = .ok output.css.toUTF8

section Places

variable {t : FileTree} {path : String} {before : List (List Char)} {name : List Char}
  {directory place : Place}

/-- The stylesheet of a page goes into the same directory, under the stem of the page. -/
theorem newPlace_stylesheet {before' : List (List Char)} {name' : List Char} {directory' : Place}
    (h : t.IsNewPlace path before name directory)
    (hsheet : t.IsNewPlace (stylesheetPath path) before' name' directory') :
    directory' = directory ∧ name' = Path.stemOf name ++ '.' :: "css".toList := by
  by_cases hstem : Path.stemOf name = ['.']
  · have hup : Path.split (stylesheetPath path).toList = before ++ [['.', '.']] :=
      Path.split_withExtension_up h.split h.isName hstem
    obtain ⟨-, hname⟩ := List.append_inj' (hsheet.split.symm.trans hup) rfl
    exact absurd (List.cons_eq_cons.mp hname).1 hsheet.isName.not_up
  · have hsplit : Path.split (stylesheetPath path).toList =
        before ++ [Path.stemOf name ++ '.' :: "css".toList] :=
      Path.split_withExtension h.split h.isName hstem (by decide)
    obtain ⟨rfl, hname⟩ := List.append_inj' (hsheet.split.symm.trans hsplit) rfl
    have hstart : t.start (stylesheetPath path) = t.start path := by
      rw [FileTree.start, FileTree.start, Path.isAbsolute_congr hsplit h.split]
    have hfollow := hsheet.follow
    rw [hstart, h.follow] at hfollow
    exact ⟨(Except.ok.inj hfollow).symm, (List.cons_eq_cons.mp hname).1⟩

/-- Whatever the page, a stylesheet has its extension. -/
theorem getLast?_newPlace_stylesheet (h : t.newPlace (stylesheetPath path) = .ok place) :
    ∃ stem, place.getLast? = some (String.ofList (stem ++ '.' :: "css".toList)) := by
  obtain ⟨_, name, directory, hnew, rfl⟩ := FileTree.isNewPlace_of_newPlace h
  obtain ⟨stem, rfl⟩ := Path.name_withExtension hnew.split hnew.isName (by decide)
  exact ⟨stem, List.getLast?_concat⟩

theorem place_stylesheet (h : t.IsNewPlace path before name directory)
    (hsheet : t.TakesFile (stylesheetPath path))
    (hfind : t.find (stylesheetPath path) = .ok place) :
    place = directory ++ [String.ofList (Path.stemOf name ++ '.' :: "css".toList)] := by
  obtain ⟨before', name', directory', hnew⟩ := hsheet
  obtain ⟨rfl, rfl⟩ := newPlace_stylesheet h hnew
  exact hnew.place_eq hfind

theorem extension?_eq (h : t.IsNewPlace path before name directory) :
    Path.extension? path = Path.extensionOf name := by
  rw [Path.extension?, Path.fileName?_eq h.split h.isName, Option.bind_some]

/-- The stylesheet goes where the page is only if the page has its extension. -/
theorem place_eq_iff_extension (h : t.IsNewPlace path before name directory)
    (hsheet : t.TakesFile (stylesheetPath path))
    (hfind : t.find (stylesheetPath path) = .ok place) :
    place = directory ++ [String.ofList name] ↔ Path.extension? path = some "css".toList := by
  rw [place_stylesheet h hsheet hfind, extension?_eq h, Path.extensionOf_eq_some_iff]
  simp only [List.append_cancel_left_eq, List.cons.injEq, String.ofList_inj, and_true]
  exact eq_comm

end Places

/-- All that writing a page with its stylesheet does to the files. -/
structure WritesPage (t t' : FileTree) (path : String) (output : Output) (title : String) :
    Prop where
  takesPage : t.TakesFile path
  takesSheet : output.css ≠ "" → t'.TakesFile (stylesheetPath path)
  there : ∃ place, t'.find path = .ok place
  changed : t.Changed t' (IsOutputPlace t' path output) (fun _ => False)
  holds : HoldsOutput t' path output title

/-- **A page that is written** stands at its path, and its stylesheet next to it; nothing else
    changed. -/
theorem writesPage_of_savePage {t t' : FileTree} {path : String} {output : Output}
    {title : String} (h : savePage path output title t = (true, t')) :
    WritesPage t t' path output title := by
  unfold savePage at h
  split at h
  · cases h
  next t₁ hpage =>
    have hsaved := @FileTree.saved_of_overwrite _ _ _ _ (fun _ => False) hpage
    have htakes := FileTree.takesFile_of_overwrite hpage
    obtain ⟨place, hfind, -⟩ := FileTree.read_eq_ok.mp hsaved.read
    by_cases hcss : output.css = ""
    · rw [if_pos hcss] at h
      cases h
      have hnone : ∀ {p : Prop}, output.css ≠ "" → p := fun hne => absurd hcss hne
      refine ⟨htakes, hnone, ⟨place, hfind⟩, ?_, ⟨fun _ => hsaved.read, hnone, hnone⟩⟩
      exact hsaved.changed.mono (fun _ h => Or.inl h) fun _ h => h
    · rw [if_neg hcss] at h
      have hsheet := @FileTree.saved_of_overwrite _ _ _ _ (fun _ => False) h
      have hgrows := hsheet.changed.grows
      have htakesSheet := (FileTree.takesFile_of_overwrite h).grows hgrows
      obtain ⟨before, name, directory, hnew⟩ := htakes.grows (hsaved.changed.grows.trans hgrows)
      have hfind' := hgrows.find hfind
      obtain ⟨sheetPlace, hfindSheet, hcontent⟩ := FileTree.read_eq_ok.mp hsheet.read
      have hsame := place_eq_iff_extension hnew htakesSheet hfindSheet
      refine ⟨htakes, fun _ => htakesSheet, ⟨place, hfind'⟩, ?_,
        ⟨fun hor => ?_, fun _ => hsheet.read, fun _ hextension => ?_⟩⟩
      · refine FileTree.Changed.trans (hsaved.changed.mono ?_ fun _ h => h)
          (hsheet.changed.mono ?_ fun _ h => h)
        · exact fun place hplace => Or.inl (hgrows.find hplace)
        · exact fun place hplace => Or.inr ⟨hcss, hplace⟩
      · refine hsheet.changed.read hsaved.read fun place hplace hput => ?_
        rw [hfindSheet] at hput
        obtain rfl := Except.ok.inj hput
        exact hor.resolve_left hcss (hsame.mp (hnew.place_eq hplace))
      · obtain rfl := hsame.mpr hextension
        obtain rfl := hnew.place_eq hfind'
        exact FileTree.read_eq_ok.mpr ⟨_, hfind', hcontent⟩

end DesignMarkup.Command
