/-
  DesignMarkup/Proofs/Command/Failures.lean
  =========================================
  **What a run that fails leaves.**  All a run does before it writes the page is reading, asking
  and converting, and none of that touches a file; so a run that fails there leaves the files
  as they were.  The one exception are downloads.  Where one fails, the assets before it are
  there, and perhaps directories for the one that failed, but neither the page nor its
  stylesheet (`Abandoned`).

  A chain of work fails where one of its parts does, after those before it succeeded
  (`Runs.bind_error`).  A failing run is taken apart with that, part by part.
-/
import DesignMarkup.Proofs.Command.Building

namespace DesignMarkup

namespace Command

open Client

/-! ### Failing to write -/

/-- Whether the page or its stylesheet could not be written. -/
def Failure.isOfWriting : Failure → Bool
  | .unwritable _ _ => true
  | _ => false

section Build

variable {w w' : World} {failure : Failure}

theorem isOfWriting_of_writeFile {path text : String}
    (h : writeFile path text w = .error failure w') : failure.isOfWriting = true := by
  unfold writeFile at h
  rcases Work.bind_error h with hget | ⟨w₁, w₂, hget, hwrite⟩
  · cases hget
  · cases hresult : w₁.files.write path text.toUTF8 with
    | ok files =>
      rw [hresult] at hwrite
      cases hwrite
    | error e =>
      rw [hresult] at hwrite
      obtain ⟨rfl, -⟩ := EStateM.Result.error.inj hwrite
      rfl

theorem isOfWriting_of_writeOutput {path title : String} {output : Output}
    (h : writeOutput path output title w = .error failure w') : failure.isOfWriting = true := by
  unfold writeOutput at h
  rcases Work.bind_error h with hpage | ⟨_, w₁, -, hrest⟩
  · exact isOfWriting_of_writeFile hpage
  · split at hrest
    · rcases Work.bind_error hrest with hsheet | ⟨_, w₂, -, hprint⟩
      · exact isOfWriting_of_writeFile hsheet
      · cases hprint
    · cases hrest

/-- Converting leaves the files alone, and then only writing can fail. -/
theorem files_of_convert {response : Response} {node : Option String} {o : Options}
    {page title : String}
    (h : (convert response node o >>= fun output => writeOutput page output title) w =
      .error failure w') (hfailure : failure.isOfWriting = false) : w'.files = w.files := by
  rcases (runs_convert response node o w.files).bind_error rfl h with
    ⟨-, hfiles⟩ | ⟨output, w₁, -, -, hwrite⟩
  · exact hfiles
  · rw [isOfWriting_of_writeOutput hwrite] at hfailure
    cases hfailure

theorem files_of_buildPage {path : String} {c : Choices} {assetMap : Option String}
    (h : buildPage path c assetMap w = .error failure w') (hfailure : failure.isOfWriting = false) :
    w'.files = w.files := by
  rcases (runs_readResponse w.files path).bind_error rfl h with
    ⟨-, hfiles⟩ | ⟨response, w₁, -, hfiles₁, h⟩
  · exact hfiles
  · cases assetMap with
    | none => exact (files_of_convert h hfailure).trans hfiles₁
    | some mapPath =>
      rcases (runs_readAssetMap w₁.files mapPath).bind_error rfl h with
        ⟨-, hfiles⟩ | ⟨urls, w₂, -, hfiles₂, h⟩
      · exact hfiles.trans hfiles₁
      · exact (files_of_convert h hfailure).trans (hfiles₂.trans hfiles₁)

/-- A check writes nothing, whatever comes of it. -/
theorem runs_checkSource (path : String) (node : Option String) (t : FileTree) :
    ∃ value?, (checkSource path node).Runs t value? [] t := by
  have hresponse := runs_readResponse t path
  cases hsource : sourceResponse? t path with
  | none =>
    rw [hsource] at hresponse
    exact ⟨none, hresponse.bind_none⟩
  | some response =>
    rw [hsource] at hresponse
    have hconvert := runs_convert response node {} t
    cases hcompile : (compile response node {}).toOption with
    | none =>
      rw [hcompile] at hconvert
      exact ⟨none, hresponse.bind_silent hconvert.bind_none⟩
    | some output =>
      rw [hcompile] at hconvert
      exact ⟨some (), hresponse.bind_silent (hconvert.bind_silent (Work.runs_say _ t))⟩

/-! ### A fetch -/

theorem files_of_fetchPage {network : Network} {config : ClientConfig} {fileKey : String}
    {c : Choices} {mode : AssetMode}
    (h : fetchPage network config fileKey c mode w = .error failure w')
    (hfailure : failure.isOfWriting = false) :
    w'.files = w.files ∨ mode = .download ∧ ∃ response output urls,
      firstPage? network config fileKey c = some (response, output) ∧
      assetUrls? network config fileKey output.assets = some urls ∧
      walked (saveStep network (assetDirectory fileKey c)) w.files
        (addressed urls output.assets) = (false, w'.files) := by
  have hfetch := (runs_fetch network config fileKey w.files c.node).orElseFail Failure.client
  rcases hfetch.bind_error rfl h with ⟨-, hfiles⟩ | ⟨response, w₁, hresponse, hfiles₁, h⟩
  · exact Or.inl hfiles
  · have hconvert := runs_convert response c.node (c.options []) w₁.files
    rcases hconvert.bind_error rfl h with ⟨-, hfiles⟩ | ⟨output, w₂, houtput, hfiles₂, h⟩
    · exact Or.inl (hfiles.trans hfiles₁)
    · have hfiles := hfiles₂.trans hfiles₁
      have hfirst : firstPage? network config fileKey c = some (response, output) := by
        rw [firstPage?, hresponse, Option.bind_some, houtput]
        rfl
      have hwriting : ∀ {w₃ : World},
          writeOutput (fetchedPage fileKey c) output (c.pageTitle response fileKey) w₃ ≠
            .error failure w' := by
        intro w₃ hwrite
        rw [isOfWriting_of_writeOutput hwrite] at hfailure
        cases hfailure
      have hresolve := runs_resolveAssets network config fileKey output.assets w₂.files
      cases mode with
      | paths => exact absurd h hwriting
      | remote =>
        rcases hresolve.bind_error rfl h with ⟨-, hfiles₃⟩ | ⟨urls, w₃, -, hfiles₃, h⟩
        · exact Or.inl (hfiles₃.trans hfiles)
        · exact Or.inl ((files_of_convert h hfailure).trans (hfiles₃.trans hfiles))
      | download =>
        rcases hresolve.bind_error rfl h with ⟨-, hfiles₃⟩ | ⟨urls, w₃, hurls, hfiles₃, h⟩
        · exact Or.inl (hfiles₃.trans hfiles)
        · have hdownload := runs_downloadAssets network urls (assetDirectory fileKey c)
            output.assets w₃.files
          rcases hdownload.bind_error rfl h with ⟨hfails, hfiles₄⟩ | ⟨_, w₄, -, -, h⟩
          · refine Or.inr ⟨rfl, response, output, urls, hfirst, hurls, ?_⟩
            rw [hfiles₃.trans hfiles] at hfails hfiles₄
            generalize walked (saveStep network (assetDirectory fileKey c)) w.files
              (addressed urls output.assets) = result at hfails hfiles₄
            obtain ⟨success, t'⟩ := result
            cases success with
            | true => cases hfails
            | false => rw [hfiles₄]
          · exact absurd h hwriting

end Build

/-- What is left of a download run that fails at an asset, after those `before` it were
    downloaded. -/
structure Abandoned (network : Network) (t t' : FileTree) (page : String)
    (before : List (Asset × String)) (item : Asset × String) : Prop where
  reached : ∃ t₁, walked (saveStep network ((Path.parent? page).getD ".")) t before = (true, t₁) ∧
    saveStep network ((Path.parent? page).getD ".") t₁ item = (false, t')
  changed : t.Changed t' (IsAssetPlace t' ((Path.parent? page).getD ".") before)
    (IsAroundAssets t' ((Path.parent? page).getD ".") (before ++ [item]))
  /-- Where the page would go, nothing was written. -/
  noPage : ∀ place, t'.newPlace page = .ok place → t'.fileAt? place = t.fileAt? place
  /-- Where the stylesheet would go, nothing was written. -/
  noSheet : ∀ place, t'.newPlace (stylesheetPath page) = .ok place →
    t'.fileAt? place = t.fileAt? place

theorem abandoned_of_walked {network : Network} {t t' : FileTree} {page : String}
    {items : List (Asset × String)}
    (h : walked (saveStep network ((Path.parent? page).getD ".")) t items = (false, t')) :
    ∃ before item after, items = before ++ item :: after ∧
      Abandoned network t t' page before item := by
  obtain ⟨before, item, after, t₁, hitems, hbefore, hitem⟩ := walked_false h
  have hfails := changed_of_downloaded hitem
  have hgrows := hfails.grows
  have hchanged : t.Changed t' (IsAssetPlace t' ((Path.parent? page).getD ".") before)
      (IsAroundAssets t' ((Path.parent? page).getD ".") (before ++ [item])) := by
    refine FileTree.Changed.trans ((changed_walked hbefore).mono ?_ ?_) (hfails.mono ?_ ?_)
    · exact fun place ⟨earlier, hmem, hplace⟩ => ⟨earlier, hmem, hgrows.find hplace⟩
    · exact fun place ⟨earlier, hmem, hplace⟩ =>
        ⟨earlier, List.mem_append_left _ hmem, hplace.grows hgrows⟩
    · exact fun place hplace => hplace.elim
    · exact fun place hplace => ⟨item, List.mem_append_right _ List.mem_cons_self, hplace⟩
  refine ⟨before, item, after, hitems, ⟨t₁, hbefore, hitem⟩, hchanged, ?_, ?_⟩
  · intro place hplace
    obtain ⟨_, name, directory, hnew, rfl⟩ := FileTree.isNewPlace_of_newPlace hplace
    refine hchanged.fileAt? ?_
    rintro ⟨earlier, -, hfind⟩
    have hasset := place_downloadPath hnew earlier.1 hfind
    simp at hasset
  · intro place hplace
    obtain ⟨stem, hlast⟩ := getLast?_newPlace_stylesheet hplace
    refine hchanged.fileAt? ?_
    rintro ⟨earlier, -, hfind⟩
    rw [getLast?_downloadPath earlier.1 hfind] at hlast
    exact earlier.1.file_ne_stylesheet stem (Option.some.inj hlast)

/-- **A failed run leaves nothing half done.**  A check never changes a file.  Any other run that
    fails leaves the files as they were, unless it could not write the page or its stylesheet,
    or had come to the downloads; then one of these failed, and what is left is `Abandoned`. -/
theorem files_of_failure (log : Log) (network : Network) (files : FileTree) :
    (∀ path node, (perform log network (.check path node) files).world.files = files) ∧
    ∀ command, (perform log network command files).exitCode = 1 →
      ∃ failure w', job network command { files } = .error failure w' ∧
        (perform log network command files).world.files = w'.files ∧
        (failure.isOfWriting = false → w'.files = files ∨
          ∃ fileKey token base c, command = .fetch fileKey token base c .download ∧
            ∃ response output urls before item after,
              firstPage? network ⟨token, base⟩ fileKey c = some (response, output) ∧
              assetUrls? network ⟨token, base⟩ fileKey output.assets = some urls ∧
              addressed urls output.assets = before ++ item :: after ∧
              Abandoned network files w'.files (fetchedPage fileKey c) before item) := by
  constructor
  · intro path node
    obtain ⟨value?, hruns⟩ := runs_checkSource path node files
    exact (perform_of_runs log network (.check path node) hruns).2.1
  · intro command hexit
    unfold perform at hexit ⊢
    cases hjob : job network command { files } with
    | ok value w' =>
      rw [hjob] at hexit
      cases hexit
    | error failure w' =>
      refine ⟨failure, w', rfl, rfl, fun hfailure => ?_⟩
      cases command with
      | build path c assetMap => exact Or.inl (files_of_buildPage hjob hfailure)
      | check path node =>
        obtain ⟨value?, hruns⟩ := runs_checkSource path node files
        exact Or.inl (hruns.error rfl hjob).2
      | fetch fileKey token base c mode =>
        refine (files_of_fetchPage hjob hfailure).imp_right ?_
        rintro ⟨rfl, response, output, urls, hfirst, hurls, hwalk⟩
        obtain ⟨before, item, after, hitems, habandoned⟩ := abandoned_of_walked hwalk
        exact ⟨fileKey, token, base, c, rfl, response, output, urls, before, item, after, hfirst,
          hurls, hitems, habandoned⟩

/-- A service that has one document with two icons, and serves the first of them only. -/
def halfService : Network := .ofTable "a"
  [("/v1/files/k", ⟨200, ("\x7b\"document\":\x7b\"children\":[\x7b\"children\":[" ++
      "[\"1\",\"a\",\"VECTOR\",null,[0,0,1,1]],[\"2\",\"b\",\"VECTOR\",null,[0,0,1,1]]" ++
      "]\x7d]\x7d\x7d").toUTF8⟩),
    ("/v1/images/k?ids=1,2&format=svg",
      ⟨200, "\x7b\"images\":\x7b\"1\":\"http://a/i\",\"2\":\"http://a/j\"\x7d\x7d".toUTF8⟩),
    ("/i", ⟨200, "<svg/>".toUTF8⟩)]

/-- The second download fails, after the first icon was saved. -/
theorem files_of_failure_icon :
    (perform (.ofEnvironment [] 0) halfService (.fetch "k" "t" "http://a" {} .download)
      ⟨[], []⟩).exitCode = 1 ∧
    ∃ (output : Output) (urls : _) (before : _) (item : _) (after : _),
      assetUrls? halfService ⟨"t", "http://a"⟩ "k" output.assets = some urls ∧
      addressed urls output.assets = before ++ item :: after ∧
      Abandoned halfService ⟨[], []⟩
        (perform (.ofEnvironment [] 0) halfService (.fetch "k" "t" "http://a" {} .download)
          ⟨[], []⟩).world.files (fetchedPage "k" {}) before item := by
  have hend : (match job halfService (.fetch "k" "t" "http://a" {} .download)
      { files := ⟨[], []⟩ } with
    | .ok _ _ => false
    | .error failure w => !failure.isOfWriting && w.files.isPresent "icons/a.svg") = true := by
    decide +kernel
  have hexit : (perform (.ofEnvironment [] 0) halfService
      (.fetch "k" "t" "http://a" {} .download) ⟨[], []⟩).exitCode = 1 := by
    unfold perform
    split at hend
    · cases hend
    next hjob => rw [hjob]; rfl
  obtain ⟨failure, w', hjob, hfiles, hleft⟩ :=
    (files_of_failure (.ofEnvironment [] 0) halfService ⟨[], []⟩).2 _ hexit
  rw [hjob] at hend
  simp only [Bool.and_eq_true, Bool.not_eq_true'] at hend
  obtain ⟨hreason, hsaved⟩ := hend
  rw [hfiles]
  rcases hleft hreason with hsame | ⟨fileKey, token, base, c, hcommand, response, output, urls,
    before, item, after, -, hurls, hitems, habandoned⟩
  · rw [hsame] at hsaved
    exact absurd hsaved (by decide)
  · cases hcommand
    exact ⟨hexit, output, urls, before, item, after, hurls, hitems, habandoned⟩

end Command

end DesignMarkup
