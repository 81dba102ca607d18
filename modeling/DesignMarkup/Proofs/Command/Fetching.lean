/-
  DesignMarkup/Proofs/Command/Fetching.lean
  =========================================
  **What a fetch asks for.**  The asks of a run are known from the answers: first the file,
  then the addresses of the images and of the icons on its page, then the images and icons
  themselves (`fetchAsks`).  The two latter parts go through a list and stop at the first
  item that fails; `reached` is how far they come, and `walked` what they come to.

  A run does the work of its parts one after the other, so the lemma of each part about what
  it asks for and leaves (`Work.Runs`) gives the next, up to the whole (`runs_fetchPage`).
-/
import DesignMarkup.Command.Run
import DesignMarkup.Proofs.Api.Client

namespace DesignMarkup.Command

open Client

/-! ### Going through a list until an item fails -/

section Walk

variable {σ α : Type} (step : σ → α → Bool × σ)

/-- The items that one comes to, the first one that fails included. -/
def reached : σ → List α → List α
  | _, [] => []
  | s, a :: rest => a :: if (step s a).1 then reached (step s a).2 rest else []

/-- Whether no item fails, and the state in the end. -/
def walked : σ → List α → Bool × σ
  | s, [] => (true, s)
  | s, a :: rest => if (step s a).1 then walked (step s a).2 rest else step s a

end Walk

/-! ### The addresses of the assets -/

/-- Ids to ask for, in one format. -/
structure Resolution where
  ids : List String
  format : ImageFormat

/-- The images and then the icons of a page; what there is none of is left out. -/
def resolutions (assets : List Asset) : List Resolution :=
  [⟨assetIds assets .image, .png⟩, ⟨assetIds assets .icon, .svg⟩].filter fun r => r.ids ≠ []

/-- The end of a walk, if no item failed. -/
def finished {σ : Type} (result : Bool × σ) : Option σ := if result.1 then some result.2 else none

section Assets

variable (network : Network) (config : ClientConfig) (fileKey : String)

def Resolution.ask (r : Resolution) : Ask := imagesAsk config fileKey r.ids r.format

def resolveStep (urls : List (String × String)) (r : Resolution) : Bool × List (String × String) :=
  (resolved? network config fileKey r.ids r.format).elim (false, urls) fun more =>
    (true, mergeUrls urls more)

def resolveAsks (urls : List (String × String)) (items : List Resolution) : List Ask :=
  (reached (resolveStep network config fileKey) urls items).map (Resolution.ask config fileKey)

/-- The kinds come one after the other: one more is resolved before the rest. -/
theorem runs_resolve_bind {ids : List String} {format : ImageFormat}
    {urls : List (String × String)} {rest : List Resolution} {t : FileTree}
    {k : List (String × String) → Job (List (String × String))}
    (hk : ∀ images, (k images).Runs t
      (finished (walked (resolveStep network config fileKey) (mergeUrls urls images) rest))
      (Ask.sent network (resolveAsks network config fileKey (mergeUrls urls images) rest)) t) :
    (Work.orElseFail .client (resolveImages network config fileKey ids format) >>= k).Runs t
      (finished (walked (resolveStep network config fileKey) urls
        ([⟨ids, format⟩].filter (fun r => r.ids ≠ []) ++ rest)))
      (Ask.sent network (resolveAsks network config fileKey urls
        ([⟨ids, format⟩].filter (fun r => r.ids ≠ []) ++ rest))) t := by
  by_cases hids : ids = []
  · subst hids
    have hnil := (runs_resolveImages_nil network config fileKey t format).orElseFail Failure.client
    exact hnil.bind (hk [])
  · have hone := (runs_resolveImages network config fileKey t hids format).orElseFail Failure.client
    have hitems : [(⟨ids, format⟩ : Resolution)].filter (fun r => r.ids ≠ []) ++ rest =
        ⟨ids, format⟩ :: rest := by
      simp [hids]
    rw [hitems]
    unfold resolveAsks at hk ⊢
    rw [walked, reached, List.map_cons, Ask.sent_cons, resolveStep]
    cases hresolved : resolved? network config fileKey ids format with
    | none =>
      rw [hresolved] at hone
      exact hone.bind_fails
    | some images =>
      rw [hresolved] at hone
      exact hone.bind (hk images)

/-- The addresses of the assets of a page, if no ask fails. -/
def assetUrls? (assets : List Asset) : Option (List (String × String)) :=
  finished (walked (resolveStep network config fileKey) [] (resolutions assets))

theorem runs_resolveAssets (assets : List Asset) (t : FileTree) :
    (resolveAssets network config fileKey assets).Runs t (assetUrls? network config fileKey assets)
      (Ask.sent network (resolveAsks network config fileKey [] (resolutions assets))) t := by
  have hkinds : resolutions assets =
      [⟨assetIds assets .image, .png⟩].filter (fun r => r.ids ≠ []) ++
        ([⟨assetIds assets .icon, .svg⟩].filter (fun r => r.ids ≠ []) ++ []) := by
    rw [List.append_nil, ← List.filter_append]
    rfl
  unfold resolveAssets assetUrls?
  rw [hkinds]
  refine runs_resolve_bind network config fileKey fun images => ?_
  refine runs_resolve_bind network config fileKey fun icons => ?_
  exact Work.runs_pure _ t

/-- The assets that have an address, with it. -/
def addressed (urls : List (String × String)) (assets : List Asset) : List (Asset × String) :=
  assets.filterMap fun a => (urls.lookup a.id).map fun url => (a, url)

def saveStep (directory : String) (t : FileTree) (item : Asset × String) : Bool × FileTree :=
  downloaded network t item.2 (downloadPath directory item.1)

/-- The asks of a walk through assets.  They are made without a token. -/
def saveAsks (directory : String) (t : FileTree) (items : List (Asset × String)) : List Ask :=
  (reached (saveStep network directory) t items).map fun item => ⟨item.2, none⟩

theorem runs_downloadEach (urls : List (String × String)) (directory : String)
    (assets : List Asset) (t : FileTree) :
    (downloadEach network urls directory assets).Runs t
      (done (walked (saveStep network directory) t (addressed urls assets)).1)
      (Ask.sent network (saveAsks network directory t (addressed urls assets)))
      (walked (saveStep network directory) t (addressed urls assets)).2 := by
  induction assets generalizing t with
  | nil => exact Work.runs_pure () t
  | cons a rest ih =>
    rw [downloadEach]
    cases hurl : urls.lookup a.id with
    | none =>
      have haddressed : addressed urls (a :: rest) = addressed urls rest := by
        rw [addressed, List.filterMap_cons_none (by rw [hurl]; rfl)]
        rfl
      rw [haddressed]
      exact Work.Runs.note (ih t)
    | some url =>
      have haddressed : addressed urls (a :: rest) = (a, url) :: addressed urls rest := by
        rw [addressed, List.filterMap_cons_some (by rw [hurl]; rfl)]
        rfl
      rw [haddressed]
      have hone := (runs_download network t url (downloadPath directory a)).orElseFail
        Failure.client
      unfold saveAsks at ih ⊢
      rw [walked, reached, List.map_cons, Ask.sent_cons, saveStep]
      cases hsuccess : (downloaded network t url (downloadPath directory a)).1 with
      | false =>
        rw [hsuccess] at hone
        simp only [Bool.false_eq_true, if_false, hsuccess]
        exact hone.bind_fails
      | true =>
        rw [hsuccess] at hone
        exact hone.bind (ih _)

theorem runs_downloadAssets (urls : List (String × String)) (directory : String)
    (assets : List Asset) (t : FileTree) :
    (downloadAssets network urls directory assets).Runs t
      (done (walked (saveStep network directory) t (addressed urls assets)).1)
      (Ask.sent network (saveAsks network directory t (addressed urls assets)))
      (walked (saveStep network directory) t (addressed urls assets)).2 :=
  (runs_downloadEach network urls directory assets t).say

end Assets

/-! ### Converting and writing -/

theorem runs_convert (r : Response) (node : Option String) (o : Options) (t : FileTree) :
    (convert r node o).Runs t (compile r node o).toOption [] t := by
  unfold convert
  refine Work.Runs.note ?_
  cases compile r node o with
  | ok output => exact Work.runs_pure output t
  | error e => exact Work.runs_throw (Failure.selection e) t

theorem runs_writeFile (path text : String) (t : FileTree) :
    (writeFile path text).Runs t (done (t.overwrite path text.toUTF8).1) []
      (t.overwrite path text.toUTF8).2 := by
  intro w hw
  subst hw
  refine Work.RunsAt.get ?_
  unfold FileTree.overwrite
  cases w.files.write path text.toUTF8 with
  | ok files => exact ⟨{ w with files }, rfl, (List.append_nil _).symm, rfl⟩
  | error e => exact Work.runs_throw (Failure.unwritable path e) _ w rfl

/-- Write a page and, if there is one, its stylesheet, as far as that goes well. -/
def savePage (path : String) (output : Output) (title : String) (t : FileTree) : Bool × FileTree :=
  match t.overwrite path (output.page title).toUTF8 with
  | (false, t') => (false, t')
  | (true, t') =>
    if output.css = "" then (true, t')
    else t'.overwrite (stylesheetPath path) output.css.toUTF8

theorem runs_writeOutput (path : String) (output : Output) (title : String) (t : FileTree) :
    (writeOutput path output title).Runs t (done (savePage path output title t).1) []
      (savePage path output title t).2 := by
  have hpage := runs_writeFile path (output.page title) t
  unfold writeOutput savePage
  generalize t.overwrite path (output.page title).toUTF8 = result at hpage ⊢
  obtain ⟨success, t'⟩ := result
  cases success with
  | false => exact hpage.bind_none
  | true =>
    refine hpage.bind ?_
    by_cases hcss : output.css = ""
    · simp only [hcss, ne_eq, not_true_eq_false, if_false, if_true]
      exact Work.runs_say _ t'
    · have hsheet := runs_writeFile (stylesheetPath path) output.css t'
      simp only [hcss, ne_eq, not_false_eq_true, if_true, if_false]
      exact hsheet.say

/-! ### The whole run -/

section Fetch

variable (network : Network) (config : ClientConfig) (fileKey : String) (c : Choices)

/-- The response, and the page that is made of it before anything is known of its assets. -/
def firstPage? : Option (Response × Output) :=
  (fetched? network config fileKey c.node).bind fun response =>
    (compile response c.node (c.options [])).toOption.map fun output => (response, output)

def fetchedPage : String := c.output.getD (fileKey ++ ".html")

def assetDirectory : String := (Path.parent? (fetchedPage fileKey c)).getD "."

/-- The asks that follow once there is a page, `t` being the files at that time. -/
def assetAsks (output : Output) (t : FileTree) : AssetMode → List Ask
  | .paths => []
  | .remote => resolveAsks network config fileKey [] (resolutions output.assets)
  | .download =>
    resolveAsks network config fileKey [] (resolutions output.assets) ++
      match assetUrls? network config fileKey output.assets with
      | none => []
      | some urls => saveAsks network (assetDirectory fileKey c) t (addressed urls output.assets)

/-- The asks of a run that starts on the files `t`. -/
def fetchAsks (t : FileTree) (mode : AssetMode) : List Ask :=
  fileAsk config fileKey c.node ::
    match firstPage? network config fileKey c with
    | none => []
    | some (_, output) => assetAsks network config fileKey c output t mode

/-- Whether what follows once there is a page succeeds, and the files that it leaves. -/
def completed (response : Response) (output : Output) (t : FileTree) : AssetMode → Bool × FileTree
  | .paths => savePage (fetchedPage fileKey c) output (c.pageTitle response fileKey) t
  | .remote =>
    match assetUrls? network config fileKey output.assets with
    | none => (false, t)
    | some urls =>
      match compile response c.node (c.options urls) with
      | .error _ => (false, t)
      | .ok output => savePage (fetchedPage fileKey c) output (c.pageTitle response fileKey) t
  | .download =>
    match assetUrls? network config fileKey output.assets with
    | none => (false, t)
    | some urls =>
      match walked (saveStep network (assetDirectory fileKey c)) t
          (addressed urls output.assets) with
      | (false, t') => (false, t')
      | (true, t') => savePage (fetchedPage fileKey c) output (c.pageTitle response fileKey) t'

/-- Whether a run that starts on the files `t` succeeds, and the files that it leaves. -/
def fetched (t : FileTree) (mode : AssetMode) : Bool × FileTree :=
  match firstPage? network config fileKey c with
  | none => (false, t)
  | some (response, output) => completed network config fileKey c response output t mode

theorem runs_afterPage_remote (response : Response) (output : Output) (t : FileTree) :
    Work.Runs (do
        let urls ← resolveAssets network config fileKey output.assets
        let final ← convert response c.node (c.options urls)
        writeOutput (fetchedPage fileKey c) final (c.pageTitle response fileKey))
      t (done (completed network config fileKey c response output t .remote).1)
      (Ask.sent network (assetAsks network config fileKey c output t .remote))
      (completed network config fileKey c response output t .remote).2 := by
  have hresolve := runs_resolveAssets network config fileKey output.assets t
  unfold completed assetAsks
  generalize assetUrls? network config fileKey output.assets = urls? at hresolve ⊢
  cases urls? with
  | none => exact hresolve.bind_none
  | some urls =>
    refine hresolve.bind_last ?_
    have hconvert := runs_convert response c.node (c.options urls) t
    simp only
    cases hcompile : compile response c.node (c.options urls) with
    | error e =>
      rw [hcompile] at hconvert
      exact hconvert.bind_none
    | ok final =>
      rw [hcompile] at hconvert
      exact hconvert.bind (runs_writeOutput _ final _ t)

theorem runs_afterPage_download (response : Response) (output : Output) (t : FileTree) :
    Work.Runs (do
        let urls ← resolveAssets network config fileKey output.assets
        downloadAssets network urls (assetDirectory fileKey c) output.assets
        writeOutput (fetchedPage fileKey c) output (c.pageTitle response fileKey))
      t (done (completed network config fileKey c response output t .download).1)
      (Ask.sent network (assetAsks network config fileKey c output t .download))
      (completed network config fileKey c response output t .download).2 := by
  have hresolve := runs_resolveAssets network config fileKey output.assets t
  unfold completed assetAsks
  rw [Ask.sent_append]
  generalize assetUrls? network config fileKey output.assets = urls? at hresolve ⊢
  cases urls? with
  | none => exact hresolve.bind_fails
  | some urls =>
    refine hresolve.bind ?_
    have hdownload := runs_downloadAssets network urls (assetDirectory fileKey c) output.assets t
    simp only
    generalize walked (saveStep network (assetDirectory fileKey c)) t
      (addressed urls output.assets) = result at hdownload ⊢
    obtain ⟨success, t'⟩ := result
    cases success with
    | false => exact hdownload.bind_none
    | true => exact hdownload.bind_last (runs_writeOutput _ output _ t')

/-- **What a run asks for, whether it succeeds, and the files that it leaves.** -/
theorem runs_fetchPage (mode : AssetMode) (t : FileTree) :
    (fetchPage network config fileKey c mode).Runs t
      (done (fetched network config fileKey c t mode).1)
      (Ask.sent network (fetchAsks network config fileKey c t mode))
      (fetched network config fileKey c t mode).2 := by
  have hfetch := (runs_fetch network config fileKey t c.node).orElseFail Failure.client
  unfold fetchPage fetchAsks fetched firstPage?
  rw [Ask.sent_cons]
  cases hresponse : fetched? network config fileKey c.node with
  | none =>
    rw [hresponse] at hfetch
    exact hfetch.bind_fails
  | some response =>
    rw [hresponse] at hfetch
    refine hfetch.bind ?_
    have hconvert := runs_convert response c.node (c.options []) t
    rw [Option.bind_some]
    cases hcompile : compile response c.node (c.options []) with
    | error e =>
      rw [hcompile] at hconvert
      exact hconvert.bind_none
    | ok output =>
      rw [hcompile] at hconvert
      refine hconvert.bind_silent ?_
      cases mode with
      | paths => exact runs_writeOutput _ output _ t
      | remote => exact runs_afterPage_remote network config fileKey c response output t
      | download => exact runs_afterPage_download network config fileKey c response output t

end Fetch

/-- A command that is carried out does what its work does, from the files that there are. -/
theorem perform_of_runs (log : Log) (network : Network) (command : Command)
    {files t' : FileTree} {value? : Option Unit} {sent : List Request}
    (h : (job network command).Runs files value? sent t') :
    (perform log network command files).world.requests = sent ∧
      (perform log network command files).world.files = t' ∧
      (perform log network command files).exitCode = if value?.isSome then 0 else 1 := by
  obtain ⟨w', houtcome, hrequests, hfiles⟩ := h { files } rfl
  unfold perform
  unfold Work.outcome at houtcome
  cases hjob : job network command { files } with
  | ok _ w =>
    rw [hjob] at houtcome
    cases houtcome
    exact ⟨hrequests, hfiles, rfl⟩
  | error e w =>
    rw [hjob] at houtcome
    cases houtcome
    exact ⟨hrequests, hfiles, rfl⟩

/-- A run that exits with success is one of which all parts succeed. -/
theorem eq_of_exitCode_zero (log : Log) (network : Network) (command : Command)
    {files : FileTree} {result : Bool × FileTree} {sent : List Request}
    (h : (job network command).Runs files (done result.1) sent result.2)
    (hexit : (perform log network command files).exitCode = 0) :
    result = (true, (perform log network command files).world.files) := by
  obtain ⟨-, hfiles, hcode⟩ := perform_of_runs log network command h
  obtain ⟨success, t'⟩ := result
  cases success with
  | false =>
    rw [hcode] at hexit
    cases hexit
  | true => rw [hfiles]

end DesignMarkup.Command
