/-
  DesignMarkup/Proofs/Command/Downloads.lean
  ==========================================
  **What a download leaves.**  The assets with an address are saved one after the other, each
  under its own path, so that of several with one path the last one stays.  No two other assets
  meet, and none meets the page or its stylesheet: those lie in the directory of the page, and
  assets lie one directory further down (`place_downloadPath`).

  Which place a path leads to is always asked in the last tree.  All trees before it only grow
  into it, so the places are the same (`FileTree.GrowsTo.find`).
-/
import DesignMarkup.Proofs.Asset.Place
import DesignMarkup.Proofs.Command.Output

namespace DesignMarkup.Command

open Client

/-! ### A walk and its parts -/

section Walk

variable {σ α : Type} {step : σ → α → Bool × σ} {s s' : σ} {items rest : List α} {item : α}

theorem walked_cons_true (h : walked step s (item :: rest) = (true, s')) :
    ∃ s₁, step s item = (true, s₁) ∧ walked step s₁ rest = (true, s') := by
  rw [walked] at h
  split_ifs at h with hstep
  · exact ⟨(step s item).2, Prod.ext hstep rfl, h⟩
  · rw [h] at hstep
    exact absurd rfl hstep

theorem walked_append_true (h : walked step s (items ++ rest) = (true, s')) :
    ∃ s₁, walked step s items = (true, s₁) ∧ walked step s₁ rest = (true, s') := by
  induction items generalizing s with
  | nil => exact ⟨s, rfl, h⟩
  | cons item items ih =>
    obtain ⟨s₁, hstep, hrest⟩ := walked_cons_true h
    obtain ⟨s₂, hitems, hlast⟩ := ih hrest
    refine ⟨s₂, ?_, hlast⟩
    rw [walked, hstep]
    exact hitems

/-- A walk that fails does so at one item, after a walk that did not. -/
theorem walked_false (h : walked step s items = (false, s')) :
    ∃ before item after s₁, items = before ++ item :: after ∧
      walked step s before = (true, s₁) ∧ step s₁ item = (false, s') := by
  induction items generalizing s with
  | nil => cases h
  | cons item items ih =>
    rw [walked] at h
    split_ifs at h with hstep
    · obtain ⟨before, failing, after, s₁, rfl, hbefore, hfailing⟩ := ih h
      refine ⟨item :: before, failing, after, s₁, rfl, ?_, hfailing⟩
      rw [walked, if_pos hstep]
      exact hbefore
    · exact ⟨[], item, items, s, rfl, rfl, h⟩

end Walk

/-! ### Saving the assets -/

section Assets

variable {network : Network} {base address path : String} {t t' : FileTree}
  {items : List (Asset × String)}

theorem saved_of_downloaded (h : downloaded network t address path = (true, t')) :
    ∃ reply, Ask.granted? network ⟨address, none⟩ = some reply ∧
      t.Saved t' path reply.body (t'.IsAround path) := by
  unfold downloaded at h
  split at h
  next reply hreply => exact ⟨reply, hreply, FileTree.saved_of_save h⟩
  · cases h

theorem changed_of_downloaded (h : downloaded network t address path = (false, t')) :
    t.Changed t' (fun _ => False) (t'.IsAround path) := by
  unfold downloaded at h
  split at h
  · exact FileTree.changed_of_save h
  · cases h
    exact .refl _

/-- Where the files of some assets are. -/
def IsAssetPlace (t : FileTree) (base : String) (items : List (Asset × String)) (place : Place) :
    Prop :=
  ∃ item ∈ items, t.find (downloadPath base item.1) = .ok place

/-- Where the directories around the files of some assets are. -/
def IsAroundAssets (t : FileTree) (base : String) (items : List (Asset × String))
    (place : Place) : Prop :=
  ∃ item ∈ items, t.IsAround (downloadPath base item.1) place

theorem changed_walked (h : walked (saveStep network base) t items = (true, t')) :
    t.Changed t' (IsAssetPlace t' base items) (IsAroundAssets t' base items) := by
  induction items generalizing t with
  | nil =>
    cases h
    exact .refl _
  | cons item items ih =>
    obtain ⟨t₁, hstep, hrest⟩ := walked_cons_true h
    obtain ⟨reply, -, hsaved⟩ := saved_of_downloaded hstep
    have hlater := ih hrest
    have hgrows := hlater.grows
    refine FileTree.Changed.trans (hsaved.changed.mono ?_ ?_) (hlater.mono ?_ ?_)
    · intro place hplace
      exact ⟨item, List.mem_cons_self, hgrows.find hplace⟩
    · intro place hplace
      exact ⟨item, List.mem_cons_self, hplace.grows hgrows⟩
    · rintro place ⟨later, hmem, hplace⟩
      exact ⟨later, List.mem_cons_of_mem _ hmem, hplace⟩
    · rintro place ⟨later, hmem, hplace⟩
      exact ⟨later, List.mem_cons_of_mem _ hmem, hplace⟩

variable {before : List (List Char)} {name : List Char} {directory : Place}

/-- An asset of a walk has its file, right in the directory of its kind. -/
theorem find_walked (hnew : t'.IsNewPlace path before name directory)
    (h : walked (saveStep network ((Path.parent? path).getD ".")) t items = (true, t'))
    {item : Asset × String} (hitem : item ∈ items) :
    t'.find (downloadPath ((Path.parent? path).getD ".") item.1) =
      .ok (directory ++ [item.1.kind.directory, item.1.file]) := by
  obtain ⟨earlier, later, rfl⟩ := List.append_of_mem hitem
  obtain ⟨t₁, -, hrest⟩ := walked_append_true h
  obtain ⟨t₂, hstep, hrest⟩ := walked_cons_true hrest
  obtain ⟨reply, -, hsaved⟩ := saved_of_downloaded hstep
  obtain ⟨place, hfind, -⟩ := FileTree.read_eq_ok.mp hsaved.read
  have hfind' := (changed_walked hrest).grows.find hfind
  rw [hfind', place_downloadPath hnew item.1 hfind']

/-- An asset that no later one has the path of stands as it was served. -/
theorem read_walked (hnew : t'.IsNewPlace path before name directory)
    {earlier later : List (Asset × String)} {item : Asset × String}
    (h : walked (saveStep network ((Path.parent? path).getD ".")) t (earlier ++ item :: later) =
      (true, t'))
    (hlater : ∀ other ∈ later, other.1.ref ≠ item.1.ref) :
    ∃ reply, Ask.granted? network ⟨item.2, none⟩ = some reply ∧
      t'.read (downloadPath ((Path.parent? path).getD ".") item.1) = .ok reply.body := by
  obtain ⟨t₁, -, hrest⟩ := walked_append_true h
  obtain ⟨t₂, hstep, hrest⟩ := walked_cons_true hrest
  obtain ⟨reply, hreply, hsaved⟩ := saved_of_downloaded hstep
  have hchanged := changed_walked hrest
  refine ⟨reply, hreply, hchanged.read hsaved.read ?_⟩
  -- the same place would be the same path
  rintro place hfind ⟨other, hmem, hother⟩
  apply hlater other hmem
  have hplace := place_downloadPath hnew item.1 hfind
  rw [place_downloadPath hnew other.1 hother] at hplace
  exact ref_eq_of_place hplace

/-- No asset lies where the page or its stylesheet does. -/
theorem not_isOutputPlace {output : Output} (hnew : t.IsNewPlace path before name directory)
    (hsheet : output.css ≠ "" → t.TakesFile (stylesheetPath path)) (a : Asset) {place : Place}
    (hfind : t.find (downloadPath ((Path.parent? path).getD ".") a) = .ok place) :
    ¬IsOutputPlace t path output place := by
  rw [place_downloadPath hnew a hfind]
  rintro (hpage | ⟨hcss, hstyle⟩)
  · have hplace := hnew.place_eq hpage
    simp at hplace
  · have hplace := place_stylesheet hnew (hsheet hcss) hstyle
    simp at hplace

end Assets

/-! ### The assets with an address -/

/-- Of the items with a property there is a last one. -/
theorem exists_last {α : Type} {p : α → Prop} {items : List α} (h : ∃ item ∈ items, p item) :
    ∃ before last after, items = before ++ last :: after ∧ p last ∧ ∀ later ∈ after, ¬p later := by
  induction items with
  | nil => simp at h
  | cons first rest ih =>
    by_cases hrest : ∃ item ∈ rest, p item
    · obtain ⟨before, last, after, rfl, hlast, hafter⟩ := ih hrest
      exact ⟨first :: before, last, after, rfl, hlast, hafter⟩
    · obtain ⟨item, hmem, hitem⟩ := h
      rcases List.mem_cons.mp hmem with rfl | hmem
      · exact ⟨[], item, rest, rfl, hitem, fun later hlater hp => hrest ⟨later, hlater, hp⟩⟩
      · exact absurd ⟨item, hmem, hitem⟩ hrest

section Addressed

variable {urls : List (String × String)} {assets : List Asset} {a : Asset} {url : String}

theorem mem_addressed {item : Asset × String} :
    item ∈ addressed urls assets ↔ item.1 ∈ assets ∧ urls.lookup item.1.id = some item.2 := by
  obtain ⟨a, url⟩ := item
  simp only [addressed, List.mem_filterMap, Option.map_eq_some_iff, Prod.mk.injEq]
  constructor
  · rintro ⟨a', hmem, url', hurl, rfl, rfl⟩
    exact ⟨hmem, hurl⟩
  · rintro ⟨hmem, hurl⟩
    exact ⟨a, hmem, url, hurl, rfl, rfl⟩

theorem addressed_append_cons (before after : List Asset) (hurl : urls.lookup a.id = some url) :
    addressed urls (before ++ a :: after) =
      addressed urls before ++ (a, url) :: addressed urls after := by
  simp [addressed, List.filterMap_append, hurl]

/-- Of the entries with one path, the last that has an address. -/
theorem exists_last_addressed (ha : a ∈ assets) (hurl : (urls.lookup a.id).isSome = true) :
    ∃ before last after url, assets = before ++ last :: after ∧ last.ref = a.ref ∧
      urls.lookup last.id = some url ∧
      ∀ later ∈ after, later.ref = a.ref → urls.lookup later.id = none := by
  obtain ⟨before, last, after, hassets, ⟨hlast, hhas⟩, hafter⟩ :=
    exists_last (p := fun b => b.ref = a.ref ∧ (urls.lookup b.id).isSome = true) ⟨a, ha, rfl, hurl⟩
  obtain ⟨url, hurl'⟩ := Option.isSome_iff_exists.mp hhas
  refine ⟨before, last, after, url, hassets, hlast, hurl', fun later hlater hsame => ?_⟩
  by_cases hsome : (urls.lookup later.id).isSome = true
  · exact absurd ⟨hsame, hsome⟩ (hafter later hlater)
  · exact Option.not_isSome_iff_eq_none.mp hsome

end Addressed

/-! ### The run -/

section Run

variable {network : Network} {config : ClientConfig} {fileKey : String} {c : Choices}
  {t t' : FileTree}

/-- A run that succeeds has a page, and what follows succeeds. -/
theorem completed_of_fetched {mode : AssetMode}
    (h : fetched network config fileKey c t mode = (true, t')) :
    ∃ response output, firstPage? network config fileKey c = some (response, output) ∧
      completed network config fileKey c response output t mode = (true, t') := by
  unfold fetched at h
  cases hfirst : firstPage? network config fileKey c with
  | none =>
    rw [hfirst] at h
    cases h
  | some found =>
    obtain ⟨response, output⟩ := found
    rw [hfirst] at h
    exact ⟨response, output, rfl, h⟩

theorem walked_of_completed {response : Response} {output : Output}
    (h : completed network config fileKey c response output t .download = (true, t')) :
    ∃ urls t₁, assetUrls? network config fileKey output.assets = some urls ∧
      walked (saveStep network (assetDirectory fileKey c)) t (addressed urls output.assets) =
        (true, t₁) ∧
      savePage (fetchedPage fileKey c) output (c.pageTitle response fileKey) t₁ = (true, t') := by
  simp only [completed] at h
  cases hurls : assetUrls? network config fileKey output.assets with
  | none =>
    rw [hurls] at h
    cases h
  | some urls =>
    rw [hurls] at h
    simp only at h
    generalize hwalk : walked (saveStep network (assetDirectory fileKey c)) t
      (addressed urls output.assets) = result at h
    obtain ⟨success, t₁⟩ := result
    cases success with
    | false => cases h
    | true => exact ⟨urls, t₁, rfl, hwalk, h⟩

/-- What is left of a download: files for the assets with an address, the page, and its
    stylesheet. -/
structure Delivered (network : Network) (t t' : FileTree) (page : String) (output : Output)
    (urls : List (String × String)) : Prop where
  /-- Of the entries with one path, the last that has an address is what stands there. -/
  served : ∀ a ∈ output.assets, (urls.lookup a.id).isSome = true →
    ∃ before last after url, output.assets = before ++ last :: after ∧ last.ref = a.ref ∧
      urls.lookup last.id = some url ∧
      (∀ later ∈ after, later.ref = a.ref → urls.lookup later.id = none) ∧
      ∃ reply, Ask.granted? network ⟨url, none⟩ = some reply ∧
        t'.read (downloadPath ((Path.parent? page).getD ".") a) = .ok reply.body
  /-- The files of the assets lie right in the directories of their kinds, next to the page. -/
  placed : ∃ directory name, t'.find page = .ok (directory ++ [name]) ∧
    ∀ a ∈ output.assets, (urls.lookup a.id).isSome = true →
      t'.find (downloadPath ((Path.parent? page).getD ".") a) =
        .ok (directory ++ [a.kind.directory, a.file])
  /-- Nothing else changed, directories around the assets apart. -/
  changed : t.Changed t'
    (fun place =>
      IsAssetPlace t' ((Path.parent? page).getD ".") (addressed urls output.assets) place ∨
        IsOutputPlace t' page output place)
    (IsAroundAssets t' ((Path.parent? page).getD ".") (addressed urls output.assets))

theorem downloadPath_congr {a b : Asset} (h : a.ref = b.ref) (base : String) :
    downloadPath base a = downloadPath base b := by
  rw [downloadPath, downloadPath, h]

theorem delivered_of_walked {page title : String} {output : Output}
    {urls : List (String × String)} {t₁ : FileTree}
    (hwalk : walked (saveStep network ((Path.parent? page).getD ".")) t
      (addressed urls output.assets) = (true, t₁))
    (hsave : savePage page output title t₁ = (true, t')) :
    Delivered network t t' page output urls := by
  have hwrites := writesPage_of_savePage hsave
  obtain ⟨before, name, directory, hnew⟩ := hwrites.takesPage
  have hassets := changed_walked hwalk
  have hgrows := hwrites.changed.grows
  have hnew' := hnew.grows hgrows
  constructor
  · intro a ha hurl
    obtain ⟨earlier, last, after, url, hentries, hlast, hurl', hafter⟩ :=
      exists_last_addressed ha hurl
    refine ⟨earlier, last, after, url, hentries, hlast, hurl', hafter, ?_⟩
    rw [hentries, addressed_append_cons earlier after hurl'] at hwalk
    obtain ⟨reply, hreply, hread⟩ := read_walked hnew hwalk fun other hother hsame => by
      obtain ⟨hmem, hother⟩ := mem_addressed.mp hother
      rw [hafter other.1 hmem (hsame.trans hlast)] at hother
      cases hother
    refine ⟨reply, hreply, ?_⟩
    rw [← downloadPath_congr hlast]
    -- the page and its stylesheet come later, and are elsewhere
    exact hwrites.changed.read hread fun place hfind =>
      not_isOutputPlace hnew' hwrites.takesSheet last hfind
  · obtain ⟨place, hpage⟩ := hwrites.there
    refine ⟨directory, String.ofList name, ?_, fun a ha hurl => ?_⟩
    · rw [hpage, hnew'.place_eq hpage]
    · obtain ⟨url, hurl⟩ := Option.isSome_iff_exists.mp hurl
      have hitem : (a, url) ∈ addressed urls output.assets := mem_addressed.mpr ⟨ha, hurl⟩
      have hfind := find_walked hnew hwalk hitem
      exact hgrows.find hfind
  · refine FileTree.Changed.trans (hassets.mono ?_ ?_) (hwrites.changed.mono ?_ ?_)
    · exact fun place ⟨item, hmem, hplace⟩ => Or.inl ⟨item, hmem, hgrows.find hplace⟩
    · exact fun place ⟨item, hmem, hplace⟩ => ⟨item, hmem, hplace.grows hgrows⟩
    · exact fun place hplace => Or.inr hplace
    · exact fun place hplace => hplace.elim

/-- **What a download run leaves.**  Whenever it exits with success, on any files and against
    any network, there is a manifest with addresses for its entries, and all that it lists with
    an address is delivered. -/
theorem delivered_fetch (log : Log) (network : Network) (fileKey token base : String)
    (c : Choices) (files : FileTree)
    (hexit : (perform log network (.fetch fileKey token base c .download) files).exitCode = 0) :
    ∃ response output urls,
      firstPage? network ⟨token, base⟩ fileKey c = some (response, output) ∧
      assetUrls? network ⟨token, base⟩ fileKey output.assets = some urls ∧
      Delivered network files
        (perform log network (.fetch fileKey token base c .download) files).world.files
        (fetchedPage fileKey c) output urls := by
  have hfetched := eq_of_exitCode_zero log network (.fetch fileKey token base c .download)
    (runs_fetchPage network ⟨token, base⟩ fileKey c .download files) hexit
  obtain ⟨response, output, hfirst, hcompleted⟩ := completed_of_fetched hfetched
  obtain ⟨urls, t₁, hurls, hwalk, hsave⟩ := walked_of_completed hcompleted
  exact ⟨response, output, urls, hfirst, hurls, delivered_of_walked hwalk hsave⟩

end Run

/-- A service that has one document, with one icon on its page. -/
def iconService : Network := .ofTable "a"
  [("/v1/files/k", ⟨200, ("\x7b\"document\":\x7b\"children\":[\x7b\"children\":[" ++
      "\x7b\"id\":\"1\",\"type\":\"VECTOR\",\"absoluteBoundingBox\":[0,0,1,1]\x7d" ++
      "]\x7d]\x7d\x7d").toUTF8⟩),
    ("/v1/images/k?ids=1&format=svg",
      ⟨200, "\x7b\"images\":\x7b\"1\":\"http://a/i\"\x7d\x7d".toUTF8⟩),
    ("/i", ⟨200, "<svg/>".toUTF8⟩)]

/-- The icon is downloaded into a tree in which there was nothing: it is the one entry of the
    manifest, its address comes of the service, and what is served there stands in its file. -/
theorem delivered_fetch_icon :
    let ending := perform (.ofEnvironment [] 0) iconService
      (.fetch "k" "t" "http://a" {} .download) ⟨[], []⟩
    ending.exitCode = 0 ∧
    ending.world.files.read "icons/icon-placeholder.svg" = .ok "<svg/>".toUTF8 ∧
    ∃ response output urls,
      firstPage? iconService ⟨"t", "http://a"⟩ "k" {} = some (response, output) ∧
      assetUrls? iconService ⟨"t", "http://a"⟩ "k" output.assets = some urls ∧
      (output.assets.map fun a => (a.ref, urls.lookup a.id)) =
        [("./icons/icon-placeholder.svg", some "http://a/i")] ∧
      Delivered iconService ⟨[], []⟩ ending.world.files (fetchedPage "k" {}) output urls := by
  intro ending
  have hexit : ending.exitCode = 0 := by decide +kernel
  have hread : ending.world.files.read "icons/icon-placeholder.svg" = .ok "<svg/>".toUTF8 := by
    have hsame : (match ending.world.files.read "icons/icon-placeholder.svg" with
      | .ok content => decide (content = "<svg/>".toUTF8)
      | .error _ => false) = true := by decide +kernel
    split at hsame
    next content hcontent => rw [hcontent, of_decide_eq_true hsame]
    next => cases hsame
  obtain ⟨response, output, urls, hfirst, hurls, hdelivered⟩ :=
    delivered_fetch _ _ _ _ _ _ _ hexit
  have haddresses : ((firstPage? iconService ⟨"t", "http://a"⟩ "k" {}).bind fun page =>
      (assetUrls? iconService ⟨"t", "http://a"⟩ "k" page.2.assets).map fun urls =>
        page.2.assets.map fun a => (a.ref, urls.lookup a.id)) =
      some [("./icons/icon-placeholder.svg", some "http://a/i")] := by decide +kernel
  rw [hfirst, Option.bind_some, hurls, Option.map_some] at haddresses
  have hending : perform (.ofEnvironment [] 0) iconService
      (.fetch "k" "t" "http://a" {} .download) ⟨[], []⟩ = ending := rfl
  rw [hending] at hdelivered
  exact ⟨hexit, hread, response, output, urls, hfirst, hurls, Option.some.inj haddresses,
    hdelivered⟩

end DesignMarkup.Command
