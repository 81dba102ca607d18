/-
  DesignMarkup/Proofs/Command/Reporting.lean
  ==========================================
  **What a download reports.**  The program goes through the manifest.  Of each entry it
  says one thing: that it has no address, or what was written for it (`Told`).  One request
  is made for each entry with an address, and none for the others (`requests_downloadAssets`).

  The number in the line at the end is that of all entries.  It is the number of downloads
  only if each entry has an address (`reported_downloadAssets`).
-/
import DesignMarkup.Proofs.Api.Saying
import DesignMarkup.Proofs.Command.Downloads

namespace DesignMarkup.Command

open Client Work

/-- The line that reports `n` downloads. -/
def report (n : Nat) : Line := .plain ("Downloaded " ++ toString n ++ " asset(s)")

theorem report_injective : Function.Injective report := by
  intro n m h
  have htext : "Downloaded " ++ toString n = "Downloaded " ++ toString m :=
    (String.append_left_inj " asset(s)").mp (Line.plain.inj h)
  exact Text.toString_injective ((String.append_right_inj "Downloaded ").mp htext)

section Downloads

variable (network : Network) (urls : List (String × String)) (directory : String)

/-- What is said of an entry of the manifest. -/
inductive Told (a : Asset) : Notice → Prop where
  | skipped : urls.lookup a.id = none → Told a (.assetWithoutUrl a.id a.name)
  | downloaded {url : String} {reply : Reply} : urls.lookup a.id = some url →
      Ask.granted? network ⟨url, none⟩ = some reply →
      Told a (.fileWritten (downloadPath directory a) reply.body.size)

/-- The request is for the address of the item, without the token, and was granted. -/
structure IsDownload (item : Asset × String) (r : Request) : Prop where
  address : Url.parse? item.2 = some r.url
  token : r.token = none
  granted : ∃ reply, network r = some reply ∧ reply.isSuccess

theorem says_downloadEach (assets : List Asset) :
    (downloadEach network urls directory assets).Says fun _ said => ∃ told,
      said = told.map .notice ∧ List.Forall₂ (Told network urls directory) assets told := by
  induction assets with
  | nil => exact says_pure ⟨[], rfl, .nil⟩
  | cons a rest ih =>
    -- whatever is said of the first entry stands in front of what is said of the rest
    have hcons : ∀ n, Told network urls directory a n →
        (downloadEach network urls directory rest).Says fun _ more => ∃ told,
          .notice n :: more = told.map Line.notice ∧
            List.Forall₂ (Told network urls directory) (a :: rest) told := by
      intro n hn
      apply ih.mono
      rintro _ more ⟨told, rfl, htold⟩
      exact ⟨n :: told, rfl, .cons hn htold⟩
    rw [downloadEach]
    cases hurl : urls.lookup a.id with
    | none => exact Says.note (hcons _ (.skipped hurl))
    | some url =>
      apply ((says_download network url (downloadPath directory a)).orElseFail Failure.client).bind
      rintro _ said ⟨reply, hreply, rfl⟩
      exact hcons _ (.downloaded hurl hreply)

theorem says_downloadAssets (assets : List Asset) :
    (downloadAssets network urls directory assets).Says fun _ said => ∃ told,
      said = told.map .notice ++ [report assets.length] ∧
        List.Forall₂ (Told network urls directory) assets told := by
  apply (says_downloadEach network urls directory assets).bind
  rintro _ said ⟨told, rfl, htold⟩
  apply (says_say [report assets.length]).mono
  rintro _ more rfl
  exact ⟨told, rfl, htold⟩

variable {network directory}

theorem isDownload_of_granted {item : Asset × String} {reply : Reply}
    (h : Ask.granted? network ⟨item.2, none⟩ = some reply) :
    ∃ r, Ask.request? network ⟨item.2, none⟩ = some r ∧ IsDownload network item r := by
  obtain ⟨hreply, hsuccess⟩ := Option.filter_eq_some_iff.mp h
  obtain ⟨r, hrequest, hreply⟩ := Option.bind_eq_some_iff.mp hreply
  have hsent := Ask.request?_eq_some_iff.mp hrequest
  exact ⟨r, hrequest, hsent.address, hsent.token, reply, hreply, hsuccess⟩

/-- **Each item of a walk that succeeds is downloaded,** by one request of its own. -/
theorem isDownload_of_walked {t t' : FileTree} {items : List (Asset × String)}
    (h : walked (saveStep network directory) t items = (true, t')) :
    List.Forall₂ (IsDownload network) items
      (Ask.sent network (saveAsks network directory t items)) := by
  induction items generalizing t with
  | nil => exact .nil
  | cons item rest ih =>
    obtain ⟨t₁, hstep, hrest⟩ := walked_cons_true h
    obtain ⟨reply, hgranted, -⟩ := saved_of_downloaded hstep
    obtain ⟨r, hrequest, hr⟩ := isDownload_of_granted hgranted
    have hasks : saveAsks network directory t (item :: rest) =
        ⟨item.2, none⟩ :: saveAsks network directory t₁ rest := by
      rw [saveAsks, reached, hstep]
      rfl
    rw [hasks, Ask.sent_cons, hrequest]
    exact .cons hr (ih hrest)

/-- An entry has an address or it has none. -/
theorem length_addressed (assets : List Asset) :
    (addressed urls assets).length + assets.countP (fun a => (urls.lookup a.id).isNone) =
      assets.length := by
  have hnone : ∀ a : Asset, (urls.lookup a.id).isNone = decide ¬(urls.lookup a.id).isSome = true := by
    intro a
    cases urls.lookup a.id <;> rfl
  rw [addressed, List.length_filterMap_eq_countP,
    List.length_eq_countP_add_countP fun a : Asset => (urls.lookup a.id).isSome]
  simp only [Option.isSome_map, hnone]

variable {urls}

/-- **The requests of downloads that succeed:** one for each entry with an address, in order. -/
theorem requests_downloadAssets {assets : List Asset} {w w' : World}
    (h : downloadAssets network urls directory assets w = .ok () w') :
    ∃ performed, w'.requests = w.requests ++ performed ∧
      List.Forall₂ (IsDownload network) (addressed urls assets) performed := by
  obtain ⟨hdone, hrequests, -⟩ :=
    (runs_downloadAssets network urls directory assets w.files).ok rfl h
  unfold done at hdone
  split_ifs at hdone with hsuccess
  exact ⟨_, hrequests, isDownload_of_walked (Prod.ext hsuccess rfl)⟩

/-- **What is reported, and what was done.**  For all entries, addresses and networks, if the
    downloads succeed, the program has said of each entry, in order, that it has no address or
    what was written for it; it has made one request for each entry with an address, in order,
    each granted, and no other; and it reports as many downloads as there are entries.  So the
    report exceeds the downloads by the entries without an address, and is right exactly if
    there are none. -/
theorem reported_downloadAssets {assets : List Asset} {w w' : World}
    (h : downloadAssets network urls directory assets w = .ok () w') :
    ∃ told performed,
      w'.lines = w.lines ++ told.map .notice ++ [report assets.length] ∧
      List.Forall₂ (Told network urls directory) assets told ∧
      w'.requests = w.requests ++ performed ∧
      List.Forall₂ (IsDownload network) (addressed urls assets) performed ∧
      performed.length + assets.countP (fun a => (urls.lookup a.id).isNone) = assets.length ∧
      (report assets.length = report performed.length ↔
        ∀ a ∈ assets, urls.lookup a.id ≠ none) := by
  obtain ⟨performed, hrequests, hdownloads⟩ := requests_downloadAssets h
  have hcount := length_addressed urls assets
  rw [hdownloads.length_eq] at hcount
  obtain ⟨said, hlines, told, hsaid, htold⟩ := says_downloadAssets network urls directory assets w h
  refine ⟨told, performed, ?_, htold, hrequests, hdownloads, hcount, ?_⟩
  · rw [hlines, hsaid, List.append_assoc]
  · rw [report_injective.eq_iff]
    have hnone : assets.countP (fun a => (urls.lookup a.id).isNone) = 0 ↔
        ∀ a ∈ assets, urls.lookup a.id ≠ none := by
      rw [List.countP_eq_zero]
      simp only [Option.isNone_iff_eq_none]
    rw [← hnone]
    omega

end Downloads

/-- An icon that has an address is downloaded, and one download is reported. -/
theorem reported_downloadAssets_icon :
    ∃ w', downloadAssets iconService [("1", "http://a/i")] "" [⟨"1", "a", .icon⟩]
        ⟨⟨[], []⟩, [], []⟩ = .ok () w' ∧
      ∃ performed, w'.requests = performed ∧ performed.length = 1 ∧
        ∃ told, w'.lines = told ++ [report performed.length] := by
  obtain ⟨w', hok⟩ : ∃ w', downloadAssets iconService [("1", "http://a/i")] ""
      [⟨"1", "a", .icon⟩] ⟨⟨[], []⟩, [], []⟩ = .ok () w' :=
    ⟨_, Work.ok_of_outcome (by decide +kernel)⟩
  obtain ⟨told, performed, hlines, -, hrequests, -, hcount, -⟩ := reported_downloadAssets hok
  have hlength : performed.length = 1 := hcount
  refine ⟨w', hok, performed, ?_, hlength, told.map .notice, ?_⟩
  · rw [hrequests]
    rfl
  · rw [hlines, hlength]
    rfl

/-! ### A report that is wrong -/

/-- The service with the icon, where it does not render it. -/
def bareService : Network := fun r =>
  if r.url.target = "/v1/images/k?ids=1&format=svg" then
    some ⟨200, "\x7b\"images\":\x7b\"1\":null\x7d\x7d".toUTF8⟩
  else iconService r

/-- The end of a run that is to download the icon from it. -/
def bareEnding : Ending :=
  perform (.ofEnvironment [] 0) bareService (.fetch "k" "t" "http://a" {} .download) ⟨[], []⟩

/-- The run asks for the file and for the address of the icon, and for nothing after that.  It
    reports one download. -/
theorem misreported_download :
    bareEnding.exitCode = 0 ∧
      bareEnding.world.requests.map (fun r => r.url.target) =
        ["/v1/files/k", "/v1/images/k?ids=1&format=svg"] ∧
      bareEnding.stderr = "[WARN  figml_client] 1 of 1 image(s) could not be rendered\n" ++
        "[WARN  figml] no rendered URL for 1 ()\nDownloaded 1 asset(s)\nBuilt: k.html\n" := by
  decide +kernel

end DesignMarkup.Command
