/-
  DesignMarkup/Proofs/Api/Saying.lean
  ===================================
  **What work says.**  Nothing takes back a line that was said: work only adds lines.
  `Says work P` says of work that succeeds that the lines it adds go with its value as `P`
  has it, in whatever world it starts.  It goes through `do` blocks part by part
  (`Says.bind`), what was said before being put in front of what is said next.

  Of a failure it says nothing: what was said before one stays said, but no value goes with it.
-/
import DesignMarkup.Proofs.Api.Client
import DesignMarkup.Proofs.Json.Giving

namespace DesignMarkup

namespace Work

variable {ε δ α β : Type}

/-- If the work succeeds in the world `w`, the lines that it adds go with its value. -/
def SaysAt (work : Work ε α) (w : World) (P : α → List Line → Prop) : Prop :=
  ∀ ⦃a w'⦄, work w = .ok a w' → ∃ said, w'.lines = w.lines ++ said ∧ P a said

/-- Where the work succeeds, the lines that it adds go with its value. -/
def Says (work : Work ε α) (P : α → List Line → Prop) : Prop := ∀ w, work.SaysAt w P

/-- Nothing is said, and the value has the property `R`. -/
def Silent (R : α → Prop) (a : α) (said : List Line) : Prop := R a ∧ said = []

section Rules

variable {P : α → List Line → Prop} {Q : β → List Line → Prop} {work : Work ε α}
  {f : α → Work ε β}

theorem says_pure {a : α} (h : P a []) : Says (pure a : Work ε α) P := by
  intro w b w' hrun
  cases hrun
  exact ⟨[], (List.append_nil _).symm, h⟩

theorem says_throw (e : ε) : Says (throw e : Work ε α) P := by
  intro w a w' hrun
  cases hrun

theorem Says.mono {R : α → List Line → Prop} (h : work.Says P)
    (hPR : ∀ a said, P a said → R a said) : work.Says R := by
  intro w a w' hrun
  obtain ⟨said, hsaid, hP⟩ := h w hrun
  exact ⟨said, hsaid, hPR a said hP⟩

theorem Says.bind (h : work.Says P)
    (hf : ∀ a said, P a said → (f a).Says fun b more => Q b (said ++ more)) :
    (work >>= f).Says Q := by
  intro w b w' hrun
  obtain ⟨a, w₁, hwork, hrest⟩ := bind_ok hrun
  obtain ⟨said, hsaid, hP⟩ := h w hwork
  obtain ⟨more, hmore, hQ⟩ := hf a said hP w₁ hrest
  exact ⟨said ++ more, by rw [hmore, hsaid, List.append_assoc], hQ⟩

/-- What says nothing at first says what it says later. -/
theorem Says.bind_silent {R : α → Prop} (h : work.Says (Silent R))
    (hf : ∀ a, R a → (f a).Says Q) : (work >>= f).Says Q := by
  refine h.bind ?_
  intro a said hsilent
  obtain ⟨ha, rfl⟩ := hsilent
  exact hf a ha

theorem says_say (lines : List Line) : (say lines : Work ε Unit).Says fun _ said => said = lines := by
  intro w a w' hrun
  cases hrun
  exact ⟨lines, rfl, rfl⟩

theorem Says.note {notices : List Notice} {rest : Work ε β}
    (h : rest.Says fun b more => Q b (notices.map .notice ++ more)) :
    (Work.note notices >>= fun _ => rest).Says Q := by
  refine (says_say (notices.map .notice)).bind ?_
  rintro _ said rfl
  exact h

theorem says_ask (network : Network) (r : Request) :
    Says (ask network r : Work ε (Option Reply)) (Silent (· = network r)) := by
  intro w reply? w' hrun
  unfold ask at hrun
  cases hreply : network r with
  | none =>
    rw [hreply] at hrun
    cases hrun
    exact ⟨[], (List.append_nil _).symm, rfl, rfl⟩
  | some reply =>
    rw [hreply] at hrun
    cases hrun
    exact ⟨[], (List.append_nil _).symm, rfl, rfl⟩

theorem says_ofExcept (result : Except ε α) :
    Says (ofExcept result) (Silent (result = .ok ·)) := by
  intro w a w' hrun
  cases result with
  | error e => cases hrun
  | ok b =>
    cases hrun
    exact ⟨[], (List.append_nil _).symm, rfl, rfl⟩

theorem Says.orElseFail (reason : ε → δ) (h : work.Says P) :
    (Work.orElseFail reason work).Says P := by
  intro w a w' hrun
  unfold Work.orElseFail at hrun
  split at hrun
  next hwork =>
    cases hrun
    exact h w hwork
  · cases hrun

theorem SaysAt.get {f : World → Work ε α} {w : World} (h : (f w).SaysAt w P) :
    (MonadState.get >>= f).SaysAt w P := h

theorem SaysAt.set {w : World} {t : FileTree} (h : work.Says P) :
    (MonadStateOf.set { w with files := t } >>= fun _ => work).SaysAt w P :=
  h { w with files := t }

end Rules

end Work

/-! ### The functions of the client -/

namespace Client

open Work

variable (network : Network)

theorem says_get (address : String) (token : Option String) :
    (get network address token).Says
      (Silent (Ask.granted? network ⟨address, token⟩ = some ·)) := by
  have hsilent : (get network address token).Says fun _ said => said = [] := by
    unfold get
    split
    · exact says_throw _
    next r _ =>
      refine (says_ask network r).bind_silent fun reply? _ => ?_
      split
      · exact says_throw _
      · split
        · exact says_pure rfl
        · exact says_throw _
  intro w reply w' hrun
  obtain ⟨said, hlines, hsaid⟩ := hsilent w hrun
  exact ⟨said, hlines, ((runs_get network address token w.files).ok rfl hrun).1, hsaid⟩

/-- The addresses that are collected have their ids in order, each once. -/
theorem isAscending_collectImages {body : String} {images : List (String × String)}
    (h : collectImages body = .ok images) : Json.IsAscending images := by
  have hrecord : ∀ fuel, Json.Reader.Gives
      (Json.Reader.record fuel (ImagesResponse.schema fuel) ⟨none, []⟩)
      fun r => Json.IsAscending r.images := by
    intro fuel
    refine Json.Reader.gives_record (fun field r hr => ?_) fuel List.Pairwise.nil
    cases field with
    | err => exact Json.Reader.gives_bind fun err => Json.Reader.gives_pure hr
    | images => exact (Json.Reader.gives_map fuel _).bind fun _ h => Json.Reader.gives_pure h
  unfold collectImages at h
  split at h
  · cases h
  next r hparse =>
    have hr := Json.Reader.Gives.run hrecord hparse
    split at h
    · cases h
    · cases h
      refine List.Pairwise.filterMap _ (fun a b hlt m hm n hn => ?_) hr
      obtain ⟨url, -, rfl⟩ := Option.map_eq_some_iff.mp hm
      obtain ⟨url', -, rfl⟩ := Option.map_eq_some_iff.mp hn
      exact hlt

/-- What is said of images that were asked for: that they are, and how many did not come. -/
def imageNotices (ids : List String) (format : ImageFormat) (images : List (String × String)) :
    List Notice :=
  if ids = [] then [] else .resolving ids.length format.name :: unrenderedNotice ids images

theorem says_resolveImages (c : ClientConfig) (fileKey : String) (ids : List String)
    (format : ImageFormat) :
    (resolveImages network c fileKey ids format).Says fun images said =>
      Json.IsAscending images ∧ said = (imageNotices ids format images).map .notice := by
  unfold resolveImages imageNotices
  by_cases hids : ids = []
  · subst hids
    exact says_pure ⟨List.Pairwise.nil, rfl⟩
  · rw [if_neg fun hempty => hids (List.isEmpty_iff.mp hempty)]
    refine Says.note ((says_get network _ _).bind_silent fun reply _ => ?_)
    refine (says_ofExcept _).bind_silent fun images himages => Says.note (says_pure ?_)
    simp only [if_neg hids, List.append_nil]
    exact ⟨isAscending_collectImages himages, rfl⟩

/-- A download that succeeds says what it wrote. -/
theorem says_download (address path : String) :
    (download network address path).Says fun _ said => ∃ reply,
      Ask.granted? network ⟨address, none⟩ = some reply ∧
        said = [.notice (.fileWritten path reply.body.size)] := by
  unfold download
  refine (says_get network _ _).bind_silent fun reply hreply => ?_
  have hwrite : (writeReply path reply).Says fun _ said => ∃ reply,
      Ask.granted? network ⟨address, none⟩ = some reply ∧
        said = [.notice (.fileWritten path reply.body.size)] := by
    intro w
    refine SaysAt.get ?_
    split
    · exact says_throw _ w
    · exact SaysAt.set (Says.note (says_pure ⟨reply, hreply, rfl⟩))
  split
  next parent _ =>
    intro w
    refine SaysAt.get ?_
    simp only
    refine SaysAt.set ?_
    split
    · intro w a w' hrun
      cases hrun
    · exact hwrite
  · exact hwrite

end Client

end DesignMarkup
