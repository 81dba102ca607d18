/-
  DesignMarkup/Proofs/Api/Runs.lean
  =================================
  **What work does to the world.**  Work on the world reads the files and the answers of the
  network; it reads neither what was asked before nor what was said.  So what it does is
  told by the files that it starts from: whether it succeeds and with which value, the
  requests that are answered on the way, and the files that it leaves (`Work.Runs`).

  What is said on the way does not matter here, and of a failure only that it is one.
-/
import DesignMarkup.Api.Work

namespace DesignMarkup.Work

variable {ε δ α β : Type}

/-- The value of work, if it succeeds, and the world after it. -/
def outcome (work : Work ε α) (w : World) : Option α × World :=
  match work w with
  | .ok a w => (some a, w)
  | .error _ w => (none, w)

/-- `work.RunsAt w value? sent t'`: in the world `w` the work gives `value?`, which is `none`
    if it fails, after the requests `sent`, and leaves the files `t'`. -/
def RunsAt (work : Work ε α) (w : World) (value? : Option α) (sent : List Request)
    (t' : FileTree) : Prop :=
  ∃ w', work.outcome w = (value?, w') ∧ w'.requests = w.requests ++ sent ∧ w'.files = t'

/-- The work does the same in all worlds with the files `t`. -/
def Runs (work : Work ε α) (t : FileTree) (value? : Option α) (sent : List Request)
    (t' : FileTree) : Prop :=
  ∀ w : World, w.files = t → work.RunsAt w value? sent t'

theorem outcome_bind (work : Work ε α) (f : α → Work ε β) (w : World) :
    (work >>= f).outcome w =
      match work.outcome w with
      | (some a, w') => (f a).outcome w'
      | (none, w') => (none, w') := by
  unfold outcome
  simp only [bind, EStateM.bind]
  cases work w <;> rfl

theorem ok_of_outcome {work : Work ε α} {w : World} {a : α}
    (h : (work.outcome w).1 = some a) : work w = .ok a (work.outcome w).2 := by
  unfold outcome at h ⊢
  cases hwork : work w with
  | ok b w' =>
    rw [hwork] at h
    rw [Option.some.inj h]
  | error e w' =>
    rw [hwork] at h
    cases h

/-! ### One after the other -/

section Rules

variable {t t' t'' : FileTree} {sent sent' : List Request}

theorem runs_pure (a : α) (t : FileTree) : Runs (pure a : Work ε α) t (some a) [] t := by
  intro w hw
  exact ⟨w, rfl, (List.append_nil _).symm, hw⟩

theorem runs_throw (e : ε) (t : FileTree) : Runs (throw e : Work ε α) t none [] t := by
  intro w hw
  exact ⟨w, rfl, (List.append_nil _).symm, hw⟩

theorem Runs.bind {work : Work ε α} {f : α → Work ε β} {a : α} {value? : Option β}
    (h : work.Runs t (some a) sent t') (h' : (f a).Runs t' value? sent' t'') :
    (work >>= f).Runs t value? (sent ++ sent') t'' := by
  intro w hw
  obtain ⟨w', houtcome, hrequests, hfiles⟩ := h w hw
  obtain ⟨w'', houtcome', hrequests', hfiles'⟩ := h' w' hfiles
  refine ⟨w'', ?_, ?_, hfiles'⟩
  · rw [outcome_bind, houtcome]
    exact houtcome'
  · rw [hrequests', hrequests, List.append_assoc]

theorem Runs.bind_silent {work : Work ε α} {f : α → Work ε β} {a : α} {value? : Option β}
    (h : work.Runs t (some a) [] t') (h' : (f a).Runs t' value? sent t'') :
    (work >>= f).Runs t value? sent t'' := h.bind h'

theorem Runs.bind_last {work : Work ε α} {f : α → Work ε β} {a : α} {value? : Option β}
    (h : work.Runs t (some a) sent t') (h' : (f a).Runs t' value? [] t'') :
    (work >>= f).Runs t value? sent t'' := by
  rw [← List.append_nil sent]
  exact h.bind h'

theorem Runs.bind_none {work : Work ε α} {f : α → Work ε β} (h : work.Runs t none sent t') :
    (work >>= f).Runs t none sent t' := by
  intro w hw
  obtain ⟨w', houtcome, hrequests, hfiles⟩ := h w hw
  refine ⟨w', ?_, hrequests, hfiles⟩
  rw [outcome_bind, houtcome]

theorem Runs.bind_fails {work : Work ε α} {f : α → Work ε β} (h : work.Runs t none sent t') :
    (work >>= f).Runs t none (sent ++ []) t' := by
  rw [List.append_nil]
  exact h.bind_none

/-! ### What is said and what is asked -/

theorem runs_say (lines : List Line) (t : FileTree) :
    Runs (say lines : Work ε Unit) t (some ()) [] t := by
  intro w hw
  exact ⟨{ w with lines := w.lines ++ lines }, rfl, (List.append_nil _).symm, hw⟩

theorem Runs.note {notices : List Notice} {work : Work ε α} {value? : Option α}
    (h : work.Runs t value? sent t') :
    (Work.note notices >>= fun _ => work).Runs t value? sent t' :=
  (runs_say _ t).bind h

theorem Runs.say {work : Work ε Unit} {value? : Option Unit} {lines : List Line}
    (h : work.Runs t value? sent t') :
    (work >>= fun _ => Work.say lines).Runs t value? sent t' := by
  cases value? with
  | none => exact h.bind_none
  | some _ => exact h.bind_last (runs_say lines t')

theorem runs_ask (network : Network) (r : Request) (t : FileTree) :
    Runs (ask network r : Work ε (Option Reply)) t (some (network r))
      ((network r).map fun _ => r).toList t := by
  intro w hw
  unfold ask RunsAt outcome
  cases network r with
  | none => exact ⟨w, rfl, (List.append_nil _).symm, hw⟩
  | some reply => exact ⟨{ w with requests := w.requests ++ [r] }, rfl, rfl, hw⟩

theorem runs_ofExcept (result : Except ε α) (t : FileTree) :
    Runs (ofExcept result) t result.toOption [] t := by
  intro w hw
  unfold ofExcept RunsAt outcome
  cases result <;> exact ⟨w, rfl, (List.append_nil _).symm, hw⟩

theorem Runs.orElseFail {work : Work ε α} {value? : Option α} (reason : ε → δ)
    (h : work.Runs t value? sent t') : (Work.orElseFail reason work).Runs t value? sent t' := by
  intro w hw
  obtain ⟨w', houtcome, hrequests, hfiles⟩ := h w hw
  refine ⟨w', ?_, hrequests, hfiles⟩
  rw [← houtcome]
  simp only [outcome, Work.orElseFail]
  cases work w <;> rfl

/-! ### Reading and changing the files -/

theorem RunsAt.get {f : World → Work ε α} {w : World} {value? : Option α}
    (h : (f w).RunsAt w value? sent t') : (MonadState.get >>= f).RunsAt w value? sent t' := h

theorem RunsAt.set {work : Work ε α} {w : World} {value? : Option α}
    (h : work.Runs t value? sent t') :
    (MonadStateOf.set { w with files := t } >>= fun _ => work).RunsAt w value? sent t' :=
  h { w with files := t } rfl

end Rules

/-! ### Where a chain succeeds and where it fails -/

section Ending

variable {t t' : FileTree} {sent : List Request} {value? : Option α} {work : Work ε α}
  {f : α → Work ε β} {w w' : World} {e : ε}

theorem Runs.ok {a : α} (h : work.Runs t value? sent t') (hw : w.files = t)
    (hok : work w = .ok a w') :
    value? = some a ∧ w'.requests = w.requests ++ sent ∧ w'.files = t' := by
  obtain ⟨w'', houtcome, hrequests, hfiles⟩ := h w hw
  rw [outcome, hok] at houtcome
  obtain ⟨hvalue, rfl⟩ := Prod.mk.inj houtcome
  exact ⟨hvalue.symm, hrequests, hfiles⟩

theorem Runs.error (h : work.Runs t value? sent t') (hw : w.files = t)
    (herror : work w = .error e w') : value? = none ∧ w'.files = t' := by
  obtain ⟨w'', houtcome, -, hfiles⟩ := h w hw
  rw [outcome, herror] at houtcome
  obtain ⟨hvalue, rfl⟩ := Prod.mk.inj houtcome
  exact ⟨hvalue.symm, hfiles⟩

theorem bind_eq_of_ok {a : α} (h : work w = .ok a w') : (work >>= f) w = f a w' := by
  simp only [bind, EStateM.bind, h]

theorem bind_eq_of_error (h : work w = .error e w') : (work >>= f) w = .error e w' := by
  simp only [bind, EStateM.bind, h]

/-- A chain succeeds where both parts do. -/
theorem bind_ok {b : β} (hok : (work >>= f) w = .ok b w') :
    ∃ a w₁, work w = .ok a w₁ ∧ f a w₁ = .ok b w' := by
  simp only [bind, EStateM.bind] at hok
  cases hwork : work w with
  | ok a w₁ =>
    rw [hwork] at hok
    exact ⟨a, w₁, rfl, hok⟩
  | error e₁ w₁ =>
    rw [hwork] at hok
    cases hok

/-- A chain fails in its first part, or after it. -/
theorem bind_error (herror : (work >>= f) w = .error e w') :
    work w = .error e w' ∨ ∃ a w₁, work w = .ok a w₁ ∧ f a w₁ = .error e w' := by
  simp only [bind, EStateM.bind] at herror
  cases hwork : work w with
  | ok a w₁ =>
    rw [hwork] at herror
    exact Or.inr ⟨a, w₁, rfl, herror⟩
  | error e₁ w₁ =>
    rw [hwork] at herror
    obtain ⟨rfl, rfl⟩ := EStateM.Result.error.inj herror
    exact Or.inl rfl

theorem Runs.bind_error (h : work.Runs t value? sent t') (hw : w.files = t)
    (herror : (work >>= f) w = .error e w') :
    value? = none ∧ w'.files = t' ∨
      ∃ a w₁, value? = some a ∧ w₁.files = t' ∧ f a w₁ = .error e w' := by
  rcases Work.bind_error herror with hfirst | ⟨a, w₁, hok, hlast⟩
  · exact Or.inl (h.error hw hfirst)
  · obtain ⟨hvalue, -, hfiles⟩ := h.ok hw hok
    exact Or.inr ⟨a, w₁, hvalue, hfiles, hlast⟩

end Ending

end DesignMarkup.Work
