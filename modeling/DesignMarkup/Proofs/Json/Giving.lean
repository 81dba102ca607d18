/-
  DesignMarkup/Proofs/Json/Giving.lean
  ====================================
  **What holds of all that a reader gives.**  `Gives r P` says that whatever the reader makes
  of a text, well formed or not, has the property `P` if the reader succeeds.  It says
  nothing of what is read, so it needs no value in the text to speak of; it is about what
  the reader builds.

  A map is built one member at a time, each put in its place, so that its keys ascend
  (`gives_map`).  A record is built one field at a time, so that it has every property that
  the reader of each field keeps (`gives_record`).
-/
import DesignMarkup.Proofs.Json.Members
import DesignMarkup.Proofs.Json.Reading

namespace DesignMarkup.Json.Reader

variable {ν α β φ σ : Type} {P : α → Prop} {Q : β → Prop}

/-- Where the reader succeeds, what it gives has the property. -/
def Gives (r : Reader ν α) (P : α → Prop) : Prop := ∀ ⦃s a s'⦄, r s = .ok a s' → P a

/-! ### One step after the other -/

theorem gives_pure {a : α} (h : P a) : Gives (pure a : Reader ν α) P := by
  intro s b s' hrun
  cases hrun
  exact h

theorem gives_of_refuses {r : Reader ν α} (h : ∀ text, Refuses r text) : Gives r P := by
  intro s a s' hrun
  obtain ⟨fault, state, hfail⟩ := h s.rest s.remarks
  rw [hfail] at hrun
  cases hrun

theorem Gives.bind {r : Reader ν α} {f : α → Reader ν β} (h : Gives r P)
    (hf : ∀ a, P a → Gives (f a) Q) : Gives (r >>= f) Q := by
  intro s b s' hrun
  change EStateM.bind r f s = .ok b s' at hrun
  unfold EStateM.bind at hrun
  split at hrun
  next a s₁ hr => exact hf a (h hr) hrun
  · cases hrun

/-- What comes first does not matter, if the rest gives what it should after anything. -/
theorem gives_bind {r : Reader ν α} {f : α → Reader ν β} (hf : ∀ a, Gives (f a) Q) :
    Gives (r >>= f) Q :=
  Gives.bind (P := fun _ => True) (fun _ _ _ _ => trivial) fun a _ => hf a

theorem Gives.placed {r : Reader ν α} (h : Gives r P) : Gives (placed r) P := by
  intro s a s' hrun
  unfold Reader.placed at hrun
  split at hrun
  · cases hrun
  · exact h hrun

theorem Gives.closedBy {inside : Reader ν α} (h : Gives inside P)
    (close : Text → Option Rejection × Text) : Gives (closedBy close inside) P := by
  refine Gives.placed fun s a s' hrun => ?_
  split at hrun
  next hinside =>
    split at hrun
    · cases hrun
      exact h hinside
    · cases hrun
  · cases hrun

theorem gives_rejectPast (cause : Cause) : Gives (rejectPast cause : Reader ν α) P :=
  gives_of_refuses fun _ => refuses_scan rfl

theorem gives_mismatch (m : Mismatch) : Gives (mismatch m : Reader ν α) P :=
  gives_of_refuses (refuses_mismatch m)

theorem gives_refuse (fuel : Nat) (expected : String) :
    Gives (refuse fuel expected : Reader ν α) P :=
  gives_of_refuses (refuses_refuse fuel expected)

/-! ### Maps -/

theorem gives_members (fuel : Nat) (item : Reader ν α) (count : Nat) (first : Bool)
    {soFar : List (String × α)} (h : IsAscending soFar) :
    Gives (members fuel item count first soFar) IsAscending := by
  induction count generalizing first soFar with
  | zero => exact gives_pure h
  | succ count ih =>
    refine gives_bind fun key? => ?_
    cases key? with
    | none => exact gives_pure h
    | some key =>
      exact gives_bind fun _ => gives_bind fun value =>
        ih false (isAscending_insertMember h key value)

/-- **The keys of a map ascend**, in whatever order the members stand in the text. -/
theorem gives_map (fuel : Nat) (item : Reader ν α) : Gives (map fuel item) IsAscending := by
  refine gives_bind fun text => ?_
  split
  · exact gives_rejectPast _
  · exact gives_bind fun _ =>
      (gives_members fuel item fuel true List.Pairwise.nil).closedBy closeObject
  · exact gives_refuse fuel _

/-! ### Records -/

section Records

variable {schema : Schema ν φ σ} {P : σ → Prop}

theorem gives_recordItems (hread : ∀ f r, P r → Gives (schema.read f r) P) (fields : List φ)
    (index : Nat) {r : σ} (h : P r) : Gives (recordItems schema fields index r) P := by
  induction fields generalizing index r with
  | nil => exact gives_pure h
  | cons f rest ih =>
    refine gives_bind fun more => ?_
    cases more with
    | true => exact (hread f r h).bind fun r' h' => ih (index + 1) h'
    | false =>
      simp only [Bool.false_eq_true, if_false]
      split
      · exact gives_mismatch _
      · exact gives_pure h

variable [DecidableEq φ]

theorem gives_recordMembers (hread : ∀ f r, P r → Gives (schema.read f r) P) (fuel count : Nat)
    (first : Bool) (seen : List φ) {r : σ} (h : P r) :
    Gives (recordMembers fuel schema count first seen r) P := by
  induction count generalizing first seen r with
  | zero => exact gives_pure h
  | succ count ih =>
    refine gives_bind fun key? => ?_
    split
    · split
      · exact gives_mismatch _
      · exact gives_pure h
    · split
      · exact gives_bind fun _ => gives_bind fun _ => ih false seen h
      next f _ =>
        split_ifs
        · exact gives_mismatch _
        · exact gives_bind fun _ => (hread f r h).bind fun r' h' => ih false (f :: seen) h'

/-- **A record has what the reader of each field keeps.** -/
theorem gives_record (hread : ∀ f r, P r → Gives (schema.read f r) P) (fuel : Nat) {r : σ}
    (h : P r) : Gives (record fuel schema r) P := by
  refine gives_bind fun text => ?_
  split
  · exact gives_rejectPast _
  · exact gives_bind fun _ => (gives_recordItems hread schema.fields 0 h).closedBy closeArray
  · exact gives_bind fun _ => (gives_recordMembers hread fuel fuel true [] h).closedBy closeObject
  · exact gives_refuse fuel _

end Records

/-! ### Whole texts -/

theorem Gives.run {r : Nat → Reader ν α} (h : ∀ fuel, Gives (r fuel) P) {text : String} {a : α}
    (hrun : (run r text).1 = .ok a) : P a := by
  unfold Reader.run at hrun
  simp only at hrun
  split at hrun
  · cases hrun
  next hr =>
    split at hrun
    · cases hrun
      exact h _ hr
    · cases hrun

end DesignMarkup.Json.Reader
