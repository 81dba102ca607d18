/-
  DesignMarkup/Proofs/Json/Reading.lean
  =====================================
  **What a reader makes of a value.**  A reader that knows what it is looking for takes some
  of the values that may stand in its place and refuses the others.  `Means` says of a reader
  what it makes of each value, if it takes it: on any text where a value stands, it gives
  just that and stops right behind the value, or fails.

  `Yields` is the same at one text.  It goes through `do` blocks part by part
  (`Yields.bind`), so that the meaning of a reader comes from those of the readers that it
  is made of.
-/
import DesignMarkup.Json.Record
import DesignMarkup.Proofs.Json.Written

namespace DesignMarkup.Json.Reader

variable {ν α β : Type}

/-- The reader gives `a` and stops before `rest`. -/
def Reads (r : Reader ν α) (text : Text) (a : α) (rest : Text) : Prop :=
  ∀ remarks, ∃ remarks', r ⟨text, remarks⟩ = .ok a ⟨rest, remarks'⟩

/-- The reader fails. -/
def Refuses (r : Reader ν α) (text : Text) : Prop :=
  ∀ remarks, ∃ fault state, r ⟨text, remarks⟩ = .error fault state

/-- The reader gives `a` and gets to `rest` if that is `some a`, and fails otherwise. -/
structure Yields (r : Reader ν α) (text : Text) (a? : Option α) (rest : Text) : Prop where
  reads : ∀ a, a? = some a → Reads r text a rest
  refuses : a? = none → Refuses r text

/-- Where a value stands, of which there is less than `fuel`, the reader reads what the value
    means, and fails if it means nothing. -/
def Means (fuel depth : Nat) (r : Reader ν α) (meaning : Value → Option α) : Prop :=
  ∀ ⦃text w rest⦄, text.length < fuel → scanWritten fuel depth text = .ok (w, rest) →
    Yields r text (meaning w) rest

/-! ### One step after the other -/

theorem bind_run {r : Reader ν α} {f : α → Reader ν β} {s s' : State ν} {a : α}
    (h : r s = .ok a s') : (r >>= f) s = f a s' := by
  change EStateM.bind r f s = f a s'
  rw [EStateM.bind, h]

theorem Reads.bind {r : Reader ν α} {f : α → Reader ν β} {text mid rest : Text} {a : α} {b : β}
    (h : Reads r text a mid) (hf : Reads (f a) mid b rest) : Reads (r >>= f) text b rest := by
  intro remarks
  obtain ⟨remarks', hr⟩ := h remarks
  obtain ⟨remarks'', hb⟩ := hf remarks'
  exact ⟨remarks'', (bind_run hr).trans hb⟩

theorem Reads.bind_refuses {r : Reader ν α} {f : α → Reader ν β} {text mid : Text} {a : α}
    (h : Reads r text a mid) (hf : Refuses (f a) mid) : Refuses (r >>= f) text := by
  intro remarks
  obtain ⟨remarks', hr⟩ := h remarks
  obtain ⟨fault, state, hb⟩ := hf remarks'
  exact ⟨fault, state, (bind_run hr).trans hb⟩

theorem Refuses.bind {r : Reader ν α} {text : Text} (h : Refuses r text) (f : α → Reader ν β) :
    Refuses (r >>= f) text := by
  intro remarks
  obtain ⟨fault, state, hr⟩ := h remarks
  refine ⟨fault, state, ?_⟩
  change EStateM.bind r f _ = _
  rw [EStateM.bind, hr]

theorem Reads.yields {r : Reader ν α} {text rest : Text} {a : α} (h : Reads r text a rest) :
    Yields r text (some a) rest where
  reads b hb := by
    obtain rfl := Option.some.inj hb
    exact h
  refuses := nofun

theorem Refuses.yields {r : Reader ν α} {text : Text} (h : Refuses r text) (rest : Text) :
    Yields r text none rest where
  reads := nofun
  refuses _ := h

theorem Reads.yields_bind {r : Reader ν α} {f : α → Reader ν β} {text mid rest : Text} {a : α}
    {b? : Option β} (h : Reads r text a mid) (hf : Yields (f a) mid b? rest) :
    Yields (r >>= f) text b? rest where
  reads b hb := h.bind (hf.reads b hb)
  refuses hb := h.bind_refuses (hf.refuses hb)

theorem Yields.bind {r : Reader ν α} {f : α → Reader ν β} {text mid rest : Text} {a? : Option α}
    {b? : α → Option β} (h : Yields r text a? mid) (hf : ∀ a, Yields (f a) mid (b? a) rest) :
    Yields (r >>= f) text (a?.bind b?) rest := by
  cases a? with
  | none => exact ((h.refuses rfl).bind f).yields rest
  | some a => exact (h.reads a rfl).yields_bind (hf a)

/-! ### The steps -/

theorem reads_pure (a : α) (text : Text) : Reads (pure a : Reader ν α) text a text :=
  fun remarks => ⟨remarks, rfl⟩

theorem reads_scan {s : Text → Outcome (α × Text)} {text rest : Text} {a : α}
    (h : s text = .ok (a, rest)) : Reads (scan s : Reader ν α) text a rest := by
  intro remarks
  refine ⟨remarks, ?_⟩
  simp only [scan, h]

theorem refuses_scan {s : Text → Outcome (α × Text)} {text : Text} {r : Rejection}
    (h : s text = .error r) : Refuses (scan s : Reader ν α) text := by
  intro remarks
  refine ⟨⟨r.cause, some r.unread⟩, ⟨text, remarks⟩, ?_⟩
  simp only [scan, h]

theorem refuses_mismatch (m : Mismatch) (text : Text) : Refuses (mismatch m : Reader ν α) text :=
  fun remarks => ⟨_, ⟨text, remarks⟩, rfl⟩

theorem reads_remark (remarks : List ν) (text : Text) : Reads (remark remarks) text () text :=
  fun before => ⟨before ++ remarks, rfl⟩

theorem reads_peek {text next : Text} (h : skipSpace text = next) :
    Reads (peek : Reader ν Text) text next next := by
  intro remarks
  refine ⟨remarks, ?_⟩
  rw [← h]
  rfl

theorem reads_goTo (rest text : Text) : Reads (goTo rest : Reader ν Unit) text () rest :=
  fun remarks => ⟨remarks, rfl⟩

theorem Refuses.placed {r : Reader ν α} {text : Text} (h : Refuses r text) :
    Refuses (placed r) text := by
  intro remarks
  obtain ⟨⟨cause, unread⟩, state, hr⟩ := h remarks
  cases unread with
  | none =>
    refine ⟨⟨cause, some (byteCount state.rest)⟩, state, ?_⟩
    simp only [Reader.placed, hr]
  | some unread =>
    refine ⟨⟨cause, some unread⟩, state, ?_⟩
    simp only [Reader.placed, hr]

theorem Reads.placed {r : Reader ν α} {text rest : Text} {a : α} (h : Reads r text a rest) :
    Reads (placed r) text a rest := by
  intro remarks
  obtain ⟨remarks', hr⟩ := h remarks
  refine ⟨remarks', ?_⟩
  simp only [Reader.placed, hr]

theorem refuses_refuse (fuel : Nat) (expected : String) (text : Text) :
    Refuses (refuse fuel expected : Reader ν α) text := by
  refine Refuses.placed ((reads_peek rfl).bind_refuses ?_)
  split
  · exact refuses_mismatch _ _
  · exact refuses_mismatch _ _
  · cases h : scanScalar fuel (skipSpace text) with
    | error r => exact (refuses_scan h).bind _
    | ok r => exact (reads_scan h).bind_refuses (refuses_mismatch _ _)

/-! ### Readers of values -/

/-- What only goes on with the result has no say in what is taken. -/
theorem Means.bind {fuel depth : Nat} {r : Reader ν α} {f : α → Reader ν β}
    {meaning : Value → Option α} {g : α → β} (h : Means fuel depth r meaning)
    (hf : ∀ a text, Reads (f a) text (g a) text) :
    Means fuel depth (r >>= f) fun w => (meaning w).map g := by
  intro text w rest hlt hscan
  have hbind := (h hlt hscan).bind fun a => (hf a rest).yields
  have hmap : (meaning w).map g = (meaning w).bind fun a => some (g a) := Option.map_eq_bind
  rwa [← hmap] at hbind

theorem means_scanValue (fuel depth : Nat) :
    Means fuel depth (scan (scanValue fuel depth) : Reader ν Value) fun w => some w.sorted := by
  intro text w rest _ hscan
  have hvalue : scanValue fuel depth text = .ok (w.sorted, rest) := by
    rw [scanValue_eq, scanMap, hscan]
    rfl
  exact (reads_scan hvalue).yields

theorem scanWritten_skipSpace (fuel depth : Nat) (text : Text) :
    scanWritten fuel depth (skipSpace text) = scanWritten fuel depth text := by
  cases depth with
  | zero => rw [scanWritten, scanWritten, skipSpace_skipSpace]
  | succ depth => rw [scanWritten, scanWritten, skipSpace_skipSpace]

/-- The meaning of a part that may be null. -/
def orNull (meaning : Value → Option α) : Value → Option (Option α)
  | .null => some none
  | w => (meaning w).map some

theorem orNull_of_ne {meaning : Value → Option α} {w : Value} (h : w ≠ .null) :
    orNull meaning w = (meaning w).map some := by
  cases w with
  | null => exact absurd rfl h
  | boolean _ | number _ | string _ | array _ | object _ => rfl

theorem isSome_orNull (meaning : Value → Option α) (w : Value) :
    (orNull meaning w).isSome = true ↔ w = .null ∨ (meaning w).isSome = true := by
  by_cases h : w = .null
  · subst h
    simp [orNull]
  · rw [orNull_of_ne h, Option.isSome_map]
    exact (or_iff_right h).symm

/-- A part that may be null is null or what is looked for. -/
theorem Means.optional {fuel depth : Nat} {r : Reader ν α} {meaning : Value → Option α}
    (h : Means fuel depth r meaning) : Means fuel depth (optional r) (orNull meaning) := by
  intro text w rest hlt hscan
  have hle := length_skipSpace_le text
  -- the reader of the part starts after the space, and the same value stands there
  have hr := h (by omega) ((scanWritten_skipSpace fuel depth text).trans hscan)
  have hvalue := valueAt_of_scanWritten hlt hscan
  refine (reads_peek rfl).yields_bind ?_
  split
  · next tail hspace =>
    rw [hspace] at hvalue
    obtain ⟨rfl, hword⟩ := null_of_valueAt hvalue
    exact ((reads_goTo tail _).bind ((reads_scan hword).bind (reads_pure none rest))).yields
  · next hspace =>
    have hnull : w ≠ .null := by
      rintro rfl
      obtain ⟨tail, htail⟩ := text_of_null hvalue
      exact hspace tail htail
    rw [orNull_of_ne hnull, Option.map_eq_bind]
    exact hr.bind fun a => (reads_pure (some a) rest).yields

def stringOf? : Value → Option String
  | .string s => some s
  | _ => none

theorem means_string (fuel depth : Nat) :
    Means fuel depth (string fuel : Reader ν String) stringOf? := by
  intro text w rest hlt hscan
  have hvalue := valueAt_of_scanWritten hlt hscan
  refine (reads_peek rfl).yields_bind ?_
  split
  · next hspace =>
    rw [hspace] at hvalue
    exact absurd hvalue not_valueAt_nil
  · next tail hspace =>
    rw [hspace] at hvalue
    obtain ⟨s, rfl, hstring⟩ := string_of_valueAt hvalue
    exact ((reads_goTo tail _).bind (reads_scan hstring)).yields
  · next hquote =>
    cases w with
    | string s =>
      obtain ⟨tail, htail⟩ := text_of_string hvalue
      exact absurd htail (hquote tail)
    | null | boolean _ | number _ | array _ | object _ =>
      exact (refuses_refuse fuel "a string" _).yields rest

/-! ### Whole texts -/

/-- **A whole text is read as what is written in it means.** -/
theorem toOption_run {r : Nat → Reader ν α} {meaning : Value → Option α} {text : String}
    {w : Value}
    (h : Means (text.toList.length + 1) maxDepth (r (text.toList.length + 1)) meaning)
    (hw : written? text = some w) : (run r text).1.toOption = meaning w := by
  obtain ⟨rest, hscan, hspace⟩ := written?_eq_some_iff.mp hw
  have hyields := h (Nat.lt_succ_self _) hscan
  simp only [run]
  cases hmeaning : meaning w with
  | none =>
    obtain ⟨fault, state, hr⟩ := hyields.refuses hmeaning []
    rw [hr]
    rfl
  | some a =>
    obtain ⟨remarks, hr⟩ := hyields.reads a hmeaning []
    rw [hr]
    simp only [hspace]
    rfl

end DesignMarkup.Json.Reader
