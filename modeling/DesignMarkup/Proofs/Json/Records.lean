/-
  DesignMarkup/Proofs/Json/Records.lean
  =====================================
  **What a record is read from, and what is read.**  A record takes an object that names no
  field of it twice and has every required one, and an array that has them in order; what
  stands in a field must be what the reader of that field takes.  Keys that name no field
  may stand for anything.  A map takes an object if each of its values is taken.

  `Schema.ofValue?` is the record that a value makes, field after field, and `means_record`
  says that the reader makes the same of the text.  `Schema.Accepts` are the values of which
  it makes something (`Schema.isSome_ofValue?`).
-/
import DesignMarkup.Proofs.Json.Reading
import DesignMarkup.Proofs.Json.Skipping

namespace DesignMarkup.Json

variable {ν α β φ σ : Type}

/-- The fields that members name, in order. -/
def Schema.named (schema : Schema ν φ σ) (members : List (String × Value)) : List φ :=
  members.filterMap fun m => schema.fieldOf? m.1

/-- Members that a record takes when the fields `seen` were met before. -/
structure Schema.AcceptsMembers (schema : Schema ν φ σ) (P : φ → Value → Prop) (seen : List φ)
    (members : List (String × Value)) : Prop where
  nodup : (schema.named members).Nodup
  fresh : ∀ f ∈ schema.named members, f ∉ seen
  values : ∀ m ∈ members, ∀ f, schema.fieldOf? m.1 = some f → P f m.2
  complete : ∀ f ∈ schema.fields, schema.required f = true → f ∈ seen ∨ f ∈ schema.named members

/-- Items that a record takes for `fields`. -/
structure Schema.AcceptsItems (schema : Schema ν φ σ) (P : φ → Value → Prop) (fields : List φ)
    (items : List Value) : Prop where
  length : items.length ≤ fields.length
  values : ∀ p ∈ fields.zip items, P p.1 p.2
  complete : ∀ f ∈ fields.drop items.length, schema.required f = false

/-- A value that a record takes, a field `f` being read from the values with `P f`. -/
def Schema.Accepts (schema : Schema ν φ σ) (P : φ → Value → Prop) : Value → Prop
  | .object members => schema.AcceptsMembers P [] members
  | .array items => schema.AcceptsItems P schema.fields items
  | _ => False

/-- What members make of a record when the fields `seen` were met before, `meaning` being what
    the value of a field makes of it. -/
def Schema.ofMembers? [DecidableEq φ] (schema : Schema ν φ σ) (meaning : φ → σ → Value → Option σ) :
    List φ → σ → List (String × Value) → Option σ
  | seen, record, [] =>
    match schema.fields.find? fun f => schema.required f && !seen.contains f with
    | some _ => none
    | none => some record
  | seen, record, (key, v) :: rest =>
    match schema.fieldOf? key with
    | none => schema.ofMembers? meaning seen record rest
    | some f =>
      if seen.contains f then none
      else (meaning f record v).bind fun record => schema.ofMembers? meaning (f :: seen) record rest

/-- What items make of a record, one for each of `fields`. -/
def Schema.ofItems? (schema : Schema ν φ σ) (meaning : φ → σ → Value → Option σ) :
    List φ → σ → List Value → Option σ
  | fields, record, [] =>
    match fields.find? schema.required with
    | some _ => none
    | none => some record
  | [], _, _ :: _ => none
  | f :: fields, record, v :: rest =>
    (meaning f record v).bind fun record => schema.ofItems? meaning fields record rest

/-- What a value makes of a record. -/
def Schema.ofValue? [DecidableEq φ] (schema : Schema ν φ σ) (meaning : φ → σ → Value → Option σ)
    (record : σ) : Value → Option σ
  | .object members => schema.ofMembers? meaning [] record members
  | .array items => schema.ofItems? meaning schema.fields record items
  | _ => none

/-- The value stands for a field of the record, under a name of the field or in its place. -/
def Schema.Holds (schema : Schema ν φ σ) (f : φ) (v : Value) : Value → Prop
  | .object members => ∃ key, (key, v) ∈ members ∧ schema.fieldOf? key = some f
  | .array items => (f, v) ∈ schema.fields.zip items
  | _ => False

/-! ### One member, one item -/

section Conditions

variable {schema : Schema ν φ σ} {P : φ → Value → Prop}

theorem Schema.acceptsMembers_nil [DecidableEq φ] {seen : List φ} :
    schema.AcceptsMembers P seen [] ↔
      (schema.fields.find? fun f => schema.required f && !seen.contains f) = none := by
  rw [List.find?_eq_none]
  constructor
  · intro h f hf hopen
    obtain ⟨hreq, hseen⟩ := Bool.and_eq_true_iff.mp hopen
    rcases h.complete f hf hreq with hmem | hmem
    · simp [hmem] at hseen
    · exact absurd hmem List.not_mem_nil
  · intro h
    refine ⟨List.nodup_nil, nofun, nofun, fun f hf hreq => Or.inl ?_⟩
    by_contra hseen
    exact h f hf (by simp [hreq, hseen])

theorem Schema.acceptsMembers_cons_unknown {seen : List φ} {key : String} {v : Value}
    {members : List (String × Value)} (h : schema.fieldOf? key = none) :
    schema.AcceptsMembers P seen ((key, v) :: members) ↔
      schema.AcceptsMembers P seen members := by
  have hnamed : schema.named ((key, v) :: members) = schema.named members :=
    List.filterMap_cons_none h
  constructor
  · rintro ⟨hnodup, hfresh, hvalues, hcomplete⟩
    rw [hnamed] at hnodup hfresh hcomplete
    exact ⟨hnodup, hfresh, fun m hm => hvalues m (List.mem_cons_of_mem _ hm), hcomplete⟩
  · rintro ⟨hnodup, hfresh, hvalues, hcomplete⟩
    rw [← hnamed] at hnodup hfresh hcomplete
    refine ⟨hnodup, hfresh, fun m hm f hf => ?_, hcomplete⟩
    rcases List.mem_cons.mp hm with rfl | hm
    · rw [h] at hf
      cases hf
    · exact hvalues m hm f hf

theorem Schema.acceptsMembers_cons {seen : List φ} {key : String} {v : Value} {f : φ}
    {members : List (String × Value)} (h : schema.fieldOf? key = some f) :
    schema.AcceptsMembers P seen ((key, v) :: members) ↔
      f ∉ seen ∧ P f v ∧ schema.AcceptsMembers P (f :: seen) members := by
  have hnamed : schema.named ((key, v) :: members) = f :: schema.named members :=
    List.filterMap_cons_some h
  constructor
  · rintro ⟨hnodup, hfresh, hvalues, hcomplete⟩
    rw [hnamed] at hnodup hfresh hcomplete
    obtain ⟨hf, hnodup⟩ := List.nodup_cons.mp hnodup
    refine ⟨hfresh f List.mem_cons_self, hvalues _ List.mem_cons_self f h, hnodup, ?_,
      fun m hm => hvalues m (List.mem_cons_of_mem _ hm), ?_⟩
    · intro g hg hseen
      rcases List.mem_cons.mp hseen with rfl | hseen
      · exact hf hg
      · exact hfresh g (List.mem_cons_of_mem f hg) hseen
    · intro g hg hreq
      rcases hcomplete g hg hreq with hseen | hmem
      · exact Or.inl (List.mem_cons_of_mem f hseen)
      · rcases List.mem_cons.mp hmem with rfl | hmem
        · exact Or.inl List.mem_cons_self
        · exact Or.inr hmem
  · rintro ⟨hf, hv, hnodup, hfresh, hvalues, hcomplete⟩
    refine ⟨?_, ?_, ?_, ?_⟩
    · rw [hnamed]
      exact List.nodup_cons.mpr ⟨fun hmem => hfresh f hmem List.mem_cons_self, hnodup⟩
    · intro g hg
      rw [hnamed] at hg
      rcases List.mem_cons.mp hg with rfl | hg
      · exact hf
      · exact fun hseen => hfresh g hg (List.mem_cons_of_mem f hseen)
    · intro m hm g hg
      rcases List.mem_cons.mp hm with rfl | hm
      · obtain rfl := Option.some.inj (h.symm.trans hg)
        exact hv
      · exact hvalues m hm g hg
    · intro g hg hreq
      rw [hnamed]
      rcases hcomplete g hg hreq with hseen | hmem
      · rcases List.mem_cons.mp hseen with rfl | hseen
        · exact Or.inr List.mem_cons_self
        · exact Or.inl hseen
      · exact Or.inr (List.mem_cons_of_mem f hmem)

theorem Schema.acceptsItems_nil {fields : List φ} :
    schema.AcceptsItems P fields [] ↔ fields.find? schema.required = none := by
  rw [List.find?_eq_none]
  constructor
  · intro h f hf
    rw [h.complete f hf]
    exact Bool.false_ne_true
  · intro h
    refine ⟨Nat.zero_le _, ?_, fun f hf => Bool.eq_false_iff.mpr (h f hf)⟩
    rw [List.zip_nil_right]
    exact nofun

theorem Schema.acceptsItems_cons {fields : List φ} {f : φ} {v : Value} {items : List Value} :
    schema.AcceptsItems P (f :: fields) (v :: items) ↔
      P f v ∧ schema.AcceptsItems P fields items := by
  constructor
  · rintro ⟨hlength, hvalues, hcomplete⟩
    exact ⟨hvalues (f, v) List.mem_cons_self, Nat.le_of_succ_le_succ hlength,
      fun p hp => hvalues p (List.mem_cons_of_mem _ hp), hcomplete⟩
  · rintro ⟨hv, hlength, hvalues, hcomplete⟩
    refine ⟨Nat.succ_le_succ hlength, fun p hp => ?_, hcomplete⟩
    rcases List.mem_cons.mp hp with rfl | hp
    · exact hv
    · exact hvalues p hp

variable {meaning : φ → σ → Value → Option σ}
  (hP : ∀ f record v, (meaning f record v).isSome = true ↔ P f v)
include hP

theorem Schema.isSome_ofItems? (fields : List φ) (record : σ) (items : List Value) :
    (schema.ofItems? meaning fields record items).isSome = true ↔
      schema.AcceptsItems P fields items := by
  induction items generalizing fields record with
  | nil =>
    rw [ofItems?, acceptsItems_nil]
    cases fields.find? schema.required <;> simp
  | cons v rest ih =>
    cases fields with
    | nil => exact iff_of_false nofun fun h => Nat.not_succ_le_zero _ h.length
    | cons f fields =>
      rw [ofItems?, acceptsItems_cons, ← hP f record v]
      cases meaning f record v with
      | none => simp
      | some record' => simpa using ih fields record'

variable [DecidableEq φ]

theorem Schema.isSome_ofMembers? (seen : List φ) (record : σ) (members : List (String × Value)) :
    (schema.ofMembers? meaning seen record members).isSome = true ↔
      schema.AcceptsMembers P seen members := by
  induction members generalizing seen record with
  | nil =>
    rw [ofMembers?, acceptsMembers_nil]
    cases schema.fields.find? fun f => schema.required f && !seen.contains f <;> simp
  | cons m rest ih =>
    obtain ⟨key, v⟩ := m
    rw [ofMembers?]
    cases hfield : schema.fieldOf? key with
    | none =>
      rw [acceptsMembers_cons_unknown hfield]
      exact ih seen record
    | some f =>
      rw [acceptsMembers_cons hfield, ← hP f record v]
      simp only
      by_cases hseen : f ∈ seen
      · simp [hseen]
      · cases meaning f record v with
        | none => simp [hseen]
        | some record' => simpa [hseen] using ih (f :: seen) record'

/-- **A record makes something of the values that its schema accepts.** -/
theorem Schema.isSome_ofValue? (record : σ) (w : Value) :
    (schema.ofValue? meaning record w).isSome = true ↔ schema.Accepts P w := by
  cases w with
  | object members => exact Schema.isSome_ofMembers? hP [] record members
  | array items => exact Schema.isSome_ofItems? hP schema.fields record items
  | null | boolean _ | number _ | string _ => exact iff_of_false nofun id

end Conditions

/-! ### One field of a record -/

section OneField

variable {schema : Schema ν φ σ} {meaning : φ → σ → Value → Option σ} {f : φ} (get : σ → α)
  (hother : ∀ g ≠ f, ∀ record v record', meaning g record v = some record' →
    get record' = get record)
include hother

theorem Schema.get_ofItems?_of_notMem {fields : List φ} (hf : f ∉ fields) {items : List Value}
    {record record' : σ} (h : schema.ofItems? meaning fields record items = some record') :
    get record' = get record := by
  induction items generalizing fields record with
  | nil =>
    rw [ofItems?] at h
    split at h
    · cases h
    · rw [Option.some.inj h]
  | cons v rest ih =>
    cases fields with
    | nil => cases h
    | cons g fields =>
      obtain ⟨hne, hrest⟩ := not_or.mp fun hmem => hf (List.mem_cons.mpr hmem)
      obtain ⟨next, hnext, h⟩ := Option.bind_eq_some_iff.mp h
      rw [ih hrest h, hother g (Ne.symm hne) record v next hnext]

/-- A field that was met before stays as it is. -/
theorem Schema.get_ofMembers?_of_seen [DecidableEq φ] {seen : List φ} (hseen : f ∈ seen)
    {members : List (String × Value)} {record record' : σ}
    (h : schema.ofMembers? meaning seen record members = some record') :
    get record' = get record := by
  induction members generalizing seen record with
  | nil =>
    rw [ofMembers?] at h
    split at h
    · cases h
    · rw [Option.some.inj h]
  | cons m rest ih =>
    obtain ⟨key, v⟩ := m
    rw [ofMembers?] at h
    split at h
    · exact ih hseen h
    · next g _ =>
      split_ifs at h with hg
      obtain ⟨next, hnext, h⟩ := Option.bind_eq_some_iff.mp h
      have hne : g ≠ f := by
        rintro rfl
        exact hg (List.contains_iff_mem.mpr hseen)
      rw [ih (List.mem_cons_of_mem g hseen) h, hother g hne record v next hnext]

variable {R : Value → α → Prop}
  (hself : ∀ record v record', meaning f record v = some record' → R v (get record'))
include hself

theorem Schema.get_ofItems? {fields : List φ} (hfields : fields.Nodup) {items : List Value}
    {record record' : σ} (h : schema.ofItems? meaning fields record items = some record')
    {v : Value} (hv : (f, v) ∈ fields.zip items) : R v (get record') := by
  induction items generalizing fields record with
  | nil =>
    rw [List.zip_nil_right] at hv
    cases hv
  | cons first rest ih =>
    cases fields with
    | nil => cases h
    | cons g fields =>
      obtain ⟨hg, hfields⟩ := List.nodup_cons.mp hfields
      obtain ⟨next, hnext, hrest⟩ := Option.bind_eq_some_iff.mp h
      rcases List.mem_cons.mp hv with heq | hv
      · obtain ⟨rfl, rfl⟩ := Prod.mk.inj heq
        rw [Schema.get_ofItems?_of_notMem get hother hg hrest]
        exact hself record v next hnext
      · exact ih hfields hrest hv

variable [DecidableEq φ]

theorem Schema.get_ofMembers? {seen : List φ} {members : List (String × Value)}
    {record record' : σ} (h : schema.ofMembers? meaning seen record members = some record')
    {key : String} {v : Value} (hmem : (key, v) ∈ members) (hkey : schema.fieldOf? key = some f) :
    R v (get record') := by
  induction members generalizing seen record with
  | nil => cases hmem
  | cons first rest ih =>
    obtain ⟨key', v'⟩ := first
    rw [ofMembers?] at h
    split at h
    · next hnone =>
      rcases List.mem_cons.mp hmem with heq | hmem
      · obtain ⟨rfl, rfl⟩ := Prod.mk.inj heq
        rw [hnone] at hkey
        cases hkey
      · exact ih h hmem
    · next g hg =>
      split_ifs at h
      obtain ⟨next, hnext, hrest⟩ := Option.bind_eq_some_iff.mp h
      rcases List.mem_cons.mp hmem with heq | hmem
      · obtain ⟨rfl, rfl⟩ := Prod.mk.inj heq
        obtain rfl := Option.some.inj (hg.symm.trans hkey)
        rw [Schema.get_ofMembers?_of_seen get hother List.mem_cons_self hrest]
        exact hself record v next hnext
      · exact ih hrest hmem

/-- **A field has what the value that stands for it makes of it,** whatever stands for the
    other fields. -/
theorem Schema.get_ofValue? (hfields : schema.fields.Nodup) {record record' : σ} {w v : Value}
    (h : schema.ofValue? meaning record w = some record') (hv : schema.Holds f v w) :
    R v (get record') := by
  cases w with
  | object members =>
    obtain ⟨key, hmem, hkey⟩ := hv
    exact Schema.get_ofMembers? get hother hself h hmem hkey
  | array items => exact Schema.get_ofItems? get hother hself hfields h hv
  | null | boolean _ | number _ | string _ => exact False.elim hv

end OneField

namespace Reader

/-! ### Containers -/

theorem reads_nextKey {fuel : Nat} {first : Bool} {text next rest : Text} {key : String}
    (h : GoesOn '}' first text next) (hkey : scanKey .keep fuel next = .ok (key, rest)) :
    Reads (nextKey fuel first : Reader ν (Option String)) text (some key) rest := by
  have hread : Reads (scan (scanKey .keep fuel) >>= fun key => pure (some key) :
      Reader ν (Option String)) next (some key) rest :=
    (reads_scan hkey).bind (reads_pure _ _)
  cases h with
  | atOnce hspace hc =>
    refine (reads_peek hspace).bind ?_
    split
    · next heq => cases heq
    · next heq => exact absurd (List.cons.inj heq).1 hc
    · exact hread
  | afterComma hcomma hspace hc =>
    refine (reads_peek hcomma).bind ((reads_goTo _ _).bind ((reads_peek hspace).bind ?_))
    split
    · next heq => cases heq
    · next heq => exact absurd (List.cons.inj heq).1 hc
    · exact hread

theorem reads_nextKey_done {fuel : Nat} {first : Bool} {text rest : Text}
    (h : skipSpace text = '}' :: rest) :
    Reads (nextKey fuel first : Reader ν (Option String)) text none ('}' :: rest) :=
  (reads_peek h).bind (reads_pure none _)

theorem reads_nextItem {first : Bool} {text next : Text} (h : GoesOn ']' first text next) :
    Reads (nextItem first : Reader ν Bool) text true next := by
  cases h with
  | atOnce hspace hc =>
    refine (reads_peek hspace).bind ?_
    split
    · next heq => cases heq
    · next heq => exact absurd (List.cons.inj heq).1 hc
    · exact reads_pure true _
  | afterComma hcomma hspace hc =>
    refine (reads_peek hcomma).bind ((reads_goTo _ _).bind ((reads_peek hspace).bind ?_))
    split
    · next heq => cases heq
    · next heq => exact absurd (List.cons.inj heq).1 hc
    · exact reads_pure true _

theorem reads_nextItem_done {first : Bool} {text rest : Text} (h : skipSpace text = ']' :: rest) :
    Reads (nextItem first : Reader ν Bool) text false (']' :: rest) :=
  (reads_peek h).bind (reads_pure false _)

theorem closeObject_done {text rest : Text} (h : skipSpace text = '}' :: rest) :
    closeObject text = (none, rest) := by
  simp only [closeObject, h]

theorem closeArray_done {text rest : Text} (h : skipSpace text = ']' :: rest) :
    closeArray text = (none, rest) := by
  simp only [closeArray, h]

/-- An array does not close where another item stands. -/
theorem closeArray_goesOn {first : Bool} {text next : Text} (h : GoesOn ']' first text next) :
    ∃ r rest, closeArray text = (some r, rest) := by
  unfold closeArray
  split
  · exact ⟨_, _, rfl⟩
  · next hclose =>
    cases h with
    | atOnce hspace hc => exact absurd (List.cons.inj (hspace.symm.trans hclose)).1 hc
    | afterComma hcomma _ _ =>
      exact absurd (List.cons.inj (hcomma.symm.trans hclose)).1 (by decide)
  · split
    · exact ⟨_, _, rfl⟩
    · exact ⟨_, _, rfl⟩
  · exact ⟨_, _, rfl⟩

section Closing

variable {close : Text → Option Rejection × Text}

/-- Only what the inside comes to matters. -/
theorem closedBy_congr {inside inside' : Reader ν α} {s s' : State ν}
    (h : inside s = inside' s') : closedBy close inside s = closedBy close inside' s' := by
  simp only [closedBy, placed, h]

theorem Reads.closedBy {inside : Reader ν α} {text mid rest : Text} {a : α}
    (h : Reads inside text a mid) (hclose : close mid = (none, rest)) :
    Reads (Reader.closedBy close inside) text a rest := by
  refine Reads.placed fun remarks => ?_
  obtain ⟨remarks', hr⟩ := h remarks
  refine ⟨remarks', ?_⟩
  simp only [hr, hclose]

theorem Reads.refuses_closedBy {inside : Reader ν α} {text mid rest : Text} {a : α}
    {r : Rejection} (h : Reads inside text a mid) (hclose : close mid = (some r, rest)) :
    Refuses (Reader.closedBy close inside) text := by
  refine Refuses.placed fun remarks => ?_
  obtain ⟨remarks', hr⟩ := h remarks
  refine ⟨⟨r.cause, some r.unread⟩, ⟨rest, remarks'⟩, ?_⟩
  simp only [hr, hclose]

theorem Refuses.closedBy {inside : Reader ν α} {text : Text} (h : Refuses inside text) :
    Refuses (Reader.closedBy close inside) text := by
  refine Refuses.placed fun remarks => ?_
  obtain ⟨fault, state, hr⟩ := h remarks
  refine ⟨fault, { state with rest := (close state.rest).2 }, ?_⟩
  simp only [hr]

/-- A step inside a container. -/
theorem Reads.closedBy_bind {r : Reader ν α} {f : α → Reader ν β} {text mid rest : Text} {a : α}
    {b? : Option β} (h : Reads r text a mid)
    (hf : Yields (Reader.closedBy close (f a)) mid b? rest) :
    Yields (Reader.closedBy close (r >>= f)) text b? rest where
  reads b hb remarks := by
    obtain ⟨remarks', hr⟩ := h remarks
    obtain ⟨remarks'', hb⟩ := hf.reads b hb remarks'
    exact ⟨remarks'', (closedBy_congr (bind_run hr)).trans hb⟩
  refuses hb remarks := by
    obtain ⟨remarks', hr⟩ := h remarks
    obtain ⟨fault, state, hb⟩ := hf.refuses hb remarks'
    exact ⟨fault, state, (closedBy_congr (bind_run hr)).trans hb⟩

theorem Yields.closedBy_bind {r : Reader ν α} {f : α → Reader ν β} {text mid rest : Text}
    {a? : Option α} {b? : α → Option β} (h : Yields r text a? mid)
    (hf : ∀ a, Yields (Reader.closedBy close (f a)) mid (b? a) rest) :
    Yields (Reader.closedBy close (r >>= f)) text (a?.bind b?) rest := by
  cases a? with
  | none => exact ((h.refuses rfl).bind f).closedBy.yields rest
  | some a => exact (h.reads a rfl).closedBy_bind (hf a)

end Closing

/-! ### Maps -/

/-- The map that members make, from what their values mean; `soFar` is what was read before. -/
def entriesOf? (meaning : Value → Option α) :
    List (String × α) → List (String × Value) → Option (List (String × α))
  | soFar, [] => some soFar
  | soFar, (key, w) :: rest =>
    (meaning w).bind fun a => entriesOf? meaning (insertMember key a soFar) rest

def mapOf? (meaning : Value → Option α) : Value → Option (List (String × α))
  | .object members => entriesOf? meaning [] members
  | _ => none

theorem isSome_entriesOf? (meaning : Value → Option α) (soFar : List (String × α))
    (members : List (String × Value)) :
    (entriesOf? meaning soFar members).isSome = true ↔
      ∀ m ∈ members, (meaning m.2).isSome = true := by
  induction members generalizing soFar with
  | nil => exact iff_of_true rfl nofun
  | cons m rest ih =>
    obtain ⟨key, w⟩ := m
    rw [entriesOf?, List.forall_mem_cons]
    cases meaning w with
    | none => simp
    | some a => simpa using ih (insertMember key a soFar)

/-- If each value that is taken means `g` of it, the map has `g` of each value under its key. -/
theorem entriesOf?_eq_some {meaning : Value → Option α} {g : Value → α}
    {members : List (String × Value)}
    (hg : ∀ m ∈ members, ∀ a, meaning m.2 = some a → a = g m.2) {soFar entries : List (String × α)}
    (h : entriesOf? meaning soFar members = some entries) :
    entries = (members.map fun m => (m.1, g m.2)).foldl
      (fun ms m => insertMember m.1 m.2 ms) soFar := by
  induction members generalizing soFar with
  | nil => exact (Option.some.inj h).symm
  | cons m rest ih =>
    obtain ⟨key, w⟩ := m
    rw [entriesOf?] at h
    obtain ⟨a, ha, h⟩ := Option.bind_eq_some_iff.mp h
    obtain rfl := hg (key, w) List.mem_cons_self a ha
    exact ih (fun m hm => hg m (List.mem_cons_of_mem _ hm)) h

theorem isSome_mapOf? (meaning : Value → Option α) (w : Value) :
    (mapOf? meaning w).isSome = true ↔
      ∃ members, w = .object members ∧ ∀ m ∈ members, (meaning m.2).isSome = true := by
  cases w with
  | object members =>
    refine (isSome_entriesOf? meaning [] members).trans ⟨fun h => ⟨members, rfl, h⟩, ?_⟩
    rintro ⟨members', heq, h⟩
    obtain rfl := Value.object.inj heq
    exact h
  | null | boolean _ | number _ | string _ | array _ =>
    exact iff_of_false nofun fun ⟨_, heq, _⟩ => by cases heq

theorem yields_members {fuel depth : Nat} {item : Reader ν α} {meaning : Value → Option α}
    (hitem : Means fuel depth item meaning) {count : Nat} {first : Bool} {text rest : Text}
    {ms : List (String × Value)} (soFar : List (String × α)) (hfuel : text.length < fuel)
    (hcount : text.length < count)
    (h : MembersAt (scanKey .keep fuel) (scanWritten fuel depth) first text ms rest) :
    Yields (closedBy closeObject (members fuel item count first soFar)) text
      (entriesOf? meaning soFar ms) rest := by
  induction h generalizing count soFar with
  | done hclose =>
    obtain ⟨count, rfl⟩ := Nat.exists_eq_succ_of_ne_zero (Nat.ne_zero_of_lt hcount)
    refine (reads_nextKey_done hclose).closedBy_bind ?_
    exact ((reads_pure soFar _).closedBy (closeObject_done rfl)).yields
  | @next first text next afterKey afterColon mid rest key w ms hnext hkey hcolon hscan _ ih =>
    obtain ⟨count, rfl⟩ := Nat.exists_eq_succ_of_ne_zero (Nat.ne_zero_of_lt hcount)
    have hle := hnext.length_le
    have hafterKey := advances_scanKey .keep fuel hkey
    have hafterColon := advances_scanColon hcolon
    have hmid := advances_scanWritten fuel depth hscan
    refine (reads_nextKey hnext hkey).closedBy_bind ?_
    refine (reads_scan hcolon).closedBy_bind ?_
    exact (hitem (by omega) hscan).closedBy_bind fun a => ih _ (by omega) (by omega)

/-- **A map is read from an object all of whose values are read.** -/
theorem means_map {fuel depth : Nat} {item : Reader ν α} {meaning : Value → Option α}
    (hitem : Means fuel depth item meaning) :
    Means fuel (depth + 1) (map fuel item) (mapOf? meaning) := by
  intro text w rest hlt hscan
  have hvalue := valueAt_of_scanWritten hlt hscan
  refine (reads_peek rfl).yields_bind ?_
  split
  · next hspace =>
    rw [hspace] at hvalue
    exact absurd hvalue not_valueAt_nil
  · next tail hspace =>
    have htail := length_lt_of_skipSpace hspace
    rw [hspace] at hvalue
    obtain ⟨ms, rfl, hms⟩ := object_of_valueAt hvalue
    refine (reads_goTo tail _).yields_bind ?_
    exact yields_members hitem [] (by omega) (by omega) hms
  · next hbrace =>
    cases w with
    | object ms =>
      obtain ⟨tail, htext⟩ := text_of_object hvalue
      exact absurd htext (hbrace tail)
    | null | boolean _ | number _ | string _ | array _ =>
      exact (refuses_refuse fuel "a map" _).yields rest

/-! ### Records -/

section Records

variable {fuel depth : Nat} {schema : Schema ν φ σ} {meaning : φ → σ → Value → Option σ}

theorem yields_recordItems
    (hread : ∀ f record, Means fuel depth (schema.read f record) (meaning f record))
    {first : Bool} {text rest : Text} {items : List Value} (fields : List φ) {index : Nat}
    (hindex : (index == 0) = first) (record : σ) (hfuel : text.length < fuel)
    (h : ItemsAt (scanWritten fuel depth) first text items rest) :
    Yields (closedBy closeArray (recordItems schema fields index record)) text
      (schema.ofItems? meaning fields record items) rest := by
  induction h generalizing fields index record with
  | done hclose =>
    cases fields with
    | nil => exact ((reads_pure record _).closedBy (closeArray_done hclose)).yields
    | cons f fields =>
      refine (reads_nextItem_done hclose).closedBy_bind ?_
      simp only [Bool.false_eq_true, if_false, Schema.ofItems?]
      cases (f :: fields).find? schema.required with
      | some g => exact (refuses_mismatch _ _).closedBy.yields _
      | none => exact ((reads_pure record _).closedBy (closeArray_done rfl)).yields
  | @next first text next mid rest w items hnext hscan _ ih =>
    have hle := hnext.length_le
    have hmid := advances_scanWritten fuel depth hscan
    cases fields with
    | nil =>
      -- no field is left for this item, and the list does not close before it
      obtain ⟨r, last, hclose⟩ := closeArray_goesOn hnext
      exact ((reads_pure record _).refuses_closedBy hclose).yields rest
    | cons f fields =>
      subst hindex
      refine (reads_nextItem hnext).closedBy_bind ?_
      simp only [if_true]
      exact (hread f record (by omega) hscan).closedBy_bind fun record' =>
        ih fields rfl record' (by omega)

variable [DecidableEq φ]

theorem yields_recordMembers
    (hread : ∀ f record, Means fuel depth (schema.read f record) (meaning f record))
    {count : Nat} {first : Bool} {text rest : Text} {ms : List (String × Value)}
    (seen : List φ) (record : σ) (hfuel : text.length < fuel) (hcount : text.length < count)
    (h : MembersAt (scanKey .keep fuel) (scanWritten fuel depth) first text ms rest) :
    Yields (closedBy closeObject (recordMembers fuel schema count first seen record)) text
      (schema.ofMembers? meaning seen record ms) rest := by
  induction h generalizing count seen record with
  | done hclose =>
    obtain ⟨count, rfl⟩ := Nat.exists_eq_succ_of_ne_zero (Nat.ne_zero_of_lt hcount)
    refine (reads_nextKey_done hclose).closedBy_bind ?_
    simp only [Schema.ofMembers?]
    cases schema.fields.find? fun f => schema.required f && !seen.contains f with
    | some f => exact (refuses_mismatch _ _).closedBy.yields _
    | none => exact ((reads_pure record _).closedBy (closeObject_done rfl)).yields
  | @next first text next afterKey afterColon mid rest key w ms hnext hkey hcolon hscan _ ih =>
    obtain ⟨count, rfl⟩ := Nat.exists_eq_succ_of_ne_zero (Nat.ne_zero_of_lt hcount)
    have hle := hnext.length_le
    have hafterKey := advances_scanKey .keep fuel hkey
    have hafterColon := advances_scanColon hcolon
    have hmid := advances_scanWritten fuel depth hscan
    refine (reads_nextKey hnext hkey).closedBy_bind ?_
    simp only [Schema.ofMembers?]
    cases schema.fieldOf? key with
    | none =>
      -- whatever stands under a key of no field is skipped, and cannot be refused
      obtain ⟨u, hskip⟩ := skipValue_skips (Nat.le_refl fuel) (by omega) hscan
      refine (reads_scan hcolon).closedBy_bind ((reads_scan hskip).closedBy_bind ?_)
      exact ih seen record (by omega) (by omega)
    | some f =>
      simp only
      split_ifs with hseen
      · exact (refuses_mismatch _ _).closedBy.yields rest
      · refine (reads_scan hcolon).closedBy_bind ?_
        exact (hread f record (by omega) hscan).closedBy_bind fun record' =>
          ih (f :: seen) record' (by omega) (by omega)

/-- **A record is read as the value makes it.** -/
theorem means_record
    (hread : ∀ f record, Means fuel depth (schema.read f record) (meaning f record)) (init : σ) :
    Means fuel (depth + 1) (record fuel schema init) (schema.ofValue? meaning init) := by
  intro text w rest hlt hscan
  have hvalue := valueAt_of_scanWritten hlt hscan
  refine (reads_peek rfl).yields_bind ?_
  split
  · next hspace =>
    rw [hspace] at hvalue
    exact absurd hvalue not_valueAt_nil
  · next tail hspace =>
    have htail := length_lt_of_skipSpace hspace
    rw [hspace] at hvalue
    obtain ⟨items, rfl, hitems⟩ := array_of_valueAt hvalue
    refine (reads_goTo tail _).yields_bind ?_
    exact yields_recordItems hread schema.fields rfl init (by omega) hitems
  · next tail hspace =>
    have htail := length_lt_of_skipSpace hspace
    rw [hspace] at hvalue
    obtain ⟨ms, rfl, hms⟩ := object_of_valueAt hvalue
    refine (reads_goTo tail _).yields_bind ?_
    exact yields_recordMembers hread [] init (by omega) (by omega) hms
  · next hbracket hbrace =>
    cases w with
    | array items =>
      obtain ⟨tail, htext⟩ := text_of_array hvalue
      exact absurd htext (hbracket tail)
    | object ms =>
      obtain ⟨tail, htext⟩ := text_of_object hvalue
      exact absurd htext (hbrace tail)
    | null | boolean _ | string _ | number _ =>
      exact (refuses_refuse fuel ("struct " ++ schema.name) _).yields rest

end Records

end Reader

end DesignMarkup.Json
