/-
  DesignMarkup/Proofs/Json/Layout.lean
  ====================================
  **How items and members lie in a text.**  A scan of a list or of members comes across an
  item, then a comma and the next item, and so on up to the closing.  `ItemsAt` and
  `MembersAt` say so apart from any count of steps.  A scan that succeeds finds this layout
  (`itemsAt_of_scanArray`, `membersAt_of_scanObject`), and one that may take as many steps
  as the text has characters gets through it (`scanArray_of_itemsAt`,
  `scanObject_of_membersAt`).

  `ScalarAt` does the same for what is neither list nor object.
-/
import DesignMarkup.Proofs.Json.Progress

namespace DesignMarkup.Json

variable {α β : Type}

/-- From `text` a container goes on with what stands at `next`: at once if nothing came
    before it, and after a comma otherwise. -/
inductive GoesOn (close : Char) : Bool → Text → Text → Prop
  | atOnce {text next : Text} {c : Char} (h : skipSpace text = c :: next) (hc : c ≠ close) :
    GoesOn close true text (c :: next)
  | afterComma {text tail next : Text} {c : Char} (hcomma : skipSpace text = ',' :: tail)
    (h : skipSpace tail = c :: next) (hc : c ≠ close) : GoesOn close false text (c :: next)

theorem GoesOn.length_le {close : Char} {first : Bool} {text next : Text}
    (h : GoesOn close first text next) : next.length ≤ text.length := by
  cases h with
  | atOnce h _ =>
    rw [← h]
    exact length_skipSpace_le text
  | @afterComma _ tail _ _ hcomma h _ =>
    rw [← h]
    exact (length_skipSpace_le tail).trans (length_lt_of_skipSpace hcomma).le

theorem goesOn_atOnce {close : Char} {text : Text} (hempty : skipSpace text ≠ [])
    (hclose : ∀ rest, skipSpace text ≠ close :: rest) :
    GoesOn close true text (skipSpace text) := by
  cases hspace : skipSpace text with
  | nil => exact absurd hspace hempty
  | cons c next => exact .atOnce hspace fun hc => hclose next (hc ▸ hspace)

theorem goesOn_afterComma {close : Char} {text tail : Text} (hcomma : skipSpace text = ',' :: tail)
    (hempty : skipSpace tail ≠ []) (hclose : ∀ rest, skipSpace tail ≠ close :: rest) :
    GoesOn close false text (skipSpace tail) := by
  cases hspace : skipSpace tail with
  | nil => exact absurd hspace hempty
  | cons c next => exact .afterComma hcomma hspace fun hc => hclose next (hc ▸ hspace)

/-- Items up to the closing bracket, and what is left after it. -/
inductive ItemsAt (item : Text → Outcome (α × Text)) : Bool → Text → List α → Text → Prop
  | done {first : Bool} {text rest : Text} (h : skipSpace text = ']' :: rest) :
    ItemsAt item first text [] rest
  | next {first : Bool} {text next mid rest : Text} {a : α} {items : List α}
    (hnext : GoesOn ']' first text next) (hitem : item next = .ok (a, mid))
    (hrest : ItemsAt item false mid items rest) : ItemsAt item first text (a :: items) rest

/-- Members up to the closing brace, and what is left after it. -/
inductive MembersAt (keyAt : Text → Outcome (String × Text)) (item : Text → Outcome (α × Text)) :
    Bool → Text → List (String × α) → Text → Prop
  | done {first : Bool} {text rest : Text} (h : skipSpace text = '}' :: rest) :
    MembersAt keyAt item first text [] rest
  | next {first : Bool} {text next afterKey afterColon mid rest : Text} {key : String} {a : α}
    {members : List (String × α)} (hnext : GoesOn '}' first text next)
    (hkey : keyAt next = .ok (key, afterKey)) (hcolon : scanColon afterKey = .ok ((), afterColon))
    (hitem : item afterColon = .ok (a, mid)) (hrest : MembersAt keyAt item false mid members rest) :
    MembersAt keyAt item first text ((key, a) :: members) rest

/-! ### Items -/

section Items

variable {mode : Mode} {item : Text → Outcome (α × Text)}

theorem itemsAt_of_scanItems {fuel : Nat} {first : Bool} {text next : Text} {items : List α}
    {rest : Text} (hnext : GoesOn ']' first text next)
    (h : scanItems mode item fuel next = .ok (items, rest)) :
    ItemsAt item first text items rest := by
  induction fuel generalizing first text next items with
  | zero => cases h
  | succ fuel ih =>
    obtain ⟨⟨a, mid⟩, hitem, h⟩ := bind_eq_ok.mp h
    simp only at h
    split at h
    · cases h
    · next hclose =>
      cases h
      exact .next hnext hitem (.done hclose)
    · next tail hcomma =>
      split at h
      · cases h
      · cases h
      · next hempty hclose =>
        obtain ⟨⟨more, last⟩, hmore, h⟩ := bind_eq_ok.mp h
        cases h
        exact .next hnext hitem (ih (goesOn_afterComma hcomma hempty hclose) hmore)
    · cases h

theorem itemsAt_of_scanArray {fuel : Nat} {text : Text} {items : List α} {rest : Text}
    (h : scanArray mode item fuel text = .ok (items, rest)) :
    ItemsAt item true text items rest := by
  unfold scanArray at h
  split at h
  · cases h
  · next hclose =>
    cases h
    exact .done hclose
  · next hempty hclose => exact itemsAt_of_scanItems (goesOn_atOnce hempty hclose) h

theorem ItemsAt.length_lt (hi : Advances item) {first : Bool} {text rest : Text} {items : List α}
    (h : ItemsAt item first text items rest) : rest.length < text.length := by
  induction h with
  | done hclose => exact length_lt_of_skipSpace hclose
  | next hnext hitem _ ih => exact ih.trans ((hi hitem).trans_le hnext.length_le)

theorem advances_scanArray (hi : Advances item) (fuel : Nat) :
    Advances (scanArray mode item fuel) :=
  fun h => (itemsAt_of_scanArray h).length_lt hi

theorem scanItems_of_itemsAt (hi : Advances item) {fuel : Nat} {next mid rest : Text} {a : α}
    {items : List α} (hfuel : next.length < fuel) (hitem : item next = .ok (a, mid))
    (hrest : ItemsAt item false mid items rest) :
    scanItems mode item fuel next = .ok (a :: items, rest) := by
  induction items generalizing fuel next mid a with
  | nil =>
    obtain ⟨fuel, rfl⟩ := Nat.exists_eq_succ_of_ne_zero (Nat.ne_zero_of_lt hfuel)
    cases hrest with
    | done hclose =>
      refine bind_eq_ok.mpr ⟨_, hitem, ?_⟩
      simp only [hclose]
  | cons b items ih =>
    obtain ⟨fuel, rfl⟩ := Nat.exists_eq_succ_of_ne_zero (Nat.ne_zero_of_lt hfuel)
    cases hrest with
    | next hnext hitem' hrest' =>
      have hlt := hi hitem
      have hle := hnext.length_le
      cases hnext with
      | @afterComma _ tail other c hcomma hspace hc =>
        have hshort : (c :: other).length < fuel := by omega
        have hmore := ih hshort hitem' hrest'
        refine bind_eq_ok.mpr ⟨_, hitem, ?_⟩
        simp only [hcomma]
        split
        · next h => exact absurd (hspace.symm.trans h) (List.cons_ne_nil c other)
        · next h => exact absurd (List.cons.inj (hspace.symm.trans h)).1 hc
        · rw [hspace, hmore]
          rfl

theorem scanArray_of_itemsAt (hi : Advances item) {fuel : Nat} {text rest : Text}
    {items : List α} (hfuel : text.length < fuel) (h : ItemsAt item true text items rest) :
    scanArray mode item fuel text = .ok (items, rest) := by
  unfold scanArray
  cases h with
  | done hclose => simp only [hclose]
  | next hnext hitem hrest =>
    have hle := hnext.length_le
    cases hnext with
    | @atOnce _ other c hspace hc =>
      split
      · next h => exact absurd (hspace.symm.trans h) (List.cons_ne_nil c other)
      · next h => exact absurd (List.cons.inj (hspace.symm.trans h)).1 hc
      · rw [hspace]
        exact scanItems_of_itemsAt hi (by omega) hitem hrest

end Items

/-! ### Members -/

theorem scanStringBody_of_length_lt {mode : Mode} {fuel fuel' : Nat} {text : Text}
    {r : List Char × Text} (h : scanStringBody mode fuel text = .ok r)
    (hfuel : text.length < fuel') : scanStringBody mode fuel' text = .ok r := by
  induction fuel generalizing fuel' text r with
  | zero => cases h
  | succ fuel ih =>
    obtain ⟨fuel', rfl⟩ := Nat.exists_eq_succ_of_ne_zero (Nat.ne_zero_of_lt hfuel)
    unfold scanStringBody at h ⊢
    split at h
    · cases h
    · exact h
    · obtain ⟨⟨c, mid⟩, hescape, h⟩ := bind_eq_ok.mp h
      obtain ⟨⟨more, last⟩, hbody, h⟩ := bind_eq_ok.mp h
      have hlt := advances_scanEscape mode hescape
      simp only [List.length_cons] at hfuel
      exact bind_eq_ok.mpr ⟨_, hescape, bind_eq_ok.mpr ⟨_, ih hbody (by omega), h⟩⟩
    · split_ifs at h ⊢
      · cases mode <;> cases h
      · obtain ⟨⟨more, last⟩, hbody, h⟩ := bind_eq_ok.mp h
        simp only [List.length_cons] at hfuel
        exact bind_eq_ok.mpr ⟨_, ih hbody (by omega), h⟩

theorem scanKey_of_length_lt {mode : Mode} {fuel fuel' : Nat} {text : Text} {r : String × Text}
    (h : scanKey mode fuel text = .ok r) (hfuel : text.length < fuel') :
    scanKey mode fuel' text = .ok r := by
  unfold scanKey at h ⊢
  split at h
  · obtain ⟨body, hbody, h⟩ := bind_eq_ok.mp h
    have hbody := scanStringBody_of_length_lt hbody (Nat.lt_of_succ_lt hfuel)
    exact bind_eq_ok.mpr ⟨body, hbody, h⟩
  · cases h

section Members

variable {mode : Mode} {item : Text → Outcome (α × Text)} {fuel : Nat}

theorem membersAt_of_scanMembers (hi : Advances item) {steps : Nat} {first : Bool}
    {text next : Text} {members : List (String × α)} {rest : Text} (hfuel : text.length < fuel)
    (hnext : GoesOn '}' first text next)
    (h : scanMembers mode item steps next = .ok (members, rest)) :
    MembersAt (scanKey mode fuel) item first text members rest := by
  induction steps generalizing first text next members with
  | zero => cases h
  | succ steps ih =>
    obtain ⟨⟨key, afterKey⟩, hkey, h⟩ := bind_eq_ok.mp h
    obtain ⟨⟨u, afterColon⟩, hcolon, h⟩ := bind_eq_ok.mp h
    obtain ⟨⟨a, mid⟩, hitem, h⟩ := bind_eq_ok.mp h
    have hle := hnext.length_le
    -- the scan reads its keys with the steps that are left, the layout all of them alike
    have hkey' : scanKey mode fuel next = .ok (key, afterKey) :=
      scanKey_of_length_lt hkey (by omega)
    have hlt : mid.length < next.length :=
      (hi hitem).trans ((advances_scanColon hcolon).trans (advances_scanKey mode _ hkey))
    simp only at h
    split at h
    · cases h
    · next hclose =>
      cases h
      exact .next hnext hkey' hcolon hitem (.done hclose)
    · next tail hcomma =>
      split at h
      · cases mode <;> cases h
      · cases h
      · next hempty hclose =>
        obtain ⟨⟨more, last⟩, hmore, h⟩ := bind_eq_ok.mp h
        cases h
        exact .next hnext hkey' hcolon hitem
          (ih (by omega) (goesOn_afterComma hcomma hempty hclose) hmore)
    · cases h

theorem membersAt_of_scanObject (hi : Advances item) {steps : Nat} {text rest : Text}
    {members : List (String × α)} (hfuel : text.length < fuel)
    (h : scanObject mode item steps text = .ok (members, rest)) :
    MembersAt (scanKey mode fuel) item true text members rest := by
  unfold scanObject at h
  split at h
  · cases h
  · next hclose =>
    cases h
    exact .done hclose
  · next hempty hclose =>
    exact membersAt_of_scanMembers hi hfuel (goesOn_atOnce hempty hclose) h

theorem MembersAt.length_lt (hi : Advances item) {first : Bool} {text rest : Text}
    {members : List (String × α)} (h : MembersAt (scanKey mode fuel) item first text members rest) :
    rest.length < text.length := by
  induction h with
  | done hclose => exact length_lt_of_skipSpace hclose
  | next hnext hkey hcolon hitem _ ih =>
    have hlt := (hi hitem).trans ((advances_scanColon hcolon).trans (advances_scanKey mode _ hkey))
    exact ih.trans (hlt.trans_le hnext.length_le)

theorem advances_scanObject (hi : Advances item) (fuel : Nat) :
    Advances (scanObject mode item fuel) :=
  fun h => (membersAt_of_scanObject hi (Nat.lt_succ_self _) h).length_lt hi

theorem scanMembers_of_membersAt (hi : Advances item) {steps : Nat}
    {next afterKey afterColon mid rest : Text} {key : String} {a : α}
    {members : List (String × α)} (hsteps : next.length < steps)
    (hkey : scanKey mode fuel next = .ok (key, afterKey))
    (hcolon : scanColon afterKey = .ok ((), afterColon))
    (hitem : item afterColon = .ok (a, mid))
    (hrest : MembersAt (scanKey mode fuel) item false mid members rest) :
    scanMembers mode item steps next = .ok ((key, a) :: members, rest) := by
  induction members generalizing steps next afterKey afterColon mid key a with
  | nil =>
    obtain ⟨steps, rfl⟩ := Nat.exists_eq_succ_of_ne_zero (Nat.ne_zero_of_lt hsteps)
    cases hrest with
    | done hclose =>
      refine bind_eq_ok.mpr ⟨_, scanKey_of_length_lt hkey hsteps, bind_eq_ok.mpr ⟨_, hcolon,
        bind_eq_ok.mpr ⟨_, hitem, ?_⟩⟩⟩
      simp only [hclose]
  | cons m members ih =>
    obtain ⟨steps, rfl⟩ := Nat.exists_eq_succ_of_ne_zero (Nat.ne_zero_of_lt hsteps)
    cases hrest with
    | next hnext hkey' hcolon' hitem' hrest' =>
      have hlt : mid.length < next.length :=
        (hi hitem).trans ((advances_scanColon hcolon).trans (advances_scanKey mode _ hkey))
      have hle := hnext.length_le
      cases hnext with
      | @afterComma _ tail other c hcomma hspace hc =>
        have hshort : (c :: other).length < steps := by omega
        have hmore := ih hshort hkey' hcolon' hitem' hrest'
        refine bind_eq_ok.mpr ⟨_, scanKey_of_length_lt hkey hsteps, bind_eq_ok.mpr ⟨_, hcolon,
          bind_eq_ok.mpr ⟨_, hitem, ?_⟩⟩⟩
        simp only [hcomma]
        split
        · next h => exact absurd (hspace.symm.trans h) (List.cons_ne_nil c other)
        · next h => exact absurd (List.cons.inj (hspace.symm.trans h)).1 hc
        · rw [hspace, hmore]
          rfl

theorem scanObject_of_membersAt (hi : Advances item) {text rest : Text}
    {members : List (String × α)} (hfuel : text.length < fuel)
    (h : MembersAt (scanKey mode fuel) item true text members rest) :
    scanObject mode item fuel text = .ok (members, rest) := by
  unfold scanObject
  cases h with
  | done hclose => simp only [hclose]
  | next hnext hkey hcolon hitem hrest =>
    have hle := hnext.length_le
    cases hnext with
    | @atOnce _ other c hspace hc =>
      split
      · next h => exact absurd (hspace.symm.trans h) (List.cons_ne_nil c other)
      · next h => exact absurd (List.cons.inj (hspace.symm.trans h)).1 hc
      · rw [hspace]
        exact scanMembers_of_membersAt hi (by omega) hkey hcolon hitem hrest

end Members

/-! ### Nulls, booleans, numbers and strings -/

/-- A value that is neither list nor object, by its first character. -/
inductive ScalarAt (fuel : Nat) : Text → Value → Text → Prop
  | null {tail rest : Text} (h : scanWord ['u', 'l', 'l'] tail = .ok ((), rest)) :
    ScalarAt fuel ('n' :: tail) .null rest
  | true {tail rest : Text} (h : scanWord ['r', 'u', 'e'] tail = .ok ((), rest)) :
    ScalarAt fuel ('t' :: tail) (.boolean true) rest
  | false {tail rest : Text} (h : scanWord ['a', 'l', 's', 'e'] tail = .ok ((), rest)) :
    ScalarAt fuel ('f' :: tail) (.boolean false) rest
  | string {tail rest : Text} {s : String} (h : scanString .keep fuel tail = .ok (s, rest)) :
    ScalarAt fuel ('"' :: tail) (.string s) rest
  | number {c : Char} {tail rest : Text} {n : Number} (hc : c = '-' ∨ c.isDigit = true)
    (h : scanNumber (c :: tail) = .ok (n, rest)) : ScalarAt fuel (c :: tail) (.number n) rest

theorem scalarAt_of_scanScalar {fuel : Nat} {text rest : Text} {w : Value}
    (h : scanScalar fuel text = .ok (w, rest)) : ScalarAt fuel text w rest := by
  unfold scanScalar at h
  split at h
  · cases h
  · obtain ⟨⟨u, mid⟩, hword, h⟩ := bind_eq_ok.mp h
    cases h
    exact .null hword
  · obtain ⟨⟨u, mid⟩, hword, h⟩ := bind_eq_ok.mp h
    cases h
    exact .true hword
  · obtain ⟨⟨u, mid⟩, hword, h⟩ := bind_eq_ok.mp h
    cases h
    exact .false hword
  · obtain ⟨⟨s, mid⟩, hstring, h⟩ := bind_eq_ok.mp h
    cases h
    exact .string hstring
  · split_ifs at h with hc
    · obtain ⟨⟨n, mid⟩, hnumber, h⟩ := bind_eq_ok.mp h
      cases h
      exact .number (by simpa using hc) hnumber
    · cases h

theorem advances_scanScalar (fuel : Nat) : Advances (scanScalar fuel) := by
  intro text v rest h
  cases scalarAt_of_scanScalar h with
  | null hword | true hword | false hword => exact Nat.lt_succ_of_le (length_scanWord hword)
  | string hstring => exact Nat.lt_succ_of_lt (advances_scanString .keep fuel hstring)
  | number _ hnumber => exact advances_scanNumber hnumber

end DesignMarkup.Json
