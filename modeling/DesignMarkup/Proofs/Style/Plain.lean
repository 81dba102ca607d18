/-
  DesignMarkup/Proofs/Style/Plain.lean
  ====================================
  **What style declarations are made of.**  Every property and every value that a node
  or a page is given consists of letters, digits, spaces and the six characters of
  `isPlainChar`.  None of them means anything to markup or to a stylesheet, so that
  declarations can stand between the quotes of an attribute, and between the colon and
  the semicolon of a rule, exactly as they are.

  Numbers come first: whatever a double is, its text is digits, a point, a sign, or the
  name of a special value (`plain_cssText`).  From there it is one step for each kind
  of value, and `Style.plain_resolve` and `Style.plain_root` put them together.
-/
import DesignMarkup.Style.Resolve
import Mathlib.Tactic.Common

namespace DesignMarkup

/-! ### Plain text -/

/-- A character that means nothing to markup and nothing to a stylesheet. -/
def isPlainChar (c : Char) : Bool := c.isAlphanum || [' ', '.', ',', '-', '(', ')'].contains c

def IsPlain (text : String) : Prop := ∀ c ∈ text.toList, isPlainChar c = true

instance (text : String) : Decidable (IsPlain text) :=
  List.decidableBAll (fun c => isPlainChar c = true) text.toList

theorem plain_append {s t : String} (hs : IsPlain s) (ht : IsPlain t) : IsPlain (s ++ t) := by
  intro c hc
  rw [String.toList_append, List.mem_append] at hc
  rcases hc with hc | hc
  · exact hs c hc
  · exact ht c hc

theorem plain_ofList {chars : List Char} (h : ∀ c ∈ chars, isPlainChar c = true) :
    IsPlain (String.ofList chars) := by
  intro c hc
  rw [String.toList_ofList] at hc
  exact h c hc

/-- What holds of the characters of the parts and of the separator holds of the whole. -/
theorem forall_mem_intercalate {P : Char → Prop} {separator : String} {parts : List String}
    (hs : ∀ c ∈ separator.toList, P c) (hp : ∀ part ∈ parts, ∀ c ∈ part.toList, P c) :
    ∀ c ∈ (separator.intercalate parts).toList, P c := by
  induction parts with
  | nil => intro c hc; simp at hc
  | cons part rest ih =>
    have hrest := ih fun p hp' => hp p (List.mem_cons_of_mem part hp')
    have hpart := hp part List.mem_cons_self
    cases rest with
    | nil => simpa using hpart
    | cons next more =>
      intro c hc
      rw [String.intercalate_cons_cons, String.toList_append, String.toList_append] at hc
      rcases List.mem_append.mp hc with hc | hc
      · exact (List.mem_append.mp hc).elim (hpart c) (hs c)
      · exact hrest c hc

/-! ### Numbers -/

theorem plainChar_of_isDigit {c : Char} (h : c.isDigit = true) : isPlainChar c = true := by
  simp [isPlainChar, Char.isAlphanum, h]

theorem plain_toDigits {n : Nat} : ∀ c ∈ Nat.toDigits 10 n, isPlainChar c = true := by
  intro c hc
  exact plainChar_of_isDigit (Nat.isDigit_of_mem_toDigits (by decide) (by decide) hc)

theorem plain_toString (i : Int) : IsPlain (toString i) := by
  have hnat : ∀ n : Nat, IsPlain n.repr := fun n => plain_ofList plain_toDigits
  have hsign : IsPlain "-" := by decide
  cases i with
  | ofNat n => exact hnat n
  | negSucc n => exact plain_append hsign (hnat (n + 1))

theorem plain_signText (negative : Bool) : IsPlain (signText negative) := by
  cases negative <;> decide

/-- Digits around a point are plain, wherever the point falls. -/
theorem plain_positional (d : Decimal) : IsPlain d.positional := by
  have hzeros : ∀ n : Nat, ∀ c ∈ List.replicate n '0', isPlainChar c = true := by
    intro n c hc
    rw [List.eq_of_mem_replicate hc]
    decide
  have hdigits : ∀ c ∈ d.numeral, isPlainChar c = true := plain_toDigits
  simp only [Decimal.positional]
  split_ifs
  · apply plain_ofList
    intro c hc
    rcases List.mem_append.mp hc with hc | hc
    · exact hdigits c hc
    · exact hzeros _ c hc
  · apply plain_ofList
    intro c hc
    rcases List.mem_append.mp hc with hc | hc
    · exact hdigits c (List.mem_of_mem_take hc)
    · rcases List.mem_cons.mp hc with rfl | hc
      · decide
      · exact hdigits c (List.mem_of_mem_drop hc)
  · apply plain_ofList
    intro c hc
    simp only [List.cons_append, List.mem_cons, List.mem_append] at hc
    rcases hc with rfl | rfl | hc | hc
    · decide
    · decide
    · exact hzeros _ c hc
    · exact hdigits c hc

theorem plain_plainText (x : Float) : IsPlain (plainText x) := by
  unfold plainText
  split
  · decide
  · exact plain_append (plain_signText _) (by decide)
  · exact plain_append (plain_signText _) (plain_positional _)

/-- **The text of any double in a style value is plain.** -/
theorem plain_cssText (x : Float) : IsPlain (cssText x) := by
  unfold cssText
  split
  · split_ifs
    · exact plain_toString _
    · exact plain_plainText x
  · exact plain_plainText x

/-! ### Values -/

theorem plain_px (x : Float) : IsPlain (px x) := plain_append (plain_cssText x) (by decide)

theorem plain_color (c : Color) : IsPlain c.css := by
  have hcomma : IsPlain ", " := by decide
  unfold Color.css
  exact plain_append (plain_append (plain_append (plain_append (plain_append (plain_append
    (plain_append (plain_append (by decide) (plain_toString _)) hcomma) (plain_toString _))
    hcomma) (plain_toString _)) hcomma) (plain_cssText _)) (by decide)

theorem plain_color? (c : Option Color) : IsPlain (Color.css? c) := by
  cases c with
  | none => decide
  | some c => exact plain_color c

theorem plain_axisAlign (a : Option AxisAlign) : IsPlain (AxisAlign.css a) := by
  unfold AxisAlign.css
  split <;> decide

/-! ### Declarations -/

def PlainPairs (pairs : List (String × String)) : Prop :=
  ∀ pair ∈ pairs, IsPlain pair.1 ∧ IsPlain pair.2

theorem plainPairs_nil : PlainPairs [] := fun _ h => absurd h List.not_mem_nil

theorem plainPairs_cons {property value : String} {rest : List (String × String)}
    (hp : IsPlain property) (hv : IsPlain value) (hrest : PlainPairs rest) :
    PlainPairs ((property, value) :: rest) := by
  intro pair h
  rcases List.mem_cons.mp h with rfl | h
  · exact ⟨hp, hv⟩
  · exact hrest pair h

theorem plainPairs_append {first rest : List (String × String)} (hfirst : PlainPairs first)
    (hrest : PlainPairs rest) : PlainPairs (first ++ rest) := by
  intro pair h
  rcases List.mem_append.mp h with h | h
  · exact hfirst pair h
  · exact hrest pair h

theorem plainPairs_whenSome {α : Type} {o : Option α} {property : String} {f : α → String}
    (hp : IsPlain property) (hf : ∀ a, IsPlain (f a)) :
    PlainPairs (whenSome o fun a => (property, f a)) := by
  cases o with
  | none => exact plainPairs_nil
  | some a => exact plainPairs_cons hp (hf a) plainPairs_nil

namespace Declarations

theorem mem_setIn {property value : String} {pair : String × String}
    {pairs : List (String × String)} (h : pair ∈ setIn property value pairs) :
    pair = (property, value) ∨ pair ∈ pairs := by
  induction pairs with
  | nil => exact Or.inl (List.mem_singleton.mp h)
  | cons first rest ih =>
    unfold setIn at h
    split_ifs at h with hsame
    · rcases List.mem_cons.mp h with rfl | h
      · exact Or.inl (Prod.ext hsame rfl)
      · exact Or.inr (List.mem_cons_of_mem first h)
    · rcases List.mem_cons.mp h with rfl | h
      · exact Or.inr List.mem_cons_self
      · exact (ih h).imp_right (List.mem_cons_of_mem first)

theorem setIn_ne_nil (property value : String) (pairs : List (String × String)) :
    setIn property value pairs ≠ [] := by
  cases pairs with
  | nil => exact List.cons_ne_nil _ _
  | cons first rest =>
    unfold setIn
    split_ifs <;> exact List.cons_ne_nil _ _

theorem mem_setAll {pairs : List (String × String)} {d : Declarations}
    {pair : String × String} (h : pair ∈ (d.setAll pairs).toList) :
    pair ∈ d.toList ∨ pair ∈ pairs := by
  induction pairs generalizing d with
  | nil => exact Or.inl h
  | cons first rest ih =>
    rcases ih h with h | h
    · rcases mem_setIn h with rfl | h
      · exact Or.inr List.mem_cons_self
      · exact Or.inl h
    · exact Or.inr (List.mem_cons_of_mem first h)

theorem setAll_ne_nil {d : Declarations} (hd : d.toList ≠ []) (pairs : List (String × String)) :
    (d.setAll pairs).toList ≠ [] := by
  induction pairs generalizing d with
  | nil => exact hd
  | cons first rest ih => exact ih (setIn_ne_nil first.1 first.2 d.toList)

/-- Nothing is declared but what was set. -/
theorem mem_ofList {pairs : List (String × String)} {pair : String × String}
    (h : pair ∈ (ofList pairs).toList) : pair ∈ pairs := by
  rcases mem_setAll h with h | h
  · exact absurd h List.not_mem_nil
  · exact h

theorem isEmpty_ofList {pairs : List (String × String)} (h : pairs ≠ []) :
    (ofList pairs).isEmpty = false := by
  cases pairs with
  | nil => exact absurd rfl h
  | cons first rest =>
    have hfirst : (empty.set first.1 first.2).toList ≠ [] := setIn_ne_nil first.1 first.2 []
    exact List.isEmpty_eq_false_iff.mpr (setAll_ne_nil hfirst rest)

def ArePlain (d : Declarations) : Prop := PlainPairs d.toList

theorem arePlain_ofList {pairs : List (String × String)} (h : PlainPairs pairs) :
    (ofList pairs).ArePlain :=
  fun pair hpair => h pair (mem_ofList hpair)

end Declarations

/-! ### The declarations of nodes and pages -/

namespace Style

theorem plainPairs_size (box : Rect) : PlainPairs (size box) :=
  plainPairs_cons (by decide) (plain_px _) (plainPairs_cons (by decide) (plain_px _) plainPairs_nil)

theorem plainPairs_place (p : Props) (box : Rect) (role : Role) (s : Surroundings) :
    PlainPairs (place p box role s) := by
  unfold place
  split
  · refine plainPairs_append (plainPairs_append ?_ ?_) ?_ <;> split_ifs
    · exact plainPairs_cons (by decide) (by decide) plainPairs_nil
    · exact plainPairs_nil
    · exact plainPairs_cons (by decide) (by decide) plainPairs_nil
    · exact plainPairs_size box
    · exact plainPairs_cons (by decide) (by decide) plainPairs_nil
    · exact plainPairs_nil
  · exact plainPairs_append
      (plainPairs_cons (by decide) (by decide)
        (plainPairs_cons (by decide) (plain_px _)
          (plainPairs_cons (by decide) (plain_px _) plainPairs_nil)))
      (plainPairs_size box)
  · exact plainPairs_size box

theorem plainPairs_flexOf (p : Props) : PlainPairs (flexOf p) := by
  have hdirection : IsPlain (if p.layoutMode = some .horizontal then "row" else "column") := by
    split_ifs <;> decide
  have hpadding : IsPlain (" ".intercalate ((padding p).map px)) := by
    have hspace : IsPlain " " := by decide
    refine forall_mem_intercalate (P := fun c => isPlainChar c = true) hspace
      fun part hpart => ?_
    obtain ⟨x, -, rfl⟩ := List.mem_map.mp hpart
    exact plain_px x
  unfold flexOf
  by_cases hflex : p.isAutoLayout = true
  · rw [if_pos hflex]
    refine plainPairs_append (plainPairs_append ?_ ?_) ?_
    · exact plainPairs_cons (by decide) (by decide)
        (plainPairs_cons (by decide) hdirection plainPairs_nil)
    · exact plainPairs_whenSome (by decide) plain_px
    · exact plainPairs_cons (by decide) hpadding
        (plainPairs_cons (by decide) (plain_axisAlign _)
          (plainPairs_cons (by decide) (plain_axisAlign _) plainPairs_nil))
  · rw [if_neg hflex]
    exact plainPairs_nil

theorem plainPairs_decoration (p : Props) (role : Role) : PlainPairs (decoration p role) := by
  unfold decoration
  refine plainPairs_append (plainPairs_append ?_ ?_) ?_
  · split_ifs
    · exact plainPairs_whenSome (by decide) fun fill => plain_color? fill.color
    · exact plainPairs_nil
  · exact plainPairs_whenSome (by decide) fun stroke =>
      plain_append (plain_append (plain_cssText _) (by decide)) (plain_color? stroke.color)
  · exact plainPairs_whenSome (by decide) plain_px

theorem plainPairs_font (p : Props) : PlainPairs (font p) := by
  unfold font
  refine plainPairs_append ?_ ?_
  · exact plainPairs_cons (by decide) (plain_px _)
      (plainPairs_cons (by decide) (plain_cssText _) plainPairs_nil)
  · exact plainPairs_whenSome (by decide) fun fill => plain_color? fill.color

/-- **The declarations of a node are plain.** -/
theorem plain_resolve (p : Props) (box : Rect) (role : Role) (s : Surroundings) :
    (resolve p box role s).ArePlain := by
  apply Declarations.arePlain_ofList
  refine plainPairs_append (plainPairs_append (plainPairs_append
    (plainPairs_place p box role s) (plainPairs_flexOf p)) (plainPairs_decoration p role)) ?_
  split_ifs
  · exact plainPairs_font p
  · exact plainPairs_nil

theorem plain_rootBackground (p : Props) : IsPlain (rootBackground p) := by
  unfold rootBackground
  split
  · exact plain_color? _
  · exact plain_color _
  · decide

/-- **The declarations of the container of a page are plain.** -/
theorem plain_root (p : Props) : (root p).ArePlain := by
  apply Declarations.arePlain_ofList
  refine plainPairs_append (plainPairs_append ?_ ?_) (plainPairs_flexOf p)
  · exact plainPairs_cons (by decide) (by decide)
      (plainPairs_cons (by decide) (by decide)
        (plainPairs_cons (by decide) (plain_rootBackground p) plainPairs_nil))
  · split
    · exact plainPairs_append (plainPairs_size _)
        (plainPairs_cons (by decide) (by decide) plainPairs_nil)
    · exact plainPairs_nil

/-- Every node is given some declaration: where it is or how large. -/
theorem isEmpty_resolve (p : Props) (box : Rect) (role : Role) (s : Surroundings) :
    (resolve p box role s).isEmpty = false := by
  apply Declarations.isEmpty_ofList
  have hplace : place p box role s ≠ [] := by
    unfold place size
    split
    · split_ifs <;> simp
    · simp
    · simp
  simp [hplace]

end Style

end DesignMarkup
