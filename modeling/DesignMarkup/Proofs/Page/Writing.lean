/-
  DesignMarkup/Proofs/Page/Writing.lean
  =====================================
  **What writing a page does to the stylesheet.**  Markup is written element by element,
  and each element makes at most one request to the stylesheet.  So whatever a request
  keeps, a page keeps: `markupAll_preserves` is the one induction over styled trees,
  and all that is said here about the stylesheet after a page is a case of it.

  `IsSessionSheet` collects what holds of the stylesheet after any number of pages: only the
  containers of pages have rules with a name, the numbers count up from zero, and nothing
  in it is out of place in a stylesheet.  `IsPageSheet` adds that there was one page.
-/
import DesignMarkup.Page.Compile
import DesignMarkup.Proofs.Page.Styled
import DesignMarkup.Proofs.Stylesheet.Growth
import Mathlib.Data.List.Nodup

namespace DesignMarkup

theorem Options.styleAttribute_inline {o : Options} (ho : o.styleMode = .inline)
    (d : Declarations) (sheet : Stylesheet) :
    o.styleAttribute d sheet = ([("style", d.text)], sheet) := by
  rw [styleAttribute, ho]

theorem Options.styleAttribute_stylesheet {o : Options} (ho : o.styleMode = .stylesheet)
    {d : Declarations} (hd : d.isEmpty = false) (sheet : Stylesheet) :
    o.styleAttribute d sheet = ([("class", (sheet.request d).1.text)], (sheet.request d).2) := by
  rw [styleAttribute, ho, hd]
  rfl

namespace Styled

theorem length_markupAll (o : Options) (content : List Styled) (sheet : Stylesheet) :
    (markupAll o content sheet).1.length = content.length := by
  induction content generalizing sheet with
  | nil => rfl
  | cons e rest ih => exact congrArg (· + 1) (ih (markup o e sheet).2)

/-! ### What is kept -/

section Preservation

variable {o : Options} {P : Declarations → Prop} {I : Stylesheet → Prop}

mutual

theorem markup_preserves (hI : ∀ s d, P d → I s → I (o.styleAttribute d s).2) :
    ∀ e : Styled, e.Every P → ∀ sheet, I sheet → I (markup o e sheet).2
  | ⟨_, _, declarations, children⟩, he, sheet, hs =>
    markupAll_preserves hI children he.2 _ (hI sheet declarations he.1 hs)

/-- **What the style of each element keeps, writing elements keeps.** -/
theorem markupAll_preserves (hI : ∀ s d, P d → I s → I (o.styleAttribute d s).2) :
    ∀ content : List Styled, EveryAll P content → ∀ sheet, I sheet →
      I (markupAll o content sheet).2
  | [], _, _, hs => hs
  | e :: rest, h, sheet, hs =>
    markupAll_preserves hI rest h.2 _ (markup_preserves hI e h.1 sheet hs)

end

theorem styleAttribute_preserves (hI : ∀ s d, P d → I s → I (s.request d).2)
    (s : Stylesheet) (d : Declarations) (hd : P d) (hs : I s) : I (o.styleAttribute d s).2 := by
  unfold Options.styleAttribute
  cases o.styleMode with
  | inline => exact hs
  | stylesheet =>
    cases d.isEmpty with
    | true => exact hs
    | false => exact hI s d hd hs

end Preservation

/-- Rules that are there when markup is written stay where they are. -/
theorem prefix_markupAll (o : Options) {P : Declarations → Prop} {content : List Styled}
    (h : EveryAll P content) (sheet : Stylesheet) :
    sheet.rules <+: (markupAll o content sheet).2.rules :=
  markupAll_preserves (I := fun s => sheet.rules <+: s.rules)
    (styleAttribute_preserves fun s d _ hs => hs.trans (s.prefix_request d)) content h sheet
    (List.prefix_refl sheet.rules)

section Inline

variable {o : Options} (ho : o.styleMode = .inline) {P : Declarations → Prop}
include ho

theorem sheet_styleAttribute_inline (d : Declarations) (sheet : Stylesheet) :
    (o.styleAttribute d sheet).2 = sheet := by
  rw [Options.styleAttribute_inline ho]

theorem sheet_markup_inline {e : Styled} (h : e.Every P) (sheet : Stylesheet) :
    (markup o e sheet).2 = sheet :=
  markup_preserves (I := fun s => s = sheet)
    (fun s d _ hs => (sheet_styleAttribute_inline ho d s).trans hs) e h sheet rfl

theorem sheet_markupAll_inline {content : List Styled} (h : EveryAll P content)
    (sheet : Stylesheet) : (markupAll o content sheet).2 = sheet :=
  markupAll_preserves (I := fun s => s = sheet)
    (fun s d _ hs => (sheet_styleAttribute_inline ho d s).trans hs) content h sheet rfl

end Inline

mutual

theorem markup_inline {o : Options} (ho : o.styleMode = .inline) :
    ∀ (e : Styled) (sheet sheet' : Stylesheet), (markup o e sheet).1 = (markup o e sheet').1
  | ⟨role, label, declarations, children⟩, sheet, sheet' => by
    have hchildren := markupAll_inline ho children sheet sheet'
    simp only [markup, Options.styleAttribute, ho, hchildren]

/-- Inline styles are the same beside any stylesheet. -/
theorem markupAll_inline {o : Options} (ho : o.styleMode = .inline) :
    ∀ (content : List Styled) (sheet sheet' : Stylesheet),
      (markupAll o content sheet).1 = (markupAll o content sheet').1
  | [], _, _ => rfl
  | e :: rest, sheet, sheet' => by
    simp only [markupAll, markup_inline ho e sheet sheet',
      markupAll_inline ho rest (markup o e sheet).2 (markup o e sheet').2]

end

end Styled

/-! ### The stylesheet of a session -/

/-- The class of pages is not one of those with a number. -/
theorem text_numbered_ne_rootClass (n : Nat) : (ClassName.numbered n).text ≠ rootClass := by
  intro h
  have hchars := congrArg String.toList h
  rw [ClassName.text, String.toList_append] at hchars
  have hsecond : some 'g' = rootClass.toList[1]? := congrArg (·[1]?) hchars
  exact absurd hsecond (by decide)

/-- Plain declarations can be read back under the class of pages and under any number. -/
theorem isReadableRule_of_className {rule : Rule}
    (hclass : rule.className = .named rootClass ∨ ∃ n, rule.className = .numbered n)
    (hplain : rule.declarations.ArePlain) : Stylesheet.IsReadableRule rule := by
  refine ⟨fun c hc => ?_, hplain⟩
  rcases hclass with h | ⟨n, h⟩ <;> rw [h] at hc
  · have hletters : rootClass.toList.all Stylesheet.isClassChar = true := by decide
    exact List.all_eq_true.mp hletters c hc
  · exact ClassName.isClassChar_of_mem_numbered hc

structure IsSessionSheet (s : Stylesheet) : Prop where
  names : ∀ name ∈ s.names, name = rootClass
  sequential : s.IsSequential
  plain : ∀ rule ∈ s.rules, rule.declarations.ArePlain

namespace IsSessionSheet

variable {s : Stylesheet}

theorem empty : IsSessionSheet .empty where
  names := fun _ hname => absurd hname List.not_mem_nil
  sequential := rfl
  plain := fun _ hrule => absurd hrule List.not_mem_nil

theorem add (hs : IsSessionSheet s) {d : Declarations} (hd : d.ArePlain) :
    IsSessionSheet (s.add rootClass d) where
  names := by
    intro name hname
    rw [s.names_add, List.mem_append, List.mem_singleton] at hname
    exact hname.elim (hs.names name) id
  sequential := Stylesheet.isSequential_add hs.sequential rootClass d
  plain := by
    intro rule hrule
    rcases List.mem_append.mp hrule with hold | hnew
    · exact hs.plain rule hold
    · rw [List.mem_singleton.mp hnew]
      exact hd

theorem request (hs : IsSessionSheet s) {d : Declarations} (hd : d.ArePlain) :
    IsSessionSheet (s.request d).2 where
  names := by
    rw [s.names_request d]
    exact hs.names
  sequential := Stylesheet.isSequential_request hs.sequential d
  plain := by
    intro rule hrule
    rcases Stylesheet.mem_rules_request hrule with hold | rfl
    · exact hs.plain rule hold
    · exact hd

theorem className (hs : IsSessionSheet s) {rule : Rule} (hrule : rule ∈ s.rules) :
    rule.className = .named rootClass ∨ ∃ n, rule.className = .numbered n := by
  cases hc : rule.className with
  | named name =>
    have hmem : name ∈ s.names :=
      List.mem_filterMap.mpr ⟨rule, hrule, by rw [hc]; rfl⟩
    exact Or.inl (congrArg ClassName.named (hs.names name hmem))
  | numbered n => exact Or.inr ⟨n, rfl⟩

/-- **The text of the stylesheet of a session reads back to its rules.** -/
theorem read?_text (hs : IsSessionSheet s) : Stylesheet.read? s.text = some s.entries :=
  Stylesheet.read?_text fun rule hrule =>
    isReadableRule_of_className (hs.className hrule) (hs.plain rule hrule)

/-- **The class of an element has one rule,** however many pages there are. -/
theorem hasOneRule (hs : IsSessionSheet s) {n : Nat} {d : Declarations}
    (h : ⟨.numbered n, d⟩ ∈ s.rules) :
    Stylesheet.HasOneRule s.entries (ClassName.numbered n).text d := by
  refine Stylesheet.hasOneRule_numbered hs.sequential (fun name hname m => ?_) h
  rw [hs.names name hname]
  exact (text_numbered_ne_rootClass m).symm

end IsSessionSheet

/-! ### The stylesheet of a page -/

structure IsPageSheet (s : Stylesheet) : Prop extends IsSessionSheet s where
  once : s.names = [rootClass]

namespace IsPageSheet

variable {s : Stylesheet}

theorem add {d : Declarations} (hd : d.ArePlain) :
    IsPageSheet (Stylesheet.empty.add rootClass d) :=
  ⟨.add .empty hd, rfl⟩

theorem request (hs : IsPageSheet s) {d : Declarations} (hd : d.ArePlain) :
    IsPageSheet (s.request d).2 :=
  ⟨hs.toIsSessionSheet.request hd, (s.names_request d).trans hs.once⟩

/-- **Every class of a page is written in its own way and has one rule.** -/
theorem nodup_entries (hs : IsPageSheet s) : (s.entries.map Prod.fst).Nodup := by
  have hclasses : (s.rules.map (·.className)).Nodup := by
    refine Stylesheet.nodup_classNames (Stylesheet.nodup_numbers hs.sequential) ?_
    rw [hs.once]
    exact List.nodup_singleton rootClass
  have htexts : s.entries.map Prod.fst = (s.rules.map (·.className)).map ClassName.text := by
    rw [Stylesheet.entries, List.map_map, List.map_map]
    rfl
  rw [htexts]
  refine List.Nodup.map_on (fun c hc c' hc' heq => ?_) hclasses
  obtain ⟨rule, hrule, rfl⟩ := List.mem_map.mp hc
  obtain ⟨rule', hrule', rfl⟩ := List.mem_map.mp hc'
  rcases hs.className hrule with h | ⟨n, h⟩ <;> rcases hs.className hrule' with h' | ⟨m, h'⟩ <;>
    rw [h, h'] at heq ⊢
  · exact absurd heq.symm (text_numbered_ne_rootClass m)
  · exact absurd heq (text_numbered_ne_rootClass n)
  · rw [ClassName.text_numbered_injective heq]

end IsPageSheet

end DesignMarkup
