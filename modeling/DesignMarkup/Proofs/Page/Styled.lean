/-
  DesignMarkup/Proofs/Page/Styled.lean
  ====================================
  **What a styled tree takes from its design.**  A node that is not shown leaves nothing
  behind (`Node.styled?_eq_none`), and the declarations of every element are those that
  `Style.resolve` gives for some node.  `Styled.Every` states a condition on all of them
  at once; it is enough to check it where styles are resolved
  (`Node.everyAll_styledAll`).
-/
import DesignMarkup.Page.Styled
import Mathlib.Tactic.Common

namespace DesignMarkup

namespace Styled

mutual

/-- A condition on the declarations of an element and of all elements below it. -/
def Every (P : Declarations → Prop) : Styled → Prop
  | ⟨_, _, declarations, children⟩ => P declarations ∧ EveryAll P children

def EveryAll (P : Declarations → Prop) : List Styled → Prop
  | [] => True
  | e :: rest => e.Every P ∧ EveryAll P rest

end

theorem assetsOfAll_append (content content' : List Styled) :
    assetsOfAll (content ++ content') = assetsOfAll content ++ assetsOfAll content' := by
  induction content with
  | nil => rfl
  | cons e rest ih => rw [List.cons_append, assetsOfAll, assetsOfAll, ih, List.append_assoc]

end Styled

namespace Node

theorem styled?_eq_none {n : Node} {s : Surroundings} (h : ¬n.props.isRenderable = true) :
    styled? s n = none := by
  obtain ⟨p, children⟩ := n
  rw [styled?]
  split
  · rfl
  · next box hbox =>
    refine if_neg fun hvisible => h ?_
    simp [Props.isRenderable, hvisible, hbox]

/-- A node that is shown has a box, and an element with the styles that go with that box. -/
theorem styled?_eq_some {p : Props} (h : p.isRenderable = true) (children : List Node)
    (s : Surroundings) :
    ∃ box, p.box = some box ∧ styled? s ⟨p, children⟩ = some {
      role := Role.ofProps p
      label := p.label
      declarations := Style.resolve p box (Role.ofProps p) s
      children := if (Role.ofProps p).recurses then styledAll (s.within p) children else [] } := by
  obtain ⟨hvisible, hplaced⟩ := Bool.and_eq_true_iff.mp h
  obtain ⟨box, hbox⟩ := Option.isSome_iff_exists.mp hplaced
  refine ⟨box, hbox, ?_⟩
  rw [styled?, hbox]
  exact if_pos hvisible

theorem styledAll_cons_hidden {n : Node} (h : ¬n.props.isRenderable = true) (s : Surroundings)
    (rest : List Node) : styledAll s (n :: rest) = styledAll s rest := by
  rw [styledAll, styled?_eq_none h]
  rfl

theorem styledAll_cons_some {n : Node} {s : Surroundings} {e : Styled} (h : n.styled? s = some e)
    (rest : List Node) : styledAll s (n :: rest) = e :: styledAll s rest := by
  rw [styledAll, h]
  rfl

mutual

/-- What every style that is resolved fulfils, every element of a design fulfils. -/
theorem every_styled? {P : Declarations → Prop}
    (h : ∀ p box role s, P (Style.resolve p box role s)) :
    ∀ (n : Node) (s : Surroundings), ∀ e ∈ n.styled? s, e.Every P
  | ⟨p, children⟩, s, e, he => by
    by_cases hshown : p.isRenderable = true
    · obtain ⟨box, -, hstyled⟩ := styled?_eq_some hshown children s
      rw [hstyled] at he
      obtain rfl := Option.some.inj he
      refine ⟨h p box (Role.ofProps p) s, ?_⟩
      split_ifs
      · exact everyAll_styledAll h children (s.within p)
      · trivial
    · rw [styled?_eq_none hshown] at he
      exact absurd he (Option.not_mem_none e)

theorem everyAll_styledAll {P : Declarations → Prop}
    (h : ∀ p box role s, P (Style.resolve p box role s)) :
    ∀ (nodes : List Node) (s : Surroundings), Styled.EveryAll P (styledAll s nodes)
  | [], _ => trivial
  | n :: rest, s => by
    have hrest := everyAll_styledAll h rest s
    rw [styledAll]
    cases hn : styled? s n with
    | none => exact hrest
    | some e => exact ⟨every_styled? h n s e hn, hrest⟩

end

end Node

end DesignMarkup
