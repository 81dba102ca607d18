/-
  DesignMarkup/Proofs/Style/Unambiguous.lean
  ==========================================
  **Declarations can be told from their text.**  Whatever the numbers, colors and choices of a
  node are, its declarations name each property once, and no value has a character that ends a
  declaration or a rule.  So the text of a `style` attribute gives the declarations back, and
  that of a stylesheet its rules, whichever classes they have and however often.
-/
import DesignMarkup.Proofs.Page.Writing
import DesignMarkup.Proofs.Style.Properties
import DesignMarkup.Proofs.Style.Reading

namespace DesignMarkup

/-- Declarations as they are made for a node, wherever it stands, or for a page. -/
inductive Declarations.IsMade : Declarations → Prop
  | node (p : Props) (box : Rect) (role : Role) (s : Surroundings) :
    IsMade (Style.resolve p box role s)
  | page (p : Props) : IsMade (Style.root p)

/-- A rule for such declarations, under the class of pages or under a number. -/
structure Rule.IsMade (rule : Rule) : Prop where
  className : rule.className = .named rootClass ∨ ∃ n, rule.className = .numbered n
  declarations : rule.declarations.IsMade

namespace Declarations.IsMade

variable {d : Declarations}

theorem nodup (h : d.IsMade) : (d.toList.map Prod.fst).Nodup := by
  cases h with
  | node p box role s => exact Style.nodup_resolve p box role s
  | page p => exact Style.nodup_root p

theorem plain (h : d.IsMade) : d.ArePlain := by
  cases h with
  | node p box role s => exact Style.plain_resolve p box role s
  | page p => exact Style.plain_root p

end Declarations.IsMade

/-- **Declarations and rules can be told from their text.**  In the declarations of any node and
    of any page, no property comes twice, and all values consist of letters, digits, spaces and
    the characters `.`, `,`, `-`, `(` and `)`.  Their text, taken apart at the semicolons and each
    part at its first colon, gives them back in order.  The text of any stylesheet of rules for
    such declarations gives back the classes and their declarations. -/
theorem read?_made :
    (∀ d : Declarations, d.IsMade →
      (d.toList.map Prod.fst).Nodup ∧ (∀ pair ∈ d.toList, IsPlain pair.2) ∧
        Declarations.read? d.text = some d) ∧
    ∀ rules : List Rule, (∀ rule ∈ rules, rule.IsMade) →
      Stylesheet.read? (Stylesheet.text ⟨rules⟩) =
        some (rules.map fun rule => (rule.className.text, rule.declarations)) := by
  constructor
  · intro d hd
    exact ⟨hd.nodup, fun pair hpair => (hd.plain pair hpair).2, Declarations.read?_text hd.plain⟩
  · intro rules hrules
    refine Stylesheet.read?_text (s := ⟨rules⟩) fun rule hrule => ?_
    have hmade := hrules rule hrule
    exact isReadableRule_of_className hmade.className hmade.declarations.plain

/-- Numbers that are no lengths make no difference. -/
theorem read?_made_notANumber :
    let page := Style.root { box := some ⟨0, 0, 1 / 0, -1 / 0⟩ }
    let text := Style.resolve {} ⟨0 / 0, 1e300, 1e-300, -0.0⟩ .text (.document false)
    Declarations.read? text.text = some text ∧
      Stylesheet.read? (Stylesheet.text ⟨[⟨.named rootClass, page⟩, ⟨.numbered 7, text⟩]⟩) =
        some [("figma-root", page), ("fg-7", text)] := by
  intro page text
  have htext : text.IsMade := .node _ _ _ _
  refine ⟨(read?_made.1 text htext).2.2, read?_made.2 _ fun rule hrule => ?_⟩
  simp only [List.mem_cons, List.not_mem_nil, or_false] at hrule
  rcases hrule with rfl | rfl
  · exact ⟨Or.inl rfl, .page _⟩
  · exact ⟨Or.inr ⟨7, rfl⟩, htext⟩

end DesignMarkup
