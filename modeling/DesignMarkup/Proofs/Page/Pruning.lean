/-
  DesignMarkup/Proofs/Page/Pruning.lean
  =====================================
  **Hidden and unplaced content leaves no trace.**  `Node.prune` takes out of a design
  what a page has no use for: below the root, nodes that are hidden or have no box, with
  everything in them, and what is inside texts, images and icons.  The root keeps its own
  properties, whatever they are.

  A page is made from the styled tree of its root, and that tree is the same before and
  after (`styledAll_pruneAll`).  So are the markup, the stylesheet with its numbers, and
  the manifest with its collisions, also for a page that is not the first of its session
  (`compileRoot_prune`).
-/
import DesignMarkup.Page.Compile
import DesignMarkup.Proofs.Page.Styled

namespace DesignMarkup

/-- Hidden, or without a place on the page. -/
def Props.IsExcluded (p : Props) : Prop := p.visible = some false ∨ p.box.isNone = true

instance (p : Props) : Decidable p.IsExcluded := by unfold Props.IsExcluded; infer_instance

theorem Props.isRenderable_iff (p : Props) : p.isRenderable = true ↔ ¬p.IsExcluded := by
  rw [isRenderable, isVisible, Bool.and_eq_true, bne_iff_ne, IsExcluded, not_or,
    Option.isNone_iff_eq_none, Option.isSome_iff_ne_none]

namespace Node

mutual

/-- A node without what is excluded below it. -/
def pruned : Node → Node
  | ⟨p, children⟩ =>
    match Role.ofProps p with
    | .container => ⟨p, pruneAll children⟩
    | .text | .image | .icon => ⟨p, []⟩

/-- Nodes without those that are excluded and without what is excluded below the others. -/
def pruneAll : List Node → List Node
  | [] => []
  | n :: rest => if n.props.IsExcluded then pruneAll rest else n.pruned :: pruneAll rest

end

/-- A design without what is excluded below its root. -/
def prune (root : Node) : Node := ⟨root.props, pruneAll root.children⟩

/-! ### What a page is made from stays the same -/

mutual

theorem styled?_pruned : ∀ (n : Node) (s : Surroundings), styled? s n.pruned = styled? s n
  | ⟨p, children⟩, s => by
    have ih := styledAll_pruneAll children (s.within p)
    cases hrole : Role.ofProps p with
    | container => simp only [pruned, hrole, styled?, ih]
    | text | image | icon =>
      -- no children are looked at, so that it makes no difference that there are none
      simp only [pruned, hrole, styled?]
      rfl

/-- **The elements of nodes depend on their pruned form alone.** -/
theorem styledAll_pruneAll :
    ∀ (nodes : List Node) (s : Surroundings), styledAll s (pruneAll nodes) = styledAll s nodes
  | [], _ => rfl
  | n :: rest, s => by
    have ih := styledAll_pruneAll rest s
    by_cases h : n.props.IsExcluded
    · have hhidden : ¬n.props.isRenderable = true :=
        fun hshown => n.props.isRenderable_iff.mp hshown h
      rw [pruneAll, if_pos h, ih, styledAll_cons_hidden hhidden]
    · rw [pruneAll, if_neg h, styledAll, styledAll, styled?_pruned n s, ih]

end

theorem content_prune (coordinates : Coordinates) (root : Node) :
    root.prune.content coordinates = root.content coordinates :=
  styledAll_pruneAll root.children (.below coordinates root.props)

end Node

theorem Session.page_prune (session : Session) (root : Node) :
    session.page root.prune = session.page root := by
  have hprops : root.prune.props = root.props := rfl
  simp only [Session.page, Node.content_prune, hprops]

/-- **Nothing that is excluded leaves a trace in the output.**  A design and its pruned
    form give the same markup, stylesheet and assets, and the same page and the same
    state after it in any session; so do any two designs with the same pruned form. -/
theorem compileRoot_prune (root : Node) (o : Options) :
    compileRoot root.prune o = compileRoot root o ∧
    (∀ session : Session, session.page root.prune = session.page root) ∧
    ∀ other : Node, other.prune = root.prune →
      compileRoot other o = compileRoot root o ∧
      ∀ session : Session, session.page other = session.page root := by
  have hcompile : ∀ n : Node, compileRoot n.prune o = compileRoot n o := by
    intro n
    rw [compileRoot, Session.page_prune, compileRoot]
  refine ⟨hcompile root, fun session => session.page_prune root, fun other h => ⟨?_, ?_⟩⟩
  · rw [← hcompile other, h, hcompile root]
  · intro session
    rw [← session.page_prune other, h, session.page_prune root]

/-- What is in a text, and a hidden frame beside it, cannot be told from their absence. -/
theorem compileRoot_hidden_frame :
    compileRoot
        ⟨{}, [⟨{ visible := some false }, [⟨{ name := "secret" }, []⟩]⟩,
          ⟨{ type := .text, box := some ⟨0, 0, 10, 10⟩ }, [⟨{ name := "secret" }, []⟩]⟩]⟩ {} =
      compileRoot ⟨{}, [⟨{ type := .text, box := some ⟨0, 0, 10, 10⟩ }, []⟩]⟩ {} :=
  ((compileRoot_prune ⟨{}, [⟨{ type := .text, box := some ⟨0, 0, 10, 10⟩ }, []⟩]⟩ {}).2.2
    ⟨{}, [⟨{ visible := some false }, [⟨{ name := "secret" }, []⟩]⟩,
      ⟨{ type := .text, box := some ⟨0, 0, 10, 10⟩ }, [⟨{ name := "secret" }, []⟩]⟩]⟩ rfl).1

end DesignMarkup
