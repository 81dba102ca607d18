/-
  DesignMarkup/Proofs/Design/Selection.lean
  =========================================
  **Which node a page is made of.**  A node that was asked for stands in the response under
  its id, or somewhere in the document.  In the document it is the first one with its id
  in the order of `Node.preorder`: a node, then the trees of its children one after the other.

  The search of the program descends and comes back; it never has that list in hand.  Both
  recur on the tree in the same way, and one induction over trees and lists of trees makes
  the search the `find?` of the list (`find?_eq_preorder`).  That nothing is found is then said
  of all nodes of the document, by `Node.IsIn`, which knows no order.
-/
import DesignMarkup.Page.Compile

namespace DesignMarkup

namespace Node

mutual

/-- The nodes of a tree, each before what is below it. -/
def preorder : Node → List Node
  | ⟨props, children⟩ => ⟨props, children⟩ :: preorderAll children

def preorderAll : List Node → List Node
  | [] => []
  | n :: rest => n.preorder ++ preorderAll rest

end

/-- `m.IsIn n`: the node `m` is `n` or somewhere below it. -/
inductive IsIn (m : Node) : Node → Prop where
  | self : IsIn m m
  | inside {n child : Node} (h : child ∈ n.children) (hm : IsIn m child) : IsIn m n

/-! ### The search and the order -/

mutual

theorem find?_eq_preorder (id : String) :
    ∀ n : Node, n.find? id = n.preorder.find? fun m => m.id = id
  | ⟨props, children⟩ => by
    simp only [find?, preorder, List.find?_cons]
    by_cases h : props.id = id
    · simp [h, Node.id]
    · simp [h, Node.id, findAmong?_eq_preorderAll id children]

theorem findAmong?_eq_preorderAll (id : String) :
    ∀ list : List Node, findAmong? id list = (preorderAll list).find? fun m => m.id = id
  | [] => rfl
  | n :: rest => by
    simp only [findAmong?, preorderAll, List.find?_append]
    rw [find?_eq_preorder id n, findAmong?_eq_preorderAll id rest]

end

mutual

theorem mem_preorder {m : Node} : ∀ n : Node, m ∈ n.preorder ↔ m.IsIn n
  | ⟨props, children⟩ => by
    simp only [preorder, List.mem_cons, mem_preorderAll children]
    constructor
    · rintro (rfl | ⟨child, hchild, hm⟩)
      · exact .self
      · exact .inside hchild hm
    · intro h
      cases h with
      | self => exact Or.inl rfl
      | inside hchild hm => exact Or.inr ⟨_, hchild, hm⟩

theorem mem_preorderAll {m : Node} :
    ∀ list : List Node, m ∈ preorderAll list ↔ ∃ n ∈ list, m.IsIn n
  | [] => by simp [preorderAll]
  | n :: rest => by
    simp only [preorderAll, List.mem_append, mem_preorder n, mem_preorderAll rest]
    simp

end

/-- The first node of a tree with an id: no node before it has the id. -/
theorem find?_eq_some_iff {id : String} {n document : Node} :
    document.find? id = some n ↔ ∃ before after,
      document.preorder = before ++ n :: after ∧ n.id = id ∧ ∀ m ∈ before, m.id ≠ id := by
  rw [find?_eq_preorder, List.find?_eq_some_iff_append]
  simp only [decide_eq_true_eq, Bool.not_eq_true', decide_eq_false_iff_not]
  constructor
  · rintro ⟨hid, before, after, hsplit, hbefore⟩
    exact ⟨before, after, hsplit, hid, hbefore⟩
  · rintro ⟨before, after, hsplit, hid, hbefore⟩
    exact ⟨hid, before, after, hsplit, hbefore⟩

theorem find?_eq_none_iff {id : String} {document : Node} :
    document.find? id = none ↔ ∀ m : Node, m.IsIn document → m.id ≠ id := by
  rw [find?_eq_preorder, List.find?_eq_none]
  simp only [decide_eq_true_eq, mem_preorder]

end Node

namespace Response

variable {r : Response} {raw : String}

/-! ### By an id -/

theorem select_some_ok {n : Node} :
    r.select (some raw) = .ok n ↔ r.lookup (NodeId.normalize raw) = some n := by
  simp only [select]
  cases r.lookup (NodeId.normalize raw) <;> simp

theorem select_some_error {e : SelectError} :
    r.select (some raw) = .error e ↔
      r.lookup (NodeId.normalize raw) = none ∧ e = .notFound (NodeId.normalize raw) := by
  simp only [select]
  cases r.lookup (NodeId.normalize raw) <;> simp [eq_comm]

theorem lookup_of_entry {id : String} {entry : Option Node}
    (h : (r.nodes.bind fun nodes => nodes.lookup id) = some entry) : r.lookup id = entry := by
  rw [lookup, h]

theorem lookup_of_no_entry {id : String}
    (h : (r.nodes.bind fun nodes => nodes.lookup id) = none) :
    r.lookup id = r.document.bind fun document => document.find? id := by
  rw [lookup, h]

/-! ### The first page -/

theorem select_none_ok {n : Node} :
    r.select none = .ok n ↔
      ∃ document rest, r.document = some document ∧ document.children = n :: rest := by
  simp only [select, firstPage]
  cases r.document with
  | none => simp
  | some document =>
    cases hchildren : document.children with
    | nil => simp [hchildren]
    | cons page rest => simp [hchildren]

theorem select_none_error {e : SelectError} :
    r.select none = .error e ↔
      (∀ document, r.document = some document → document.children = []) ∧
        e = .emptyDocument := by
  simp only [select, firstPage]
  cases r.document with
  | none => simp [eq_comm]
  | some document =>
    cases hchildren : document.children with
    | nil => simp [hchildren, eq_comm]
    | cons page rest => simp [hchildren]

/-- **Which node is selected.**  Under an id it is what the response carries under that id,
    null being no node, and the document does not matter then; if the response carries
    nothing under it, it is the first such node of the document, and none just if the
    document has none.  Without an id it is the first child of the document, whatever else
    the response carries.  A conversion fails as the selection does, with any options. -/
theorem select_compile (r : Response) :
    (∀ raw entry, (r.nodes.bind fun nodes => nodes.lookup (NodeId.normalize raw)) = some entry →
      (∀ n, r.select (some raw) = .ok n ↔ entry = some n) ∧
      (r.select (some raw) = .error (.notFound (NodeId.normalize raw)) ↔ entry = none) ∧
      ∀ document, ({ r with document } : Response).select (some raw) = r.select (some raw)) ∧
    (∀ raw, (r.nodes.bind fun nodes => nodes.lookup (NodeId.normalize raw)) = none →
      (∀ n, r.select (some raw) = .ok n ↔ ∃ document before after, r.document = some document ∧
        document.preorder = before ++ n :: after ∧ n.id = NodeId.normalize raw ∧
        ∀ m ∈ before, m.id ≠ NodeId.normalize raw) ∧
      (r.select (some raw) = .error (.notFound (NodeId.normalize raw)) ↔
        ∀ document, r.document = some document →
          ∀ m : Node, m.IsIn document → m.id ≠ NodeId.normalize raw)) ∧
    (∀ n, r.select none = .ok n ↔
      ∃ document rest, r.document = some document ∧ document.children = n :: rest) ∧
    (r.select none = .error .emptyDocument ↔
      ∀ document, r.document = some document → document.children = []) ∧
    (∀ nodes, ({ r with nodes } : Response).select none = r.select none) ∧
    (∀ raw e, r.select (some raw) = .error e → e = .notFound (NodeId.normalize raw)) ∧
    (∀ e, r.select none = .error e → e = .emptyDocument) ∧
    ∀ raw o, (∀ e, compile r raw o = .error e ↔ r.select raw = .error e) ∧
      ∀ output, compile r raw o = .ok output ↔
        ∃ root, r.select raw = .ok root ∧ compileRoot root o = output := by
  refine ⟨?_, ?_, ?_, ?_, ?_, ?_, ?_, ?_⟩
  · intro raw entry hentry
    have hlookup : r.lookup (NodeId.normalize raw) = entry := lookup_of_entry hentry
    refine ⟨?_, ?_, ?_⟩
    · intro n
      rw [select_some_ok, hlookup]
    · rw [select_some_error, hlookup]
      simp
    · intro document
      have hsame : ({ r with document } : Response).lookup (NodeId.normalize raw) = entry :=
        lookup_of_entry hentry
      simp only [select, hlookup, hsame]
  · intro raw hentry
    have hlookup := lookup_of_no_entry hentry
    constructor
    · intro n
      rw [select_some_ok, hlookup, Option.bind_eq_some_iff]
      constructor
      · rintro ⟨document, hdocument, hfound⟩
        obtain ⟨before, after, hfirst⟩ := Node.find?_eq_some_iff.mp hfound
        exact ⟨document, before, after, hdocument, hfirst⟩
      · rintro ⟨document, before, after, hdocument, hfirst⟩
        exact ⟨document, hdocument, Node.find?_eq_some_iff.mpr ⟨before, after, hfirst⟩⟩
    · rw [select_some_error, hlookup, Option.bind_eq_none_iff]
      simp only [Node.find?_eq_none_iff, and_true]
  · intro n
    exact select_none_ok
  · rw [select_none_error]
    simp
  · intro nodes
    rfl
  · intro raw e h
    exact (select_some_error.mp h).2
  · intro e h
    exact (select_none_error.mp h).2
  · intro raw o
    unfold compile
    cases r.select raw <;> simp [Except.map]

end Response

end DesignMarkup
