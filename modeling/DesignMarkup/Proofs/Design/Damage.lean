/-
  DesignMarkup/Proofs/Design/Damage.lean
  ======================================
  **Damage stays in the field that is damaged.**  A member of an object, somewhere in a
  value, is replaced by whatever or is taken out.  The value still converts, and the two
  trees differ in one field of one node.

  To say so, a tree is taken apart at the node in question: `Frame` is what stands around
  a child of a node, and `framesAt` are the frames around the end of a path, from the
  outside in.  `plug_editAt` says that a change at the end of a path leaves the frames as
  they are; it needs nothing from the change but that an object comes of it that still
  converts.  `ofValue_setMember` is the rest: an object with one member set differs from
  what it was in the field of that member alone.
-/
import DesignMarkup.Proofs.Design.Readable

namespace DesignMarkup

open Json (Value IsAscending setMember)

namespace Node

/-! ### One member set -/

/-- **An object converts,** whatever the values of its members are. -/
theorem ofValue_object {members : List (String × Value)} (ha : IsAscending members)
    (hb : HasOneBox members) :
    ∃ n, (ofValue (.object members)).value = .ok n ∧
      ∀ f, n.get f = contentAt f (valueAt f members) blank :=
  ofValue_eq_ok (v := .object members) ha.nodup_keys hb

theorem valueAt_setMember {key : String} {f g : Field} (hkey : Field.ofKey? key = some f)
    (hg : g ≠ f) (w : Option Value) (members : List (String × Value)) :
    valueAt g (setMember key w members) = valueAt g members := by
  rw [valueAt, valueAt, Json.find?_setMember]
  intro v
  simpa [hkey] using Ne.symm hg

/-- **An object with one member set differs in the field of that member alone.** -/
theorem get_setMember {members : List (String × Value)} (ha : IsAscending members)
    (hb : HasOneBox members) {key : String} {f : Field} (hkey : Field.ofKey? key = some f)
    {w : Option Value} (hb' : HasOneBox (setMember key w members)) {n n' : Node}
    (hn : (ofValue (.object members)).value = .ok n)
    (hn' : (ofValue (.object (setMember key w members))).value = .ok n') :
    ∀ g ≠ f, n'.get g = n.get g := by
  intro g hg
  obtain ⟨m, hm, hget⟩ := ofValue_object ha hb
  obtain ⟨m', hm', hget'⟩ := ofValue_object (Json.isAscending_setMember ha key w) hb'
  obtain rfl := Except.ok.inj (hn.symm.trans hm)
  obtain rfl := Except.ok.inj (hn'.symm.trans hm')
  rw [hget, hget', valueAt_setMember hkey hg]

theorem hasOneBox_setMember {members : List (String × Value)} (hb : HasOneBox members)
    {key : String} (hlong : key ≠ Field.box.key) (hshort : key ≠ Field.shortBoxKey)
    (w : Option Value) : HasOneBox (setMember key w members) := by
  have hnew : ∀ k, key ≠ k → k ∉ members.map Prod.fst →
      k ∉ (setMember key w members).map Prod.fst := by
    intro k hk hmem hmem'
    obtain ⟨m, hm, rfl⟩ := List.mem_map.mp hmem'
    rcases Json.mem_setMember hm with h | h
    · exact hk h.symm
    · exact hmem (List.mem_map_of_mem h)
  exact hb.imp (hnew _ hlong) (hnew _ hshort)

/-! ### Children -/

/-- The list of children has only one name. -/
theorem valueAt_children (members : List (String × Value)) :
    valueAt .children members = members.lookup Field.children.key := by
  induction members with
  | nil => rfl
  | cons first rest ih =>
    obtain ⟨key, v⟩ := first
    by_cases hkey : key = Field.children.key
    · subst hkey
      rw [List.lookup_cons_self]
      rfl
    · have hne : Field.ofKey? key ≠ some .children := by
        intro h
        rcases Field.ofKey?_eq_some.mp h with h | ⟨-, h⟩
        · exact hkey h
        · exact absurd h (by decide)
      rw [valueAt_cons_of_ne hne, ih, List.lookup_cons, beq_false_of_ne (Ne.symm hkey)]

/-- The children of an object are those of the items of the list that are nodes. -/
theorem ofValue_parent {members : List (String × Value)} (ha : IsAscending members)
    (hb : HasOneBox members) {items : List Value}
    (hc : members.lookup Field.children.key = some (.array items)) :
    ∃ n, (ofValue (.object members)).value = .ok n ∧ n.children = items.filterMap node? := by
  obtain ⟨n, hn, hget⟩ := ofValue_object ha hb
  refine ⟨n, hn, ?_⟩
  have hchildren := hget .children
  rw [valueAt_children, hc, contentAt, value_assign_children] at hchildren
  exact hchildren

/-- Another list of children changes the children and no property. -/
theorem ofValue_setChildren {members : List (String × Value)} (ha : IsAscending members)
    (hb : HasOneBox members) {items : List Value}
    (hc : members.lookup Field.children.key = some (.array items)) (items' : List Value) :
    ∃ n n', (ofValue (.object members)).value = .ok n ∧
      (ofValue (.object (setMember Field.children.key (some (.array items')) members))).value =
        .ok n' ∧
      n'.props = n.props ∧ n.children = items.filterMap node? ∧
      n'.children = items'.filterMap node? := by
  have hb' : HasOneBox (setMember Field.children.key (some (.array items')) members) :=
    hasOneBox_setMember hb (by decide) (by decide) _
  obtain ⟨n, hn, hchildren⟩ := ofValue_parent ha hb hc
  obtain ⟨n', hn', hchildren'⟩ := ofValue_parent
    (Json.isAscending_setMember ha Field.children.key (some (.array items'))) hb'
    (Json.lookup_setMember_self _ _ members)
  have hprops : n'.props = n.props :=
    props_eq_of_get (get_setMember ha hb (f := .children) rfl hb' hn hn')
  exact ⟨n, n', hn, hn', hprops, hchildren, hchildren'⟩

/-- An item that is a node is a child between the nodes before and after it. -/
theorem filterMap_item {items before after : List Value} {v : Value} {n : Node}
    (hitems : items = before ++ v :: after) (hv : (ofValue v).value = .ok n) :
    items.filterMap node? = before.filterMap node? ++ n :: after.filterMap node? := by
  have hn : node? v = some n := by
    rw [node?, hv]
    rfl
  rw [hitems, List.filterMap_append, List.filterMap_cons_some hn]

/-! ### Places in a tree -/

/-- What stands around a child of a node. -/
structure Frame where
  props : Props
  before : List Node
  after : List Node

def Frame.around (frame : Frame) (child : Node) : Node :=
  ⟨frame.props, frame.before ++ child :: frame.after⟩

/-- The tree that has the node in its place; the first frame is the outermost. -/
def plug (frames : List Frame) (n : Node) : Node := frames.foldr Frame.around n

theorem eq_plug_cons {frame : Frame} {frames : List Frame} {n child : Node}
    (hp : n.props = frame.props)
    (hc : n.children = frame.before ++ plug frames child :: frame.after) :
    n = plug (frame :: frames) child := by
  obtain ⟨props, children⟩ := n
  subst hp hc
  rfl

/-- The frames around the object that a path leads to.  A path says which item of the
    list of children to take, at each object. -/
def framesAt : List Nat → Value → List Frame
  | i :: path, .object members =>
    match node? (.object members), members.lookup Field.children.key with
    | some n, some (.array items) =>
      ⟨n.props, (items.take i).filterMap node?, (items.drop (i + 1)).filterMap node?⟩
        :: (items[i]?.map (framesAt path)).getD []
    | _, _ => []
  | _, _ => []

/-- A value with the members of the object changed that a path leads to. -/
def editAt (change : List (String × Value) → List (String × Value)) : List Nat → Value → Value
  | [], .object members => .object (change members)
  | i :: path, .object members =>
    match members.lookup Field.children.key with
    | some (.array items) =>
      .object (setMember Field.children.key
        (some (.array (items.modify i (editAt change path)))) members)
    | _ => .object members
  | _, v => v

/-- `Leads v path members`: from `v` the path leads, through lists of children, to an
    object with these members; on the way are objects that name no field twice. -/
inductive Leads : Value → List Nat → List (String × Value) → Prop
  | here {members : List (String × Value)} (ha : IsAscending members)
    (hb : HasOneBox members) :
    Leads (.object members) [] members
  | child {members target : List (String × Value)} {items : List Value} {i : Nat} {v : Value}
    {path : List Nat} (ha : IsAscending members) (hb : HasOneBox members)
    (hc : members.lookup Field.children.key = some (.array items)) (hi : items[i]? = some v)
    (h : Leads v path target) :
    Leads (.object members) (i :: path) target

theorem Leads.members {v : Value} {path : List Nat} {members : List (String × Value)}
    (h : Leads v path members) : IsAscending members ∧ HasOneBox members := by
  induction h with
  | here ha hb => exact ⟨ha, hb⟩
  | child _ _ _ _ _ ih => exact ih

theorem framesAt_cons {members : List (String × Value)} {n : Node} {items : List Value} {i : Nat}
    {v : Value} (hn : (ofValue (.object members)).value = .ok n)
    (hc : members.lookup Field.children.key = some (.array items)) (hi : items[i]? = some v)
    (path : List Nat) :
    framesAt (i :: path) (.object members) =
      ⟨n.props, (items.take i).filterMap node?, (items.drop (i + 1)).filterMap node?⟩
        :: framesAt path v := by
  have hread : node? (.object members) = some n := by
    rw [node?, hn]
    rfl
  simp only [framesAt, hread, hc, hi]
  rfl

theorem editAt_cons (change : List (String × Value) → List (String × Value))
    {members : List (String × Value)} {items : List Value}
    (hc : members.lookup Field.children.key = some (.array items)) (i : Nat) (path : List Nat) :
    editAt change (i :: path) (.object members) =
      .object (setMember Field.children.key
        (some (.array (items.modify i (editAt change path)))) members) := by
  simp only [editAt, hc]

/-- **A change at the end of a path leaves everything around it as it is.** -/
theorem plug_editAt {change : List (String × Value) → List (String × Value)} {v : Value}
    {path : List Nat} {members : List (String × Value)} (h : Leads v path members) {m m' : Node}
    (hm : (ofValue (.object members)).value = .ok m)
    (hm' : (ofValue (.object (change members))).value = .ok m') :
    (ofValue v).value = .ok (plug (framesAt path v) m) ∧
      (ofValue (editAt change path v)).value = .ok (plug (framesAt path v) m') := by
  induction h with
  | here ha hb => exact ⟨hm, hm'⟩
  | @child members target items i v path ha hb hc hi h ih =>
    obtain ⟨hbefore, hafter⟩ := ih hm hm'
    obtain ⟨hlt, hget⟩ := List.getElem?_eq_some_iff.mp hi
    have hitems : items = items.take i ++ v :: items.drop (i + 1) := by
      rw [← hget, List.getElem_cons_drop, List.take_append_drop]
    have hitems' : items.modify i (editAt change path) =
        items.take i ++ editAt change path v :: items.drop (i + 1) := by
      rw [← hget]
      exact List.modify_eq_take_cons_drop hlt
    obtain ⟨n, n', hn, hn', hprops, hchildren, hchildren'⟩ :=
      ofValue_setChildren ha hb hc (items.modify i (editAt change path))
    rw [filterMap_item hitems hbefore] at hchildren
    rw [filterMap_item hitems' hafter] at hchildren'
    rw [framesAt_cons hn hc hi, editAt_cons change hc, hn, hn']
    exact ⟨congrArg Except.ok (eq_plug_cons rfl hchildren),
      congrArg Except.ok (eq_plug_cons hprops hchildren')⟩

/-- **Damage stays in the field that is damaged.**  The object at the end of a path gets
    any value whatever under one of its keys, or loses that key.  Before and after, the
    whole converts, to trees with the same nodes around the same place; and the nodes in
    that place have the same in every field but the one that the key names. -/
theorem ofValue_editAt {v : Value} {path : List Nat} {members : List (String × Value)}
    (h : Leads v path members) {key : String} {f : Field} (hkey : Field.ofKey? key = some f)
    (w : Option Value) (hb : HasOneBox (setMember key w members)) :
    ∃ n n', (ofValue (.object members)).value = .ok n ∧
      (ofValue (.object (setMember key w members))).value = .ok n' ∧
      (∀ g ≠ f, n'.get g = n.get g) ∧
      (ofValue v).value = .ok (plug (framesAt path v) n) ∧
      (ofValue (editAt (setMember key w) path v)).value = .ok (plug (framesAt path v) n') := by
  obtain ⟨ha, hb'⟩ := h.members
  obtain ⟨n, hn, -⟩ := ofValue_object ha hb'
  obtain ⟨n', hn', -⟩ := ofValue_object (Json.isAscending_setMember ha key w) hb
  obtain ⟨hbefore, hafter⟩ := plug_editAt h hn hn'
  exact ⟨n, n', hn, hn', get_setMember ha hb' hkey hb hn hn', hbefore, hafter⟩

/-- A number for the id of the second item of a page costs the id and nothing else. -/
theorem ofValue_editAt_id :
    Leads (.object [("children", .array [.null, .object [("id", .string "1:1")]])]) [1]
      [("id", .string "1:1")] ∧
    ∃ n n', (ofValue (.object [("id", .string "1:1")])).value = .ok n ∧
      (∀ g ≠ Field.id, n'.get g = n.get g) ∧
      (ofValue (editAt (setMember "id" (some (.number (.integer 42)))) [1]
          (.object [("children", .array [.null, .object [("id", .string "1:1")]])]))).value =
        .ok (plug (framesAt [1]
          (.object [("children", .array [.null, .object [("id", .string "1:1")]])])) n') := by
  have hleads : Leads (.object [("children", .array [.null, .object [("id", .string "1:1")]])])
      [1] [("id", .string "1:1")] :=
    .child (by decide) (by decide) rfl rfl (.here (by decide) (by decide))
  have hkey : Field.ofKey? "id" = some .id := rfl
  obtain ⟨n, n', hn, -, hfields, -, hafter⟩ :=
    ofValue_editAt hleads hkey (some (.number (.integer 42))) (by decide)
  exact ⟨hleads, n, n', hn, hfields, hafter⟩

end Node

end DesignMarkup
