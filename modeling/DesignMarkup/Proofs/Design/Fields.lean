/-
  DesignMarkup/Proofs/Design/Fields.lean
  ======================================
  **A node field by field.**  A node is a record of 23 fields, and `Node.get` is what it
  has in each of them.  Setting a field from a value (`Node.assign`) gives that field
  what the value stands for, whatever the node was before, and leaves every other field
  alone (`get_assign_self`, `get_assign_of_ne`).

  An object is read by setting fields one after the other.  `ofMembers_eq_ok` sums this
  up: if no field is named twice a node comes of it, and it has in each field what the
  member under one of the names of the field stands for, or nothing.
-/
import DesignMarkup.Design.OfValue
import DesignMarkup.Proofs.Json.Members

namespace DesignMarkup

open Json (Value)

/-! ### Names -/

namespace Field

/-- A key names a field if it is the name of the field or the second name of the box. -/
theorem ofKey?_eq_some {key : String} {f : Field} :
    ofKey? key = some f ↔ key = f.key ∨ (key = shortBoxKey ∧ f = .box) := by
  have hself : ofKey? f.key = some f := by cases f <;> rfl
  constructor
  · intro h
    unfold ofKey? at h
    split_ifs at h with hshort
    · exact Or.inr ⟨hshort, (Option.some.inj h).symm⟩
    · have hkey := List.find?_some h
      exact Or.inl (eq_of_beq hkey).symm
  · rintro (rfl | ⟨rfl, rfl⟩)
    · exact hself
    · rfl

/-- Two keys that name the same field are the two names of the box. -/
theorem eq_of_ofKey? {k k' : String} {f : Field} (h : ofKey? k = some f)
    (h' : ofKey? k' = some f) (hne : k ≠ k') :
    (k = key .box ∧ k' = shortBoxKey) ∨ (k = shortBoxKey ∧ k' = key .box) := by
  rcases ofKey?_eq_some.mp h with rfl | ⟨rfl, rfl⟩ <;>
    rcases ofKey?_eq_some.mp h' with rfl | ⟨rfl, hf⟩
  · exact absurd rfl hne
  · subst hf
    exact Or.inl ⟨rfl, rfl⟩
  · exact Or.inr ⟨rfl, rfl⟩
  · exact absurd rfl hne

end Field

/-! ### What a node has in a field -/

def Field.Content : Field → Type
  | .id | .name => String
  | .type => NodeType
  | .visible => Option Bool
  | .box => Option Rect
  | .layoutMode => Option LayoutMode
  | .layoutAlign => Option LayoutAlign
  | .primaryAlign | .counterAlign => Option AxisAlign
  | .layoutGrow | .itemSpacing | .paddingTop | .paddingRight | .paddingBottom | .paddingLeft
  | .strokeWeight | .cornerRadius => Option Float
  | .fills | .strokes => List Paint
  | .backgroundColor => Option Color
  | .characters => Option String
  | .style => Option TypeStyle
  | .children => List Node

/-- What a value other than null is settled on. -/
theorem Decode.value_settle {α : Type} {type : String} {v : Value} (hv : v ≠ .null)
    (decoded : Logged (Decoded α)) : (settle type v decoded).value = decoded.value.toOption := by
  unfold settle
  split
  · exact absurd rfl hv
  · rw [Logged.value_bind]
    cases decoded.value <;> rfl

namespace Node

/-- What a node has in a field. -/
def get (n : Node) : (f : Field) → f.Content
  | .id => n.props.id
  | .name => n.props.name
  | .type => n.props.type
  | .visible => n.props.visible
  | .box => n.props.box
  | .layoutMode => n.props.layoutMode
  | .layoutGrow => n.props.layoutGrow
  | .layoutAlign => n.props.layoutAlign
  | .itemSpacing => n.props.itemSpacing
  | .paddingTop => n.props.paddingTop
  | .paddingRight => n.props.paddingRight
  | .paddingBottom => n.props.paddingBottom
  | .paddingLeft => n.props.paddingLeft
  | .primaryAlign => n.props.primaryAlign
  | .counterAlign => n.props.counterAlign
  | .fills => n.props.fills
  | .strokes => n.props.strokes
  | .strokeWeight => n.props.strokeWeight
  | .cornerRadius => n.props.cornerRadius
  | .backgroundColor => n.props.backgroundColor
  | .characters => n.props.characters
  | .style => n.props.style
  | .children => n.children

/-- Nodes with the same properties are those with the same in every field but one. -/
theorem props_eq_of_get {m n : Node} (h : ∀ f ≠ Field.children, m.get f = n.get f) :
    m.props = n.props := by
  obtain ⟨p, _⟩ := m
  obtain ⟨q, _⟩ := n
  cases p
  cases q
  rw [Props.mk.injEq]
  exact ⟨h .id (by decide), h .name (by decide), h .type (by decide), h .visible (by decide),
    h .box (by decide), h .layoutMode (by decide), h .layoutGrow (by decide),
    h .layoutAlign (by decide), h .itemSpacing (by decide), h .paddingTop (by decide),
    h .paddingRight (by decide), h .paddingBottom (by decide), h .paddingLeft (by decide),
    h .primaryAlign (by decide), h .counterAlign (by decide), h .fills (by decide),
    h .strokes (by decide), h .strokeWeight (by decide), h .cornerRadius (by decide),
    h .backgroundColor (by decide), h .characters (by decide), h .style (by decide)⟩

/-! ### Setting a field -/

def node? (v : Value) : Option Node := (ofValue v).value.toOption

/-- The nodes that a value stands for as a list of children. -/
def nodes : Value → List Node
  | .array items => items.filterMap node?
  | _ => []

theorem value_childrenOfItems (items : List Value) :
    (childrenOfItems items).value = items.filterMap node? := by
  induction items with
  | nil => rfl
  | cons v rest ih =>
    have hsettle : (Decode.settle "DesignNode" v (ofValue v)).value = node? v := by
      by_cases hv : v = .null
      · subst hv
        rfl
      · exact Decode.value_settle hv (ofValue v)
    rw [childrenOfItems]
    simp only [Logged.value_bind, Logged.value_pure, ih, hsettle]
    rw [List.filterMap_cons]
    cases node? v <;> rfl

theorem value_assign_children (v : Value) (n : Node) :
    (assign .children v n).value = ⟨n.props, nodes v⟩ := by
  cases v with
  | array items =>
    rw [assign]
    simp only [Logged.value_bind, Logged.value_pure, value_childrenOfItems]
    rfl
  | null => rfl
  | boolean _ | number _ | string _ | object _ => rfl

theorem value_assign {f : Field} (h : f ≠ .children) (v : Value) (n : Node) :
    (assign f v n).value = ⟨(n.props.assign f v).value, n.children⟩ := by
  rw [assign]
  · rfl
  · exact h

theorem get_assign_of_ne {f g : Field} (h : g ≠ f) (v : Value) (n : Node) :
    (assign f v n).value.get g = n.get g := by
  by_cases hf : f = .children
  · subst hf
    rw [value_assign_children]
    cases g <;> first | rfl | exact absurd rfl h
  · rw [value_assign hf]
    cases f <;> cases g <;> first | rfl | exact absurd rfl h

theorem get_assign_self (f : Field) (v : Value) (m n : Node) :
    (assign f v m).value.get f = (assign f v n).value.get f := by
  by_cases hf : f = .children
  · subst hf
    rw [value_assign_children, value_assign_children]
    rfl
  · rw [value_assign hf, value_assign hf]
    cases f <;> first | rfl | exact absurd rfl hf

/-! ### Setting the fields of an object -/

/-- The fields that members name, in the order of the members. -/
def named (members : List (String × Value)) : List Field :=
  members.filterMap fun m => Field.ofKey? m.1

/-- The value that members have for a field. -/
def valueAt (f : Field) (members : List (String × Value)) : Option Value :=
  (members.find? fun m => Field.ofKey? m.1 == some f).map Prod.snd

/-- What stands in a field of a node once it is set from a value, if there is one. -/
def contentAt (f : Field) (v : Option Value) (n : Node) : f.Content :=
  match v with
  | some v => (assign f v n).value.get f
  | none => n.get f

theorem valueAt_cons_of_ne {f : Field} {key : String} (h : Field.ofKey? key ≠ some f) (v : Value)
    (rest : List (String × Value)) : valueAt f ((key, v) :: rest) = valueAt f rest := by
  rw [valueAt, List.find?_cons, beq_eq_false_iff_ne.mpr h]
  rfl

theorem valueAt_cons_self {f : Field} {key : String} (h : Field.ofKey? key = some f) (v : Value)
    (rest : List (String × Value)) : valueAt f ((key, v) :: rest) = some v := by
  rw [valueAt, List.find?_cons, h, beq_self_eq_true]
  rfl

theorem valueAt_eq_none {f : Field} {members : List (String × Value)} (h : f ∉ named members) :
    valueAt f members = none := by
  rw [valueAt, Option.map_eq_none_iff, List.find?_eq_none]
  intro m hm heq
  exact h (List.mem_filterMap.mpr ⟨m, hm, beq_iff_eq.mp heq⟩)

theorem valueAt_of_mem {f : Field} {members : List (String × Value)}
    (hnodup : (named members).Nodup) {m : String × Value} (hm : m ∈ members)
    (hkey : Field.ofKey? m.1 = some f) : valueAt f members = some m.2 := by
  induction members with
  | nil => cases hm
  | cons first rest ih =>
    obtain ⟨key, v⟩ := first
    rcases List.mem_cons.mp hm with rfl | hm
    · exact valueAt_cons_self hkey v rest
    · have hmem : f ∈ named rest := List.mem_filterMap.mpr ⟨m, hm, hkey⟩
      cases hfirst : Field.ofKey? key with
      | none =>
        have hnamed : named ((key, v) :: rest) = named rest := List.filterMap_cons_none hfirst
        rw [hnamed] at hnodup
        rw [valueAt_cons_of_ne (hfirst.trans_ne (Option.some_ne_none f).symm), ih hnodup hm]
      | some g =>
        have hnamed : named ((key, v) :: rest) = g :: named rest := List.filterMap_cons_some hfirst
        rw [hnamed] at hnodup
        obtain ⟨hg, hrest⟩ := List.nodup_cons.mp hnodup
        have hne : Field.ofKey? key ≠ some f := by
          rw [hfirst]
          rintro heq
          exact hg (Option.some.inj heq ▸ hmem)
        rw [valueAt_cons_of_ne hne, ih hrest hm]

/-- The order of members does not matter where no field is named twice. -/
theorem valueAt_perm {members members' : List (String × Value)} (hp : members.Perm members')
    (hnodup : (named members).Nodup) (f : Field) : valueAt f members = valueAt f members' := by
  have hnodup' : (named members').Nodup := (hp.filterMap _).nodup_iff.mp hnodup
  by_cases hf : f ∈ named members
  · obtain ⟨m, hm, hkey⟩ := List.mem_filterMap.mp hf
    rw [valueAt_of_mem hnodup hm hkey, valueAt_of_mem hnodup' (hp.subset hm) hkey]
  · have hf' : f ∉ named members' := fun h => hf ((hp.filterMap _).mem_iff.mpr h)
    rw [valueAt_eq_none hf, valueAt_eq_none hf']

/-- What stands in a field depends on the members that name the field, and on nothing
    else in the node before. -/
theorem contentAt_congr {f : Field} {m n : Node} (h : m.get f = n.get f) (v : Option Value) :
    contentAt f v m = contentAt f v n := by
  cases v with
  | none => exact h
  | some v => exact get_assign_self f v m n

/-- **An object that names no field twice is a node,** and each field of the node has
    what the object has for it. -/
theorem ofMembers_eq_ok {members : List (String × Value)} {seen : List Field}
    (hnodup : (named members).Nodup) (hseen : ∀ f ∈ named members, f ∉ seen) (n : Node) :
    ∃ n', (ofMembers members seen n).value = .ok n' ∧
      ∀ f, n'.get f = contentAt f (valueAt f members) n := by
  induction members generalizing seen n with
  | nil => exact ⟨n, rfl, fun _ => rfl⟩
  | cons first rest ih =>
    obtain ⟨key, v⟩ := first
    rw [ofMembers]
    cases hkey : Field.ofKey? key with
    | none =>
      have hnamed : named ((key, v) :: rest) = named rest := List.filterMap_cons_none hkey
      rw [hnamed] at hnodup hseen
      obtain ⟨n', hok, hget⟩ := ih hnodup hseen n
      refine ⟨n', hok, fun f => ?_⟩
      rw [hget, valueAt_cons_of_ne (hkey.trans_ne (Option.some_ne_none f).symm)]
    | some f =>
      have hnamed : named ((key, v) :: rest) = f :: named rest := List.filterMap_cons_some hkey
      rw [hnamed] at hnodup hseen
      obtain ⟨hfirst, hrest⟩ := List.nodup_cons.mp hnodup
      have hnew : seen.contains f = false := by
        simpa using hseen f List.mem_cons_self
      have hseen' : ∀ g ∈ named rest, g ∉ f :: seen := by
        intro g hg hmem
        rcases List.mem_cons.mp hmem with rfl | hmem
        · exact hfirst hg
        · exact hseen g (List.mem_cons_of_mem f hg) hmem
      obtain ⟨n', hok, hget⟩ := ih hrest hseen' (assign f v n).value
      refine ⟨n', ?_, fun g => ?_⟩
      · simp only [hnew]
        exact hok
      · rw [hget]
        by_cases hg : g = f
        · subst hg
          rw [valueAt_eq_none hfirst, valueAt_cons_self hkey]
          rfl
        · have hne : Field.ofKey? key ≠ some g := by
            rw [hkey]
            exact fun h => hg (Option.some.inj h).symm
          rw [valueAt_cons_of_ne hne]
          exact contentAt_congr (get_assign_of_ne hg v n) _

end Node

end DesignMarkup
