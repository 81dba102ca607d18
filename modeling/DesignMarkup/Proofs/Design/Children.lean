/-
  DesignMarkup/Proofs/Design/Children.lean
  ========================================
  **What becomes of the items of a list of children.**  Each item that is readable becomes
  one child, in the order of the list, and the others are left out; it makes no difference
  to an item what stands before or after it.  In particular an object is never left out
  for what stands under its keys: a value that does not fit its field leaves that field as
  if it were absent (`get_of_not_fits`).

  `Mirrors` says this of a whole tree, and `ofValue_mirrors` that every readable value
  converts to a tree that mirrors it.  The one thing that does cost an object its place
  is to carry both names of the box (`ofValue_bothBoxes`).
-/
import DesignMarkup.Proofs.Design.Readable

namespace DesignMarkup

open Json (Value)

/-! ### Values without repeated keys -/

namespace Json.Value

/-- The values that stand directly in an array or an object. -/
def parts : Value → List Value
  | .array items => items
  | .object members => members.map Prod.snd
  | _ => []

/-- No object anywhere in the value repeats a key. -/
inductive NoKeyTwice : Value → Prop
  | intro {v : Value} (distinct : v.HasDistinctKeys) (inside : ∀ w ∈ v.parts, NoKeyTwice w) :
    NoKeyTwice v

variable {v : Value}

theorem NoKeyTwice.distinct (h : v.NoKeyTwice) : v.HasDistinctKeys := by
  cases h with
  | intro distinct _ => exact distinct

theorem NoKeyTwice.inside (h : v.NoKeyTwice) : ∀ w ∈ v.parts, w.NoKeyTwice := by
  cases h with
  | intro _ inside => exact inside

theorem noKeyTwice_of_parts_nil (h : v.parts = []) : v.NoKeyTwice := by
  cases v with
  | object members =>
    obtain rfl : members = [] := List.map_eq_nil_iff.mp h
    exact .intro List.nodup_nil fun w hw => absurd hw List.not_mem_nil
  | _ => exact .intro trivial fun w hw => absurd (h ▸ hw) List.not_mem_nil

@[simp] theorem noKeyTwice_null : Value.null.NoKeyTwice := noKeyTwice_of_parts_nil rfl

@[simp] theorem noKeyTwice_boolean (b : Bool) : (Value.boolean b).NoKeyTwice :=
  noKeyTwice_of_parts_nil rfl

@[simp] theorem noKeyTwice_number (n : Json.Number) : (Value.number n).NoKeyTwice :=
  noKeyTwice_of_parts_nil rfl

@[simp] theorem noKeyTwice_string (s : String) : (Value.string s).NoKeyTwice :=
  noKeyTwice_of_parts_nil rfl

@[simp] theorem noKeyTwice_array {items : List Value} :
    (Value.array items).NoKeyTwice ↔ ∀ w ∈ items, w.NoKeyTwice :=
  ⟨fun h => h.inside, fun h => .intro trivial h⟩

@[simp] theorem noKeyTwice_object {members : List (String × Value)} :
    (Value.object members).NoKeyTwice ↔
      (members.map Prod.fst).Nodup ∧ ∀ m ∈ members, m.2.NoKeyTwice :=
  ⟨fun h => ⟨h.distinct, fun _ hm => h.inside _ (List.mem_map_of_mem hm)⟩,
    fun h => .intro h.1 (List.forall_mem_map.mpr h.2)⟩

end Json.Value

/-! ### Values that do not fit their field -/

namespace Decode

variable {α β : Type} {type : String} {v : Value}

theorem isOk_tag (ofName : String → α) (ofName' : String → β) (v : Value) :
    (tag ofName v).isOk = (tag ofName' v).isOk := by
  unfold tag
  split <;> rfl

theorem value_lenient_of_not_ok {decode : Value → Logged (Decoded α)}
    (h : (decode v).value.isOk = false) : (lenient type decode v).value = none := by
  by_cases hv : v = .null
  · subst hv
    rfl
  · rw [lenient, value_settle hv]
    cases hd : (decode v).value with
    | error why => rfl
    | ok a =>
      rw [hd] at h
      cases h

theorem value_lenient_pure_of_not_ok {decode : Value → Decoded α}
    (h : (decode v).isOk = false) : (lenient type (pure ∘ decode) v).value = none :=
  value_lenient_of_not_ok h

theorem value_lenientList_of_not_array {decode : Value → Logged (Decoded α)}
    (h : ∀ items, v ≠ .array items) : (lenientList type decode v).value = [] := by
  cases v with
  | array items => exact absurd rfl (h items)
  | null | boolean _ | number _ | string _ | object _ => rfl

end Decode

/-- The value is of the kind that the field has. -/
def Field.Fits (f : Field) (v : Value) : Prop :=
  match f with
  | .id | .name | .characters => (Decode.string v).isOk = true
  | .type | .layoutMode | .layoutAlign | .primaryAlign | .counterAlign =>
    (Decode.tag (fun name => name) v).isOk = true
  | .visible => (Decode.boolean v).isOk = true
  | .box => (Decode.rect v).value.isOk = true
  | .layoutGrow | .itemSpacing | .paddingTop | .paddingRight | .paddingBottom | .paddingLeft
  | .strokeWeight | .cornerRadius => (Decode.float v).isOk = true
  | .backgroundColor => (Decode.color v).value.isOk = true
  | .style => (Decode.typeStyle v).value.isOk = true
  | .fills | .strokes | .children => ∃ items, v = .array items

namespace Node

open Decode

/-- **A value that does not fit its field leaves the field absent.** -/
theorem get_of_not_fits {f : Field} {v : Value} (h : ¬f.Fits v) (n : Node) :
    (assign f v n).value.get f = blank.get f := by
  by_cases hf : f = .children
  · subst hf
    rw [value_assign_children]
    cases v with
    | array items => exact absurd ⟨items, rfl⟩ h
    | null | boolean _ | number _ | string _ | object _ => rfl
  · rw [value_assign hf]
    cases f with
    | children => exact absurd rfl hf
    | fills | strokes =>
      simp only [Field.Fits, not_exists] at h
      simp only [get, Props.assign, Logged.value_bind, Logged.value_pure,
        value_lenientList_of_not_array h]
      rfl
    | box | backgroundColor | style =>
      simp only [Field.Fits, Bool.not_eq_true] at h
      simp only [get, Props.assign, Logged.value_bind, Logged.value_pure,
        value_lenient_of_not_ok h]
      rfl
    | type | layoutMode | layoutAlign | primaryAlign | counterAlign =>
      -- whether a tag can be read does not depend on what its names stand for
      have htag : ∀ {α : Type} (ofName : String → α), (tag ofName v).isOk = false := by
        intro α ofName
        rw [isOk_tag ofName fun name => name]
        exact Bool.eq_false_iff.mpr h
      simp only [get, Props.assign, Logged.value_bind, Logged.value_pure,
        value_lenient_pure_of_not_ok (htag _)]
      rfl
    | _ =>
      simp only [Field.Fits, Bool.not_eq_true] at h
      simp only [get, Props.assign, Logged.value_bind, Logged.value_pure,
        value_lenient_pure_of_not_ok h]
      rfl

/-! ### Children -/

/-- The items of the list of children that a value has. -/
def childItems (v : Value) : List Value :=
  match valueOf v .children with
  | some (.array items) => items
  | _ => []

/-- `Mirrors v n`: the node has nothing in the fields for which the value has something
    that does not fit, and its children mirror the readable items of the list of children,
    one for each and in the same order. -/
inductive Mirrors : Value → Node → Prop
  | intro {v : Value} {n : Node}
    (fields : ∀ f w, valueOf v f = some w → ¬f.Fits w → n.get f = blank.get f)
    (children : List.Forall₂ Mirrors ((childItems v).filter fun item => IsReadable item)
      n.children) :
    Mirrors v n

theorem mem_parts_of_valueOf {v w : Value} {f : Field} (h : valueOf v f = some w) :
    w ∈ v.parts := by
  cases v with
  | object members =>
    obtain ⟨m, hm, rfl⟩ := Option.map_eq_some_iff.mp h
    exact List.mem_map_of_mem (List.mem_of_find?_eq_some hm)
  | array items =>
    exact (List.of_mem_zip (Json.mem_of_lookup h)).2
  | null | boolean _ | number _ | string _ => cases h

/-- An item of the list of children stands in the list, and the list in the value. -/
theorem exists_of_mem_childItems {v item : Value} (h : item ∈ childItems v) :
    ∃ list ∈ v.parts, item ∈ list.parts := by
  unfold childItems at h
  split at h
  · next items hitems => exact ⟨.array items, mem_parts_of_valueOf hitems, h⟩
  · exact absurd h List.not_mem_nil

theorem children_of_ofValue {v : Value} (hk : v.HasDistinctKeys) {n : Node}
    (h : (ofValue v).value = .ok n) : n.children = (childItems v).filterMap node? := by
  obtain ⟨n', hn', hget⟩ := ofValue_eq_ok hk (isReadable_of_ofValue hk h)
  obtain rfl := Except.ok.inj (h.symm.trans hn')
  have hchildren : n.children = contentAt .children (valueOf v .children) blank := hget .children
  rw [hchildren, childItems]
  cases valueOf v .children with
  | none => rfl
  | some list =>
    have hlist : contentAt .children (some list) blank = nodes list := by
      rw [contentAt, value_assign_children]
      rfl
    rw [hlist]
    cases list <;> rfl

theorem mirrors_filterMap {items : List Value}
    (h : ∀ item ∈ items, item.HasDistinctKeys ∧
      ∀ n, (ofValue item).value = .ok n → Mirrors item n) :
    List.Forall₂ Mirrors (items.filter fun item => IsReadable item) (items.filterMap node?) := by
  induction items with
  | nil => exact .nil
  | cons item rest ih =>
    have hrest := ih fun w hw => h w (List.mem_cons_of_mem item hw)
    obtain ⟨hk, hmirrors⟩ := h item List.mem_cons_self
    by_cases hr : IsReadable item
    · obtain ⟨n, hn, -⟩ := ofValue_eq_ok hk hr
      have hnode : node? item = some n := by
        rw [node?, hn]
        rfl
      rw [List.filter_cons_of_pos (by simpa using hr), List.filterMap_cons_some hnode]
      exact .cons (hmirrors n hn) hrest
    · have hnode : node? item = none := by
        cases hn : (ofValue item).value with
        | ok n => exact absurd (isReadable_of_ofValue hk hn) hr
        | error why =>
          rw [node?, hn]
          rfl
      rw [List.filter_cons_of_neg (by simpa using hr), List.filterMap_cons_none hnode]
      exact hrest

theorem mirrors_of_ofValue {v : Value} (hk : v.NoKeyTwice) :
    ∀ n, (ofValue v).value = .ok n → Mirrors v n := by
  -- the items of the list of children are two steps down, so both steps go into the induction
  suffices h : (∀ n, (ofValue v).value = .ok n → Mirrors v n) ∧
      ∀ w ∈ v.parts, ∀ n, (ofValue w).value = .ok n → Mirrors w n from h.1
  induction hk with
  | @intro v hd hinside ih =>
    refine ⟨fun n hn => .intro (fun f w hw hfit => ?_) ?_, fun w hw => (ih w hw).1⟩
    · obtain ⟨n', hn', hget⟩ := ofValue_eq_ok hd (isReadable_of_ofValue hd hn)
      obtain rfl := Except.ok.inj (hn.symm.trans hn')
      rw [hget, hw]
      exact get_of_not_fits hfit blank
    · rw [children_of_ofValue hd hn]
      apply mirrors_filterMap
      intro item hitem
      obtain ⟨list, hlist, hmem⟩ := exists_of_mem_childItems hitem
      exact ⟨((hinside list hlist).inside item hmem).distinct, (ih list hlist).2 item hmem⟩

/-- **A list of children keeps every item that is readable.**  A readable value converts,
    whatever stands in its fields, and all the way down each readable item of a list of
    children has its child, in the order of the list.  Objects that do not carry both
    names of the box are among the readable items. -/
theorem ofValue_mirrors {v : Value} (hk : v.NoKeyTwice) (hv : IsReadable v) :
    ∃ n, (ofValue v).value = .ok n ∧ Mirrors v n := by
  obtain ⟨n, hn, -⟩ := ofValue_eq_ok hk.distinct hv
  exact ⟨n, hn, mirrors_of_ofValue hk n hn⟩

/-- A list of children with a number, and an object that has a number for its id. -/
def numbersForChildren : Value :=
  .object [("children", .array [.number (.integer 42),
    .object [("id", .number (.integer 42))]])]

/-- The number among the children is left out; the object with a number for its id is not. -/
theorem ofValue_mirrors_numbers :
    numbersForChildren.NoKeyTwice ∧ IsReadable numbersForChildren ∧
      (ofValue numbersForChildren).value = .ok ⟨{}, [⟨{ id := "" }, []⟩]⟩ ∧
      Mirrors numbersForChildren ⟨{}, [⟨{ id := "" }, []⟩]⟩ := by
  have hk : numbersForChildren.NoKeyTwice := by simp [numbersForChildren]
  have hreadable : IsReadable numbersForChildren := by decide
  have hnode : (ofValue numbersForChildren).value = .ok ⟨{}, [⟨{ id := "" }, []⟩]⟩ := rfl
  obtain ⟨n, hn, hmirrors⟩ := ofValue_mirrors hk hreadable
  obtain rfl := Except.ok.inj (hnode.symm.trans hn)
  exact ⟨hk, hreadable, hnode, hmirrors⟩

/-- **An object with both names of the box is left out,** with all that is below it, even
    if there is nothing under either name. -/
theorem ofValue_bothBoxes :
    (ofValue (.object [("children", .array
        [.object [("absoluteBoundingBox", .null), ("boundingBox", .null),
            ("children", .array [.object [("id", .string "1:2")]]), ("id", .string "1:1")],
          .object [("id", .string "1:3")]])])).value =
      .ok ⟨{}, [⟨{ id := "1:3" }, []⟩]⟩ :=
  rfl

end Node

end DesignMarkup
