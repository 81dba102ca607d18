/-
  DesignMarkup/Proofs/Design/Completeness.lean
  ============================================
  **Nothing is lost silently.**  When a value converts to a node and no warning speaks of
  something malformed, the node has all of the value (`nothingLost_of_ofValue`).  Each field
  is there exactly when the value has something other than null for it, by one of its keys
  or by its place, and lists have one item for each that is not null: the fills and strokes
  with their colors, the style with its metrics, and the children, of which the same holds.

  Keys and places are written down here (`Field.keys`, `Field.place`), and a lemma says that
  fields are looked for under these keys and in these places (`valueOf_eq_at?`).

  A conversion is quiet only if the reading of every field was (`quiet_assign_of_ofValue`),
  and the reading of a list only if that of every item was.  So what `Quiet` says of the
  readers applies to each field, and the induction is on the value, two steps for a child.
-/
import DesignMarkup.Proofs.Design.Parts
import Mathlib.Data.List.Forall2

namespace DesignMarkup

open Json (Value)

/-! ### Where a field is written -/

/-- The keys under which the value of a field stands in an object. -/
def Field.keys : Field → List String
  | .id => ["id"]
  | .name => ["name"]
  | .type => ["type"]
  | .visible => ["visible"]
  | .box => ["absoluteBoundingBox", "boundingBox"]
  | .layoutMode => ["layoutMode"]
  | .layoutGrow => ["layoutGrow"]
  | .layoutAlign => ["layoutAlign"]
  | .itemSpacing => ["itemSpacing"]
  | .paddingTop => ["paddingTop"]
  | .paddingRight => ["paddingRight"]
  | .paddingBottom => ["paddingBottom"]
  | .paddingLeft => ["paddingLeft"]
  | .primaryAlign => ["primaryAxisAlignItems"]
  | .counterAlign => ["counterAxisAlignItems"]
  | .fills => ["fills"]
  | .strokes => ["strokes"]
  | .strokeWeight => ["strokeWeight"]
  | .cornerRadius => ["cornerRadius"]
  | .backgroundColor => ["backgroundColor"]
  | .characters => ["characters"]
  | .style => ["style"]
  | .children => ["children"]

/-- The place in which it stands in an array. -/
def Field.place : Field → Nat
  | .id => 0
  | .name => 1
  | .type => 2
  | .visible => 3
  | .box => 4
  | .layoutMode => 5
  | .layoutGrow => 6
  | .layoutAlign => 7
  | .itemSpacing => 8
  | .paddingTop => 9
  | .paddingRight => 10
  | .paddingBottom => 11
  | .paddingLeft => 12
  | .primaryAlign => 13
  | .counterAlign => 14
  | .fills => 15
  | .strokes => 16
  | .strokeWeight => 17
  | .cornerRadius => 18
  | .backgroundColor => 19
  | .characters => 20
  | .style => 21
  | .children => 22

theorem Field.mem_keys_iff {key : String} {f : Field} : key ∈ f.keys ↔ ofKey? key = some f := by
  rw [ofKey?_eq_some]
  cases f
  case box =>
    rw [keys, List.mem_pair, and_iff_left rfl]
    rfl
  all_goals
    rw [keys, List.mem_singleton]
    exact ⟨Or.inl, fun h => h.resolve_right fun hbox => nomatch hbox.2⟩

namespace Node

open Decode

theorem valueOf_eq_at? (v : Value) (f : Field) : valueOf v f = v.at? f.keys f.place := by
  cases v with
  | object members =>
    have hsame : (fun m : String × Value => Field.ofKey? m.1 == some f) =
        fun m => f.keys.contains m.1 := by
      funext m
      rw [Bool.eq_iff_iff, beq_iff_eq, List.contains_iff_mem, Field.mem_keys_iff]
    simp only [valueOf, valueAt, Json.Value.at?, hsame]
  | array items =>
    have hplace : Field.all[f.place]? = some f := by cases f <;> rfl
    exact lookup_zip (by decide) hplace items
  | null | boolean _ | number _ | string _ => rfl

theorem childrenOfItems_eq (items : List Value) :
    childrenOfItems items = lenientItems "DesignNode" ofValue items := by
  induction items with
  | nil => rfl
  | cons w rest ih =>
    rw [childrenOfItems, lenientItems, ih]
    rfl

/-- The children are read as any list is. -/
theorem assign_children_eq (w : Value) (n : Node) :
    assign .children w n = do
      let children ← lenientList "DesignNode" ofValue w
      return { n with children } := by
  cases w with
  | array items =>
    rw [assign, childrenOfItems_eq]
    rfl
  | null | boolean _ | number _ | string _ | object _ => rfl

/-! ### Fields -/

/-- The node has in a field what is given for it, and nothing else: an absent property has
    no value, but for the id, the name, the type and the lists, which have a default.  Of the
    children only the number is said here. -/
def HasGiven (n : Node) (w? : Option Value) : Field → Prop
  | .id => OrElse IsText "" w? n.props.id
  | .name => OrElse IsText "" w? n.props.name
  | .type => OrElse (IsTag NodeType.names .other) .other w? n.props.type
  | .visible => Option.Rel IsTruth w? n.props.visible
  | .box => Option.Rel IsRect w? n.props.box
  | .layoutMode => Option.Rel (IsTag LayoutMode.names .other) w? n.props.layoutMode
  | .layoutGrow => Option.Rel IsNumber w? n.props.layoutGrow
  | .layoutAlign => Option.Rel (IsTag LayoutAlign.names .other) w? n.props.layoutAlign
  | .itemSpacing => Option.Rel IsNumber w? n.props.itemSpacing
  | .paddingTop => Option.Rel IsNumber w? n.props.paddingTop
  | .paddingRight => Option.Rel IsNumber w? n.props.paddingRight
  | .paddingBottom => Option.Rel IsNumber w? n.props.paddingBottom
  | .paddingLeft => Option.Rel IsNumber w? n.props.paddingLeft
  | .primaryAlign => Option.Rel (IsTag AxisAlign.names .other) w? n.props.primaryAlign
  | .counterAlign => Option.Rel (IsTag AxisAlign.names .other) w? n.props.counterAlign
  | .fills => OrElse (ItemsAre IsPaint) [] w? n.props.fills
  | .strokes => OrElse (ItemsAre IsPaint) [] w? n.props.strokes
  | .strokeWeight => Option.Rel IsNumber w? n.props.strokeWeight
  | .cornerRadius => Option.Rel IsNumber w? n.props.cornerRadius
  | .backgroundColor => Option.Rel IsColor w? n.props.backgroundColor
  | .characters => Option.Rel IsText w? n.props.characters
  | .style => Option.Rel IsTypeStyle w? n.props.style
  | .children => OrElse (ItemsAre fun _ _ => True) [] w? n.children

theorem hasGiven_congr {m n : Node} {f : Field} {w? : Option Value} (h : m.get f = n.get f)
    (hm : m.HasGiven w? f) : n.HasGiven w? f := by
  cases f
  all_goals
    simp only [get] at h
    simp only [HasGiven] at hm ⊢
    rw [← h]
    exact hm

theorem hasGiven_blank (f : Field) : blank.HasGiven none f := by
  cases f
  all_goals first | exact .none | rfl

theorem itemsAre_paints {w : Value} (hk : w.NoKeyTwice) {list : List Paint}
    (h : ItemsAre (Decodes paint) w list) : ItemsAre IsPaint w list := by
  obtain ⟨items, rfl, hitems⟩ := h
  refine ⟨items, rfl, ?_⟩
  have hinside : ∀ item ∈ givenItems items, item.NoKeyTwice := fun item hitem =>
    hk.inside item (List.mem_filter.mp hitem).1
  exact ((List.forall₂_and_left _ _).mpr ⟨hinside, hitems⟩).imp
    fun _ _ h => isPaint_of_decodes h.1 h.2

/-- **A field that is set quietly** has what it is set from. -/
theorem hasGiven_assign {f : Field} {w : Value} (hk : w.NoKeyTwice) {n : Node}
    (hq : (assign f w n).Quiet) : (assign f w n).value.HasGiven (given (some w)) f := by
  by_cases hf : f = .children
  · subst hf
    rw [assign_children_eq] at hq ⊢
    refine (decodes_lenientList (Logged.quiet_bind.mp hq).1).mono fun u list _ h => ?_
    obtain ⟨items, rfl, hitems⟩ := h
    exact ⟨items, rfl, hitems.imp fun _ _ _ => trivial⟩
  · have hprops : (n.props.assign f w).Quiet := by
      rw [assign] at hq
      · exact (Logged.quiet_bind.mp hq).1
      · exact hf
    rw [value_assign hf]
    cases f
    case children => exact absurd rfl hf
    case id | name =>
      exact orElse_of_rel (rel_of_lenient isText_of_string (Logged.quiet_bind.mp hprops).1) _
    case type =>
      exact orElse_of_rel (rel_of_lenient (isTag_of_tag NodeType.hasName_ofName)
        (Logged.quiet_bind.mp hprops).1) _
    case visible => exact rel_of_lenient isTruth_of_boolean (Logged.quiet_bind.mp hprops).1
    case characters => exact rel_of_lenient isText_of_string (Logged.quiet_bind.mp hprops).1
    case layoutMode =>
      exact rel_of_lenient (isTag_of_tag LayoutMode.hasName_ofName) (Logged.quiet_bind.mp hprops).1
    case layoutAlign =>
      exact rel_of_lenient (isTag_of_tag LayoutAlign.hasName_ofName) (Logged.quiet_bind.mp hprops).1
    case primaryAlign | counterAlign =>
      exact rel_of_lenient (isTag_of_tag AxisAlign.hasName_ofName) (Logged.quiet_bind.mp hprops).1
    case box =>
      exact rel_of_decodes (isRect_of_decodes hk.distinct) (Logged.quiet_bind.mp hprops).1
    case backgroundColor =>
      exact rel_of_decodes (isColor_of_decodes hk.distinct) (Logged.quiet_bind.mp hprops).1
    case style =>
      exact rel_of_decodes (isTypeStyle_of_decodes hk.distinct) (Logged.quiet_bind.mp hprops).1
    case fills | strokes =>
      refine (decodes_lenientList (Logged.quiet_bind.mp hprops).1).mono fun u list hu h => ?_
      obtain rfl := eq_of_given hu
      exact itemsAre_paints hk h
    all_goals exact rel_of_lenient isNumber_of_float (Logged.quiet_bind.mp hprops).1

/-! ### Quiet conversions -/

/-- What is warned of when a field is set does not depend on the node before. -/
theorem notices_assign (f : Field) (w : Value) (m n : Node) :
    (assign f w m).notices = (assign f w n).notices := by
  by_cases hf : f = .children
  · subst hf
    cases w <;> rfl
  · rw [assign, assign]
    · cases f <;> rfl
    · exact hf
    · exact hf

theorem quiet_assign_of_ofMembers {members : List (String × Value)} {seen : List Field}
    {n n' : Node} (h : (ofMembers members seen n).value = .ok n')
    (hq : (ofMembers members seen n).Quiet) {f : Field} {w : Value}
    (hw : valueAt f members = some w) : (assign f w blank).Quiet := by
  induction members generalizing seen n with
  | nil => cases hw
  | cons first rest ih =>
    obtain ⟨key, u⟩ := first
    rw [ofMembers] at h hq
    cases hkey : Field.ofKey? key with
    | none =>
      rw [hkey] at h hq
      rw [valueAt_cons_of_ne (hkey.trans_ne (Option.some_ne_none f).symm)] at hw
      exact ih h hq hw
    | some g =>
      simp only [hkey] at h hq
      split_ifs at h hq with hseen
      obtain ⟨hfirst, hrest⟩ := Logged.quiet_bind.mp hq
      by_cases hfg : f = g
      · subst hfg
        rw [valueAt_cons_self hkey] at hw
        obtain rfl := Option.some.inj hw
        rw [Logged.Quiet, notices_assign f u blank n]
        exact hfirst
      · have hne : Field.ofKey? key ≠ some f := by
          rw [hkey]
          exact fun heq => hfg (Option.some.inj heq).symm
        rw [valueAt_cons_of_ne hne] at hw
        exact ih h hrest hw

theorem quiet_assign_of_ofItems {length : ℕ} {fields : List Field} {items : List Value} {n : Node}
    (hq : (ofItems length fields items n).Quiet) {f : Field} {w : Value}
    (hw : (fields.zip items).lookup f = some w) : (assign f w blank).Quiet := by
  induction items generalizing fields n with
  | nil =>
    rw [List.zip_nil_right] at hw
    cases hw
  | cons u rest ih =>
    cases fields with
    | nil => cases hw
    | cons g fields =>
      rw [ofItems] at hq
      obtain ⟨hfirst, hrest⟩ := Logged.quiet_bind.mp hq
      rw [List.zip_cons_cons, Json.lookup_cons_eq] at hw
      split_ifs at hw with hfg
      · subst hfg
        obtain rfl := Option.some.inj hw
        rw [Logged.Quiet, notices_assign f u blank n]
        exact hfirst
      · exact ih hrest hw

/-- **A quiet conversion sets every field quietly.** -/
theorem quiet_assign_of_ofValue {v : Value} {n : Node} (h : (ofValue v).value = .ok n)
    (hq : (ofValue v).Quiet) {f : Field} {w : Value} (hw : valueOf v f = some w) :
    (assign f w blank).Quiet := by
  cases v with
  | object members =>
    rw [ofValue] at h hq
    exact quiet_assign_of_ofMembers h hq hw
  | array items =>
    rw [ofValue] at hq
    exact quiet_assign_of_ofItems hq hw
  | null | boolean _ | number _ | string _ => cases hw

/-! ### Children -/

/-- **A quiet conversion has a child for each item that is not null,** which was converted
    quietly. -/
theorem children_of_quiet {v : Value} (hk : v.HasDistinctKeys) {n : Node}
    (h : (ofValue v).value = .ok n) (hq : (ofValue v).Quiet) :
    OrElse (ItemsAre (Decodes ofValue)) [] (given (valueOf v .children)) n.children := by
  obtain ⟨n', hn', hget⟩ := ofValue_eq_ok hk (isReadable_of_ofValue hk h)
  obtain rfl := Except.ok.inj (h.symm.trans hn')
  have hchildren : n.children = contentAt .children (valueOf v .children) blank := hget .children
  rw [hchildren]
  cases hw : valueOf v .children with
  | none => rfl
  | some w =>
    have hassign := quiet_assign_of_ofValue h hq hw
    rw [assign_children_eq] at hassign
    change OrElse _ _ _ (assign .children w blank).value.children
    rw [assign_children_eq]
    exact decodes_lenientList (Logged.quiet_bind.mp hassign).1

/-- The items of a list; what is no list has none. -/
def itemsOf : Option Value → List Value
  | some (.array items) => items
  | _ => []

theorem childItems_eq (v : Value) : childItems v = itemsOf (v.at? ["children"] 22) := by
  change childItems v = itemsOf (v.at? (Field.keys .children) (Field.place .children))
  rw [← valueOf_eq_at?]
  rfl

/-- `NothingLost v n`: the node has in each field what the value has for it, null being
    nothing, and its children correspond in order to the items of the list of children that
    are not null, with nothing lost in any of them. -/
inductive NothingLost : Value → Node → Prop
  | intro {v : Value} {n : Node}
    (fields : ∀ f : Field, n.HasGiven (given (v.at? f.keys f.place)) f)
    (children : List.Forall₂ NothingLost (givenItems (itemsOf (v.at? ["children"] 22)))
      n.children) :
    NothingLost v n

theorem hasGiven_of_ofValue {v : Value} (hk : v.NoKeyTwice) {n : Node}
    (h : (ofValue v).value = .ok n) (hq : (ofValue v).Quiet) (f : Field) :
    n.HasGiven (given (v.at? f.keys f.place)) f := by
  obtain ⟨n', hn', hget⟩ := ofValue_eq_ok hk.distinct (isReadable_of_ofValue hk.distinct h)
  obtain rfl := Except.ok.inj (h.symm.trans hn')
  rw [← valueOf_eq_at?]
  cases hw : valueOf v f with
  | none =>
    refine hasGiven_congr (Eq.symm ?_) (hasGiven_blank f)
    rw [hget, hw]
    rfl
  | some w =>
    have hinside := hk.inside w (mem_parts_of_valueOf hw)
    refine hasGiven_congr (Eq.symm ?_) (hasGiven_assign hinside (quiet_assign_of_ofValue h hq hw))
    rw [hget, hw]
    rfl

theorem nothingLost_of_decodes {v : Value} (hk : v.NoKeyTwice) :
    ∀ n, Decodes ofValue v n → NothingLost v n := by
  -- an item of the list of children is two steps down, so both steps go into the induction
  suffices h : (∀ n, Decodes ofValue v n → NothingLost v n) ∧
      ∀ w ∈ v.parts, ∀ n, Decodes ofValue w n → NothingLost w n from h.1
  induction hk with
  | @intro v hd hinside ih =>
    refine ⟨fun n hn => ?_, fun w hw => (ih w hw).1⟩
    have hchildren := children_of_quiet hd hn.value hn.quiet
    refine .intro (hasGiven_of_ofValue (.intro hd hinside) hn.value hn.quiet) ?_
    rw [← childItems_eq]
    have hkept : List.Forall₂ (Decodes ofValue) (givenItems (childItems v)) n.children := by
      unfold childItems
      cases hw : valueOf v .children with
      | none =>
        rw [hw] at hchildren
        rw [show n.children = [] from hchildren]
        exact .nil
      | some w =>
        rw [hw] at hchildren
        cases w with
        | array items =>
          obtain ⟨items', hitems, hforall⟩ := hchildren
          obtain rfl := Value.array.inj hitems
          exact hforall
        | null =>
          rw [show n.children = [] from hchildren]
          exact .nil
        | boolean _ | number _ | string _ | object _ =>
          obtain ⟨items, hitems, -⟩ := hchildren
          cases hitems
    have hbelow : ∀ item ∈ givenItems (childItems v), ∀ child, Decodes ofValue item child →
        NothingLost item child := by
      intro item hitem
      obtain ⟨list, hlist, hmem⟩ := exists_of_mem_childItems (List.mem_filter.mp hitem).1
      exact (ih list hlist).2 item hmem
    exact ((List.forall₂_and_left _ _).mpr ⟨hbelow, hkept⟩).imp fun _ _ h => h.1 _ h.2

/-- **Nothing is lost silently.**  A value that converts without a warning of something
    malformed has all it gives in the node that comes of it, down to the last child. -/
theorem nothingLost_of_ofValue {v : Value} (hk : v.NoKeyTwice) {n : Node}
    (h : (ofValue v).value = .ok n) (hq : (ofValue v).Quiet) : NothingLost v n :=
  nothingLost_of_decodes hk n ⟨h, hq⟩

/-- A frame with paints, font metrics and a child, and null here and there. -/
def frameWithNulls : Value :=
  .object [
    ("children", .array [.null, .object [("id", .string "1:2"),
      ("style", .array [.number (.integer 12)])]]),
    ("fills", .array [
      .object [("color", .object [("b", .number (.integer 0)), ("g", .number (.integer 0)),
        ("r", .number (.integer 1))]), ("type", .string "SOLID")],
      .object [("color", .null), ("type", .string "IMAGE")]]),
    ("style", .object [("fontSize", .null), ("fontWeight", .number (.integer 700))])]

/-- The color and the metrics that are given are there, and null is not warned of. -/
theorem nothingLost_of_ofValue_null :
    let n : Node :=
      ⟨{ fills := [⟨.solid, some ⟨Float.ofNat 1, Float.ofNat 0, Float.ofNat 0, 1⟩⟩,
            ⟨.image, none⟩],
          style := some ⟨none, some (Float.ofNat 700)⟩ },
        [⟨{ id := "1:2", style := some ⟨some (Float.ofNat 12), none⟩ }, []⟩]⟩
    frameWithNulls.NoKeyTwice ∧ (ofValue frameWithNulls).value = .ok n ∧
      (ofValue frameWithNulls).Quiet ∧ NothingLost frameWithNulls n := by
  intro n
  have hk : frameWithNulls.NoKeyTwice := by simp [frameWithNulls]
  have hnode : (ofValue frameWithNulls).value = .ok n := rfl
  have hquiet : (ofValue frameWithNulls).Quiet := fun notice hnotice =>
    absurd hnotice List.not_mem_nil
  exact ⟨hk, hnode, hquiet, nothingLost_of_ofValue hk hnode hquiet⟩

end Node

end DesignMarkup
