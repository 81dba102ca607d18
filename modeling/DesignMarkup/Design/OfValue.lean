/-
  DesignMarkup/Design/OfValue.lean
  ================================
  **A node from a JSON value.**  Whatever stands under the keys of an object, a node
  comes of it: each field is read leniently, keys that name no field are passed over,
  and items of the list of children that are no nodes are dropped.  Only three things
  are not a node: a value that is neither object nor array, an array with more items
  than there are fields, and an object with both names of the box.

  `Node.assign` sets one field from a value.  It is all that happens to the value of
  a field, whether the node is read from a value or straight from a text.
-/
import DesignMarkup.Design.Decode

namespace DesignMarkup

open Json (Value Mismatch)

namespace Props

open Decode

/-- Set one property from a value, leniently.  The children are no property. -/
def assign (p : Props) (f : Field) (v : Value) : Logged Props :=
  match f with
  | .id => do
    let id ← lenient "String" (pure ∘ string) v
    return { p with id := id.getD "" }
  | .name => do
    let name ← lenient "String" (pure ∘ string) v
    return { p with name := name.getD "" }
  | .type => do
    let type ← lenient "NodeType" (pure ∘ tag NodeType.ofName) v
    return { p with type := type.getD .other }
  | .visible => do
    let visible ← lenient "bool" (pure ∘ boolean) v
    return { p with visible }
  | .box => do
    let box ← lenient "Rect" rect v
    return { p with box }
  | .layoutMode => do
    let layoutMode ← lenient "LayoutMode" (pure ∘ tag LayoutMode.ofName) v
    return { p with layoutMode }
  | .layoutGrow => do
    let layoutGrow ← lenient "f64" (pure ∘ float) v
    return { p with layoutGrow }
  | .layoutAlign => do
    let layoutAlign ← lenient "LayoutAlign" (pure ∘ tag LayoutAlign.ofName) v
    return { p with layoutAlign }
  | .itemSpacing => do
    let itemSpacing ← lenient "f64" (pure ∘ float) v
    return { p with itemSpacing }
  | .paddingTop => do
    let paddingTop ← lenient "f64" (pure ∘ float) v
    return { p with paddingTop }
  | .paddingRight => do
    let paddingRight ← lenient "f64" (pure ∘ float) v
    return { p with paddingRight }
  | .paddingBottom => do
    let paddingBottom ← lenient "f64" (pure ∘ float) v
    return { p with paddingBottom }
  | .paddingLeft => do
    let paddingLeft ← lenient "f64" (pure ∘ float) v
    return { p with paddingLeft }
  | .primaryAlign => do
    let primaryAlign ← lenient "AxisAlign" (pure ∘ tag AxisAlign.ofName) v
    return { p with primaryAlign }
  | .counterAlign => do
    let counterAlign ← lenient "AxisAlign" (pure ∘ tag AxisAlign.ofName) v
    return { p with counterAlign }
  | .fills => do
    let fills ← lenientList "Paint" paint v
    return { p with fills }
  | .strokes => do
    let strokes ← lenientList "Paint" paint v
    return { p with strokes }
  | .strokeWeight => do
    let strokeWeight ← lenient "f64" (pure ∘ float) v
    return { p with strokeWeight }
  | .cornerRadius => do
    let cornerRadius ← lenient "f64" (pure ∘ float) v
    return { p with cornerRadius }
  | .backgroundColor => do
    let backgroundColor ← lenient "Color" color v
    return { p with backgroundColor }
  | .characters => do
    let characters ← lenient "String" (pure ∘ string) v
    return { p with characters }
  | .style => do
    let style ← lenient "TypeStyle" typeStyle v
    return { p with style }
  | .children => pure p

end Props

namespace Node

/-- The node of which nothing is known. -/
def blank : Node := ⟨{}, []⟩

mutual

def ofValue : Value → Logged (Decoded Node)
  | .object members => ofMembers members [] blank
  | .array items => ofItems items.length Field.all items blank
  | v => pure (.error (Decode.wrongType v "struct DesignNode"))

def assign (f : Field) (v : Value) (n : Node) : Logged Node :=
  match f with
  | .children =>
    match v with
    | .null => pure { n with children := [] }
    | .array items => do
      let children ← childrenOfItems items
      return { n with children }
    | v => do
      Logged.notice (.malformedList v)
      return { n with children := [] }
  | f => do
    let props ← n.props.assign f v
    return { n with props }

/-- The nodes among the items of a list; null is left out without a notice. -/
def childrenOfItems : List Value → Logged (List Node)
  | [] => pure []
  | v :: rest => do
    let first ← Decode.settle "DesignNode" v (ofValue v)
    let more ← childrenOfItems rest
    return first.toList ++ more

/-- Set fields from the members of an object.  `seen` are the fields met so far. -/
def ofMembers : List (String × Value) → List Field → Node → Logged (Decoded Node)
  | [], _, n => pure (.ok n)
  | (key, v) :: rest, seen, n =>
    match Field.ofKey? key with
    | none => ofMembers rest seen n
    | some f =>
      if seen.contains f then pure (.error (.duplicateField f.key))
      else do
        let n ← assign f v n
        ofMembers rest (f :: seen) n

/-- Set fields in order from the items of an array of `length` items. -/
def ofItems (length : Nat) : List Field → List Value → Node → Logged (Decoded Node)
  | _, [], n => pure (.ok n)
  | [], _ :: _, _ => pure (.error (.tooLong length))
  | f :: fields, v :: rest, n => do
    let n ← assign f v n
    ofItems length fields rest n

end

end Node

end DesignMarkup
