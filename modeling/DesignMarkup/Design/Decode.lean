/-
  DesignMarkup/Design/Decode.lean
  ===============================
  **From JSON values to the parts of a node.**  A decoder turns a value into what it
  stands for, or says how the two do not match.  Leniency is a second step:
  `lenient` takes null as absent, and a value that does not match as absent with a
  notice; `lenientList` does so for each item of a list.

  A record is written as an object or as the array of its fields in order.  The
  members of an object are looked at in ascending order of their keys, and the first
  mismatch counts.
-/
import DesignMarkup.Design.Field
import DesignMarkup.Notice

namespace DesignMarkup

open Json (Value Mismatch)

/-- What a value stands for, or how it does not match. -/
abbrev Decoded (α : Type) := Except Mismatch α

namespace Decode

variable {α σ φ : Type}

/-- The mismatch of a value that is not of the expected kind. -/
def wrongType (v : Value) (expected : String) : Mismatch := .wrongType v.found expected

def string : Value → Decoded String
  | .string s => .ok s
  | v => .error (wrongType v "a string")

def boolean : Value → Decoded Bool
  | .boolean b => .ok b
  | v => .error (wrongType v "a boolean")

/-- Any number, whole or not. -/
def float : Value → Decoded Float
  | .number n => .ok n.toFloat
  | v => .error (wrongType v "f64")

/-- A tag: its name, or an object with that name as its only key and null under it. -/
def tag (ofName : String → α) : Value → Decoded α
  | .string name => .ok (ofName name)
  | .object [(name, .null)] => .ok (ofName name)
  | .object [(_, v)] => .error (wrongType v "unit")
  | .object _ => .error .notSingleKey
  | v => .error (wrongType v "string or map")

/-! ### Leniency -/

/-- What a value was decoded to, null and what does not match being absent. -/
def settle (type : String) (v : Value) (decoded : Logged (Decoded α)) : Logged (Option α) :=
  match v with
  | .null => pure none
  | _ => do
    match ← decoded with
    | .ok a => return some a
    | .error why =>
      Logged.notice (.malformed type why)
      return none

/-- The value decoded, null and what does not match being absent. -/
def lenient (type : String) (decode : Value → Logged (Decoded α)) (v : Value) :
    Logged (Option α) :=
  settle type v (decode v)

/-- The items of a list that match, in order. -/
def lenientItems (type : String) (decode : Value → Logged (Decoded α)) :
    List Value → Logged (List α)
  | [] => pure []
  | v :: rest => do
    let first ← lenient type decode v
    let more ← lenientItems type decode rest
    return first.toList ++ more

/-- A list; null is the empty one, and so is, with a notice, what is no list. -/
def lenientList (type : String) (decode : Value → Logged (Decoded α)) :
    Value → Logged (List α)
  | .null => pure []
  | .array items => lenientItems type decode items
  | v => do
    Logged.notice (.malformedList v)
    return []

/-! ### Records -/

/-- A record of type `σ` with fields `φ`: its name, its fields in order under their
    names, and how the value of a field is put into a record. -/
structure Shape (φ σ : Type) where
  name : String
  fields : List φ
  key : φ → String
  required : φ → Bool
  put : φ → Value → σ → Logged (Decoded σ)

namespace Shape

variable [DecidableEq φ]

def fieldOf? (shape : Shape φ σ) (key : String) : Option φ :=
  shape.fields.find? fun f => shape.key f == key

/-- Put the members of an object into a record.  `seen` are the fields met so far. -/
def ofMembers (shape : Shape φ σ) : List (String × Value) → List φ → σ → Logged (Decoded σ)
  | [], seen, record =>
    match shape.fields.find? fun f => shape.required f && !seen.contains f with
    | some f => pure (.error (.missingField (shape.key f)))
    | none => pure (.ok record)
  | (key, v) :: rest, seen, record =>
    match shape.fieldOf? key with
    | none => shape.ofMembers rest seen record
    | some f => do
      match ← shape.put f v record with
      | .ok record => shape.ofMembers rest (f :: seen) record
      | .error why => return .error why

/-- Put the items of an array into a record.  `length` is the number of all items,
    `index` the number of those already used. -/
def ofItems (shape : Shape φ σ) (length : Nat) :
    List φ → List Value → Nat → σ → Logged (Decoded σ)
  | [], [], _, record => pure (.ok record)
  | [], _ :: _, _, _ => pure (.error (.tooLong length))
  | f :: fields, [], index, record =>
    match (f :: fields).find? shape.required with
    | some _ => pure (.error (.tooShort index shape.name shape.fields.length))
    | none => pure (.ok record)
  | f :: fields, v :: rest, index, record => do
    match ← shape.put f v record with
    | .ok record => shape.ofItems length fields rest (index + 1) record
    | .error why => return .error why

/-- A record, starting from `record` for the fields that are absent. -/
def decode (shape : Shape φ σ) (record : σ) : Value → Logged (Decoded σ)
  | .object members => shape.ofMembers members [] record
  | .array items => shape.ofItems items.length shape.fields items 0 record
  | v => pure (.error (wrongType v ("struct " ++ shape.name)))

end Shape

/-! ### Boxes, colors, paints and fonts -/

/-- Put a part that must match into a record. -/
def strict (decoded : Decoded α) (put : α → σ) : Logged (Decoded σ) := pure (decoded.map put)

inductive RectField where
  | x | y | width | height
deriving DecidableEq, Repr

/-- Boxes have all four fields. -/
def rectShape : Shape RectField Rect where
  name := "Rect"
  fields := [.x, .y, .width, .height]
  key
    | .x => "x"
    | .y => "y"
    | .width => "width"
    | .height => "height"
  required _ := true
  put field v box :=
    match field with
    | .x => strict (float v) fun x => { box with x }
    | .y => strict (float v) fun y => { box with y }
    | .width => strict (float v) fun width => { box with width }
    | .height => strict (float v) fun height => { box with height }

def rect : Value → Logged (Decoded Rect) := rectShape.decode ⟨0, 0, 0, 0⟩

inductive ColorField where
  | r | g | b | a
deriving DecidableEq, Repr

/-- Colors have three fields; the fourth is the opacity, which is full when absent. -/
def colorShape : Shape ColorField Color where
  name := "Color"
  fields := [.r, .g, .b, .a]
  key
    | .r => "r"
    | .g => "g"
    | .b => "b"
    | .a => "a"
  required
    | .a => false
    | _ => true
  put field v color :=
    match field with
    | .r => strict (float v) fun r => { color with r }
    | .g => strict (float v) fun g => { color with g }
    | .b => strict (float v) fun b => { color with b }
    | .a => strict (float v) fun a => { color with a }

def color : Value → Logged (Decoded Color) := colorShape.decode ⟨0, 0, 0, 1⟩

inductive PaintField where
  | type | color
deriving DecidableEq, Repr

/-- A layer of paint has a type; its color is read leniently. -/
def paintShape : Shape PaintField Paint where
  name := "Paint"
  fields := [.type, .color]
  key
    | .type => "type"
    | .color => "color"
  required
    | .type => true
    | .color => false
  put field v paint :=
    match field with
    | .type => strict (tag PaintType.ofName v) fun type => { paint with type }
    | .color => do
      let color ← lenient "Color" color v
      return .ok { paint with color }

def paint : Value → Logged (Decoded Paint) := paintShape.decode ⟨.other, none⟩

inductive TypeStyleField where
  | fontSize | fontWeight
deriving DecidableEq, Repr

/-- Font metrics are read leniently. -/
def typeStyleShape : Shape TypeStyleField TypeStyle where
  name := "TypeStyle"
  fields := [.fontSize, .fontWeight]
  key
    | .fontSize => "fontSize"
    | .fontWeight => "fontWeight"
  required _ := false
  put field v style :=
    match field with
    | .fontSize => do
      let fontSize ← lenient "f64" (pure ∘ float) v
      return .ok { style with fontSize }
    | .fontWeight => do
      let fontWeight ← lenient "f64" (pure ∘ float) v
      return .ok { style with fontWeight }

def typeStyle : Value → Logged (Decoded TypeStyle) := typeStyleShape.decode ⟨none, none⟩

end Decode

end DesignMarkup
