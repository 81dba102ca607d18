/-
  DesignMarkup/Markup/Element.lean
  ================================
  **Markup as a tree, and its text.**  An element holds exactly one of three things:
  nothing at all, text, or further elements.  `Element.text` is the only place where
  a tree becomes text, so that every name and every character passes through the
  escapes of `Escape`.

  Each element stands on a line of its own, two spaces further in than the element
  around it.
-/
import DesignMarkup.Markup.Escape

namespace DesignMarkup.Markup

abbrev Attribute := String × String

inductive Element where
  /-- Without content or closing tag. -/
  | void (tag : String) (attributes : List Attribute)
  /-- With text as content. -/
  | leaf (tag : String) (attributes : List Attribute) (text : String)
  /-- With elements as content. -/
  | branch (tag : String) (attributes : List Attribute) (children : List Element)
deriving Repr, Inhabited

/-- An attribute, with the space before it. -/
def attributeText (a : Attribute) : String :=
  " " ++ a.1 ++ "=\"" ++ escapeAttribute a.2 ++ "\""

def openingTag (tag : String) (attributes : List Attribute) : String :=
  "<" ++ tag ++ String.join (attributes.map attributeText) ++ ">"

def closingTag (tag : String) : String := "</" ++ tag ++ ">"

def indent (depth : Nat) : String := String.ofList (List.replicate (2 * depth) ' ')

mutual

def Element.text (depth : Nat) : Element → String
  | .void tag attributes => indent depth ++ openingTag tag attributes ++ "\n"
  | .leaf tag attributes text =>
    indent depth ++ openingTag tag attributes ++ content text ++ closingTag tag ++ "\n"
  | .branch tag attributes [] =>
    indent depth ++ openingTag tag attributes ++ closingTag tag ++ "\n"
  | .branch tag attributes (first :: rest) =>
    indent depth ++ openingTag tag attributes ++ "\n" ++ elementsText (depth + 1) (first :: rest)
      ++ indent depth ++ closingTag tag ++ "\n"

def elementsText (depth : Nat) : List Element → String
  | [] => ""
  | e :: rest => e.text depth ++ elementsText depth rest

end

/-- A whole fragment of markup: a container that holds the elements of a page. -/
structure Fragment where
  attributes : List Attribute
  children : List Element
deriving Repr, Inhabited

/-- The lines of a fragment.  Its closing tag is on a line of its own even if there
    is nothing in it. -/
def Fragment.text (f : Fragment) : String :=
  openingTag "div" f.attributes ++ "\n" ++ elementsText 1 f.children ++ closingTag "div" ++ "\n"

end DesignMarkup.Markup
