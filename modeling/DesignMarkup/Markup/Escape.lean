/-
  DesignMarkup/Markup/Escape.lean
  ===============================
  **Text inside markup.**  The three characters that could open or close a tag or an
  entity are written as entities.  Inside an attribute a double quote would end the
  value; it becomes a single quote.
-/

namespace DesignMarkup.Markup

def escapeChar (c : Char) : List Char :=
  if c = '&' then ['&', 'a', 'm', 'p', ';']
  else if c = '<' then ['&', 'l', 't', ';']
  else if c = '>' then ['&', 'g', 't', ';']
  else [c]

/-- A double quote turned into a single one. -/
def singleQuote (c : Char) : Char := if c = '"' then '\x27' else c

/-- A character of running text, a line break being an element of its own. -/
def contentChar (c : Char) : List Char :=
  if c = '\n' then ['<', 'b', 'r', '/', '>'] else escapeChar c

/-- Running text. -/
def escapeText (text : String) : String := String.ofList (text.toList.flatMap escapeChar)

def escapeAttribute (text : String) : String :=
  String.ofList ((text.toList.map singleQuote).flatMap escapeChar)

/-- The text of an element, with its line breaks. -/
def content (text : String) : String := String.ofList (text.toList.flatMap contentChar)

end DesignMarkup.Markup
