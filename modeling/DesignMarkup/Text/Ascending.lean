/-
  DesignMarkup/Text/Ascending.lean
  ================================
  **Texts in ascending order, each once.**
-/

namespace DesignMarkup.Text

/-- Put a text into its place in an ascending list, unless it is there. -/
def insertAscending (text : String) : List String → List String
  | [] => [text]
  | t :: rest =>
    if text < t then text :: t :: rest
    else if text = t then t :: rest
    else t :: insertAscending text rest

/-- The texts of a list, ascending and each once. -/
def ascending (texts : List String) : List String :=
  texts.foldl (fun sorted text => insertAscending text sorted) []

end DesignMarkup.Text
