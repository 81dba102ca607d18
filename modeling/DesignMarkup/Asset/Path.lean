/-
  DesignMarkup/Asset/Path.lean
  ============================
  **Where an asset lies.**  An image or an icon has a path made from the name of its
  layer: a directory and an extension by its kind, and between them a token that is
  safe in any path, of small letters, digits and inner dashes.
-/
import DesignMarkup.Text.Blank
import DesignMarkup.Text.LowerCase

namespace DesignMarkup

inductive AssetKind where
  | image
  | icon
deriving DecidableEq, Repr

namespace AssetKind

def directory : AssetKind → String
  | .image => "images"
  | .icon => "icons"

/-- The extension of the file, which also names its format. -/
def extension : AssetKind → String
  | .image => "png"
  | .icon => "svg"

/-- The token for a name of which nothing is left. -/
def placeholder : AssetKind → String
  | .image => "image-placeholder"
  | .icon => "icon-placeholder"

end AssetKind

namespace Asset

/-- Small letters, digits and the dash. -/
def isTokenChar (c : Char) : Bool := c.isLower || c.isDigit || c == '-'

/-- White space and the slash, a run of which separates words. -/
def isSeparator (c : Char) : Bool := Text.isBlank c || c == '/'

/-- Keep token characters, with one dash before each that separators precede.
    `pending` tells whether separators were met since the last one. -/
def joinWords (pending : Bool) : List Char → List Char
  | [] => []
  | c :: rest =>
    if isTokenChar c then
      if pending then '-' :: c :: joinWords false rest else c :: joinWords false rest
    else joinWords (pending || isSeparator c) rest

/-- A layer name as a token: in lower case, words joined by dashes, other characters
    dropped, no dash at either end.  It may be empty. -/
def token (name : String) : String :=
  String.ofList
    (Text.trimBoth (· == '-') (joinWords false (Text.lowerCase name.toList)))

/-- The token, or the placeholder when it is empty. -/
def fileName (name : String) (kind : AssetKind) : String :=
  if token name = "" then kind.placeholder else token name

/-- The path within the directory of the page. -/
def localPath (name : String) (kind : AssetKind) : String :=
  kind.directory ++ "/" ++ fileName name kind ++ "." ++ kind.extension

/-- The path as the markup refers to it. -/
def path (name : String) (kind : AssetKind) : String := "./" ++ localPath name kind

end Asset

end DesignMarkup
