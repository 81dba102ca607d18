/-
  DesignMarkup/Text/Blank.lean
  ============================
  **White space.**  The characters with the Unicode property White_Space, and the
  text that is left when those at both ends are dropped.
-/

namespace DesignMarkup.Text

/-- The characters with the Unicode property White_Space. -/
def isBlank (c : Char) : Bool :=
  let n := c.toNat
  (0x9 ≤ n && n ≤ 0xD) || n == 0x20 || n == 0x85 || n == 0xA0 || n == 0x1680
    || (0x2000 ≤ n && n ≤ 0x200A) || n == 0x2028 || n == 0x2029 || n == 0x202F
    || n == 0x205F || n == 0x3000

/-- Drop the longest run of characters with the property `p` from both ends. -/
def trimBoth (p : Char → Bool) (text : List Char) : List Char :=
  ((text.dropWhile p).reverse.dropWhile p).reverse

def trim (text : String) : String := String.ofList (trimBoth isBlank text.toList)

end DesignMarkup.Text
