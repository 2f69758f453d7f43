/-!
White space: the characters with the Unicode property `White_Space`.
-/

namespace TypedCss.Text

def isBlank (c : Char) : Bool :=
  let n := c.toNat
  (0x09 ≤ n && n ≤ 0x0d) || n == 0x20 || n == 0x85 || n == 0xa0 || n == 0x1680 ||
    (0x2000 ≤ n && n ≤ 0x200a) || n == 0x2028 || n == 0x2029 || n == 0x202f || n == 0x205f || n == 0x3000

/-- The text without the white space at its end. -/
def trimEnd (cs : List Char) : List Char := (cs.reverse.dropWhile isBlank).reverse

/-- The text without the spaces and tabs it begins with. -/
def dropIndent (cs : List Char) : List Char := cs.dropWhile fun c => c == ' ' || c == '\t'

/-- How many spaces and tabs the text begins with. -/
def indent (cs : List Char) : Nat := (cs.takeWhile fun c => c == ' ' || c == '\t').length

end TypedCss.Text
