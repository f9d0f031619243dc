import Mathlib.Data.List.Basic

/-!
# String Helpers

The two normalisations a program applies to a word before comparing it:
trimming the white space around it and folding ASCII case. Both go through
the list of characters, so they evaluate in the kernel.

White space is Unicode white space: the ASCII blanks, next line, the
no-break space and the separators of category Z.

## Main definitions

* `trimSpace`, `toLower`: The two normalisations.
-/

namespace Strings

/-- Unicode white space. -/
def isSpace (c : Char) : Bool :=
  let n := c.toNat
  (9 ≤ n && n ≤ 13) || n == 0x20 || n == 0x85 || n == 0xA0 || n == 0x1680 ||
    (0x2000 ≤ n && n ≤ 0x200A) || n == 0x2028 || n == 0x2029 || n == 0x202F ||
    n == 0x205F || n == 0x3000

/-- A string without the white space at either end. -/
def trimSpace (s : String) : String :=
  String.ofList ((s.toList.dropWhile isSpace).reverse.dropWhile isSpace).reverse

/-- ASCII lower case. -/
def toLower (s : String) : String :=
  String.ofList (s.toList.map Char.toLower)

/-- A string starts with another. -/
def hasPrefix (s start : String) : Bool := start.toList.isPrefixOf s.toList

end Strings
