/-!
# Rollbook — blank text

The white-space characters of Unicode (property White_Space), and text stripped of them at both
ends. A text is blank when nothing is left.
-/

namespace Rollbook.Text

/-- The white-space characters of Unicode: twenty-five code points. -/
def isBlank (c : Char) : Bool :=
  let n := c.toNat
  (0x9 ≤ n && n ≤ 0xd) || n == 0x20 || n == 0x85 || n == 0xa0 || n == 0x1680
    || (0x2000 ≤ n && n ≤ 0x200a) || n == 0x2028 || n == 0x2029 || n == 0x202f || n == 0x205f
    || n == 0x3000

/-- The list without its leading and trailing elements of a class. -/
def stripBy (p : Char → Bool) (cs : List Char) : List Char :=
  ((cs.dropWhile p).reverse.dropWhile p).reverse

/-- Whether the text holds nothing but white space. -/
def allBlank (s : String) : Bool :=
  s.toList.all isBlank

end Rollbook.Text
