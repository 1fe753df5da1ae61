/-!
# Blank text

The white space of Unicode: the twenty-five characters with the property `White_Space`.
-/

namespace CommitCoordinator.Text

/-- A character with the Unicode property `White_Space`. -/
def isBlankChar (c : Char) : Bool :=
  let code := c.toNat
  (9 ≤ code && code ≤ 13) || code = 0x20 || code = 0x85 || code = 0xA0 || code = 0x1680 ||
    (0x2000 ≤ code && code ≤ 0x200A) || code = 0x2028 || code = 0x2029 || code = 0x202F ||
    code = 0x205F || code = 0x3000

/-- Text that holds nothing but white space. -/
def isBlank (text : String) : Bool :=
  text.toList.all isBlankChar

end CommitCoordinator.Text
