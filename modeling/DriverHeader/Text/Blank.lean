import DriverHeader.Text

/-! # White space

The characters with the Unicode property White_Space, and texts without them at their end.
-/
namespace DriverHeader

/-- White space: the ASCII controls from tab to carriage return, the spaces of every width, and
the line and paragraph separators. -/
def isBlank (c : Char) : Bool :=
  let n := c.toNat
  (9 ≤ n && n ≤ 13) || n == 0x20 || n == 0x85 || n == 0xA0 || n == 0x1680
    || (0x2000 ≤ n && n ≤ 0x200A) || n == 0x2028 || n == 0x2029 || n == 0x202F || n == 0x205F
    || n == 0x3000

def Text.trimEnd (t : Text) : Text := (t.reverse.dropWhile isBlank).reverse

end DriverHeader
