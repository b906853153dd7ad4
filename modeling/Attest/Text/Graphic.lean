import Attest.Text.Category
/-!
# Characters shown as themselves, and word characters

`isGraphic` holds of the characters that a quoted text shows as they are: printable,
no blank but the space, and no mark that attaches to the character before it.
`isWord` and `isDigit` are the classes of words and decimal digits over all of Unicode.
-/

namespace Attest.Text

/-- Characters outside the mark categories that extend the character before them, as
first and last number. -/
def spacingExtenders : List (Nat × Nat) :=
  [(0x9be, 0x9be), (0x9d7, 0x9d7), (0xb3e, 0xb3e), (0xb57, 0xb57), (0xbbe, 0xbbe),
   (0xbd7, 0xbd7), (0xcc0, 0xcc0), (0xcc2, 0xcc2), (0xcc7, 0xcc8), (0xcca, 0xccb),
   (0xcd5, 0xcd6), (0xd3e, 0xd3e), (0xd57, 0xd57), (0xdcf, 0xdcf), (0xddf, 0xddf),
   (0x1715, 0x1715), (0x1734, 0x1734), (0x1b35, 0x1b35), (0x1b3b, 0x1b3b),
   (0x1b3d, 0x1b3d), (0x1b43, 0x1b44), (0x1baa, 0x1baa), (0x1bf2, 0x1bf3),
   (0x200c, 0x200c), (0x302e, 0x302f), (0xa953, 0xa953), (0xa9c0, 0xa9c0),
   (0xff9e, 0xff9f), (0x111c0, 0x111c0), (0x11235, 0x11235), (0x1133e, 0x1133e),
   (0x1134d, 0x1134d), (0x11357, 0x11357), (0x113b8, 0x113b8), (0x113c2, 0x113c2),
   (0x113c5, 0x113c5), (0x113c7, 0x113c9), (0x113cf, 0x113cf), (0x114b0, 0x114b0),
   (0x114bd, 0x114bd), (0x115af, 0x115af), (0x116b6, 0x116b6), (0x11930, 0x11930),
   (0x1193d, 0x1193d), (0x11f41, 0x11f41), (0x16ff0, 0x16ff1), (0x1d165, 0x1d166),
   (0x1d16d, 0x1d172), (0xe0020, 0xe007f)]

/-- Whether `n` lies in one of the ranges. -/
def inRanges (ranges : List (Nat × Nat)) (n : Nat) : Bool :=
  ranges.any fun (first, last) => first ≤ n && n ≤ last

/-- Whether a character attaches to the one before it. -/
def isExtender (c : Char) : Bool :=
  match Category.ofChar c with
  | .mn | .me => true
  | _ => inRanges spacingExtenders c.toNat

/-- Whether a quoted text shows the character as itself. -/
def isGraphic (c : Char) : Bool :=
  if c.toNat < 0x7f then 0x20 ≤ c.toNat
  else match Category.ofChar c with
    | .cc | .cf | .cs | .co | .cn | .zl | .zp | .zs => false
    | _ => !isExtender c

/-- Letters and the like that belong to no letter category: circled and squared letters. -/
def letterSymbols : List (Nat × Nat) :=
  [(0x24b6, 0x24e9), (0x1f130, 0x1f149), (0x1f150, 0x1f169), (0x1f170, 0x1f189)]

/-- Whether a character is alphabetic, a mark, a decimal digit, a connector such as the
low line, or a joiner. -/
def isWord (c : Char) : Bool :=
  let category := Category.ofChar c
  category.isLetter || category.isMark || category == .nl || category == .nd ||
  category == .pc || inRanges letterSymbols c.toNat || c.toNat == 0x200c || c.toNat == 0x200d

/-- Whether a character is a decimal digit of any script. -/
def isDigit (c : Char) : Bool := Category.ofChar c == .nd

end Attest.Text
