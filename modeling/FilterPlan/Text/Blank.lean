import FilterPlan.Text.Basic

/-!
# Blank characters

The characters with the Unicode property `White_Space`, and the operations that disregard them:
trimming, cutting into words, and reading a comma-separated list.
-/

namespace FilterPlan.Text

/-- Whether the character has the Unicode property `White_Space`. -/
def isBlank (c : Char) : Bool :=
  let n := c.toNat
  (0x09 ≤ n && n ≤ 0x0D) || n == 0x20 || n == 0x85 || n == 0xA0 || n == 0x1680 ||
    (0x2000 ≤ n && n ≤ 0x200A) || n == 0x2028 || n == 0x2029 || n == 0x202F || n == 0x205F || n == 0x3000

/-- The text without the blanks at its ends. -/
def trim (t : Text) : Text :=
  ((t.dropWhile isBlank).reverse.dropWhile isBlank).reverse

/-- The maximal runs of characters that are not blank. -/
def words (t : Text) : List Text :=
  t.pieces isBlank

/-- The text without any blank. -/
def squeeze (t : Text) : Text :=
  t.filter (!isBlank ·)

/-- The entries of a comma-separated list: each is trimmed, and empty ones are left out. -/
def entries (t : Text) : List Text :=
  ((t.fields (· == ',')).map trim).filter (!·.isEmpty)

end FilterPlan.Text
