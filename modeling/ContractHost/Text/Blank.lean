import ContractHost.Bytes.Basic

/-!
# White space

The characters with the Unicode property White_Space (since version 6.3): 25 characters in ten
ranges.  `Text.trim` drops them from both ends of a text.
-/

namespace ContractHost.Text

/-- The first and the last code point of each run of white space, ascending. -/
def blankRanges : List (Nat × Nat) :=
  [(0x09, 0x0d), (0x20, 0x20), (0x85, 0x85), (0xa0, 0xa0), (0x1680, 0x1680), (0x2000, 0x200a),
    (0x2028, 0x2029), (0x202f, 0x202f), (0x205f, 0x205f), (0x3000, 0x3000)]

def isBlank (c : Char) : Bool :=
  blankRanges.any fun range => range.1 ≤ c.toNat && c.toNat ≤ range.2

/-- The text without white space at either end. -/
def trim (text : String) : String :=
  String.ofList ((text.toList.dropWhile isBlank).reverse.dropWhile isBlank).reverse

end ContractHost.Text
