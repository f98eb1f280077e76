/-!
# Decimal integers

An integer is written as decimal digits behind at most one sign, `+` or `-`.  Nothing else is
read: no blanks, no separators, no second sign, and at least one digit.
-/

namespace ContractHost.Text

/-- The number that ASCII decimal digits denote, or `none` if there are none or a character is no
digit. -/
def digitsValue? (digits : List Char) : Option Nat :=
  if digits.isEmpty || !digits.all Char.isDigit then none
  else some (digits.foldl (fun value digit => 10 * value + (digit.toNat - 48)) 0)

/-- The integer that a text denotes. -/
def integer? (text : String) : Option Int :=
  match text.toList with
  | '+' :: digits => (digitsValue? digits).map Int.ofNat
  | '-' :: digits => (digitsValue? digits).map fun value => -Int.ofNat value
  | digits => (digitsValue? digits).map Int.ofNat

/-- The integer that a text denotes, if it has 32 signed bits. -/
def int32? (text : String) : Option Int32 :=
  (integer? text).bind fun n =>
    if Int32.minValue.toInt ≤ n ∧ n ≤ Int32.maxValue.toInt then some (Int32.ofInt n) else none

/-- The integer that a text denotes, if it has 64 signed bits. -/
def int64? (text : String) : Option Int64 :=
  (integer? text).bind fun n =>
    if Int64.minValue.toInt ≤ n ∧ n ≤ Int64.maxValue.toInt then some (Int64.ofInt n) else none

end ContractHost.Text
