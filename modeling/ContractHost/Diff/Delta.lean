/-!
# Balance changes

A balance change is a signed number of 128 bits.  Adding saturates: a sum that does not fit becomes
the nearest number that does.
-/

namespace ContractHost

def Delta.maxValue : Int := 0x7fffffffffffffffffffffffffffffff

def Delta.minValue : Int := -0x80000000000000000000000000000000

/-- A change of a balance. -/
structure Delta where
  /-- The amount; negative if money leaves. -/
  val : Int
  lower : Delta.minValue ≤ val
  upper : val ≤ Delta.maxValue
deriving DecidableEq

namespace Delta

/-- The change nearest to a number. -/
def ofInt (n : Int) : Delta where
  val := max minValue (min n maxValue)
  lower := by simp only [minValue, maxValue]; omega
  upper := by simp only [minValue, maxValue]; omega

def zero : Delta := ofInt 0

instance : Inhabited Delta := ⟨zero⟩

/-- The sum, or the change nearest to it. -/
def add (a b : Delta) : Delta := ofInt (a.val + b.val)

/-- The opposite change, or the one nearest to it. -/
def neg (a : Delta) : Delta := ofInt (-a.val)

/-- The change with its sign, which is `+` for zero. -/
instance : ToString Delta where
  toString delta := (if delta.val < 0 then "" else "+") ++ toString delta.val

end Delta

end ContractHost
