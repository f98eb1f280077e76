import ContractHost.Word

/-!
# The hash function

Code and storage are identified by their Keccak hash of 256 bits.  The hash absorbs its input in
blocks of 136 bytes into a state of 25 lanes of 64 bits, stirs the state by 24 rounds after each
block, and gives out the first four lanes.

A lane stands at column `x` and row `y` of a five by five square, at index `x + 5 * y`
(`Keccak.lane`); coordinates are taken modulo five.
-/

namespace ContractHost.Keccak

/-- The state: 25 lanes, row by row. -/
abbrev State := Vector UInt64 25

/-- The lane at a column and a row. -/
def lane (state : State) (x y : Nat) : UInt64 :=
  state[x % 5 + 5 * (y % 5)]

/-- The state whose lane at column `x` and row `y` is `f x y`. -/
def ofLanes (f : Nat → Nat → UInt64) : State := Vector.ofFn fun i => f (i.val % 5) (i.val / 5)

/-- The lane with its bits moved up by `count` places, those that fall out coming in below. -/
def rotate (bits : UInt64) (count : Nat) : UInt64 :=
  if count % 64 = 0 then bits
  else bits <<< UInt64.ofNat (count % 64) ||| bits >>> UInt64.ofNat (64 - count % 64)

/-! ## The rounds -/

/-- How far the lane at each index is rotated. -/
def rotations : Vector Nat 25 :=
  #v[0, 1, 62, 28, 27,
    36, 44, 6, 55, 20,
    3, 10, 43, 25, 39,
    41, 45, 15, 21, 8,
    18, 2, 61, 56, 14]

/-- What each round adds to the first lane. -/
def roundConstants : List UInt64 :=
  [0x0000000000000001, 0x0000000000008082, 0x800000000000808a, 0x8000000080008000,
    0x000000000000808b, 0x0000000080000001, 0x8000000080008081, 0x8000000000008009,
    0x000000000000008a, 0x0000000000000088, 0x0000000080008009, 0x000000008000000a,
    0x000000008000808b, 0x800000000000008b, 0x8000000000008089, 0x8000000000008003,
    0x8000000000008002, 0x8000000000000080, 0x000000000000800a, 0x800000008000000a,
    0x8000000080008081, 0x8000000000008080, 0x0000000080000001, 0x8000000080008008]

/-- The parity of each column. -/
def columnParities (state : State) : Vector UInt64 5 :=
  Vector.ofFn fun x =>
    lane state x 0 ^^^ lane state x 1 ^^^ lane state x 2 ^^^ lane state x 3 ^^^ lane state x 4

/-- Adds to each lane the parities of the column before and, rotated, the column after its own. -/
def mixColumns (state : State) : State :=
  let parities := columnParities state
  let parity (x : Nat) : UInt64 := parities[x % 5]
  ofLanes fun x y => lane state x y ^^^ parity (x + 4) ^^^ rotate (parity (x + 1)) 1

/-- Rotates each lane and moves it: row `x` of column `y` receives the lane of column
`x + 3 * y` and row `x`. -/
def scatter (state : State) : State :=
  ofLanes fun x y =>
    let column := (x + 3 * y) % 5
    rotate (lane state column x) (rotations[column + 5 * (x % 5)])

/-- Combines each lane with the two that follow it in its row; the only step that is not linear. -/
def mixRows (state : State) : State :=
  ofLanes fun x y => lane state x y ^^^ (~~~ lane state (x + 1) y &&& lane state (x + 2) y)

/-- One round. -/
def round (state : State) (constant : UInt64) : State :=
  let mixed := mixRows (scatter (mixColumns state))
  mixed.set 0 (mixed[0] ^^^ constant)

/-- All rounds, one after the other. -/
def permute (state : State) : State := roundConstants.foldl round state

/-! ## Absorbing the input -/

/-- The size of a block in bytes. -/
def blockSize : Nat := 136

/-- The input with a one bit behind it and one at the end of the last block, zeros between. -/
def padded (input : Bytes) : Bytes :=
  let missing := blockSize - input.length % blockSize
  if missing = 1 then input ++ [0x81]
  else input ++ 0x01 :: List.replicate (missing - 2) 0 ++ [0x80]

/-- The next lanes of the input, eight bytes each. -/
def lanesOf : (count : Nat) → Bytes → List UInt64
  | 0, _ => []
  | count + 1, bytes =>
    UInt64.ofNat (Bytes.littleEndianValue (bytes.take 8)) :: lanesOf count (bytes.drop 8)

/-- Adds a block to the state and stirs. -/
def absorbBlock (state : State) (block : Bytes) : State :=
  let lanes := (lanesOf 17 block).toArray
  permute (Vector.ofFn fun i => state[i] ^^^ lanes.getD i 0)

/-- Absorbs the given number of blocks. -/
def absorb : (blocks : Nat) → State → Bytes → State
  | 0, state, _ => state
  | blocks + 1, state, input =>
    absorb blocks (absorbBlock state (input.take blockSize)) (input.drop blockSize)

/-- The hash of a byte string. -/
def hash (input : Bytes) : Word :=
  let final := absorb (input.length / blockSize + 1) (Vector.replicate 25 0) (padded input)
  ⟨(List.range 4).flatMap fun i => Bytes.littleEndian 8 (lane final i 0).toNat, by
    simp [List.range_succ]⟩

end ContractHost.Keccak
