import ContractHost.Bytes.Numeral
import ContractHost.Fault

/-!
# Layouts of fixed fields

A layout is a sequence of fields of fixed width in a buffer: integers with the least significant
byte first, byte strings verbatim, and padding of zero bytes.

* `Field` is the type of a field; `Field.encode` and `Field.decode` translate its values to and
  from exactly `Field.width` bytes.
* `Cursor` is a place in a buffer.  Writing and padding move it behind what they wrote, or change
  nothing at all if that does not fit; reading moves it behind what it read, or is a fault that
  names the end that was needed and leaves it where it was (`Cursor.Failure`); skipping always moves
  it.

No operation changes the length of the buffer (`Cursor.length_put`), so a layout written into a
blank buffer of its size is a byte string of that size.
-/

namespace ContractHost

inductive Field where
  | int32
  | uint32
  | int64
  | uint64
  | bytes (count : Nat)
deriving DecidableEq

namespace Field

abbrev Value : Field → Type
  | int32 => Int32
  | uint32 => UInt32
  | int64 => Int64
  | uint64 => UInt64
  | bytes count => FixedBytes count

def width : Field → Nat
  | int32 => 4
  | uint32 => 4
  | int64 => 8
  | uint64 => 8
  | bytes count => count

/-- The bytes of a value.  Negative integers are written as their two's complement. -/
def encode : (field : Field) → field.Value → FixedBytes field.width
  | int32, n => ⟨Bytes.littleEndian 4 n.toUInt32.toNat, Bytes.length_littleEndian 4 _⟩
  | uint32, n => ⟨Bytes.littleEndian 4 n.toNat, Bytes.length_littleEndian 4 _⟩
  | int64, n => ⟨Bytes.littleEndian 8 n.toUInt64.toNat, Bytes.length_littleEndian 8 _⟩
  | uint64, n => ⟨Bytes.littleEndian 8 n.toNat, Bytes.length_littleEndian 8 _⟩
  | bytes _, b => b

/-- The value that the bytes stand for. -/
def decode : (field : Field) → FixedBytes field.width → field.Value
  | int32, b => (UInt32.ofNat (Bytes.littleEndianValue b.toList)).toInt32
  | uint32, b => UInt32.ofNat (Bytes.littleEndianValue b.toList)
  | int64, b => (UInt64.ofNat (Bytes.littleEndianValue b.toList)).toInt64
  | uint64, b => UInt64.ofNat (Bytes.littleEndianValue b.toList)
  | bytes _, b => b

end Field

structure Cursor where
  buffer : Bytes
  /-- How many bytes lie before the place. -/
  offset : Nat
deriving DecidableEq

namespace Cursor

def start (buffer : Bytes) : Cursor := ⟨buffer, 0⟩

/-- The start of a buffer of zero bytes. -/
def blank (size : Nat) : Cursor := start (List.replicate size 0)

/-! ## Writing -/

/-- Overwrites the bytes at the place, if they all lie in the buffer. -/
def put (cursor : Cursor) (bytes : Bytes) : Cursor :=
  let stop := cursor.offset + bytes.length
  if stop ≤ cursor.buffer.length then
    ⟨cursor.buffer.take cursor.offset ++ bytes ++ cursor.buffer.drop stop, stop⟩
  else cursor

def write (cursor : Cursor) (field : Field) (value : field.Value) : Cursor :=
  cursor.put (field.encode value).toList

/-- Writes zero bytes, whatever the buffer held there.  They are made only if they fit, so that a
padding of any size is refused at once. -/
def pad (cursor : Cursor) (count : Nat) : Cursor :=
  if cursor.offset + count ≤ cursor.buffer.length then cursor.put (List.replicate count 0)
  else cursor

/-- Passes over bytes without looking at them. -/
def skip (cursor : Cursor) (count : Nat) : Cursor := { cursor with offset := cursor.offset + count }

/-- Padding is the writing of zero bytes. -/
theorem pad_eq_put (cursor : Cursor) (count : Nat) :
    cursor.pad count = cursor.put (List.replicate count 0) := by
  simp only [pad, put, List.length_replicate]
  split <;> rfl

@[simp] theorem length_put (cursor : Cursor) (bytes : Bytes) :
    (cursor.put bytes).buffer.length = cursor.buffer.length := by
  simp only [put]
  split
  · simp; omega
  · rfl

@[simp] theorem length_write (cursor : Cursor) (field : Field) (value : field.Value) :
    (cursor.write field value).buffer.length = cursor.buffer.length :=
  length_put ..

@[simp] theorem length_pad (cursor : Cursor) (count : Nat) :
    (cursor.pad count).buffer.length = cursor.buffer.length := by
  rw [pad_eq_put, length_put]

@[simp] theorem length_blank (size : Nat) : (blank size).buffer.length = size :=
  List.length_replicate

/-! ## Reading -/

/-- Why a reading failed, and the cursor that it leaves. -/
structure Failure where
  fault : Fault
  cursor : Cursor
deriving DecidableEq

/-- A layout is given up at the first fault, and nobody looks at the cursor any more. -/
instance : MonadLift (Except Failure) (Except Fault) where
  monadLift reading := reading.mapError Failure.fault

@[simp] theorem lift_ok {α : Type} (value : α) :
    (liftM (.ok value : Except Failure α) : Except Fault α) = .ok value := rfl

/-- The next `count` bytes, if they all lie in the buffer. -/
def take (cursor : Cursor) (count : Nat) : Except Failure (FixedBytes count × Cursor) :=
  if fits : cursor.offset + count ≤ cursor.buffer.length then
    .ok (⟨(cursor.buffer.drop cursor.offset).take count, by simp; omega⟩, cursor.skip count)
  else .error ⟨.malformed "field" (cursor.offset + count) cursor.buffer.length, cursor⟩

def read (cursor : Cursor) (field : Field) : Except Failure (field.Value × Cursor) :=
  match cursor.take field.width with
  | .ok (bytes, rest) => .ok (field.decode bytes, rest)
  | .error failure => .error failure

end Cursor

end ContractHost
