import ContractHost.Result
import ContractHost.TxContext
import Mathlib.Tactic

/-!
# Fields that were written can be read

Writing fields one after the other into a blank buffer puts their bytes one after the other, and
reading a field where its bytes lie gives back its value.  `Cursor.upTo` is a blank buffer that was
written up to some place: every write and every padding moves from one such cursor to the next, so
a layout is computed by rewriting.

* `Field.decode_encode` and `Field.encode_decode` — a field of any type reads back, and so do bytes
  that are taken for one.
* `Cursor.between` — a place between two byte strings, from which reading goes on field by field.
* **`Result.decode_encode`** — a result reads back, whatever follows it in the buffer.
* **`TxContext.decode_encode`** — the data of transaction and block read back, and
  `TxContext.exists_encode`, no other bytes of the right number exist; so every byte of theirs counts
  for one field exactly, **`TxContext.layout_exact`**.
-/

namespace ContractHost

/-! ## Numbers -/

/-- Reading the digits of a number gives the number, as far as the digits reach. -/
lemma Bytes.littleEndianValue_littleEndian (width n : Nat) :
    littleEndianValue (littleEndian width n) = n % 256 ^ width := by
  induction width generalizing n with
  | zero => simp [littleEndian, littleEndianValue, Nat.mod_one]
  | succ width ih =>
      rw [littleEndian, littleEndianValue, ih, Nat.pow_succ', Nat.mod_mul]
      simp

/-- A field reads back. -/
lemma Field.decode_encode : (field : Field) → (value : field.Value) →
    field.decode (field.encode value) = value
  | int32, n => by
      have bound := n.toUInt32.toNat_lt
      simp only [decode, encode, Bytes.littleEndianValue_littleEndian]
      rw [Nat.mod_eq_of_lt (by simpa using bound)]
      simp
  | uint32, n => by
      have bound := n.toNat_lt
      simp only [decode, encode, Bytes.littleEndianValue_littleEndian]
      rw [Nat.mod_eq_of_lt (by simpa using bound)]
      simp
  | int64, n => by
      have bound := n.toUInt64.toNat_lt
      simp only [decode, encode, Bytes.littleEndianValue_littleEndian]
      rw [Nat.mod_eq_of_lt (by simpa using bound)]
      simp
  | uint64, n => by
      have bound := n.toNat_lt
      simp only [decode, encode, Bytes.littleEndianValue_littleEndian]
      rw [Nat.mod_eq_of_lt (by simpa using bound)]
      simp
  | bytes _, _ => rfl

lemma Bytes.littleEndianValue_lt (bytes : Bytes) :
    littleEndianValue bytes < 256 ^ bytes.length := by
  induction bytes with
  | nil => simp [littleEndianValue]
  | cons byte bytes ih =>
      have digit := byte.toNat_lt
      rw [littleEndianValue, List.length_cons, Nat.pow_succ']
      omega

/-- Bytes of the right number are the digits of the number that they denote. -/
lemma Bytes.littleEndian_littleEndianValue {width : ℕ} {bytes : Bytes}
    (length : bytes.length = width) :
    littleEndian width (littleEndianValue bytes % 256 ^ width) = bytes := by
  subst length
  rw [Nat.mod_eq_of_lt (littleEndianValue_lt bytes)]
  induction bytes with
  | nil => rfl
  | cons byte bytes ih =>
      have digit := byte.toNat_lt
      have higher : (byte.toNat + 256 * littleEndianValue bytes) / 256
          = littleEndianValue bytes := by
        omega
      rw [List.length_cons, littleEndianValue, littleEndian, higher, ih, List.cons.injEq]
      refine ⟨UInt8.toNat_inj.1 ?_, rfl⟩
      rw [UInt8.toNat_ofNat']
      omega

/-- Bytes that were read are those that are written for their value. -/
lemma Field.encode_decode (field : Field) (read : FixedBytes field.width) :
    field.encode (field.decode read) = read := by
  have digits := Bytes.littleEndian_littleEndianValue read.length_toList
  cases field with
  | bytes count => rfl
  | int32 | uint32 | int64 | uint64 =>
      refine FixedBytes.ext (Eq.trans ?_ digits)
      simp [encode, decode, width]

/-- Enough bytes start with a field, and have room for as many more. -/
lemma Field.exists_encode (field : Field) (room : ℕ) {bytes : Bytes}
    (enough : field.width + room ≤ bytes.length) :
    ∃ value rest, bytes = (field.encode value).toList ++ rest ∧ room ≤ rest.length := by
  have front : (bytes.take field.width).length = field.width := by
    rw [List.length_take]
    omega
  refine ⟨field.decode ⟨bytes.take field.width, front⟩, bytes.drop field.width, ?_, ?_⟩
  · rw [encode_decode, List.take_append_drop]
  · rw [List.length_drop]
    omega

/-! ## Places in a buffer -/

namespace Cursor

/-- A blank buffer that was written up to a place, with some room behind it. -/
def upTo (written : Bytes) (room : Nat) : Cursor :=
  ⟨written ++ List.replicate room 0, written.length⟩

lemma blank_eq_upTo (size : ℕ) : blank size = upTo [] size := rfl

lemma put_upTo (written bytes : Bytes) {room : ℕ} (fits : bytes.length ≤ room) :
    (upTo written room).put bytes = upTo (written ++ bytes) (room - bytes.length) := by
  obtain ⟨rest, rfl⟩ := Nat.exists_eq_add_of_le fits
  simp only [put, upTo, List.take_left', List.length_append, List.drop_append]
  simp

lemma write_upTo (written : Bytes) {room : ℕ} (field : Field) (value : field.Value)
    (fits : field.width ≤ room) :
    (upTo written room).write field value
      = upTo (written ++ (field.encode value).toList) (room - field.width) := by
  have length : (field.encode value).toList.length = field.width := FixedBytes.length_toList _
  rw [write, put_upTo written _ (length.trans_le fits), length]

lemma pad_upTo (written : Bytes) {count room : ℕ} (fits : count ≤ room) :
    (upTo written room).pad count
      = upTo (written ++ List.replicate count 0) (room - count) := by
  have length : (List.replicate count (0 : UInt8)).length = count := List.length_replicate
  rw [pad_eq_put, put_upTo written _ (length.trans_le fits), length]

/-- A buffer that was written to its end holds nothing else. -/
lemma buffer_upTo_full (written : Bytes) {room : ℕ} (full : room = 0) :
    (upTo written room).buffer = written := by
  rw [full, upTo, List.replicate_zero, List.append_nil]

/-- The place between two byte strings, in the buffer that joins them. -/
def between (front rest : Bytes) : Cursor := ⟨front ++ rest, front.length⟩

lemma start_eq_between (buffer : Bytes) : start buffer = between [] buffer := rfl

/-- A field is read where its bytes lie. -/
lemma read_between (front rest : Bytes) (field : Field) (value : field.Value) :
    (between front ((field.encode value).toList ++ rest)).read field
      = .ok (value, between (front ++ (field.encode value).toList) rest) := by
  have fits : front.length + field.width
      ≤ (front ++ ((field.encode value).toList ++ rest)).length := by
    simp
  have bytes : ((front ++ ((field.encode value).toList ++ rest)).drop front.length).take
      field.width = (field.encode value).toList := by
    simp
  have passed : between (front ++ (field.encode value).toList) rest
      = (between front ((field.encode value).toList ++ rest)).skip field.width := by
    simp [between, skip]
  rw [passed]
  simp only [read, take, between, dif_pos fits, bytes]
  exact congrArg (fun value => Except.ok (value, _)) (field.decode_encode value)

/-- Padding is passed over, whatever it holds. -/
lemma skip_between (front : Bytes) {padding : Bytes} {count : ℕ} (length : padding.length = count)
    (rest : Bytes) :
    (between front (padding ++ rest)).skip count = between (front ++ padding) rest := by
  rw [between, between, skip, List.length_append, length, List.append_assoc]

end Cursor

/-! ## Results -/

/-- A status is found by its number. -/
lemma Status.ofNumber_number (status : Status) : Status.ofNumber status.number = .ok status := by
  cases status <;> rfl

namespace Result

/-- The bytes of a reply, field by field. -/
lemma encode_toList (result : Result) :
    result.encode.toList
      = (Field.int32.encode result.status.number).toList ++ (List.replicate 4 0
          ++ ((Field.int64.encode result.gasLeft).toList ++ List.replicate 16 0)) := by
  simp (disch := decide) only [encode, Cursor.blank_eq_upTo, Cursor.write_upTo, Cursor.pad_upTo,
    Cursor.buffer_upTo_full, List.nil_append, List.append_assoc]

/-- **A result reads back,** whatever follows it in the buffer. -/
theorem decode_encode (result : Result) (rest : Bytes) :
    Result.decode (result.encode.toList ++ rest) = .ok result := by
  have enough : ¬ (result.encode.toList ++ rest).length < size := by
    simp [size]
  rw [decode, if_neg enough, encode_toList]
  simp only [List.append_assoc, Cursor.start_eq_between, Cursor.read_between, Cursor.lift_ok,
    Cursor.skip_between _ List.length_replicate, Status.ofNumber_number, bind, Except.bind]
  rfl

lemma decode_reply (result : Result) : Result.decode result.encode.toList = .ok result := by
  simpa using result.decode_encode []

end Result

/-! ## Transaction and block -/

namespace TxContext

/-- The bytes of transaction and block, field by field. -/
lemma encode_toList (context : TxContext) :
    context.encode.toList
      = ((Field.bytes 32).encode context.gasPrice).toList
        ++ (((Field.bytes 20).encode context.origin).toList
        ++ (((Field.bytes 20).encode context.coinbase).toList
        ++ ((Field.int64.encode context.blockNumber).toList
        ++ ((Field.int64.encode context.timestamp).toList
        ++ ((Field.int64.encode context.gasLimit).toList
        ++ (((Field.bytes 32).encode context.difficulty).toList
        ++ (((Field.bytes 32).encode context.chainId).toList ++ []))))))) := by
  simp (disch := decide) only [encode, Cursor.blank_eq_upTo, Cursor.write_upTo,
    Cursor.buffer_upTo_full, List.nil_append, List.append_assoc, List.append_nil]

/-- **Transaction and block read back,** whatever follows them in the buffer. -/
theorem decode_encode (context : TxContext) (rest : Bytes) :
    TxContext.decode (context.encode.toList ++ rest) = .ok context := by
  have enough : ¬ (context.encode.toList ++ rest).length < size := by simp
  rw [decode, if_neg enough, encode_toList]
  simp only [List.append_assoc, Cursor.start_eq_between, Cursor.read_between, Cursor.lift_ok, bind,
    Except.bind]
  rfl

lemma decode_answer (context : TxContext) :
    TxContext.decode context.encode.toList = .ok context := by
  simpa using context.decode_encode []

/-- Any bytes of the right number are the data of some transaction and block. -/
theorem exists_encode (bytes : FixedBytes size) :
    ∃ context : TxContext, context.encode = bytes := by
  have enough : (Field.bytes 32).width + 128 ≤ bytes.toList.length := bytes.length_toList.ge
  obtain ⟨gasPrice, rest, all, behindGasPrice⟩ := (Field.bytes 32).exists_encode 128 enough
  obtain ⟨origin, rest, rfl, behindOrigin⟩ := (Field.bytes 20).exists_encode 108 behindGasPrice
  obtain ⟨coinbase, rest, rfl, behindCoinbase⟩ := (Field.bytes 20).exists_encode 88 behindOrigin
  obtain ⟨blockNumber, rest, rfl, behindNumber⟩ := Field.int64.exists_encode 80 behindCoinbase
  obtain ⟨timestamp, rest, rfl, behindTimestamp⟩ := Field.int64.exists_encode 72 behindNumber
  obtain ⟨gasLimit, rest, rfl, behindGasLimit⟩ := Field.int64.exists_encode 64 behindTimestamp
  obtain ⟨difficulty, rest, rfl, behindDifficulty⟩ :=
    (Field.bytes 32).exists_encode 32 behindGasLimit
  obtain ⟨chainId, rest, rfl, -⟩ := (Field.bytes 32).exists_encode 0 behindDifficulty
  -- nothing is left over
  have length := bytes.length_toList
  rw [all] at length
  simp only [List.length_append, FixedBytes.length_toList, Field.width, size] at length
  obtain rfl : rest = [] := List.eq_nil_of_length_eq_zero (by omega)
  refine ⟨{ gasPrice, origin, coinbase, blockNumber, timestamp, gasLimit, difficulty, chainId },
    FixedBytes.ext ?_⟩
  rw [encode_toList, all]

lemma decode_of_short {buffer : Bytes} (short : buffer.length < size) :
    TxContext.decode buffer = .error (.malformed "tx context" size buffer.length) := by
  rw [decode, if_pos short]

/-- A buffer that is long enough starts with the data of some transaction and block. -/
lemma decode_of_long {buffer : Bytes} (enough : size ≤ buffer.length) :
    ∃ context, TxContext.decode buffer = .ok context ∧
      context.encode.toList = buffer.take size := by
  obtain ⟨context, written⟩ :=
    exists_encode ⟨buffer.take size, by rw [List.length_take, min_eq_left enough]⟩
  have first : context.encode.toList = buffer.take size := congrArg FixedBytes.toList written
  refine ⟨context, ?_, first⟩
  rw [← List.take_append_drop size buffer, ← first, decode_encode]

lemma encode_injective : Function.Injective encode := by
  intro context other same
  have read := context.decode_answer
  rw [same, decode_answer] at read
  exact (Except.ok.inj read).symm

/-- **The layout of transaction and block is exact.**  What is written reads back, whatever follows
it.  Exactly the buffers of fewer than 160 bytes are refused, as malformed; any other is read, and
what was read is written as the first 160 bytes of the buffer again.  So writing is one-to-one
between the data of transactions and blocks and the strings of 160 bytes: no byte is unused, and no
byte is used for two fields. -/
theorem layout_exact :
    (∀ (context : TxContext) (rest : Bytes),
      TxContext.decode (context.encode.toList ++ rest) = .ok context) ∧
    (∀ buffer : Bytes, 160 ≤ buffer.length →
      ∃ context, TxContext.decode buffer = .ok context ∧
        context.encode.toList = buffer.take 160) ∧
    (∀ buffer : Bytes,
      TxContext.decode buffer = .error (.malformed "tx context" 160 buffer.length)
        ↔ buffer.length < 160) ∧
    Function.Bijective encode := by
  refine ⟨decode_encode, fun buffer => decode_of_long, fun buffer => ⟨fun refused => ?_,
    decode_of_short⟩, encode_injective, exists_encode⟩
  by_contra long
  obtain ⟨context, read, -⟩ := decode_of_long (not_lt.1 long)
  rw [refused] at read
  cases read

/-- The bytes from 0 to 160, one more than there are in the layout. -/
def ascending : Bytes := (List.range 161).map UInt8.ofNat

/-- All of them but the last one are read and written again. -/
theorem ascending_exact :
    ∃ context, TxContext.decode ascending = .ok context ∧
      context.encode.toList = (List.range 160).map UInt8.ofNat := by
  have first : ascending.take 160 = (List.range 160).map UInt8.ofNat := by
    simp [ascending, ← List.map_take, List.take_range]
  rw [← first]
  exact layout_exact.2.1 ascending (by simp [ascending])

end TxContext

end ContractHost
