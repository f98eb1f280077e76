import ContractHost.Proofs.Wire

/-!
# What a reply may be

An engine hands back 32 bytes, and nobody makes it write the ones that its host would have written.
Of these bytes only two numbers count: the one at the start, which either belongs to a status or is
refused, and the gas.  The bytes between the two and those behind them are passed over when a reply
is read, and they are zero when a result is written.  So a host that reads a reply and writes it
again passes on the same status and the same gas, and nothing else that the engine may have left.

* `Status.exists_number_iff` — the numbers of statuses.
* `Result.exists_layout` — the fields at the start of a buffer.
* `Result.blanked` — a reply with zeros where no field is.
* **`Result.reply_codec`** — all of it for every result and every buffer.
-/

namespace ContractHost

/-! ## Numbers of statuses -/

namespace Status

variable {number : Int32}

/-- The statuses have the numbers from minus three to sixteen. -/
lemma exists_number_iff :
    (∃ status : Status, status.number = number) ↔ -3 ≤ number ∧ number ≤ 16 := by
  constructor
  · rintro ⟨status, rfl⟩
    cases status <;> decide
  · rintro ⟨lower, upper⟩
    rw [Int32.le_iff_toInt_le] at lower upper
    have least : (-3 : Int32).toInt = -3 := rfl
    have greatest : (16 : Int32).toInt = 16 := rfl
    have each : ∀ place : Fin 20, ∃ status ∈ all, status.number.toInt = (place : ℤ) - 3 := by
      decide
    obtain ⟨status, -, same⟩ := each ⟨(number.toInt + 3).toNat, by omega⟩
    refine ⟨status, Int32.toInt_inj.1 (same.trans ?_)⟩
    dsimp only
    omega

lemma ofNumber_of_unknown (unknown : ¬ ∃ status : Status, status.number = number) :
    ofNumber number = .error (.unknownStatus number) := by
  have missing : ofNumber? number = none := by
    rw [ofNumber?, List.find?_eq_none]
    intro status _ same
    exact unknown ⟨status, beq_iff_eq.1 same⟩
  rw [ofNumber, missing]

end Status

/-! ## The fields of a reply -/

namespace Result

/-- The bytes of a reply, with any number for the status and any bytes where no field is. -/
def layout (number : Int32) (gap : Bytes) (gasLeft : Int64) (reserved : Bytes) : Bytes :=
  (Field.int32.encode number).toList ++ (gap ++ ((Field.int64.encode gasLeft).toList ++ reserved))

/-- The number at the start of a reply, which tells the status. -/
def statusNumber (buffer : Bytes) : Int32 :=
  (UInt32.ofNat (Bytes.littleEndianValue (buffer.take 4))).toInt32

/-- The number in the middle of a reply, which is the gas. -/
def gasNumber (buffer : Bytes) : Int64 :=
  (UInt64.ofNat (Bytes.littleEndianValue ((buffer.drop 8).take 8))).toInt64

/-- The reply at the start of a buffer, with zeros where no field is. -/
def blanked (buffer : Bytes) : Bytes :=
  buffer.take 4 ++ (List.replicate 4 0 ++ ((buffer.drop 8).take 8 ++ List.replicate 16 0))

/-- A result is written with zeros where no field is. -/
lemma encode_eq_layout (result : Result) :
    result.encode.toList
      = layout result.status.number (List.replicate 4 0) result.gasLeft (List.replicate 16 0) :=
  result.encode_toList

/-- Enough bytes start with the fields of a reply. -/
lemma exists_layout {buffer : Bytes} (enough : size ≤ buffer.length) :
    ∃ number gap gasLeft reserved rest, gap.length = 4 ∧ reserved.length = 16 ∧
      buffer = layout number gap gasLeft reserved ++ rest := by
  obtain ⟨number, bytes, rfl, behindNumber⟩ := Field.int32.exists_encode 28 enough
  obtain ⟨gap, bytes, rfl, behindGap⟩ := (Field.bytes 4).exists_encode 24 behindNumber
  obtain ⟨gasLeft, bytes, rfl, behindGas⟩ := Field.int64.exists_encode 16 behindGap
  obtain ⟨reserved, bytes, rfl, -⟩ := (Field.bytes 16).exists_encode 0 behindGas
  refine ⟨number, gap.toList, gasLeft, reserved.toList, bytes, gap.length_toList,
    reserved.length_toList, ?_⟩
  simp only [layout, List.append_assoc]
  rfl

section Layout

variable (number : Int32) {gap : Bytes} (gasLeft : Int64) {reserved : Bytes} (rest : Bytes)

lemma length_layout (gapLength : gap.length = 4) (reservedLength : reserved.length = 16) :
    (layout number gap gasLeft reserved).length = size := by
  simp [layout, Field.width, gapLength, reservedLength, size]

/-- What is read from a reply depends on its two numbers only. -/
theorem decode_layout (gapLength : gap.length = 4) (reservedLength : reserved.length = 16) :
    decode (layout number gap gasLeft reserved ++ rest)
      = (Status.ofNumber number).map fun status => { status, gasLeft } := by
  have enough : ¬ (layout number gap gasLeft reserved ++ rest).length < size := by
    rw [List.length_append, length_layout number gasLeft gapLength reservedLength]
    omega
  rw [decode, if_neg enough, layout]
  simp only [List.append_assoc, Cursor.start_eq_between, Cursor.read_between, Cursor.lift_ok,
    Cursor.skip_between _ gapLength, bind, Except.bind]
  cases Status.ofNumber number <;> rfl

lemma gap_layout (gapLength : gap.length = 4) :
    ((layout number gap gasLeft reserved).drop 4).take 4 = gap := by
  have width : (Field.int32.encode number).toList.length = 4 := FixedBytes.length_toList _
  rw [layout, List.drop_left' width, List.take_left' gapLength]

lemma reserved_layout (gapLength : gap.length = 4) :
    (layout number gap gasLeft reserved).drop 16 = reserved := by
  have front : ((Field.int32.encode number).toList ++ (gap
      ++ (Field.int64.encode gasLeft).toList)).length = 16 := by
    simp [Field.width, gapLength]
  simp only [layout, ← List.append_assoc] at front ⊢
  rw [List.drop_left' front]

lemma take_layout : (layout number gap gasLeft reserved ++ rest).take 4
    = (Field.int32.encode number).toList := by
  have width : (Field.int32.encode number).toList.length = 4 := FixedBytes.length_toList _
  rw [layout, List.append_assoc, List.take_left' width]

lemma drop_layout (gapLength : gap.length = 4) :
    ((layout number gap gasLeft reserved ++ rest).drop 8).take 8
      = (Field.int64.encode gasLeft).toList := by
  have front : ((Field.int32.encode number).toList ++ gap).length = 8 := by
    simp [Field.width, gapLength]
  have width : (Field.int64.encode gasLeft).toList.length = 8 := FixedBytes.length_toList _
  rw [layout, ← List.append_assoc, List.append_assoc, List.drop_left' front, List.append_assoc,
    List.take_left' width]

lemma statusNumber_layout : statusNumber (layout number gap gasLeft reserved ++ rest) = number := by
  rw [statusNumber, take_layout]
  exact Field.int32.decode_encode number

lemma gasNumber_layout (gapLength : gap.length = 4) :
    gasNumber (layout number gap gasLeft reserved ++ rest) = gasLeft := by
  rw [gasNumber, drop_layout _ _ _ gapLength]
  exact Field.int64.decode_encode gasLeft

lemma blanked_layout (gapLength : gap.length = 4) :
    blanked (layout number gap gasLeft reserved ++ rest)
      = layout number (List.replicate 4 0) gasLeft (List.replicate 16 0) := by
  rw [blanked, take_layout, drop_layout _ _ _ gapLength, layout]

end Layout

/-! ## Reading and writing -/

section Decode

variable {buffer : Bytes}

lemma decode_of_short (short : buffer.length < size) :
    decode buffer = .error (.malformed "execution result" size buffer.length) := by
  rw [decode, if_pos short]

/-- Whatever is long enough is judged by its first number. -/
lemma decode_of_long (enough : size ≤ buffer.length) :
    decode buffer = (Status.ofNumber (statusNumber buffer)).map
      fun status => { status, gasLeft := gasNumber buffer } := by
  obtain ⟨number, gap, gasLeft, reserved, rest, gapLength, reservedLength, rfl⟩ :=
    exists_layout enough
  rw [decode_layout _ _ _ gapLength reservedLength, statusNumber_layout,
    gasNumber_layout _ _ _ gapLength]

lemma decode_of_unknown (enough : size ≤ buffer.length)
    (unknown : ¬ ∃ status : Status, status.number = statusNumber buffer) :
    decode buffer = .error (.unknownStatus (statusNumber buffer)) := by
  rw [decode_of_long enough, Status.ofNumber_of_unknown unknown]
  rfl

lemma decode_of_known (enough : size ≤ buffer.length) {status : Status}
    (known : status.number = statusNumber buffer) :
    decode buffer = .ok { status, gasLeft := gasNumber buffer } := by
  rw [decode_of_long enough, ← known, Status.ofNumber_number]
  rfl

/-- The two numbers are all that is written again. -/
lemma encode_of_known (enough : size ≤ buffer.length) {status : Status}
    (known : status.number = statusNumber buffer) :
    (encode { status, gasLeft := gasNumber buffer }).toList = blanked buffer := by
  obtain ⟨number, gap, gasLeft, reserved, rest, gapLength, -, rfl⟩ := exists_layout enough
  rw [statusNumber_layout] at known
  rw [encode_eq_layout, known, gasNumber_layout _ _ _ gapLength, blanked_layout _ _ _ gapLength]

end Decode

lemma statusNumber_encode (result : Result) :
    statusNumber result.encode.toList = result.status.number := by
  simpa [encode_eq_layout] using statusNumber_layout result.status.number result.gasLeft []

lemma gasNumber_encode (result : Result) : gasNumber result.encode.toList = result.gasLeft := by
  simpa [encode_eq_layout] using
    gasNumber_layout result.status.number result.gasLeft [] List.length_replicate

/-- **Results are written and read without loss, and replies lose only what is no field.**  A result
is written as 32 bytes, zero between the fields and behind them, and reads back whatever follows it.
A buffer is refused as malformed exactly if it is shorter.  A longer one is refused for the number
at its start exactly if this is the number of no status; the statuses have the numbers from minus
three to sixteen.  Otherwise it is read, and writing the result again gives the start of the buffer
with zeros where no field is.  So a reply is either refused or written again with the same two
numbers, and then reads as before. -/
theorem reply_codec :
    (∀ result : Result, result.encode.toList.length = 32 ∧
      (result.encode.toList.drop 4).take 4 = List.replicate 4 0 ∧
      result.encode.toList.drop 16 = List.replicate 16 0 ∧
      ∀ rest, Result.decode (result.encode.toList ++ rest) = .ok result) ∧
    (∀ number : Int32, (∃ status : Status, status.number = number) ↔ -3 ≤ number ∧ number ≤ 16) ∧
    (∀ buffer : Bytes,
      Result.decode buffer = .error (.malformed "execution result" 32 buffer.length)
        ↔ buffer.length < 32) ∧
    (∀ buffer : Bytes, 32 ≤ buffer.length →
      (Result.decode buffer = .error (.unknownStatus (statusNumber buffer))
        ↔ ¬ ∃ status : Status, status.number = statusNumber buffer) ∧
      ∀ status : Status, status.number = statusNumber buffer →
        Result.decode buffer = .ok { status, gasLeft := gasNumber buffer } ∧
        (encode { status, gasLeft := gasNumber buffer }).toList
          = buffer.take 4 ++ (List.replicate 4 0
            ++ ((buffer.drop 8).take 8 ++ List.replicate 16 0))) ∧
    ∀ reply : Reply,
      Result.decode reply.toList = .error (.unknownStatus (statusNumber reply.toList)) ∨
      ∃ result, Result.decode reply.toList = .ok result ∧
        Result.decode result.encode.toList = .ok result ∧
        statusNumber result.encode.toList = statusNumber reply.toList ∧
        gasNumber result.encode.toList = gasNumber reply.toList := by
  refine ⟨?_, fun number => Status.exists_number_iff, ?_, ?_, ?_⟩
  · intro result
    refine ⟨result.encode.length_toList, ?_, ?_, result.decode_encode⟩
    · rw [encode_eq_layout, gap_layout _ _ List.length_replicate]
    · rw [encode_eq_layout, reserved_layout _ _ List.length_replicate]
  · intro buffer
    refine ⟨fun refused => ?_, decode_of_short⟩
    -- a longer buffer is not refused as malformed, whatever its number is
    by_contra long
    have enough := not_lt.1 long
    by_cases known : ∃ status : Status, status.number = statusNumber buffer
    · obtain ⟨status, known⟩ := known
      rw [decode_of_known enough known] at refused
      cases refused
    · rw [decode_of_unknown enough known] at refused
      cases refused
  · intro buffer enough
    refine ⟨⟨?_, decode_of_unknown enough⟩, ?_⟩
    · rintro refused ⟨status, known⟩
      rw [decode_of_known enough known] at refused
      cases refused
    · intro status known
      exact ⟨decode_of_known enough known, encode_of_known enough known⟩
  · intro reply
    have enough : size ≤ reply.toList.length := reply.length_toList.ge
    by_cases known : ∃ status : Status, status.number = statusNumber reply.toList
    · right
      obtain ⟨status, known⟩ := known
      refine ⟨_, decode_of_known enough known, decode_reply _, ?_, gasNumber_encode _⟩
      rw [statusNumber_encode, known]
    · left
      exact decode_of_unknown enough known

/-- A reply with the status of an engine that ran out of memory, and sevens everywhere else. -/
def looseReply : Reply := ⟨[0xfd, 0xff, 0xff, 0xff] ++ List.replicate 28 7, rfl⟩

/-- Only status and gas are written again. -/
theorem looseReply_normalised :
    Result.decode looseReply.toList
      = .ok { status := .outOfMemory, gasLeft := 0x0707070707070707 } ∧
    (encode { status := .outOfMemory, gasLeft := 0x0707070707070707 }).toList
      = [0xfd, 0xff, 0xff, 0xff, 0, 0, 0, 0, 7, 7, 7, 7, 7, 7, 7, 7, 0, 0, 0, 0, 0, 0, 0, 0,
        0, 0, 0, 0, 0, 0, 0, 0] := by
  obtain ⟨-, -, -, long, -⟩ := reply_codec
  exact (long looseReply.toList (by decide)).2 .outOfMemory (by decide)

end Result

end ContractHost
