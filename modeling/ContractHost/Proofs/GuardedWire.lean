import ContractHost.Message
import ContractHost.Proofs.Guarded
import ContractHost.Proofs.Words

/-!
# Layouts under guards

Reading and writing fields moves along a buffer.  The end of the next field has to be a place, what
is read is copied to bytes of its own, and what is written is copied into the buffer; only then a
field that is not there is a fault, and a field without room is not written.  For the few layouts
that there are, no such guard is ever in the way.

* `Guarded.Reads` — a reading under guards comes to what it comes to without.
* `Guarded.unpack_reads`, `Guarded.decodeContext_reads`, `Guarded.decodeResult_reads` — the layouts
  that the machine reads.
* `Guarded.pack_eq` and `Guarded.encodeResult_eq` — those that it writes.
-/

namespace ContractHost.Machine.Guarded

variable {α β : Type}

/-! ## Reading -/

/-- A reading that may end with a fault. -/
abbrev Reading (α : Type) := ExceptT Fault Guarded α

/-- The next field, or the cursor as it is left without one. -/
def read (cursor : Cursor) (field : Field) :
    ExceptT Cursor.Failure Guarded (field.Value × Cursor) := do
  let stop ← add placeLimit cursor.offset field.width
  if stop ≤ cursor.buffer.length then
    let bytes ← slice cursor.buffer cursor.offset stop
    let copied ← copy (FixedBytes.zero field.width) 0 field.width bytes
    return (field.decode copied, ⟨cursor.buffer, stop⟩)
  else throw ⟨.malformed "field" stop cursor.buffer.length, cursor⟩

/-- A layout is given up at the first fault. -/
instance (priority := low) : MonadLift (ExceptT Cursor.Failure Guarded) Reading where
  monadLift reading := reading.adapt Cursor.Failure.fault

def skip (cursor : Cursor) (count : Nat) : Reading Cursor := do
  let stop ← add placeLimit cursor.offset count
  return ⟨cursor.buffer, stop⟩

def decodeMessage (buffer : Bytes) : Reading CallMessage :=
  if buffer.length < CallMessage.size then
    throw (.malformed "call message" CallMessage.size buffer.length)
  else do
    let (number, rest) ← read (Cursor.start buffer) .int32
    let kind ← CallKind.ofNumber number
    let (flags, rest) ← read rest .uint32
    let (depth, rest) ← read rest .uint32
    let rest ← skip rest 4
    let (gas, rest) ← read rest .int64
    let (destination, rest) ← read rest (.bytes 20)
    let (sender, rest) ← read rest (.bytes 20)
    let (inputOffset, rest) ← read rest .uint64
    let (inputSize, rest) ← read rest .uint32
    let (value, rest) ← read rest (.bytes 32)
    let (salt, _) ← read rest (.bytes 32)
    return { kind, flags, depth, gas, destination, sender, inputOffset, inputSize, value, salt }

/-- The message and its input.  The end of the input need not be a place: it is a fault if it is
not, and so it is if there are not as many bytes. -/
def unpack (buffer : Bytes) : Reading (CallMessage × Bytes) := do
  let message ← decodeMessage buffer
  let first := message.inputOffset.toNat
  let count := message.inputSize.toNat
  if count = 0 then return (message, [])
  else if CallMessage.lengthLimit < first + count then
    throw (.malformed "message input" CallMessage.lengthLimit buffer.length)
  else if buffer.length < first + count then
    throw (.malformed "message input" (first + count) buffer.length)
  else
    let input ← slice buffer first (first + count)
    return (message, input)

def decodeContext (buffer : Bytes) : Reading TxContext :=
  if buffer.length < TxContext.size then
    throw (.malformed "tx context" TxContext.size buffer.length)
  else do
    let (gasPrice, rest) ← read (Cursor.start buffer) (.bytes 32)
    let (origin, rest) ← read rest (.bytes 20)
    let (coinbase, rest) ← read rest (.bytes 20)
    let (blockNumber, rest) ← read rest .int64
    let (timestamp, rest) ← read rest .int64
    let (gasLimit, rest) ← read rest .int64
    let (difficulty, rest) ← read rest (.bytes 32)
    let (chainId, _) ← read rest (.bytes 32)
    return { gasPrice, origin, coinbase, blockNumber, timestamp, gasLimit, difficulty, chainId }

/-- Where the gas lies in a reply. -/
def gasPlace : Nat := 8

def decodeResult (buffer : Bytes) : Reading Result :=
  if buffer.length < Result.size then
    throw (.malformed "execution result" Result.size buffer.length)
  else do
    let (number, rest) ← read (Cursor.start buffer) .int32
    let gap ← sub gasPlace rest.offset
    let rest ← skip rest gap
    let (gasLeft, _) ← read rest .int64
    let status ← Status.ofNumber number
    return { status, gasLeft }

/-- The reading meets no trap and comes to what it comes to without guards. -/
def Reads {ε : Type} (reading : ExceptT ε Guarded α) (plain : Except ε α) : Prop :=
  reading.run = done plain

section Reads

variable {reading : Reading α} {plain : Except Fault α} {next : α → Reading β}
  {next' : α → Except Fault β}

lemma Reads.pure (value : α) : Reads (Pure.pure value : Reading α) (.ok value) := rfl

lemma Reads.throw (fault : Fault) :
    Reads (MonadExcept.throw fault : Reading α) (.error fault) := rfl

lemma Reads.lift (plain : Except Fault α) : Reads (liftM plain : Reading α) plain := by
  cases plain <;> rfl

lemma lift_done_bind {ε : Type} {next : α → ExceptT ε Guarded β} (value : α) :
    (liftM (done value) : ExceptT ε Guarded α) >>= next = next value := rfl

/-- The fault that ends a reading ends the layout. -/
lemma Reads.adapt {reading : ExceptT Cursor.Failure Guarded α} {plain : Except Cursor.Failure α}
    (reads : Reads reading plain) : Reads (liftM reading : Reading α) (liftM plain) := by
  have run : (liftM reading : Reading α).run = Except.mapError Cursor.Failure.fault <$> reading.run :=
    rfl
  rw [Reads, run, reads]
  rfl

lemma Reads.bind (first : Reads reading plain)
    (second : ∀ value, plain = .ok value → Reads (next value) (next' value)) :
    Reads (reading >>= next) (plain >>= next') := by
  have run : (reading >>= next).run = reading.run >>= ExceptT.bindCont next := rfl
  rw [Reads, run, first, done_bind]
  cases plain with
  | ok value => exact second value rfl
  | error fault => rfl

variable {cursor : Cursor} {place : ℕ}

lemma read_reads {field : Field} (small : cursor.offset + field.width < placeLimit) :
    Reads (read cursor field) (cursor.read field) := by
  rw [read, add_eq small, lift_done_bind, Cursor.read, Cursor.take]
  split_ifs with fits
  · have taken : (cursor.buffer.take (cursor.offset + field.width)).drop cursor.offset
        = (cursor.buffer.drop cursor.offset).take field.width := by
      rw [List.drop_take, Nat.add_sub_cancel_left]
    have length : 0 + ((cursor.buffer.drop cursor.offset).take field.width).length
        = field.width := by
      rw [List.length_take, List.length_drop]
      omega
    rw [slice_eq (Nat.le_add_right ..) fits, lift_done_bind, taken, copy_eq _ length le_rfl,
      lift_done_bind, FixedBytes.splice_whole _ length]
    rfl
  · rfl

/-- A field is read, and what follows starts behind it. -/
lemma Reads.read_bind {field : Field} {next : field.Value × Cursor → Reading β}
    {next' : field.Value × Cursor → Except Fault β} (here : cursor.offset = place)
    (small : place + field.width < placeLimit)
    (second : ∀ value rest, rest.offset = place + field.width →
      Reads (next (value, rest)) (next' (value, rest))) :
    Reads (liftM (read cursor field) >>= next) (liftM (cursor.read field) >>= next') := by
  subst here
  refine Reads.bind (read_reads small).adapt ?_
  rintro ⟨value, rest⟩ taken
  refine second value rest ?_
  rw [Cursor.read, Cursor.take] at taken
  split_ifs at taken <;> cases taken
  rfl

lemma Reads.skip_bind {count : ℕ} {next : Cursor → Reading β} {plain : Except Fault β}
    (small : cursor.offset + count < placeLimit)
    (second : Reads (next (cursor.skip count)) plain) :
    Reads (skip cursor count >>= next) plain := by
  rw [skip, add_eq small, lift_done_bind]
  exact second

end Reads

/-! ## What the machine reads -/

lemma decodeMessage_reads (buffer : Bytes) :
    Reads (decodeMessage buffer) (CallMessage.decode buffer) := by
  rw [decodeMessage, CallMessage.decode]
  split_ifs
  · exact Reads.throw _
  have at0 : (Cursor.start buffer).offset = 0 := rfl
  refine Reads.read_bind at0 (by decide) fun number rest at4 => ?_
  refine Reads.bind (Reads.lift _) fun kind _ => ?_
  refine Reads.read_bind at4 (by decide) fun flags rest at8 => ?_
  refine Reads.read_bind at8 (by decide) fun depth rest at12 => ?_
  refine Reads.skip_bind (by rw [at12]; decide) ?_
  have at16 : (rest.skip 4).offset = 16 := by rw [Cursor.skip, at12]; rfl
  refine Reads.read_bind at16 (by decide) fun gas rest at24 => ?_
  refine Reads.read_bind at24 (by decide) fun destination rest at44 => ?_
  refine Reads.read_bind at44 (by decide) fun sender rest at64 => ?_
  refine Reads.read_bind at64 (by decide) fun inputOffset rest at72 => ?_
  refine Reads.read_bind at72 (by decide) fun inputSize rest at76 => ?_
  refine Reads.read_bind at76 (by decide) fun value rest at108 => ?_
  refine Reads.read_bind at108 (by decide) fun salt rest _ => ?_
  exact Reads.pure _

lemma unpack_reads (buffer : Bytes) : Reads (unpack buffer) (CallMessage.unpack buffer) := by
  refine Reads.bind (decodeMessage_reads buffer) fun message _ => ?_
  dsimp only
  split_ifs with empty large cut
  · exact Reads.pure _
  · exact Reads.throw _
  · exact Reads.throw _
  · rw [slice_eq (Nat.le_add_right ..) (not_lt.1 cut), lift_done_bind, List.drop_take,
      Nat.add_sub_cancel_left]
    exact Reads.pure _

lemma decodeContext_reads (buffer : Bytes) :
    Reads (decodeContext buffer) (TxContext.decode buffer) := by
  rw [decodeContext, TxContext.decode]
  split_ifs
  · exact Reads.throw _
  have at0 : (Cursor.start buffer).offset = 0 := rfl
  refine Reads.read_bind at0 (by decide) fun gasPrice rest at32 => ?_
  refine Reads.read_bind at32 (by decide) fun origin rest at52 => ?_
  refine Reads.read_bind at52 (by decide) fun coinbase rest at72 => ?_
  refine Reads.read_bind at72 (by decide) fun blockNumber rest at80 => ?_
  refine Reads.read_bind at80 (by decide) fun timestamp rest at88 => ?_
  refine Reads.read_bind at88 (by decide) fun gasLimit rest at96 => ?_
  refine Reads.read_bind at96 (by decide) fun difficulty rest at128 => ?_
  refine Reads.read_bind at128 (by decide) fun chainId rest _ => ?_
  exact Reads.pure _

lemma decodeResult_reads (buffer : Bytes) :
    Reads (decodeResult buffer) (Result.decode buffer) := by
  rw [decodeResult, Result.decode]
  split_ifs
  · exact Reads.throw _
  have at0 : (Cursor.start buffer).offset = 0 := rfl
  refine Reads.read_bind at0 (by decide) fun number rest at4 => ?_
  have ahead : rest.offset ≤ gasPlace := at4.trans_le (by decide)
  have gap : gasPlace - rest.offset = 4 := by rw [at4]; rfl
  dsimp only
  rw [sub_eq ahead, lift_done_bind, gap]
  refine Reads.skip_bind (by rw [at4]; decide) ?_
  have at8 : (rest.skip 4).offset = 8 := by rw [Cursor.skip, at4]; rfl
  refine Reads.read_bind at8 (by decide) fun gasLeft rest _ => ?_
  exact Reads.bind (Reads.lift _) fun status _ => Reads.pure _

/-! ## Writing -/

/-- Overwrites the bytes at the place, if they all lie in the buffer. -/
def put (cursor : Cursor) (bytes : Bytes) : Guarded Cursor := do
  let stop ← add placeLimit cursor.offset bytes.length
  if stop ≤ cursor.buffer.length then
    let buffer ← copy ⟨cursor.buffer, rfl⟩ cursor.offset stop bytes
    return ⟨buffer.toList, stop⟩
  else return cursor

def write (cursor : Cursor) (field : Field) (value : field.Value) : Guarded Cursor :=
  put cursor (field.encode value).toList

/-- Writes zero bytes. -/
def pad (cursor : Cursor) (count : Nat) : Guarded Cursor := put cursor (List.replicate count 0)

/-- The header of a message, which has to be full. -/
def encodeMessage (message : CallMessage) : Guarded Bytes := do
  let cursor ← write (Cursor.blank CallMessage.size) .int32 message.kind.number
  let cursor ← write cursor .uint32 message.flags
  let cursor ← write cursor .uint32 message.depth
  let cursor ← pad cursor 4
  let cursor ← write cursor .int64 message.gas
  let cursor ← write cursor (.bytes 20) message.destination
  let cursor ← write cursor (.bytes 20) message.sender
  let cursor ← write cursor .uint64 message.inputOffset
  let cursor ← write cursor .uint32 message.inputSize
  let cursor ← write cursor (.bytes 32) message.value
  let cursor ← write cursor (.bytes 32) message.salt
  if cursor.offset = CallMessage.size then done cursor.buffer else trap .misfit

def pack (message : CallMessage) (input : Bytes) : Guarded (Except Fault Bytes) :=
  if input.length < UInt32.size then do
    let _ ← add placeLimit CallMessage.size input.length
    let header ← encodeMessage (message.withInput input.length)
    return .ok (header ++ input)
  else return .error (.violation (.inputTooLong input.length))

def encodeResult (result : Result) : Guarded Bytes := do
  let cursor ← write (Cursor.blank Result.size) .int32 result.status.number
  let gap ← sub gasPlace cursor.offset
  let cursor ← pad cursor gap
  let cursor ← write cursor .int64 result.gasLeft
  let reserved ← sub Result.size cursor.offset
  let cursor ← pad cursor reserved
  return cursor.buffer

/-- The cursor is at a place in a buffer of some size. -/
structure At (size place : ℕ) (cursor : Cursor) : Prop where
  here : cursor.offset = place
  length : cursor.buffer.length = size

section Writes

variable {cursor : Cursor} {size place : ℕ} {result : Guarded β} {next : Cursor → Guarded β}

lemma put_eq {bytes : Bytes} (small : cursor.offset + bytes.length < placeLimit) :
    put cursor bytes = done (cursor.put bytes) := by
  rw [put, add_eq small, done_bind, Cursor.put]
  split_ifs with fits
  · rw [copy_eq _ rfl fits, done_bind]
    rfl
  · rfl

/-- Bytes that fit are written, and what follows starts behind them. -/
lemma put_bind {bytes : Bytes} (ready : At size place cursor) (small : size < placeLimit)
    (fits : place + bytes.length ≤ size)
    (further : At size (place + bytes.length) (cursor.put bytes) →
      next (cursor.put bytes) = result) :
    put cursor bytes >>= next = result := by
  obtain ⟨rfl, rfl⟩ := ready
  rw [put_eq (fits.trans_lt small), done_bind]
  refine further ⟨?_, Cursor.length_put ..⟩
  rw [Cursor.put, if_pos fits]

lemma write_bind {field : Field} {value : field.Value} (ready : At size place cursor)
    (small : size < placeLimit) (fits : place + field.width ≤ size)
    (further : At size (place + field.width) (cursor.write field value) →
      next (cursor.write field value) = result) :
    write cursor field value >>= next = result := by
  have length : (field.encode value).toList.length = field.width := FixedBytes.length_toList _
  refine put_bind ready small (length.symm ▸ fits) fun ready => further ?_
  rw [length] at ready
  exact ready

lemma pad_bind {count : ℕ} (ready : At size place cursor) (small : size < placeLimit)
    (fits : place + count ≤ size)
    (further : At size (place + count) (cursor.pad count) → next (cursor.pad count) = result) :
    pad cursor count >>= next = result := by
  have length : (List.replicate count (0 : UInt8)).length = count := List.length_replicate
  rw [Cursor.pad_eq_put] at further
  refine put_bind ready small (length.symm ▸ fits) fun ready => further ?_
  rw [length] at ready
  exact ready

end Writes

/-! ## What the machine writes -/

lemma encodeMessage_eq (message : CallMessage) :
    encodeMessage message = done message.encode.toList := by
  have small : CallMessage.size < placeLimit := by decide
  have ready : At CallMessage.size 0 (Cursor.blank CallMessage.size) :=
    ⟨rfl, Cursor.length_blank _⟩
  iterate 3 refine write_bind ready small (by decide) fun ready => ?_
  refine pad_bind ready small (by decide) fun ready => ?_
  iterate 7 refine write_bind ready small (by decide) fun ready => ?_
  exact if_pos ready.here

lemma pack_eq (message : CallMessage) (input : Bytes) :
    pack message input = done (message.pack input) := by
  rw [pack, CallMessage.pack]
  split_ifs with fits
  · have room : CallMessage.size + input.length < placeLimit := by
      have limit : CallMessage.size + UInt32.size < placeLimit := by decide
      omega
    rw [add_eq room, done_bind, encodeMessage_eq, done_bind]
    rfl
  · rfl

lemma encodeResult_eq (result : Result) : encodeResult result = done result.encode.toList := by
  have small : Result.size < placeLimit := by decide
  have ready : At Result.size 0 (Cursor.blank Result.size) := ⟨rfl, Cursor.length_blank _⟩
  have gap : sub gasPlace (0 + Field.int32.width) = done 4 := rfl
  have reserved : sub Result.size (0 + Field.int32.width + 4 + Field.int64.width) = done 16 := rfl
  refine write_bind ready small (by decide) fun ready => ?_
  rw [ready.here, gap, done_bind]
  refine pad_bind ready small (by decide) fun ready => ?_
  refine write_bind ready small (by decide) fun ready => ?_
  rw [ready.here, reserved, done_bind]
  refine pad_bind ready small (by decide) fun _ => ?_
  rw [pure_eq, Result.encode]

end ContractHost.Machine.Guarded
