import ContractHost.Proofs.GuardedWire

/-!
# Fields in a row

Every layout is a sequence of fields and padding that is written from some place on, and it is read
by going through the same sequence again.  What makes this work is that each part keeps to its own
bytes: it overwrites as many bytes as it is wide and nothing else, so what was written before it
stays and what is written after it does not matter.

A cursor is therefore taken apart at its place and at the end of what is to be written
(`Cursor.exists_between`), and a part moves the first cut behind itself.

* `Part`, `Slot` — a part of a sequence with its value, and what is known of it when it is read.
* `Cursor.writeAll_between`, `Cursor.readAll_between` — a whole sequence, written and read.
* `Cursor.put_of_cut`, `Cursor.read_of_cut` — what does not fit.
* **`Cursor.sequence_exact`** — all of it, for any buffer, place and sequence.
-/

namespace ContractHost

/-! ## Sequences -/

/-- A part of a layout.  An address is a byte string of 20 bytes in it, and a word one of 32. -/
inductive Part where
  | entry (field : Field) (value : field.Value)
  | padding (count : ℕ)

/-- The kind of a part, without its value. -/
inductive Slot where
  | entry (field : Field)
  | padding (count : ℕ)

/-- A value together with the type of its field. -/
abbrev FieldValue := (field : Field) × field.Value

namespace Part

def width : Part → ℕ
  | entry field _ => field.width
  | padding count => count

def slot : Part → Slot
  | entry field _ => .entry field
  | padding count => .padding count

/-- The bytes that are written for a part. -/
def image : Part → Bytes
  | entry field value => (field.encode value).toList
  | padding count => List.replicate count 0

def value? : Part → Option FieldValue
  | entry field value => some ⟨field, value⟩
  | padding _ => none

/-- The values in a sequence, without the padding between them. -/
def values (parts : List Part) : List FieldValue := parts.filterMap value?

def totalWidth (parts : List Part) : ℕ := (parts.map width).sum

def images (parts : List Part) : Bytes := parts.flatMap image

lemma length_image (part : Part) : part.image.length = part.width := by
  cases part with
  | entry field value => exact FixedBytes.length_toList _
  | padding count => exact List.length_replicate

lemma totalWidth_cons (part : Part) (parts : List Part) :
    totalWidth (part :: parts) = part.width + totalWidth parts := by
  rw [totalWidth, List.map_cons, List.sum_cons, totalWidth]

lemma totalWidth_append (parts others : List Part) :
    totalWidth (parts ++ others) = totalWidth parts + totalWidth others := by
  simp only [totalWidth, List.map_append, List.sum_append]

lemma images_cons (part : Part) (parts : List Part) :
    images (part :: parts) = part.image ++ images parts := List.flatMap_cons

lemma images_append (parts others : List Part) :
    images (parts ++ others) = images parts ++ images others := List.flatMap_append

lemma length_images (parts : List Part) : (images parts).length = totalWidth parts := by
  induction parts with
  | nil => rfl
  | cons part parts ih =>
      rw [images_cons, List.length_append, length_image, ih, totalWidth_cons]

end Part

namespace Cursor

def writePart (cursor : Cursor) : Part → Cursor
  | .entry field value => cursor.write field value
  | .padding count => cursor.pad count

/-- Writes one part after the other. -/
def writeAll (cursor : Cursor) (parts : List Part) : Cursor := parts.foldl writePart cursor

/-- Reads one field after the other and passes over the padding. -/
def readAll (cursor : Cursor) : List Slot → Except Failure (List FieldValue × Cursor)
  | [] => .ok ([], cursor)
  | .padding count :: slots => readAll (cursor.skip count) slots
  | .entry field :: slots => do
    let (value, rest) ← cursor.read field
    let (values, stop) ← readAll rest slots
    return (⟨field, value⟩ :: values, stop)

/-! ## Writing and reading between two cuts -/

/-- As many bytes as are overwritten make room for what overwrites them. -/
lemma put_between (front : Bytes) {old bytes : Bytes} (length : old.length = bytes.length)
    (rest : Bytes) :
    (between front (old ++ rest)).put bytes = between (front ++ bytes) rest := by
  have fits : front.length + bytes.length ≤ (front ++ (old ++ rest)).length := by
    simp only [List.length_append, length]
    omega
  have behind : (front ++ (old ++ rest)).drop (front.length + bytes.length) = rest := by
    rw [← List.append_assoc, ← length, ← List.length_append, List.drop_left]
  rw [put, between, between]
  dsimp only
  rw [if_pos fits, List.take_left, behind, List.length_append]

lemma writePart_between (part : Part) (front : Bytes) {old : Bytes}
    (length : old.length = part.width) (rest : Bytes) :
    (between front (old ++ rest)).writePart part = between (front ++ part.image) rest := by
  have room : old.length = part.image.length := length.trans part.length_image.symm
  cases part with
  | entry field value => exact put_between front room rest
  | padding count =>
      rw [writePart, pad_eq_put]
      exact put_between front room rest

/-- **A sequence is written in place of as many bytes.** -/
theorem writeAll_between (parts : List Part) (front : Bytes) {old : Bytes}
    (length : old.length = Part.totalWidth parts) (rest : Bytes) :
    (between front (old ++ rest)).writeAll parts
      = between (front ++ Part.images parts) rest := by
  induction parts generalizing front old with
  | nil =>
      obtain rfl := List.eq_nil_of_length_eq_zero length
      rw [Part.images, List.flatMap_nil, List.append_nil, List.nil_append]
      rfl
  | cons part parts ih =>
      rw [Part.totalWidth_cons] at length
      -- the first part takes its share of the old bytes, and the cut moves behind it
      have first : (old.take part.width).length = part.width := by
        rw [List.length_take, length]
        omega
      have others : (old.drop part.width).length = Part.totalWidth parts := by
        rw [List.length_drop, length, Nat.add_sub_cancel_left]
      rw [← List.take_append_drop part.width old, List.append_assoc, writeAll, List.foldl_cons,
        writePart_between part front first, ← writeAll, ih _ others, Part.images_cons,
        List.append_assoc]

/-- **A sequence is read where its bytes lie.** -/
theorem readAll_between (parts : List Part) (front rest : Bytes) :
    (between front (Part.images parts ++ rest)).readAll (parts.map Part.slot)
      = .ok (Part.values parts, between (front ++ Part.images parts) rest) := by
  induction parts generalizing front with
  | nil =>
      rw [Part.images, List.flatMap_nil, List.append_nil, List.nil_append]
      rfl
  | cons part parts ih =>
      rw [Part.images_cons, List.append_assoc, ← List.append_assoc front]
      cases part with
      | entry field value =>
          simp only [List.map_cons, Part.slot, Part.image, readAll, read_between, ih, bind,
            Except.bind]
          rfl
      | padding count =>
          simp only [List.map_cons, Part.slot, Part.image, readAll,
            skip_between _ List.length_replicate, ih]
          rfl

/-- A cursor with room for some bytes lies between what is before its place, and these bytes. -/
lemma exists_between (cursor : Cursor) {width : ℕ}
    (fits : cursor.offset + width ≤ cursor.buffer.length) :
    ∃ front old rest, old.length = width ∧ cursor = between front (old ++ rest) := by
  refine ⟨cursor.buffer.take cursor.offset, (cursor.buffer.drop cursor.offset).take width,
    (cursor.buffer.drop cursor.offset).drop width, ?_, ?_⟩
  · rw [List.length_take, List.length_drop]
    omega
  · have here : (cursor.buffer.take cursor.offset).length = cursor.offset := by
      rw [List.length_take]
      omega
    rw [between, here, List.take_append_drop, List.take_append_drop]

/-! ## A whole sequence -/

@[simp] lemma length_writePart (cursor : Cursor) (part : Part) :
    (cursor.writePart part).buffer.length = cursor.buffer.length := by
  cases part with
  | entry field value => exact length_write cursor field value
  | padding count => exact length_pad cursor count

lemma length_writeAll (cursor : Cursor) (parts : List Part) :
    (cursor.writeAll parts).buffer.length = cursor.buffer.length := by
  induction parts generalizing cursor with
  | nil => rfl
  | cons part parts ih => rw [writeAll, List.foldl_cons, ← writeAll, ih, length_writePart]

section Fits

variable {cursor : Cursor} {parts : List Part}

/-- A sequence that fits replaces the bytes between two cuts. -/
lemma exists_writeAll (fits : cursor.offset + Part.totalWidth parts ≤ cursor.buffer.length) :
    ∃ front old rest, old.length = Part.totalWidth parts ∧
      cursor = between front (old ++ rest) ∧
      cursor.writeAll parts = between (front ++ Part.images parts) rest := by
  obtain ⟨front, old, rest, length, rfl⟩ := cursor.exists_between fits
  exact ⟨front, old, rest, length, rfl, writeAll_between parts front length rest⟩

variable (fits : cursor.offset + Part.totalWidth parts ≤ cursor.buffer.length)

include fits

lemma offset_writeAll :
    (cursor.writeAll parts).offset = cursor.offset + Part.totalWidth parts := by
  obtain ⟨front, old, rest, -, rfl, written⟩ := exists_writeAll fits
  rw [written, between, between, List.length_append, Part.length_images]

/-- Outside its own bytes a sequence changes nothing. -/
lemma getElem?_writeAll_outside {place : ℕ}
    (outside : place < cursor.offset ∨ cursor.offset + Part.totalWidth parts ≤ place) :
    (cursor.writeAll parts).buffer[place]? = cursor.buffer[place]? := by
  obtain ⟨front, old, rest, length, rfl, written⟩ := exists_writeAll fits
  have same := Part.length_images parts
  rw [written]
  simp only [between, List.append_assoc] at outside ⊢
  obtain before | behind := outside
  · rw [List.getElem?_append_left before, List.getElem?_append_left before]
  · have far : front.length ≤ place := by omega
    rw [List.getElem?_append_right far, List.getElem?_append_right far,
      List.getElem?_append_right (by omega), List.getElem?_append_right (by omega), same, length]

/-- Inside them stands what was written, whatever was there. -/
lemma getElem?_writeAll_inside {place : ℕ} (inside : place < Part.totalWidth parts) :
    (cursor.writeAll parts).buffer[cursor.offset + place]? = (Part.images parts)[place]? := by
  obtain ⟨front, old, rest, -, rfl, written⟩ := exists_writeAll fits
  rw [← Part.length_images] at inside
  rw [written]
  simp only [between, List.append_assoc]
  rw [List.getElem?_append_right (Nat.le_add_right ..), Nat.add_sub_cancel_left,
    List.getElem?_append_left inside]

/-- What was written is read from the same place, and the reading ends where the writing did. -/
lemma readAll_writeAll :
    readAll ⟨(cursor.writeAll parts).buffer, cursor.offset⟩ (parts.map Part.slot)
      = .ok (Part.values parts, cursor.writeAll parts) := by
  obtain ⟨front, old, rest, -, rfl, written⟩ := exists_writeAll fits
  rw [written, ← readAll_between, between, between, List.append_assoc]
  rfl

lemma getElem?_writeAll_padding {before after : List Part} {count place : ℕ}
    (here : parts = before ++ .padding count :: after) (inside : place < count) :
    (cursor.writeAll parts).buffer[cursor.offset + (Part.totalWidth before + place)]?
      = some 0 := by
  have start := Part.length_images before
  have width : Part.totalWidth before + place < Part.totalWidth parts := by
    rw [here, Part.totalWidth_append, Part.totalWidth_cons, Part.width]
    omega
  rw [getElem?_writeAll_inside fits width, here, Part.images_append, Part.images_cons, ← start,
    List.getElem?_append_right (Nat.le_add_right ..), Nat.add_sub_cancel_left, Part.image,
    List.getElem?_append_left (by rwa [List.length_replicate]),
    List.getElem?_replicate_of_lt inside]

end Fits

/-! ## What does not fit -/

section Cut

variable {cursor : Cursor}

lemma put_of_cut {bytes : Bytes} (cut : cursor.buffer.length < cursor.offset + bytes.length) :
    cursor.put bytes = cursor := by
  rw [put, if_neg (not_le.2 cut)]

lemma guarded_put_of_cut {bytes : Bytes}
    (cut : cursor.buffer.length < cursor.offset + bytes.length)
    (small : cursor.offset + bytes.length < Machine.Guarded.placeLimit) :
    Machine.Guarded.put cursor bytes = .done cursor := by
  rw [Machine.Guarded.put_eq small, put_of_cut cut]

lemma write_of_cut {field : Field} (value : field.Value)
    (cut : cursor.buffer.length < cursor.offset + field.width) :
    cursor.write field value = cursor := by
  have length : (field.encode value).toList.length = field.width := FixedBytes.length_toList _
  exact put_of_cut (length.symm ▸ cut)

lemma pad_of_cut {count : ℕ} (cut : cursor.buffer.length < cursor.offset + count) :
    cursor.pad count = cursor := by
  rw [pad, if_neg (not_le.2 cut)]

/-- The reading fails where it started. -/
lemma read_of_cut {field : Field} (cut : cursor.buffer.length < cursor.offset + field.width) :
    cursor.read field
      = .error ⟨.malformed "field" (cursor.offset + field.width) cursor.buffer.length, cursor⟩ := by
  rw [read, take, dif_neg (not_le.2 cut)]

end Cut

/-- **Fields in a row are read as they were written, and nothing else is touched.**  A sequence that
fits moves the place by exactly as many bytes as it is wide, and leaves every byte outside of them
and the size of the buffer as they were.  Reading the same kinds of parts from the same place gives
the values that were written and ends at the same place; the bytes of padding are zero, whatever
they were.  A field or a padding that does not fit is not written at all, and reading such a field
is a fault that names the end that was needed; both leave the cursor as it was, its buffer and its
place.  As long as this end is a place, no guard is in the way. -/
theorem sequence_exact :
    (∀ (cursor : Cursor) (parts : List Part),
      cursor.offset + Part.totalWidth parts ≤ cursor.buffer.length →
      (cursor.writeAll parts).offset = cursor.offset + Part.totalWidth parts ∧
      (cursor.writeAll parts).buffer.length = cursor.buffer.length ∧
      (∀ place, place < cursor.offset ∨ cursor.offset + Part.totalWidth parts ≤ place →
        (cursor.writeAll parts).buffer[place]? = cursor.buffer[place]?) ∧
      readAll ⟨(cursor.writeAll parts).buffer, cursor.offset⟩ (parts.map Part.slot)
        = .ok (Part.values parts, cursor.writeAll parts) ∧
      ∀ before count after, parts = before ++ .padding count :: after → ∀ place < count,
        (cursor.writeAll parts).buffer[cursor.offset + (Part.totalWidth before + place)]?
          = some 0) ∧
    (∀ (cursor : Cursor) (field : Field) (value : field.Value),
      cursor.buffer.length < cursor.offset + field.width →
      cursor.offset + field.width < 2 ^ 64 →
      cursor.write field value = cursor ∧
      cursor.read field
        = .error ⟨.malformed "field" (cursor.offset + field.width) cursor.buffer.length, cursor⟩ ∧
      Machine.Guarded.write cursor field value = .done cursor ∧
      Machine.Guarded.Reads (Machine.Guarded.read cursor field) (cursor.read field)) ∧
    ∀ (cursor : Cursor) (count : ℕ),
      cursor.buffer.length < cursor.offset + count → cursor.offset + count < 2 ^ 64 →
      cursor.pad count = cursor ∧ Machine.Guarded.pad cursor count = .done cursor := by
  refine ⟨fun cursor parts fits => ?_, fun cursor field value cut small => ?_,
    fun cursor count cut small => ?_⟩
  · exact ⟨offset_writeAll fits, length_writeAll cursor parts,
      fun place => getElem?_writeAll_outside fits, readAll_writeAll fits,
      fun before count after here place => getElem?_writeAll_padding fits here⟩
  · have length : (field.encode value).toList.length = field.width := FixedBytes.length_toList _
    refine ⟨write_of_cut value cut, read_of_cut cut, ?_, Machine.Guarded.read_reads small⟩
    exact guarded_put_of_cut (length.symm ▸ cut) (length.symm ▸ small)
  · have length : (List.replicate count (0 : UInt8)).length = count := List.length_replicate
    exact ⟨pad_of_cut cut, guarded_put_of_cut (length.symm ▸ cut) (length.symm ▸ small)⟩

/-- A place in a buffer that holds something else. -/
def stale : Cursor := ⟨List.replicate 16 0xff, 2⟩

/-- A negative number, padding and two bytes. -/
def mixed : List Part :=
  [.entry .int32 (-2), .padding 3, .entry (.bytes 2) ⟨[0xab, 0xcd], rfl⟩]

/-- They are written over what was there, and twenty bytes would not have fitted. -/
theorem stale_mixed :
    (stale.writeAll mixed).offset = 11 ∧
    (stale.writeAll mixed).buffer[1]? = some 0xff ∧
    (stale.writeAll mixed).buffer[6]? = some 0 ∧
    readAll ⟨(stale.writeAll mixed).buffer, 2⟩ [.entry .int32, .padding 3, .entry (.bytes 2)]
      = .ok ([⟨.int32, -2⟩, ⟨.bytes 2, ⟨[0xab, 0xcd], rfl⟩⟩], stale.writeAll mixed) ∧
    stale.read (.bytes 20) = .error ⟨.malformed "field" 22 16, stale⟩ ∧
    stale.pad 15 = stale := by
  obtain ⟨whole, cut, cutPadding⟩ := sequence_exact
  obtain ⟨moved, -, outside, read, blank⟩ := whole stale mixed (by decide)
  refine ⟨moved, (outside 1 (by decide)).trans rfl, ?_, read, ?_, ?_⟩
  · exact blank [.entry .int32 (-2)] 3 [.entry (.bytes 2) ⟨[0xab, 0xcd], rfl⟩] rfl 0 (by decide)
  · exact (cut stale (.bytes 20) default (by decide) (by decide)).2.1
  · exact (cutPadding stale 15 (by decide) (by decide)).1

end Cursor

end ContractHost
