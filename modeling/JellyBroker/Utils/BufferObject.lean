import JellyBroker.Lib.DataRefinement
import JellyBroker.Utils.Buffer
/-!
# Buffer objects

`Buffer` as the class has it: storage with a read and a write position.  What can be
read is the part between the positions; what lies before is consumed, and what lies
behind is storage that was resized and not written yet.  The readers of the class refine
`Reader`, which knows only the readable part.

Positions and lengths are sizes of objects in memory, so their sums do not wrap.
-/

namespace JellyBroker.Utils

open JellyBroker.Lib

structure Buffer where
  data : Bytes
  readPos : Nat
  writePos : Nat
  readPos_le : readPos ≤ writePos
  writePos_le : writePos ≤ data.length

namespace Buffer

def empty : Buffer := ⟨[], 0, 0, le_refl _, le_refl _⟩

def ofBytes (bytes : Bytes) : Buffer where
  data := bytes
  readPos := 0
  writePos := bytes.length
  readPos_le := Nat.zero_le _
  writePos_le := le_refl _

def view (b : Buffer) : Bytes := (b.data.take b.writePos).drop b.readPos

def readable (b : Buffer) : Nat := b.writePos - b.readPos

def size (b : Buffer) : Nat := b.writePos

theorem length_view (b : Buffer) : b.view.length = b.readable := by
  have hwrite := b.writePos_le
  simp [view, readable, Nat.min_eq_left hwrite]

@[simp] theorem view_ofBytes (bytes : Bytes) : (ofBytes bytes).view = bytes := by
  simp [view, ofBytes]

/-! ## Writing -/

/-- `resize`, which fills with zeros or cuts. -/
def resized (data : Bytes) (size : Nat) : Bytes :=
  data.take size ++ List.replicate (size - data.length) 0

def overwritten (data : Bytes) (pos : Nat) (src : Bytes) : Bytes :=
  data.take pos ++ src ++ data.drop (pos + src.length)

theorem length_resized (data : Bytes) (size : Nat) : (resized data size).length = size := by
  rw [resized, List.length_append, List.length_take, List.length_replicate]
  omega

theorem length_overwritten {data : Bytes} {pos : Nat} {src : Bytes}
    (h : pos + src.length ≤ data.length) : (overwritten data pos src).length = data.length := by
  rw [overwritten, List.length_append, List.length_append, List.length_take, List.length_drop]
  omega

theorem take_resized {data : Bytes} {pos size : Nat} (hpos : pos ≤ data.length)
    (hsize : pos ≤ size) : (resized data size).take pos = data.take pos := by
  rw [resized, List.take_append_of_le_length, List.take_take, Nat.min_eq_left hsize]
  rw [List.length_take]
  omega

theorem take_overwritten {data : Bytes} {pos : Nat} (src : Bytes) (h : pos ≤ data.length) :
    (overwritten data pos src).take (pos + src.length) = data.take pos ++ src := by
  rw [overwritten, List.take_append_of_le_length, List.take_of_length_le]
  · rw [List.length_append, List.length_take]
    omega
  · rw [List.length_append, List.length_take]
    omega

/-- `ensure_writable`, and the first part of `write`. -/
def ensureWritable (n : Nat) (b : Buffer) : Buffer where
  data := if b.writePos + n > b.data.length then resized b.data (b.writePos + n) else b.data
  readPos := b.readPos
  writePos := b.writePos
  readPos_le := b.readPos_le
  writePos_le := by
    have hwrite := b.writePos_le
    split
    · rw [length_resized]
      omega
    · exact hwrite

theorem room_ensureWritable (n : Nat) (b : Buffer) :
    (ensureWritable n b).writePos + n ≤ (ensureWritable n b).data.length := by
  unfold ensureWritable
  dsimp only
  split
  · rw [length_resized]
  · omega

theorem take_ensureWritable (n : Nat) (b : Buffer) :
    (ensureWritable n b).data.take b.writePos = b.data.take b.writePos := by
  unfold ensureWritable
  dsimp only
  split
  · exact take_resized b.writePos_le (Nat.le_add_right _ _)
  · rfl

/-- Bytes put at the write head and the position behind them: `write`, or a read of the
socket followed by `advance_write`. -/
def fill (src : Bytes) (b : Buffer) (h : b.writePos + src.length ≤ b.data.length) : Buffer where
  data := overwritten b.data b.writePos src
  readPos := b.readPos
  writePos := b.writePos + src.length
  readPos_le := b.readPos_le.trans (Nat.le_add_right _ _)
  writePos_le := by
    rw [length_overwritten h]
    exact h

def write (src : Bytes) (b : Buffer) : Buffer :=
  fill src (ensureWritable src.length b) (room_ensureWritable _ b)

theorem view_fill {src : Bytes} {b : Buffer} (h : b.writePos + src.length ≤ b.data.length) :
    (fill src b h).view = b.view ++ src := by
  have hread := b.readPos_le
  have hwrite := b.writePos_le
  change ((overwritten b.data b.writePos src).take (b.writePos + src.length)).drop b.readPos = _
  rw [take_overwritten src hwrite, List.drop_append_of_le_length]
  · rfl
  · rw [List.length_take]
    omega

theorem view_write (src : Bytes) (b : Buffer) : (b.write src).view = b.view ++ src := by
  have hkept : (ensureWritable src.length b).view = b.view := by
    change ((ensureWritable src.length b).data.take b.writePos).drop b.readPos = _
    rw [take_ensureWritable]
    rfl
  rw [write, view_fill, hkept]

def clear (_ : Buffer) : Buffer := empty

def writeByte (byte : UInt8) (b : Buffer) : Buffer := b.write [byte]

def writeUint16 (v : UInt16) (b : Buffer) : Buffer := b.write [(v >>> 8).toUInt8, v.toUInt8]

def writeString (s : Bytes) (b : Buffer) : Buffer :=
  (b.writeUint16 (UInt16.ofNat s.length)).write s

/-- The loop of `write_remaining_length`: a 32-bit value has at most five groups. -/
def writeGroups : Nat → Nat → Buffer → Buffer
  | 0, _, b => b
  | groups + 1, v, b =>
      let enc := UInt8.ofNat (v % 128)
      if v / 128 > 0 then writeGroups groups (v / 128) (b.writeByte (enc ||| 0x80))
      else b.writeByte enc

def writeRemainingLength (v : Nat) (b : Buffer) : Buffer := writeGroups 5 (v % 2 ^ 32) b

theorem view_writeUint16 (v : UInt16) (b : Buffer) :
    (b.writeUint16 v).view = b.view ++ Utils.writeUint16 v := view_write _ b

theorem view_writeString (s : Bytes) (b : Buffer) :
    (b.writeString s).view = b.view ++ Utils.writeString s := by
  rw [writeString, view_write, view_writeUint16, Utils.writeString, List.append_assoc]

theorem view_writeGroups (groups v : Nat) (b : Buffer) :
    (writeGroups groups v b).view = b.view ++ Utils.writeGroups groups v := by
  induction groups generalizing v b with
  | zero => rw [writeGroups, Utils.writeGroups, List.append_nil]
  | succ groups ih =>
      rw [writeGroups, Utils.writeGroups]
      split_ifs
      · rw [ih, writeByte, view_write, List.append_assoc, List.singleton_append]
      · rw [writeByte, view_write]

theorem view_writeRemainingLength (v : Nat) (b : Buffer) :
    (b.writeRemainingLength v).view = b.view ++ Utils.writeRemainingLength v :=
  view_writeGroups 5 _ b

/-! ## Reading -/

abbrev Use := StateT Buffer (Except Exception)

def advance (len : Nat) (b : Buffer) (h : b.readPos + len ≤ b.writePos) : Buffer :=
  { b with readPos := b.readPos + len, readPos_le := h }

theorem view_advance {len : Nat} {b : Buffer} (h : b.readPos + len ≤ b.writePos) :
    (advance len b h).view = b.view.drop len := by
  rw [view, view, List.drop_drop]
  rfl

/-- The bytes from the read position on, which may go beyond the write position. -/
def peek (len : Nat) (b : Buffer) : Bytes := (b.data.drop b.readPos).take len

theorem peek_eq {len : Nat} {b : Buffer} (h : b.readPos + len ≤ b.writePos) :
    b.peek len = b.view.take len := by
  rw [peek, view, List.drop_take, List.take_take, Nat.min_eq_left (by omega)]

def read (len : Nat) : Use Bytes := fun b =>
  if h : b.readPos + len ≤ b.writePos then .ok (b.peek len, b.advance len h)
  else .error .bufferUnderflow

def readByte : Use UInt8 := do
  let bytes ← read 1
  return bytes.headD 0

def readUint16 : Use UInt16 := do
  let bytes ← read 2
  return (bytes.headD 0).toUInt16 <<< 8 ||| (bytes.getD 1 0).toUInt16

def readString : Use Bytes := do
  let len ← readUint16
  read len.toNat

def skip (n : Nat) : Use Unit := fun b =>
  if h : b.readPos + n ≤ b.writePos then .ok ((), b.advance n h)
  else .error .bufferSkipUnderflow

/-- The loop of `read_remaining_length`, which runs at most five times. -/
def remainingLengthFrom : Nat → Nat → Nat → Nat → Use Nat
  | 0, _, _, _ => throw .malformedRemainingLength
  | turns + 1, value, multiplier, count => do
      if (← get).readable = 0 then throw .incompleteRemainingLength
      let enc ← readByte
      let value := (value + (enc &&& 0x7f).toNat * multiplier) % 2 ^ 32
      if count + 1 > 4 then throw .malformedRemainingLength
      else if enc &&& 0x80 = 0 then return value
      else remainingLengthFrom turns value (multiplier * 128) (count + 1)

def readRemainingLength : Use Nat := remainingLengthFrom 5 0 1 0

theorem read_refines (len : Nat) : Refines view (read len) (Reader.bytes len) := by
  intro b
  have hlength := b.length_view
  have hread := b.readPos_le
  unfold readable at hlength
  unfold read Reader.bytes
  by_cases h : b.readPos + len ≤ b.writePos
  · rw [dif_pos h, if_neg (by omega), ← view_advance h, ← peek_eq h]
    rfl
  · rw [dif_neg h, if_pos (by omega)]
    rfl

theorem readByte_refines : Refines view readByte Reader.byte := by
  have hbyte : Reader.byte = (do let bytes ← Reader.bytes 1; return bytes.headD 0) := by
    funext buf
    cases buf with
    | nil => rfl
    | cons b rest => rfl
  rw [hbyte]
  exact (read_refines 1).bind fun bytes => .pure _

theorem readUint16_refines : Refines view readUint16 Reader.uint16 := by
  have huint16 : Reader.uint16 = (do
      let bytes ← Reader.bytes 2
      return (bytes.headD 0).toUInt16 <<< 8 ||| (bytes.getD 1 0).toUInt16) := by
    funext buf
    cases buf with
    | nil => rfl
    | cons high rest =>
        cases rest with
        | nil => rfl
        | cons low rest => rfl
  rw [huint16]
  exact (read_refines 2).bind fun bytes => .pure _

theorem readString_refines : Refines view readString Reader.string :=
  readUint16_refines.bind fun len => read_refines len.toNat

theorem skip_refines (n : Nat) : Refines view (skip n) (Reader.skip n) := by
  intro b
  have hlength := b.length_view
  have hread := b.readPos_le
  unfold readable at hlength
  unfold skip Reader.skip
  by_cases h : b.readPos + n ≤ b.writePos
  · rw [dif_pos h, if_neg (by omega), ← view_advance h]
    rfl
  · rw [dif_neg h, if_pos (by omega)]
    rfl

theorem remainingLengthFrom_eq (value multiplier count : Nat) :
    @Eq (Reader Nat) (Reader.remainingLengthFrom value multiplier count) (do
      if (← get).isEmpty then throw .incompleteRemainingLength
      let enc ← Reader.byte
      if count + 1 > 4 then throw .malformedRemainingLength
      else if enc &&& 0x80 = 0 then
        return (value + (enc &&& 0x7f).toNat * multiplier) % 2 ^ 32
      else
        Reader.remainingLengthFrom ((value + (enc &&& 0x7f).toNat * multiplier) % 2 ^ 32)
          (multiplier * 128) (count + 1)) := by
  funext buf
  cases buf with
  | nil => rfl
  | cons enc rest =>
      rw [Reader.remainingLengthFrom]
      change _ = (if count + 1 > 4 then throw Exception.malformedRemainingLength
        else if enc &&& 0x80 = 0 then
          pure ((value + (enc &&& 0x7f).toNat * multiplier) % 2 ^ 32)
        else Reader.remainingLengthFrom ((value + (enc &&& 0x7f).toNat * multiplier) % 2 ^ 32)
          (multiplier * 128) (count + 1) : Reader Nat) rest
      split_ifs
      · rfl
      · rfl
      · rfl

theorem remainingLengthFrom_refines {turns count : Nat} (h : turns + count = 5) (hcount : count ≤ 4)
    (value multiplier : Nat) :
    Refines view (remainingLengthFrom turns value multiplier count)
      (Reader.remainingLengthFrom value multiplier count) := by
  induction turns generalizing value multiplier count with
  | zero => omega
  | succ turns ih =>
      rw [remainingLengthFrom_eq, remainingLengthFrom]
      apply Refines.get
      intro b
      have hempty : (b.readable = 0) = (b.view.isEmpty = true) := by
        rw [← length_view, List.isEmpty_iff, List.length_eq_zero_iff]
      by_cases hnone : b.readable = 0
      · have hview : b.view.isEmpty = true := hempty ▸ hnone
        rw [if_pos hnone, if_pos hview]
        rfl
      · have hview : ¬b.view.isEmpty = true := hempty ▸ hnone
        rw [if_neg hnone, if_neg hview]
        refine readByte_refines.bind (fun enc => ?_) b
        dsimp only
        by_cases hlast : count + 1 > 4
        · rw [if_pos hlast, if_pos hlast]
          exact .throw _
        · rw [if_neg hlast, if_neg hlast]
          exact .ite (.pure _) (ih (by omega) (by omega) _ _)

theorem readRemainingLength_refines :
    Refines view readRemainingLength Reader.remainingLength :=
  remainingLengthFrom_refines rfl (by decide) 0 1

end Buffer

end JellyBroker.Utils
