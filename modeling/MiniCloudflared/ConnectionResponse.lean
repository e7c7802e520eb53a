import MiniCloudflared.CapnpRpc
import MiniCloudflared.Library.Outcome

namespace MiniCloudflared.ConnectionResponse

open Library Capnp HttpTypes Outcome

/-- A slice has at most `isize::MAX` bytes. -/
structure Slice where
  bytes : Bytes
  short : bytes.length < 2 ^ 63

def number (n : Nat) : Str := (Nat.repr n).toList

def asUsize (n : Int) : Nat := (n % 2 ^ 64).toNat

/-- `structData` is what `seg` has from some position on, so that the difference
of their addresses is that of their lengths. -/
def readTextPtr (structData : Bytes) (ptrsStart slot : Nat) (seg : Bytes) : Outcome Str Str := do
  let ptrOffset ← add ptrsStart (← mul slot 8)
  if structData.length < (← add ptrOffset 8) then .err "ptr out of bounds".toList else
  let ptr := wordOf (← sliceRange structData ptrOffset (← add ptrOffset 8))
  if ptr = 0 then .ok [] else
  if kind ptr ≠ 1 then .err "Not a list pointer".toList else
  if listElemSize ptr ≠ 2 then .err "Not a byte list".toList else
  let elemCount := listCount ptr
  let ptrWordInSeg := (← add (← add 8 (seg.length - structData.length)) ptrOffset) / 8
  let targetWord := asUsize ((ptrWordInSeg : Int) + 1 + offset ptr)
  let targetByte ← mul targetWord 8
  if seg.length < (← add targetByte elemCount) then .err "Text data out of bounds".toList else
  let bytes ← sliceRange seg targetByte (← add targetByte (elemCount - 1))
  .ok (fromUtf8Lossy bytes)

def decodeConnectionResponse (data : Slice) : Outcome Str Str := do
  if data.bytes.length < 24 then
    .err ("ConnectionResponse too short: ".toList ++ number data.bytes.length ++ " bytes".toList)
  else
  let segData ← sliceFrom data.bytes 8
  if segData.length < 8 then .err "No room for root pointer".toList else
  let rootPtr := wordOf (← sliceRange segData 0 8)
  let ptrType := kind rootPtr
  if ptrType ≠ 0 then .err ("Root is not a struct pointer: type=".toList ++ number ptrType) else
  let dataWords := structDataWords rootPtr
  let ptrCount := structPtrCount rootPtr
  let structStart ← mul (asUsize (1 + offset rootPtr)) 8
  if segData.length < (← add structStart (← mul (← add dataWords ptrCount) 8)) then
    .err "ConnectionResponse struct out of bounds".toList
  else
  let structData ← sliceFrom segData structStart
  let discriminant := ofLeBytes (← sliceRange structData 0 2)
  match discriminant with
  | 0 =>
      let ptrsStart ← mul dataWords 8
      let cause ← (readTextPtr structData ptrsStart 0 segData).unwrapOr "unknown error".toList
      .err ("Edge rejected connection: ".toList ++ cause)
  | 1 =>
      let ptrsStart ← mul dataWords 8
      let location ← (readTextPtr structData ptrsStart 1 segData).unwrapOr "unknown".toList
      .ok location
  | n => .err ("Unknown ConnectionResponse discriminant: ".toList ++ number n)

def wordAt (bs : Bytes) (pos : Nat) : UInt64 := wordOf (slice bs pos 8)

/-- What is read behind the pointer at `pos`. Its target is one word further than
the pointer says, and may lie before the segment. -/
def textOutcome (seg : Bytes) (pos : Nat) : Outcome Str Str :=
  let ptr := wordAt seg pos
  let target : Int := (pos / 8 : Nat) + 2 + offset ptr
  if seg.length < pos + 8 then .err "ptr out of bounds".toList
  else if ptr = 0 then .ok []
  else if kind ptr ≠ 1 then .err "Not a list pointer".toList
  else if listElemSize ptr ≠ 2 then .err "Not a byte list".toList
  else if target < 0 then .panic
  else if seg.length < 8 * target.toNat + listCount ptr then .err "Text data out of bounds".toList
  else .ok (fromUtf8Lossy (slice seg (8 * target.toNat) (listCount ptr - 1)))

theorem asUsize_of_nonneg {n : Int} (h0 : 0 ≤ n) (h : n < 2 ^ 64) : asUsize n = n.toNat := by
  rw [asUsize, Int.emod_eq_of_lt h0 h]

theorem asUsize_of_neg {n : Int} (h : n < 0) (hn : -2 ^ 62 ≤ n) : 2 ^ 64 ≤ asUsize n * 8 := by
  rw [asUsize]
  omega

theorem readTextPtr_eq {seg : Bytes} {start ptrsStart slot : Nat} (hseg : seg.length < 2 ^ 63)
    (hstart : start ≤ seg.length) (hpos : start + ptrsStart + slot * 8 < 2 ^ 63 + 2 ^ 62) :
    readTextPtr (seg.drop start) ptrsStart slot seg = textOutcome seg (start + ptrsStart + slot * 8) := by
  have hlen : (seg.drop start).length = seg.length - start := List.length_drop
  rw [readTextPtr, textOutcome, mul_ok (by omega), ok_bind, add_ok (by omega), ok_bind, add_ok (by omega), ok_bind,
    hlen]
  by_cases hbeyond : seg.length < start + ptrsStart + slot * 8 + 8
  · rw [if_pos (by omega), if_pos hbeyond]
  rw [if_neg (by omega), if_neg hbeyond, ok_bind, sliceRange_ok (by rw [hlen]; omega), ok_bind, List.drop_drop,
    Nat.add_sub_cancel_left, ← Nat.add_assoc]
  dsimp only
  rw [show wordOf (((seg.drop (start + ptrsStart + slot * 8)).take 8)) =
    wordAt seg (start + ptrsStart + slot * 8) from rfl]
  generalize hplace : start + ptrsStart + slot * 8 = pos at *
  generalize wordAt seg pos = ptr
  by_cases hnull : ptr = 0
  · rw [if_pos hnull, if_pos hnull]
  by_cases hkind : kind ptr ≠ 1
  · rw [if_neg hnull, if_neg hnull, if_pos hkind, if_pos hkind]
  by_cases helem : listElemSize ptr ≠ 2
  · rw [if_neg hnull, if_neg hnull, if_neg hkind, if_neg hkind, if_pos helem, if_pos helem]
  rw [if_neg hnull, if_neg hnull, if_neg hkind, if_neg hkind, if_neg helem, if_neg helem]
  have hoffset := offset_range ptr
  have hcount := listCount_lt ptr
  have hword : (8 + (seg.length - (seg.length - start)) + (ptrsStart + slot * 8)) / 8 = pos / 8 + 1 := by omega
  rw [add_ok (by omega), ok_bind, add_ok (by omega), ok_bind, hword]
  have htarget : ((pos / 8 + 1 : Nat) : Int) + 1 + offset ptr = (pos / 8 : Nat) + 2 + offset ptr := by omega
  rw [htarget]
  obtain ⟨hlow, hhigh⟩ := hoffset
  by_cases hneg : ((pos / 8 : Nat) : Int) + 2 + offset ptr < 0
  · rw [if_pos hneg, mul_panic (asUsize_of_neg hneg (by omega)), panic_bind]
  rw [if_neg hneg, asUsize_of_nonneg (by omega) (by omega), mul_ok (by omega), ok_bind, add_ok (by omega), ok_bind,
    Nat.mul_comm _ 8]
  generalize htext : (((pos / 8 : Nat) : Int) + 2 + offset ptr).toNat = t at *
  by_cases hout : seg.length < 8 * t + listCount ptr
  · rw [if_pos hout, if_pos hout]
  rw [if_neg hout, if_neg hout, add_ok (by omega), ok_bind, sliceRange_ok (by omega), ok_bind,
    Nat.add_sub_cancel_left]
  rfl

def rootStart (seg : Bytes) : Nat := 8 * (1 + offset (wordAt seg 0)).toNat

def rootSize (seg : Bytes) : Nat := 8 * (structDataWords (wordAt seg 0) + structPtrCount (wordAt seg 0))

def rootPointer (seg : Bytes) (slot : Nat) : Nat :=
  rootStart seg + structDataWords (wordAt seg 0) * 8 + slot * 8

def rootTag (seg : Bytes) : Nat := ofLeBytes (slice seg (rootStart seg) 2)

def taggedOutcome (seg : Bytes) : Nat → Outcome Str Str
  | 0 => do
      let cause ← (textOutcome seg (rootPointer seg 0)).unwrapOr "unknown error".toList
      .err ("Edge rejected connection: ".toList ++ cause)
  | 1 => (textOutcome seg (rootPointer seg 1)).unwrapOr "unknown".toList
  | n => .err ("Unknown ConnectionResponse discriminant: ".toList ++ number n)

theorem decode_short {data : Slice} (h : data.bytes.length < 24) :
    decodeConnectionResponse data =
      .err ("ConnectionResponse too short: ".toList ++ number data.bytes.length ++ " bytes".toList) := if_pos h

def responseOutcome (seg : Bytes) : Outcome Str Str :=
  let root := wordAt seg 0
  if kind root ≠ 0 then .err ("Root is not a struct pointer: type=".toList ++ number (kind root))
  else if offset root < -1 then .panic
  else if seg.length < rootStart seg + rootSize seg then .err "ConnectionResponse struct out of bounds".toList
  else if seg.length < rootStart seg + 2 then .panic
  else taggedOutcome seg (rootTag seg)

theorem rootStart_le (seg : Bytes) : rootStart seg ≤ 2 ^ 32 := by
  obtain ⟨_, hhigh⟩ := offset_range (wordAt seg 0)
  rw [rootStart]
  omega

theorem rootSize_lt (seg : Bytes) : rootSize seg < 2 ^ 20 := by
  have hdata := structDataWords_lt (wordAt seg 0)
  have hptrs := structPtrCount_lt (wordAt seg 0)
  rw [rootSize]
  omega

theorem decode_eq {data : Slice} (h : 24 ≤ data.bytes.length) :
    decodeConnectionResponse data = responseOutcome (data.bytes.drop 8) := by
  have hshort := data.short
  have hlen : (data.bytes.drop 8).length = data.bytes.length - 8 := List.length_drop
  rw [decodeConnectionResponse, if_neg (by omega), sliceFrom_ok (by omega), ok_bind]
  generalize data.bytes.drop 8 = seg at *
  rw [if_neg (by omega), sliceRange_ok (by omega), ok_bind, responseOutcome]
  dsimp only
  rw [show wordOf ((seg.drop 0).take (8 - 0)) = wordAt seg 0 from rfl]
  by_cases hkind : kind (wordAt seg 0) ≠ 0
  · rw [if_pos hkind, if_pos hkind]
  rw [if_neg hkind, if_neg hkind]
  obtain ⟨hlow, hhigh⟩ := offset_range (wordAt seg 0)
  have hdata := structDataWords_lt (wordAt seg 0)
  have hptrs := structPtrCount_lt (wordAt seg 0)
  by_cases hbefore : offset (wordAt seg 0) < -1
  · rw [if_pos hbefore, mul_panic (asUsize_of_neg (by omega) (by omega)), panic_bind]
  have hstart : asUsize (1 + offset (wordAt seg 0)) * 8 = rootStart seg := by
    rw [asUsize_of_nonneg (by omega) (by omega), rootStart, Nat.mul_comm]
  have hfits := rootStart_le seg
  have hsize : (structDataWords (wordAt seg 0) + structPtrCount (wordAt seg 0)) * 8 = rootSize seg := by
    rw [rootSize, Nat.mul_comm]
  have hsmall := rootSize_lt seg
  rw [if_neg hbefore, mul_ok (by omega), ok_bind, hstart, add_ok (by omega), ok_bind, mul_ok (by omega), ok_bind,
    hsize, add_ok (by omega), ok_bind]
  by_cases hout : seg.length < rootStart seg + rootSize seg
  · rw [if_pos hout, if_pos hout]
  have hdrop : (seg.drop (rootStart seg)).length = seg.length - rootStart seg := List.length_drop
  rw [if_neg hout, if_neg hout, sliceFrom_ok (by omega), ok_bind]
  by_cases htag : seg.length < rootStart seg + 2
  · rw [if_pos htag, sliceRange_panic (by rw [hdrop]; omega), panic_bind]
  have htext (slot : Nat) (hslot : slot < 2 ^ 16) :
      readTextPtr (seg.drop (rootStart seg)) (structDataWords (wordAt seg 0) * 8) slot seg =
        textOutcome seg (rootPointer seg slot) :=
    readTextPtr_eq (by omega) (by omega) (by omega)
  rw [if_neg htag, sliceRange_ok (by rw [hdrop]; omega), ok_bind, mul_ok (by omega)]
  simp only [ok_bind, htext 0 (by decide), htext 1 (by decide)]
  change (match rootTag seg with | 0 => _ | 1 => _ | n => _) = _
  match rootTag seg with
  | 0 => rfl
  | 1 =>
      rw [taggedOutcome]
      cases textOutcome seg (rootPointer seg 1) <;> rfl
  | n + 2 => rfl

end MiniCloudflared.ConnectionResponse
