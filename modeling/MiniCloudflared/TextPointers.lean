import MiniCloudflared.ConnectionResponse

namespace MiniCloudflared.TextPointers

open Library Capnp HttpTypes Outcome ConnectionResponse

/-- A slot in the pointer section of a struct, by the words at which the struct
and, within it, its pointers start. -/
structure PointerSlot (seg : Slice) where
  structWord : Nat
  ptrsWord : Nat
  slot : Nat
  within : 8 * (structWord + ptrsWord + slot) + 8 ≤ seg.bytes.length

namespace PointerSlot

variable {seg : Slice}

def place (p : PointerSlot seg) : Nat := p.structWord + p.ptrsWord + p.slot

def word (p : PointerSlot seg) : UInt64 := wordAt seg.bytes (8 * p.place)

def target (p : PointerSlot seg) : Int := p.place + 1 + offset p.word

def read (p : PointerSlot seg) : Outcome Str Str :=
  readTextPtr (seg.bytes.drop (8 * p.structWord)) (8 * p.ptrsWord) p.slot seg.bytes

end PointerSlot

structure TextPointer (seg : Slice) extends PointerSlot seg where
  list : kind toPointerSlot.word = 1
  bytes : listElemSize toPointerSlot.word = BYTE
  counted : 1 ≤ listCount toPointerSlot.word
  lands : 0 ≤ toPointerSlot.target
  inside : 8 * toPointerSlot.target.toNat + listCount toPointerSlot.word ≤ seg.bytes.length
  terminated : seg.bytes[8 * toPointerSlot.target.toNat + (listCount toPointerSlot.word - 1)]? = some 0

namespace TextPointer

variable {seg : Slice}

def textFrom (p : TextPointer seg) (word : Nat) : Str :=
  fromUtf8Lossy (slice seg.bytes (8 * word) (listCount p.word - 1))

def Resolves (p : TextPointer seg) : Prop := p.read = .ok (p.textFrom p.target.toNat)

theorem read_eq (p : TextPointer seg) :
    p.read =
      if seg.bytes.length < 8 * (p.target.toNat + 1) + listCount p.word then
        .err "Text data out of bounds".toList
      else .ok (p.textFrom (p.target.toNat + 1)) := by
  have hshort := seg.short
  have hwithin := p.within
  have hlands := p.lands
  have hplace : 8 * p.structWord + 8 * p.ptrsWord + p.slot * 8 = 8 * p.place := by
    rw [PointerSlot.place]
    omega
  have hbound : 8 * p.place + 8 ≤ seg.bytes.length := hwithin
  have hdiv : 8 * p.place / 8 = p.place := Nat.mul_div_cancel_left _ (by decide)
  have hnull : p.word ≠ 0 := by
    intro h
    have hlist := p.list
    rw [h] at hlist
    exact absurd hlist (by decide)
  have hnext : (p.place : Int) + 2 + offset p.word = p.target + 1 := by
    rw [PointerSlot.target]
    omega
  have htoNat : (p.target + 1).toNat = p.target.toNat + 1 := by omega
  have hword : wordAt seg.bytes (8 * p.place) = p.word := rfl
  have hbytes : listElemSize p.word = 2 := p.bytes
  rw [PointerSlot.read, readTextPtr_eq hshort (by omega) (by omega), hplace, textOutcome, hdiv]
  rw [hword, if_neg (by omega), if_neg hnull, if_neg (not_not.mpr p.list), if_neg (not_not.mpr hbytes),
    hnext, if_neg (by omega), htoNat]
  rfl

/-- A pointer is resolved exactly when the bytes one word behind its text are
still in the segment and read as the text does. -/
theorem resolves_iff (p : TextPointer seg) :
    p.Resolves ↔
      8 * (p.target.toNat + 1) + listCount p.word ≤ seg.bytes.length ∧
        p.textFrom (p.target.toNat + 1) = p.textFrom p.target.toNat := by
  rw [Resolves, read_eq]
  split
  next hout => exact iff_of_false (by simp) (fun h => absurd h.1 (Nat.not_le.mpr hout))
  next hin =>
    rw [Outcome.ok.injEq]
    exact (and_iff_right (Nat.le_of_not_lt hin)).symm

end TextPointer

def twoTexts : Slice where
  bytes := [1, 0, 0, 0, 34, 0, 0, 0] ++ ascii "abc" ++ [0, 0, 0, 0, 0] ++ ascii "xyz" ++ [0, 0, 0, 0, 0]
  short := by decide

def firstText : TextPointer twoTexts where
  structWord := 0
  ptrsWord := 0
  slot := 0
  within := by decide
  list := by decide +kernel
  bytes := by decide +kernel
  counted := by decide +kernel
  lands := by decide +kernel
  inside := by decide +kernel
  terminated := by decide +kernel

theorem firstText_misread :
    firstText.textFrom firstText.target.toNat = "abc".toList ∧ firstText.read = .ok "xyz".toList ∧
      ¬ firstText.Resolves := by
  have htext : firstText.textFrom firstText.target.toNat = "abc".toList := by decide +kernel
  have hread : firstText.read = .ok "xyz".toList := by decide +kernel
  refine ⟨htext, hread, fun h => ?_⟩
  rw [TextPointer.Resolves, hread, htext] at h
  exact absurd h (by decide +kernel)

end MiniCloudflared.TextPointers
