import MiniCloudflared.Library.Capnp

namespace MiniCloudflared.Library.Capnp

/-- A word from its lower and its upper half. The halves do not overlap, so
that their union is a sum. -/
def halves (lo hi : Nat) : UInt64 := UInt64.ofNat (lo % 2 ^ 32 + 2 ^ 32 * (hi % 2 ^ 32))

def structPointer (offset : Int) (dataWords ptrCount : Nat) : UInt64 :=
  halves ((4 * offset) % 2 ^ 32).toNat (dataWords + 2 ^ 16 * ptrCount)

def listPointer (offset : Int) (elemSize count : Nat) : UInt64 :=
  halves ((4 * offset + 1) % 2 ^ 32).toNat (elemSize + 8 * count)

def structPointerAt (i t dataWords ptrCount : Nat) : UInt64 :=
  structPointer ((t : Int) - i - 1) dataWords ptrCount

def listPointerAt (i t elemSize count : Nat) : UInt64 := listPointer ((t : Int) - i - 1) elemSize count

def kind (w : UInt64) : Nat := w.toNat % 4

def signed32 (n : Nat) : Int := if n < 2 ^ 31 then n else n - 2 ^ 32

/-- The lower half as a signed number, without its two lowest bits. -/
def offset (w : UInt64) : Int := signed32 (w.toNat % 2 ^ 32) / 4

def structDataWords (w : UInt64) : Nat := w.toNat / 2 ^ 32 % 2 ^ 16

def structPtrCount (w : UInt64) : Nat := w.toNat / 2 ^ 48 % 2 ^ 16

def listElemSize (w : UInt64) : Nat := w.toNat / 2 ^ 32 % 8

def listCount (w : UInt64) : Nat := w.toNat / 2 ^ 35

def BYTE : Nat := 2

def POINTER : Nat := 6

def InRange (offset : Int) : Prop := -2 ^ 29 ≤ offset ∧ offset < 2 ^ 29

theorem offset_range (w : UInt64) : InRange (offset w) := by
  have hw : w.toNat % 2 ^ 32 < 2 ^ 32 := Nat.mod_lt _ (by decide)
  rw [offset, signed32]
  split <;> constructor <;> omega

theorem structDataWords_lt (w : UInt64) : structDataWords w < 2 ^ 16 := Nat.mod_lt _ (by decide)

theorem structPtrCount_lt (w : UInt64) : structPtrCount w < 2 ^ 16 := Nat.mod_lt _ (by decide)

theorem listCount_lt (w : UInt64) : listCount w < 2 ^ 29 := by
  have hw := w.toNat_lt
  rw [listCount]
  omega

theorem toNat_halves (lo hi : Nat) : (halves lo hi).toNat = lo % 2 ^ 32 + 2 ^ 32 * (hi % 2 ^ 32) := by
  rw [halves, UInt64.toNat_ofNat']
  omega

theorem toNat_structPointer {o : Int} {dataWords ptrCount : Nat} (hd : dataWords < 2 ^ 16)
    (hp : ptrCount < 2 ^ 16) :
    (structPointer o dataWords ptrCount).toNat =
      ((4 * o) % 2 ^ 32).toNat + 2 ^ 32 * (dataWords + 2 ^ 16 * ptrCount) := by
  rw [structPointer, toNat_halves]
  omega

theorem toNat_listPointer {o : Int} {elemSize count : Nat} (he : elemSize < 8) (hc : count < 2 ^ 29) :
    (listPointer o elemSize count).toNat =
      ((4 * o + 1) % 2 ^ 32).toNat + 2 ^ 32 * (elemSize + 8 * count) := by
  rw [listPointer, toNat_halves]
  omega

theorem offset_halves {o : Int} (ho : InRange o) {k : Nat} (hk : k < 4) (hi : Nat) :
    offset (halves ((4 * o + k) % 2 ^ 32).toNat hi) = o := by
  obtain ⟨hlow, hhigh⟩ := ho
  have hn := toNat_halves ((4 * o + k) % 2 ^ 32).toNat hi
  generalize halves ((4 * o + k) % 2 ^ 32).toNat hi = w at hn ⊢
  rw [offset, signed32]
  split <;> omega

theorem offset_structPointer {o : Int} (ho : InRange o) (dataWords ptrCount : Nat) :
    offset (structPointer o dataWords ptrCount) = o := by
  rw [structPointer, ← Int.add_zero (4 * o)]
  exact offset_halves (k := 0) ho (by decide) _

theorem offset_listPointer {o : Int} (ho : InRange o) (elemSize count : Nat) :
    offset (listPointer o elemSize count) = o := offset_halves (k := 1) ho (by decide) _

theorem structPointer_fields {o : Int} {dataWords ptrCount : Nat} (ho : InRange o) (hd : dataWords < 2 ^ 16)
    (hp : ptrCount < 2 ^ 16) :
    kind (structPointer o dataWords ptrCount) = 0 ∧ offset (structPointer o dataWords ptrCount) = o ∧
      structDataWords (structPointer o dataWords ptrCount) = dataWords ∧
      structPtrCount (structPointer o dataWords ptrCount) = ptrCount := by
  have hoffset := offset_structPointer ho dataWords ptrCount
  have hn := toNat_structPointer (o := o) hd hp
  generalize structPointer o dataWords ptrCount = w at hn hoffset ⊢
  refine ⟨?_, hoffset, ?_, ?_⟩
  · rw [kind, hn]
    omega
  · rw [structDataWords, hn]
    omega
  · rw [structPtrCount, hn]
    omega

theorem listPointer_fields {o : Int} {elemSize count : Nat} (ho : InRange o) (he : elemSize < 8)
    (hc : count < 2 ^ 29) :
    kind (listPointer o elemSize count) = 1 ∧ offset (listPointer o elemSize count) = o ∧
      listElemSize (listPointer o elemSize count) = elemSize ∧
      listCount (listPointer o elemSize count) = count := by
  have hoffset := offset_listPointer ho elemSize count
  have hn := toNat_listPointer (o := o) he hc
  generalize listPointer o elemSize count = w at hn hoffset ⊢
  refine ⟨?_, hoffset, ?_, ?_⟩
  · rw [kind, hn]
    omega
  · rw [listElemSize, hn]
    omega
  · rw [listCount, hn]
    omega

end MiniCloudflared.Library.Capnp
