import MiniCloudflared.ConnectionResponse

namespace MiniCloudflared.HostileResponse

open Library Capnp HttpTypes Outcome ConnectionResponse

def Returns (data : Slice) : Prop :=
  (∃ location, decodeConnectionResponse data = .ok location) ∨ ∃ e, decodeConnectionResponse data = .err e

structure RootInside (seg : Bytes) : Prop where
  isStruct : kind (wordAt seg 0) = 0
  notBefore : -1 ≤ offset (wordAt seg 0)
  inside : rootStart seg + rootSize seg ≤ seg.length

/-- The responses on which the decoder panics: the root struct starts before the
segment, or is empty and stands at its very end, or the text that the tag asks
for starts before the segment. -/
inductive Hostile (data : Bytes) : Prop
  | rootBefore (long : 24 ≤ data.length) (isStruct : kind (wordAt (data.drop 8) 0) = 0)
      (before : offset (wordAt (data.drop 8) 0) < -1)
  | noTag (long : 24 ≤ data.length) (root : RootInside (data.drop 8))
      (atEnd : (data.drop 8).length < rootStart (data.drop 8) + 2)
  | textBefore (slot : Nat) (long : 24 ≤ data.length) (root : RootInside (data.drop 8))
      (tagged : rootStart (data.drop 8) + 2 ≤ (data.drop 8).length) (tag : rootTag (data.drop 8) = slot)
      (hslot : slot ≤ 1) (pointer : rootPointer (data.drop 8) slot + 8 ≤ (data.drop 8).length)
      (isList : kind (wordAt (data.drop 8) (rootPointer (data.drop 8) slot)) = 1)
      (ofBytes : listElemSize (wordAt (data.drop 8) (rootPointer (data.drop 8) slot)) = 2)
      (before : (rootPointer (data.drop 8) slot / 8 : Nat) + 2 +
        offset (wordAt (data.drop 8) (rootPointer (data.drop 8) slot)) < 0)

theorem returns_iff {data : Slice} : Returns data ↔ decodeConnectionResponse data ≠ .panic := by
  rw [Returns]
  cases decodeConnectionResponse data <;> simp

theorem textOutcome_panic {seg : Bytes} {pos : Nat} :
    textOutcome seg pos = .panic ↔ pos + 8 ≤ seg.length ∧ kind (wordAt seg pos) = 1 ∧
      listElemSize (wordAt seg pos) = 2 ∧ (pos / 8 : Nat) + 2 + offset (wordAt seg pos) < 0 := by
  rw [textOutcome]
  split
  next h => exact ⟨fun h => absurd h (by simp), fun hpanic => absurd hpanic.1 (Nat.not_le.mpr h)⟩
  next hin =>
    split
    next h => exact ⟨fun h => absurd h (by simp), fun hpanic => absurd hpanic.2.1 (by rw [h]; decide)⟩
    next =>
      split
      next h => exact ⟨fun h => absurd h (by simp), fun hpanic => absurd hpanic.2.1 h⟩
      next hkind =>
        split
        next h => exact ⟨fun h => absurd h (by simp), fun hpanic => absurd hpanic.2.2.1 h⟩
        next helem =>
          split
          next h =>
            exact ⟨fun _ => ⟨Nat.not_lt.mp hin, Decidable.not_not.mp hkind, Decidable.not_not.mp helem, h⟩,
              fun _ => rfl⟩
          next h =>
            split
            next => exact ⟨fun h => absurd h (by simp), fun hpanic => absurd hpanic.2.2.2 h⟩
            next => exact ⟨fun h => absurd h (by simp), fun hpanic => absurd hpanic.2.2.2 h⟩

theorem unwrapOr_panic {ε α : Type} {default : α} {o : Outcome ε α} : o.unwrapOr default = .panic ↔ o = .panic := by
  cases o <;> simp [unwrapOr]

theorem taggedOutcome_panic {seg : Bytes} {tag : Nat} :
    taggedOutcome seg tag = .panic ↔ tag ≤ 1 ∧ textOutcome seg (rootPointer seg tag) = .panic := by
  match tag with
  | 0 =>
      rw [taggedOutcome]
      cases textOutcome seg (rootPointer seg 0) <;> simp [unwrapOr]
  | 1 => rw [taggedOutcome, unwrapOr_panic, and_iff_right (Nat.le_refl 1)]
  | n + 2 =>
      refine ⟨fun h => ?_, fun h => absurd h.1 (by omega)⟩
      change Outcome.err _ = Outcome.panic at h
      exact absurd h (by simp)

theorem decode_panic {data : Slice} : decodeConnectionResponse data = .panic ↔ Hostile data.bytes := by
  by_cases hlong : 24 ≤ data.bytes.length
  case neg =>
    rw [decode_short (Nat.not_le.mp hlong)]
    refine ⟨fun h => absurd h (by simp), fun h => ?_⟩
    cases h <;> contradiction
  rw [decode_eq hlong, responseOutcome]
  split
  next hkind =>
    refine ⟨fun h => absurd h (by simp), fun h => ?_⟩
    cases h with
    | rootBefore _ isStruct _ => contradiction
    | noTag _ root _ => exact absurd root.isStruct hkind
    | textBefore _ _ root => exact absurd root.isStruct hkind
  next hkind =>
    split
    next hbefore => exact ⟨fun _ => .rootBefore hlong (Decidable.not_not.mp hkind) hbefore, fun _ => rfl⟩
    next hbefore =>
      split
      next hout =>
        refine ⟨fun h => absurd h (by simp), fun h => ?_⟩
        cases h with
        | rootBefore _ _ before => contradiction
        | noTag _ root _ => exact absurd root.inside (Nat.not_le.mpr hout)
        | textBefore _ _ root => exact absurd root.inside (Nat.not_le.mpr hout)
      next hin =>
        have hroot : RootInside (data.bytes.drop 8) :=
          ⟨Decidable.not_not.mp hkind, Int.not_lt.mp hbefore, Nat.not_lt.mp hin⟩
        split
        next hend => exact ⟨fun _ => .noTag hlong hroot hend, fun _ => rfl⟩
        next htag =>
          rw [taggedOutcome_panic, textOutcome_panic]
          constructor
          · rintro ⟨hslot, hpointer, hlist, hbytes, hneg⟩
            exact .textBefore _ hlong hroot (Nat.not_lt.mp htag) rfl hslot hpointer hlist hbytes hneg
          · intro h
            cases h with
            | rootBefore _ _ before => contradiction
            | noTag _ _ atEnd => contradiction
            | textBefore slot _ _ _ tag hslot pointer isList ofBytes before =>
                subst tag
                exact ⟨hslot, pointer, isList, ofBytes, before⟩

/-- The decoder returns unless the response is one of the three hostile kinds. -/
theorem returns_iff_not_hostile (data : Slice) : Returns data ↔ ¬ Hostile data.bytes := by
  rw [returns_iff, ne_eq, decode_panic]

/-- A root pointer with an offset of −2, in an otherwise empty segment. -/
def rootBeforeSegment : Slice where
  bytes := [0, 0, 0, 0, 2, 0, 0, 0, 0xf8, 0xff, 0xff, 0xff, 1, 0, 1, 0, 0, 0, 0, 0, 0, 0, 0, 0]
  short := by decide

theorem rootBeforeSegment_panics :
    decodeConnectionResponse rootBeforeSegment = .panic ∧ ¬ Returns rootBeforeSegment := by
  have hpanic : decodeConnectionResponse rootBeforeSegment = .panic := by decide
  exact ⟨hpanic, fun h => returns_iff.mp h hpanic⟩

end MiniCloudflared.HostileResponse
