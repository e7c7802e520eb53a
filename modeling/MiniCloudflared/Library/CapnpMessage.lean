import MiniCloudflared.Library.CapnpReader

namespace MiniCloudflared.Library.Capnp

abbrev Message := List Segment

def Message.word (m : Message) (s i : Nat) : Option UInt64 := (m[s]?).bind (·[i]?)

/-- The number of segments less one, the size of each, filled up to whole words. -/
def header (m : Message) : Bytes :=
  leBytes 4 (m.length - 1) ++ m.flatMap (fun seg => leBytes 4 seg.length) ++
    if m.length % 2 = 0 then leBytes 4 0 else []

def frame (m : Message) : Bytes := header m ++ segBytes m.flatten

def FAR : Nat := 2

def isDoubleFar (w : UInt64) : Bool := w.toNat / 4 % 2 == 1

def padOffset (w : UInt64) : Nat := w.toNat / 8 % 2 ^ 29

def padSegment (w : UInt64) : Nat := w.toNat / 2 ^ 32

structure Object where
  segment : Nat
  start : Nat
  tag : UInt64

def nearObject (s i : Nat) (w : UInt64) : Option Object := (target i w).map (Object.mk s · w)

/-- The object behind the pointer `w` that stands at `i` in the segment `s`. A far
pointer leads to another pointer, or to the place of the object and its tag. -/
def locate (m : Message) (s i : Nat) (w : UInt64) : Option Object :=
  if kind w ≠ FAR then nearObject s i w
  else if isDoubleFar w then do
    let far ← m.word (padSegment w) (padOffset w)
    let tag ← m.word (padSegment w) (padOffset w + 1)
    if kind far = FAR ∧ isDoubleFar far = false then some ⟨padSegment far, padOffset far, tag⟩ else none
  else do
    let pad ← m.word (padSegment w) (padOffset w)
    if kind pad = FAR then none else nearObject (padSegment w) (padOffset w) pad

structure StructPlace where
  segment : Nat
  start : Nat
  dataWords : Nat
  ptrCount : Nat

namespace Message

variable (m : Message)

def readStruct (s i : Nat) : Option StructPlace := do
  let w ← m.word s i
  if w = 0 then some ⟨s, i, 0, 0⟩ else
  let o ← locate m s i w
  let seg ← m[o.segment]?
  if kind o.tag = 0 ∧ o.start + structDataWords o.tag + structPtrCount o.tag ≤ seg.length then
    some ⟨o.segment, o.start, structDataWords o.tag, structPtrCount o.tag⟩
  else none

def readText (s i : Nat) : Option Bytes := do
  let w ← m.word s i
  if w = 0 then some [] else
  let o ← locate m s i w
  let seg ← m[o.segment]?
  if kind o.tag = 1 ∧ listElemSize o.tag = BYTE ∧ 8 * o.start + listCount o.tag ≤ 8 * seg.length then
    let bytes := slice (segBytes seg) (8 * o.start) (listCount o.tag)
    if bytes.getLast? = some 0 then some bytes.dropLast else none
  else none

def structField (p : StructPlace) (k : Nat) : Option StructPlace :=
  if k < p.ptrCount then m.readStruct p.segment (p.start + p.dataWords + k)
  else some ⟨p.segment, p.start, 0, 0⟩

def textField (p : StructPlace) (k : Nat) : Option Bytes :=
  if k < p.ptrCount then m.readText p.segment (p.start + p.dataWords + k) else some []

def dataField (p : StructPlace) (byte width : Nat) : Nat :=
  if byte / 8 < p.dataWords then
    ofLeBytes (slice (wordBytes ((m.word p.segment (p.start + byte / 8)).getD 0)) (byte % 8) width)
  else 0

end Message

def segmentSize (m : Message) (i : Nat) : Nat := ((m[i]?).map List.length).getD 0 % 2 ^ 32

def sizeWords (m : Message) : Segment := wordsOf ((header m).drop 8)

def frameWords (m : Message) : Segment := sizeWords m ++ m.flatten

theorem length_sizes (m : Message) : (m.flatMap (fun seg => leBytes 4 seg.length)).length = 4 * m.length := by
  induction m with
  | nil => rfl
  | cons seg m ih =>
      rw [List.flatMap_cons, List.length_append, length_leBytes, ih, List.length_cons]
      omega

theorem length_header (m : Message) : (header m).length = 8 * (1 + m.length / 2) := by
  rw [header, List.length_append, List.length_append, length_leBytes, length_sizes]
  split
  next => rw [length_leBytes]; omega
  next => rw [List.length_nil]; omega

theorem frame_drop (m : Message) : (frame m).drop 8 = segBytes (frameWords m) := by
  have hsizes : ((header m).drop 8).length = 8 * (m.length / 2) := by
    rw [List.length_drop, length_header]
    omega
  rw [frame, List.drop_append_of_le_length (by rw [length_header]; omega), frameWords, segBytes_append, sizeWords,
    segBytes_wordsOf hsizes]

theorem frame_single (seg : Segment) : (frame [seg]).drop 8 = segBytes seg := by
  rw [frame_drop, frameWords, List.flatten_cons, List.flatten_nil, List.append_nil]
  rfl

theorem wordOf_halves (lo hi : Nat) : wordOf (leBytes 4 lo ++ leBytes 4 hi) = halves lo hi := by
  rw [wordOf, halves, ofLeBytes_append, ofLeBytes_leBytes, ofLeBytes_leBytes, length_leBytes,
    show (256 : Nat) ^ 4 = 2 ^ 32 by decide]

/-- With several segments the word behind the first is made up of two sizes. -/
theorem frameWords_head (a b : Segment) (m : Message) : (frameWords (a :: b :: m))[0]? =
    some (halves (segmentSize (a :: b :: m) 1) (segmentSize (a :: b :: m) 2)) := by
  have hpair : ∃ c rest, (header (a :: b :: m)).drop 8 = leBytes 4 b.length ++ leBytes 4 c ++ rest ∧
      c % 2 ^ 32 = segmentSize (a :: b :: m) 2 := by
    have hcut (rest : Bytes) :
        (leBytes 4 ((a :: b :: m).length - 1) ++ (leBytes 4 a.length ++ rest)).drop 8 = rest := by
      rw [← List.append_assoc]
      exact List.drop_left' (by simp)
    cases m with
    | nil =>
        refine ⟨0, [], ?_, rfl⟩
        rw [header, List.flatMap_cons, List.append_assoc, List.append_assoc, hcut,
          if_pos (by simp), List.flatMap_singleton, List.append_nil]
    | cons c m =>
        refine ⟨c.length, m.flatMap (fun seg => leBytes 4 seg.length) ++
          if (a :: b :: c :: m).length % 2 = 0 then leBytes 4 0 else [], ?_, rfl⟩
        rw [header, List.flatMap_cons, List.append_assoc, List.append_assoc, hcut, List.flatMap_cons,
          List.flatMap_cons, List.append_assoc, List.append_assoc, List.append_assoc]
  obtain ⟨c, rest, hdrop, hc⟩ := hpair
  have hfirst : b.length % 2 ^ 32 = segmentSize (a :: b :: m) 1 := rfl
  rw [frameWords, sizeWords, hdrop, wordsOf_append (by simp), wordOf_halves, List.cons_append, List.getElem?_cons_zero,
    ← hfirst, ← hc, halves, halves, Nat.mod_mod, Nat.mod_mod]

end MiniCloudflared.Library.Capnp
