import MiniCloudflared.Library.CapnpPointers

namespace MiniCloudflared.Library.Capnp

structure StructRef (seg : Segment) where
  start : Nat
  dataWords : Nat
  ptrCount : Nat
  inside : start + dataWords + ptrCount ≤ seg.length
  deriving DecidableEq

def target (i : Nat) (w : UInt64) : Option Nat :=
  if 0 ≤ (i : Int) + 1 + offset w then some ((i : Int) + 1 + offset w).toNat else none

/-- The struct behind the pointer at `i`. A null pointer stands for a struct all
of whose fields have their default. -/
def readStruct (seg : Segment) (i : Nat) : Option (StructRef seg) :=
  if hi : i < seg.length then
    if seg[i] = 0 then some ⟨i, 0, 0, Nat.le_of_lt hi⟩
    else if kind seg[i] = 0 then
      (target i seg[i]).bind fun t =>
        if h : t + structDataWords seg[i] + structPtrCount seg[i] ≤ seg.length then
          some ⟨t, structDataWords seg[i], structPtrCount seg[i], h⟩
        else none
    else none
  else none

/-- Where the list behind the pointer at `i` starts, and the number of its
elements, which take `width` bytes each. A null pointer stands for no element. -/
def readList (seg : Segment) (elemSize width i : Nat) : Option (Nat × Nat) := do
  let w ← seg[i]?
  if w = 0 then some (i, 0)
  else if kind w = 1 ∧ listElemSize w = elemSize then
    let t ← target i w
    if 8 * t + width * listCount w ≤ 8 * seg.length then some (t, listCount w) else none
  else none

def readBytes (seg : Segment) (i : Nat) : Option Bytes :=
  (readList seg BYTE 1 i).map fun l => slice (segBytes seg) (8 * l.1) l.2

/-- A text ends in a NUL byte that is not part of it, unless its pointer is null. -/
def readText (seg : Segment) (i : Nat) : Option Bytes := do
  let w ← seg[i]?
  let bytes ← readBytes seg i
  if w = 0 then some []
  else if bytes.getLast? = some 0 then some bytes.dropLast
  else none

def readPointers (seg : Segment) (i : Nat) : Option (List Nat) :=
  (readList seg POINTER 8 i).map fun l => List.range' l.1 l.2

def readTexts (seg : Segment) (i : Nat) : Option (List Bytes) := do
  let places ← readPointers seg i
  places.mapM (readText seg)

def singleSegment (framed : Bytes) : Option Segment :=
  if slice framed 0 4 = leBytes 4 0 ∧ framed.length = 8 + 8 * ofLeBytes (slice framed 4 4) then
    some (wordsOf (framed.drop 8))
  else none

variable {seg : Segment}

namespace StructRef

def word (s : StructRef seg) (k : Nat) : UInt64 := if k < s.dataWords then seg.getD (s.start + k) 0 else 0

def dataField (s : StructRef seg) (byte width : Nat) : Nat :=
  ofLeBytes (slice (wordBytes (s.word (byte / 8))) (byte % 8) width)

def slot (s : StructRef seg) (k : Nat) : Option Nat :=
  if k < s.ptrCount then some (s.start + s.dataWords + k) else none

/-- What is read behind the pointer number `k`. `default` takes the place of a
pointer that the struct does not have. -/
def pointerField {α : Type} (s : StructRef seg) (read : Segment → Nat → Option α) (default : α) (k : Nat) :
    Option α :=
  match s.slot k with
  | some i => read seg i
  | none => some default

def structField (s : StructRef seg) (k : Nat) : Option (StructRef seg) :=
  match s.slot k with
  | some i => readStruct seg i
  | none => some ⟨s.start, 0, 0, Nat.le_trans (Nat.le_trans (Nat.le_add_right _ _) (Nat.le_add_right _ _)) s.inside⟩

def bytesField (s : StructRef seg) (k : Nat) : Option Bytes := s.pointerField readBytes [] k

def textField (s : StructRef seg) (k : Nat) : Option Bytes := s.pointerField readText [] k

def textsField (s : StructRef seg) (k : Nat) : Option (List Bytes) := s.pointerField readTexts [] k

end StructRef

theorem singleSegment_frame (n : Nat) (ws : Segment) :
    singleSegment (leBytes 4 0 ++ leBytes 4 n ++ segBytes ws) = if ws.length = n % 2 ^ 32 then some ws else none := by
  have hzero : slice (leBytes 4 0 ++ leBytes 4 n ++ segBytes ws) 0 4 = leBytes 4 0 := by
    rw [List.append_assoc, slice, List.drop_zero]
    exact List.take_left' (length_leBytes 4 0)
  have hsize : ofLeBytes (slice (leBytes 4 0 ++ leBytes 4 n ++ segBytes ws) 4 4) = n % 2 ^ 32 := by
    have hmid := slice_mid (leBytes 4 0) (leBytes 4 n) (segBytes ws)
    rw [length_leBytes, length_leBytes] at hmid
    rw [hmid, ofLeBytes_leBytes, show (256 : Nat) ^ 4 = 2 ^ 32 by decide]
  have hlen : (leBytes 4 0 ++ leBytes 4 n ++ segBytes ws).length = 8 + 8 * ws.length := by
    rw [List.length_append, List.length_append, length_leBytes, length_leBytes, length_segBytes]
  have hdrop : wordsOf ((leBytes 4 0 ++ leBytes 4 n ++ segBytes ws).drop 8) = ws := by
    have hframe : (leBytes 4 0 ++ leBytes 4 n).length = 8 := by
      rw [List.length_append, length_leBytes, length_leBytes]
    rw [List.drop_left' hframe, ← List.append_nil (segBytes ws), wordsOf_segBytes _ (by decide)]
  rw [singleSegment, hzero, hsize, hlen, hdrop]
  by_cases h : ws.length = n % 2 ^ 32
  · rw [if_pos ⟨rfl, by rw [h]⟩, if_pos h]
  · rw [if_neg (fun hand => h (by omega)), if_neg h]

theorem target_of {i t : Nat} {w : UInt64} (h : offset w = (t : Int) - i - 1) : target i w = some t := by
  rw [target, if_pos (by omega)]
  congr 1
  omega

theorem structPointer_ne_zero {o : Int} {dataWords ptrCount : Nat} (hd : dataWords < 2 ^ 16)
    (hp : ptrCount < 2 ^ 16) (hsize : 0 < dataWords + ptrCount) : structPointer o dataWords ptrCount ≠ 0 := by
  intro h
  have hn := toNat_structPointer (o := o) hd hp
  rw [h, UInt64.toNat_zero] at hn
  omega

theorem listPointer_ne_zero {o : Int} {elemSize count : Nat} (he : elemSize < 8) (hc : count < 2 ^ 29) :
    listPointer o elemSize count ≠ 0 := by
  intro h
  have hn := toNat_listPointer (o := o) he hc
  rw [h, UInt64.toNat_zero] at hn
  omega

/-- What a pointer says that leads to a struct. -/
theorem readStruct_inv {i : Nat} {s : StructRef seg} (h : readStruct seg i = some s) :
    ∃ w, seg[i]? = some w ∧
      ((w = 0 ∧ s.start = i ∧ s.dataWords = 0 ∧ s.ptrCount = 0) ∨
        (w ≠ 0 ∧ kind w = 0 ∧ target i w = some s.start ∧ s.dataWords = structDataWords w ∧
          s.ptrCount = structPtrCount w)) := by
  rw [readStruct] at h
  split at h
  next hi =>
    refine ⟨seg[i], List.getElem?_eq_getElem hi, ?_⟩
    split at h
    next hnull =>
      obtain rfl := Option.some.inj h
      exact .inl ⟨hnull, rfl, rfl, rfl⟩
    next hnull =>
      split at h
      next hkind =>
        obtain ⟨t, ht, h⟩ := Option.bind_eq_some_iff.mp h
        split at h
        next =>
          obtain rfl := Option.some.inj h
          exact .inr ⟨hnull, hkind, ht, rfl, rfl⟩
        next => exact absurd h (by simp)
      next => exact absurd h (by simp)
  next => exact absurd h (by simp)

def StandsAt (seg : Segment) (i : Nat) (ws : Segment) : Prop :=
  ∃ pre post, seg = pre ++ ws ++ post ∧ pre.length = i

theorem StandsAt.bound {i : Nat} {ws : Segment} (h : StandsAt seg i ws) : i + ws.length ≤ seg.length := by
  obtain ⟨pre, post, rfl, rfl⟩ := h
  simp only [List.length_append]
  omega

theorem StandsAt.left {i : Nat} {as bs : Segment} (h : StandsAt seg i (as ++ bs)) : StandsAt seg i as := by
  obtain ⟨pre, post, rfl, hi⟩ := h
  exact ⟨pre, bs ++ post, by simp only [List.append_assoc], hi⟩

theorem StandsAt.right {i : Nat} {as bs : Segment} (h : StandsAt seg i (as ++ bs)) :
    StandsAt seg (i + as.length) bs := by
  obtain ⟨pre, post, rfl, rfl⟩ := h
  exact ⟨pre ++ as, post, by simp only [List.append_assoc], List.length_append⟩

theorem StandsAt.get {i k : Nat} {w : UInt64} {ws : Segment} (h : StandsAt seg i ws) (hw : ws[k]? = some w) :
    seg[i + k]? = some w := by
  obtain ⟨pre, post, rfl, rfl⟩ := h
  obtain ⟨hk, _⟩ := List.getElem?_eq_some_iff.mp hw
  rw [List.append_assoc, List.getElem?_append_right (Nat.le_add_right _ _), Nat.add_sub_cancel_left,
    List.getElem?_append_left hk, hw]

theorem StandsAt.head {i : Nat} {w : UInt64} {ws : Segment} (h : StandsAt seg i (w :: ws)) : seg[i]? = some w :=
  h.get (k := 0) rfl

theorem StandsAt.tail {i : Nat} {w : UInt64} {ws : Segment} (h : StandsAt seg i (w :: ws)) :
    StandsAt seg (i + 1) ws := StandsAt.right (show StandsAt seg i ([w] ++ ws) from h)

theorem StandsAt.bytes {i n : Nat} {ws : Segment} (h : StandsAt seg i ws) (hn : n ≤ 8 * ws.length) :
    slice (segBytes seg) (8 * i) n = slice (segBytes ws) 0 n := by
  obtain ⟨pre, post, rfl, rfl⟩ := h
  have hpos : 8 * pre.length = (segBytes pre).length + 0 := by rw [length_segBytes, Nat.add_zero]
  rw [segBytes_append, segBytes_append, hpos, slice_append (by rw [length_segBytes]; omega)]

theorem StandsAt.data {i n : Nat} {bs : Bytes} (h : StandsAt seg i (padded n bs)) (hn : bs.length ≤ 8 * n) :
    slice (segBytes seg) (8 * i) bs.length = bs := by
  rw [h.bytes (by rw [length_padded hn]; exact hn), segBytes_padded hn, slice, List.drop_zero, List.take_left]

theorem StandsAt.text {i n : Nat} {bs : Bytes} (h : StandsAt seg i (padded n bs)) (hn : bs.length + 1 ≤ 8 * n) :
    slice (segBytes seg) (8 * i) (bs.length + 1) = bs ++ [0] := by
  have hn' : bs.length ≤ 8 * n := Nat.le_of_succ_le hn
  obtain ⟨zeros, hzeros⟩ : ∃ zeros, 8 * n - bs.length = zeros + 1 := ⟨8 * n - bs.length - 1, by omega⟩
  have hl : bs.length + 1 = (bs ++ [0]).length := by rw [List.length_append, List.length_singleton]
  rw [h.bytes (by rw [length_padded hn']; exact hn), segBytes_padded hn', hzeros, List.replicate_succ, slice,
    List.drop_zero, List.append_cons bs, hl, List.take_left]

theorem inRange_of_lt {i t n : Nat} (hn : n ≤ 2 ^ 29) (hi : i < n) (ht : t ≤ n) :
    InRange ((t : Int) - i - 1) := by
  constructor <;> omega

theorem readStruct_null {i : Nat} (h : seg[i]? = some 0) :
    ∃ inside, readStruct seg i = some ⟨i, 0, 0, inside⟩ := by
  obtain ⟨hi, hw⟩ := List.getElem?_eq_some_iff.mp h
  exact ⟨Nat.le_of_lt hi, by rw [readStruct, dif_pos hi, if_pos hw]⟩

theorem readStruct_of {i t : Nat} {w : UInt64} (h : seg[i]? = some w) (hnull : w ≠ 0) (hkind : kind w = 0)
    (ht : target i w = some t) (hin : t + structDataWords w + structPtrCount w ≤ seg.length) :
    readStruct seg i = some ⟨t, structDataWords w, structPtrCount w, hin⟩ := by
  obtain ⟨hi, rfl⟩ := List.getElem?_eq_some_iff.mp h
  rw [readStruct, dif_pos hi, if_neg hnull, if_pos hkind, ht, Option.bind_some, dif_pos hin]

theorem readStruct_pointer {i t dataWords ptrCount : Nat} (hseg : seg.length ≤ 2 ^ 29)
    (h : seg[i]? = some (structPointerAt i t dataWords ptrCount)) (hd : dataWords < 2 ^ 16)
    (hp : ptrCount < 2 ^ 16) (hsize : 0 < dataWords + ptrCount)
    (hin : t + dataWords + ptrCount ≤ seg.length) : readStruct seg i = some ⟨t, dataWords, ptrCount, hin⟩ := by
  obtain ⟨hi, _⟩ := List.getElem?_eq_some_iff.mp h
  rw [structPointerAt] at h
  have hrange : InRange ((t : Int) - i - 1) := inRange_of_lt hseg hi (by omega)
  obtain ⟨hkind, hoffset, hdata, hptrs⟩ := structPointer_fields hrange hd hp
  have hread := readStruct_of h (structPointer_ne_zero hd hp hsize) hkind (target_of hoffset)
    (by rw [hdata, hptrs]; exact hin)
  simp only [hdata, hptrs] at hread
  exact hread

theorem readList_bound {elemSize width i t n : Nat} (h : readList seg elemSize width i = some (t, n)) :
    8 * t + width * n ≤ 8 * seg.length := by
  obtain ⟨w, hw, h⟩ := Option.bind_eq_some_iff.mp h
  obtain ⟨hi, _⟩ := List.getElem?_eq_some_iff.mp hw
  split at h
  next =>
    obtain ⟨rfl, rfl⟩ := Prod.mk.inj (Option.some.inj h)
    omega
  next =>
    split at h
    next =>
      obtain ⟨t', _, h⟩ := Option.bind_eq_some_iff.mp h
      split at h
      next hin =>
        obtain ⟨rfl, rfl⟩ := Prod.mk.inj (Option.some.inj h)
        exact hin
      next => exact absurd h (by simp)
    next => exact absurd h (by simp)

theorem readList_pointer {elemSize width i t n : Nat} (hseg : seg.length ≤ 2 ^ 29)
    (h : seg[i]? = some (listPointerAt i t elemSize n)) (he : elemSize < 8) (hn : n < 2 ^ 29)
    (hin : 8 * t + width * n ≤ 8 * seg.length) : readList seg elemSize width i = some (t, n) := by
  obtain ⟨hi, _⟩ := List.getElem?_eq_some_iff.mp h
  rw [listPointerAt] at h
  have hrange : InRange ((t : Int) - i - 1) := inRange_of_lt hseg hi (by omega)
  obtain ⟨hkind, hoffset, helem, hcount⟩ := listPointer_fields hrange he hn
  rw [readList, h, Option.bind_eq_bind, Option.bind_some, if_neg (listPointer_ne_zero he hn),
    if_pos ⟨hkind, helem⟩, target_of hoffset, Option.bind_eq_bind, Option.bind_some, hcount, if_pos hin]

theorem readBytes_pointer {i t n : Nat} {bs : Bytes} (hseg : seg.length ≤ 2 ^ 29)
    (h : seg[i]? = some (listPointerAt i t BYTE bs.length)) (hlen : bs.length < 2 ^ 29)
    (hn : bs.length ≤ 8 * n) (hat : StandsAt seg t (padded n bs)) : readBytes seg i = some bs := by
  have hbound := hat.bound
  rw [length_padded hn] at hbound
  rw [readBytes, readList_pointer hseg h (by decide) hlen (by omega), Option.map_some, hat.data hn]

theorem readText_pointer {i t n : Nat} {bs : Bytes} (hseg : seg.length ≤ 2 ^ 29)
    (h : seg[i]? = some (listPointerAt i t BYTE (bs.length + 1))) (hlen : bs.length + 1 < 2 ^ 29)
    (hn : bs.length + 1 ≤ 8 * n) (hat : StandsAt seg t (padded n bs)) : readText seg i = some bs := by
  have hbound := hat.bound
  rw [length_padded (Nat.le_of_succ_le hn)] at hbound
  have hread : readBytes seg i = some (bs ++ [0]) := by
    rw [readBytes, readList_pointer hseg h (by decide) hlen (by omega), Option.map_some, hat.text hn]
  rw [readText, h, hread, Option.bind_eq_bind, Option.bind_some, Option.bind_eq_bind, Option.bind_some,
    listPointerAt, if_neg (listPointer_ne_zero (by decide) hlen), List.getLast?_concat, if_pos rfl,
    List.dropLast_concat]

theorem readPointers_pointer {i t count : Nat} (hseg : seg.length ≤ 2 ^ 29)
    (h : seg[i]? = some (listPointerAt i t POINTER count)) (hcount : count < 2 ^ 29)
    (hin : t + count ≤ seg.length) : readPointers seg i = some (List.range' t count) := by
  rw [readPointers, readList_pointer hseg h (by decide) hcount (by omega), Option.map_some]

end MiniCloudflared.Library.Capnp
