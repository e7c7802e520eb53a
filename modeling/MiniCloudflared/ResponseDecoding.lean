import MiniCloudflared.HostileResponse
import MiniCloudflared.Library.CapnpMessage

namespace MiniCloudflared.ResponseDecoding

open Library Capnp HttpTypes Outcome ConnectionResponse HostileResponse

inductive Response
  | error (cause : Str)
  | connectionDetails (locationName : Str)
  deriving DecidableEq

def Response.outcome : Response → Outcome Str Str
  | .error cause => .err ("Edge rejected connection: ".toList ++ cause)
  | .connectionDetails name => .ok name

/-- The response as the generated readers find it, if its root has the layout of
a ConnectionResponse and its texts are well formed. -/
def readResponse (m : Message) : Option Response := do
  let root ← m.readStruct 0 0
  if root.dataWords = 0 ∨ root.ptrCount = 0 then none else
  let result ← m.structField root 0
  match m.dataField root 0 2 with
  | 0 => (m.textField result 0).bind fun cause => (fromUtf8 cause).map .error
  | 1 => (m.textField result 1).bind fun name => (fromUtf8 name).map .connectionDetails
  | _ => none

/-- The text `s` stands behind the pointer at `pos` when its target is counted
from one word too far. `default` takes the place of a text that cannot be read. -/
inductive OneTooFar (seg : Bytes) (pos : Nat) (default : Str) : Str → Prop
  | beyond (h : seg.length < pos + 8) : OneTooFar seg pos default default
  | null (hin : pos + 8 ≤ seg.length) (h : wordAt seg pos = 0) : OneTooFar seg pos default []
  | other (hin : pos + 8 ≤ seg.length) (hw : wordAt seg pos ≠ 0)
      (h : kind (wordAt seg pos) ≠ 1 ∨ listElemSize (wordAt seg pos) ≠ BYTE) : OneTooFar seg pos default default
  | outside (hin : pos + 8 ≤ seg.length) (hkind : kind (wordAt seg pos) = 1)
      (helem : listElemSize (wordAt seg pos) = BYTE) (t : Nat)
      (ht : (t : Int) = (pos / 8 : Nat) + 2 + offset (wordAt seg pos))
      (h : seg.length < 8 * t + listCount (wordAt seg pos)) : OneTooFar seg pos default default
  | text (hin : pos + 8 ≤ seg.length) (hkind : kind (wordAt seg pos) = 1)
      (helem : listElemSize (wordAt seg pos) = BYTE) (t : Nat)
      (ht : (t : Int) = (pos / 8 : Nat) + 2 + offset (wordAt seg pos))
      (h : 8 * t + listCount (wordAt seg pos) ≤ seg.length) :
      OneTooFar seg pos default (fromUtf8Lossy (slice seg (8 * t) (listCount (wordAt seg pos) - 1)))

theorem textOutcome_of_list {seg : Bytes} {pos t : Nat} (hin : pos + 8 ≤ seg.length)
    (hkind : kind (wordAt seg pos) = 1) (helem : listElemSize (wordAt seg pos) = BYTE)
    (ht : (t : Int) = (pos / 8 : Nat) + 2 + offset (wordAt seg pos)) :
    textOutcome seg pos =
      if seg.length < 8 * t + listCount (wordAt seg pos) then .err "Text data out of bounds".toList
      else .ok (fromUtf8Lossy (slice seg (8 * t) (listCount (wordAt seg pos) - 1))) := by
  have hnull : wordAt seg pos ≠ 0 := by
    intro h
    rw [h] at hkind
    exact absurd hkind (by decide)
  rw [textOutcome, if_neg (Nat.not_lt.mpr hin), if_neg hnull, if_neg (not_not_intro hkind),
    if_neg (not_not_intro (show listElemSize (wordAt seg pos) = 2 from helem)), ← ht, if_neg (by omega),
    Int.toNat_natCast]

theorem oneTooFar_of_outcome {seg : Bytes} {pos : Nat} {default s : Str}
    (h : (textOutcome seg pos).unwrapOr default = .ok s) : OneTooFar seg pos default s := by
  rw [textOutcome] at h
  split at h
  next hout =>
    obtain rfl := Outcome.ok.inj h
    exact .beyond hout
  next hin =>
    have hin := Nat.not_lt.mp hin
    split at h
    next hnull =>
      obtain rfl := Outcome.ok.inj h
      exact .null hin hnull
    next hnull =>
      split at h
      next hkind =>
        obtain rfl := Outcome.ok.inj h
        exact .other hin hnull (.inl hkind)
      next hkind =>
        have hkind := Decidable.not_not.mp hkind
        split at h
        next helem =>
          obtain rfl := Outcome.ok.inj h
          exact .other hin hnull (.inr helem)
        next helem =>
          have helem := Decidable.not_not.mp helem
          split at h
          next => exact absurd h (by simp [unwrapOr])
          next hpos =>
            have ht := Int.toNat_of_nonneg (Int.not_lt.mp hpos)
            split at h
            next hout =>
              obtain rfl := Outcome.ok.inj h
              exact .outside hin hkind helem _ ht hout
            next hfits =>
              obtain rfl := Outcome.ok.inj h
              exact .text hin hkind helem _ ht (Nat.not_lt.mp hfits)

theorem outcome_of_oneTooFar {seg : Bytes} {pos : Nat} {default s : Str} (h : OneTooFar seg pos default s) :
    (textOutcome seg pos).unwrapOr default = .ok s := by
  cases h with
  | beyond h => rw [textOutcome, if_pos h, unwrapOr]
  | null hin h => rw [textOutcome, if_neg (Nat.not_lt.mpr hin), if_pos h, unwrapOr]
  | other hin hw h =>
      rw [textOutcome, if_neg (Nat.not_lt.mpr hin), if_neg hw]
      split
      next => rfl
      next hkind =>
        rw [if_pos (show listElemSize (wordAt seg pos) ≠ 2 from h.resolve_left hkind), unwrapOr]
  | outside hin hkind helem t ht h => rw [textOutcome_of_list hin hkind helem ht, if_pos h, unwrapOr]
  | text hin hkind helem t ht h =>
      rw [textOutcome_of_list hin hkind helem ht, if_neg (Nat.not_lt.mpr h), unwrapOr]

theorem textOutcome_ok {seg : Bytes} {pos : Nat} {default s : Str} :
    (textOutcome seg pos).unwrapOr default = .ok s ↔ OneTooFar seg pos default s :=
  ⟨oneTooFar_of_outcome, outcome_of_oneTooFar⟩

def Response.tag : Response → Nat
  | .error _ => 0
  | .connectionDetails _ => 1

def Response.text : Response → Str
  | .error cause => cause
  | .connectionDetails name => name

def Response.default : Response → Str
  | .error _ => "unknown error".toList
  | .connectionDetails _ => "unknown".toList

structure LooksRight (seg : Bytes) (r : Response) : Prop where
  long : 16 ≤ seg.length
  root : RootInside seg
  tagged : rootStart seg + 2 ≤ seg.length
  tag : rootTag seg = r.tag
  text : OneTooFar seg (rootPointer seg r.tag) r.default r.text

theorem responseOutcome_of_root {seg : Bytes} (hroot : RootInside seg) (htagged : rootStart seg + 2 ≤ seg.length) :
    responseOutcome seg = taggedOutcome seg (rootTag seg) := by
  rw [responseOutcome, if_neg (not_not_intro hroot.isStruct), if_neg (Int.not_lt.mpr hroot.notBefore),
    if_neg (Nat.not_lt.mpr hroot.inside), if_neg (Nat.not_lt.mpr htagged)]

theorem taggedOutcome_error {seg : Bytes} {tag : Nat} {cause : Str} :
    taggedOutcome seg tag = .err ("Edge rejected connection: ".toList ++ cause) ↔
      tag = 0 ∧ OneTooFar seg (rootPointer seg 0) "unknown error".toList cause := by
  rw [← textOutcome_ok]
  match tag with
  | 0 =>
      rw [taggedOutcome]
      cases textOutcome seg (rootPointer seg 0) <;> simp [unwrapOr]
  | 1 =>
      rw [taggedOutcome]
      cases textOutcome seg (rootPointer seg 1) <;> simp [unwrapOr]
  | n + 2 =>
      change Outcome.err _ = Outcome.err _ ↔ _
      simp

theorem taggedOutcome_details {seg : Bytes} {tag : Nat} {name : Str} :
    taggedOutcome seg tag = .ok name ↔
      tag = 1 ∧ OneTooFar seg (rootPointer seg 1) "unknown".toList name := by
  rw [← textOutcome_ok]
  match tag with
  | 0 =>
      rw [taggedOutcome]
      cases textOutcome seg (rootPointer seg 0) <;> simp [unwrapOr]
  | 1 => rw [taggedOutcome, and_iff_right rfl]
  | n + 2 =>
      change Outcome.err _ = Outcome.ok _ ↔ _
      simp

theorem taggedOutcome_iff {seg : Bytes} {tag : Nat} {r : Response} :
    taggedOutcome seg tag = r.outcome ↔
      tag = r.tag ∧ OneTooFar seg (rootPointer seg r.tag) r.default r.text := by
  cases r with
  | error cause => exact taggedOutcome_error
  | connectionDetails name => exact taggedOutcome_details

theorem outcome_ne {r : Response} {c : Char} {rest : Str} (hc : c ≠ 'E') : r.outcome ≠ .err (c :: rest) := by
  cases r with
  | error cause =>
      intro h
      have hhead := (List.cons.inj (Outcome.err.inj h)).1
      exact hc hhead.symm
  | connectionDetails name => exact nofun

theorem outcome_ne_panic {r : Response} : r.outcome ≠ .panic := by
  cases r <;> exact nofun

theorem responseOutcome_iff {seg : Bytes} {r : Response} (hlong : 16 ≤ seg.length) :
    responseOutcome seg = r.outcome ↔ LooksRight seg r := by
  constructor
  · intro h
    rw [responseOutcome] at h
    split at h
    next => exact absurd h.symm (outcome_ne (by decide))
    next hkind =>
      split at h
      next => exact absurd h.symm outcome_ne_panic
      next hbefore =>
        split at h
        next => exact absurd h.symm (outcome_ne (by decide))
        next hin =>
          split at h
          next => exact absurd h.symm outcome_ne_panic
          next htagged =>
            obtain ⟨htag, htext⟩ := taggedOutcome_iff.mp h
            exact ⟨hlong, ⟨Decidable.not_not.mp hkind, Int.not_lt.mp hbefore, Nat.not_lt.mp hin⟩,
              Nat.not_lt.mp htagged, htag, htext⟩
  · intro h
    rw [responseOutcome_of_root h.root h.tagged]
    exact taggedOutcome_iff.mpr ⟨h.tag, h.text⟩

theorem decode_iff {data : Slice} {r : Response} :
    decodeConnectionResponse data = r.outcome ↔ LooksRight (data.bytes.drop 8) r := by
  by_cases hlong : 24 ≤ data.bytes.length
  · rw [decode_eq hlong, responseOutcome_iff (by rw [List.length_drop]; omega)]
  · rw [decode_short (Nat.not_le.mp hlong)]
    constructor
    · intro h
      exact absurd h.symm (outcome_ne (by decide))
    · intro h
      have := h.long
      rw [List.length_drop] at this
      omega

/-- With one segment the decoder finds the root and its tag if the root pointer is
a near one. It looks for the cause in the place of the pointer to the error, and
for the name behind the pointer to the details. -/
def RightInOne (seg : Segment) (r : Response) : Prop :=
  kind (wordAt (segBytes seg) 0) = 0 ∧
    match r with
    | .error cause =>
        wordAt (segBytes seg) (rootPointer (segBytes seg) 0) = 0 ∨ cause = "unknown error".toList
    | .connectionDetails name =>
        OneTooFar (segBytes seg) (rootPointer (segBytes seg) 1) "unknown".toList name

/-- Where the decoder takes the root to start, in words, when there are several
segments: it reads the size of the second one as the lower half of a pointer. -/
def rootWord (m : Message) : Option Nat :=
  if segmentSize m 1 % 4 ≠ 0 then none
  else if segmentSize m 1 < 2 ^ 31 then some (1 + segmentSize m 1 / 4)
  else if segmentSize m 1 = 2 ^ 32 - 4 then some 0
  else none

/-- Of the words behind the first one of the frame, `start` has the tag of the
response, and its text is found behind as many words as the size of the third
segment has in its lower half. -/
structure RightAt (m : Message) (r : Response) (start : Nat) : Prop where
  inside : start + segmentSize m 2 % 2 ^ 16 + segmentSize m 2 / 2 ^ 16 ≤ (frameWords m).length
  tag : ∃ w, (frameWords m)[start]? = some w ∧ w.toNat % 2 ^ 16 = r.tag
  text : OneTooFar (segBytes (frameWords m)) (8 * (start + segmentSize m 2 % 2 ^ 16 + r.tag))
    r.default r.text

def ReadRight (m : Message) (r : Response) : Prop :=
  match m with
  | [seg] => RightInOne seg r
  | m => ∃ start, rootWord m = some start ∧ RightAt m r start

variable {seg : Segment} {r : Response}

theorem wordAt_segBytes {i : Nat} {w : UInt64} (h : seg[i]? = some w) : wordAt (segBytes seg) (8 * i) = w := by
  rw [wordAt, slice_word h, wordOf_wordBytes]

theorem word_single (i : Nat) : Message.word [seg] 0 i = seg[i]? := rfl

/-- A pointer to a struct is null, or far, or of the kind of a struct. -/
theorem kind_of_readStruct {i : Nat} {p : StructPlace} (h : Message.readStruct [seg] 0 i = some p) :
    ∃ w, seg[i]? = some w ∧ (w = 0 ∨ (w ≠ 0 ∧ kind w ≠ 1)) := by
  obtain ⟨w, hw, h⟩ := Option.bind_eq_some_iff.mp h
  rw [word_single] at hw
  refine ⟨w, hw, ?_⟩
  by_cases hnull : w = 0
  · exact .inl hnull
  rw [if_neg hnull] at h
  obtain ⟨o, ho, h⟩ := Option.bind_eq_some_iff.mp h
  obtain ⟨other, _, h⟩ := Option.bind_eq_some_iff.mp h
  refine .inr ⟨hnull, ?_⟩
  rw [locate] at ho
  split at ho
  next hnear =>
    rw [nearObject] at ho
    obtain ⟨t, _, rfl⟩ := Option.map_eq_some_iff.mp ho
    split at h
    next hkind =>
      rw [hkind.1]
      decide
    next => exact absurd h (by simp)
  next hfar =>
    rw [Decidable.not_not.mp hfar]
    decide

theorem root_of_near {i : Nat} {root : StructPlace} {w : UInt64} (hw : seg[i]? = some w) (hkind : kind w = 0)
    (hdata : root.dataWords ≠ 0) (h : Message.readStruct [seg] 0 i = some root) :
    root.segment = 0 ∧ target i w = some root.start ∧ root.dataWords = structDataWords w ∧
      root.ptrCount = structPtrCount w ∧ root.start + root.dataWords + root.ptrCount ≤ seg.length := by
  obtain ⟨w', hw', h⟩ := Option.bind_eq_some_iff.mp h
  rw [word_single] at hw'
  obtain rfl := Option.some.inj (hw'.symm.trans hw)
  split at h
  next =>
    obtain rfl := Option.some.inj h
    exact absurd rfl hdata
  next =>
    obtain ⟨o, ho, h⟩ := Option.bind_eq_some_iff.mp h
    obtain ⟨other, hother, h⟩ := Option.bind_eq_some_iff.mp h
    rw [locate, if_pos (by rw [hkind]; decide), nearObject] at ho
    obtain ⟨t, ht, rfl⟩ := Option.map_eq_some_iff.mp ho
    obtain rfl := Option.some.inj hother
    split at h
    next hin =>
      obtain rfl := Option.some.inj h
      exact ⟨rfl, ht, rfl, rfl, hin.2⟩
    next => exact absurd h (by simp)

theorem target_eq {i t : Nat} {w : UInt64} (h : target i w = some t) : (t : Int) = i + 1 + offset w := by
  rw [target] at h
  split at h
  next hpos =>
    have := Option.some.inj h
    omega
  next => exact absurd h (by simp)

theorem slice_start {i : Nat} {w : UInt64} (h : seg[i]? = some w) (n : Nat) (hn : n ≤ 8) :
    slice (segBytes seg) (8 * i) n = slice (wordBytes w) 0 n := by
  rw [← slice_word h, slice_slice (by omega), Nat.add_zero]

theorem readResponse_inv (hread : readResponse [seg] = some r) :
    ∃ root p, Message.readStruct [seg] 0 0 = some root ∧ root.dataWords ≠ 0 ∧ root.ptrCount ≠ 0 ∧
      Message.structField [seg] root 0 = some p ∧ Message.dataField [seg] root 0 2 = r.tag ∧
      ∀ cause, r = .error cause → p.ptrCount = 0 → cause = [] := by
  obtain ⟨root, hroot, h⟩ := Option.bind_eq_some_iff.mp hread
  split at h
  next => exact absurd h (by simp)
  next hlayout =>
    obtain ⟨p, hp, h⟩ := Option.bind_eq_some_iff.mp h
    refine ⟨root, p, hroot, fun h0 => hlayout (.inl h0), fun h0 => hlayout (.inr h0), hp, ?_⟩
    split at h
    next htag =>
      obtain ⟨bytes, hbytes, h⟩ := Option.bind_eq_some_iff.mp h
      obtain ⟨cause, hcause, rfl⟩ := Option.map_eq_some_iff.mp h
      refine ⟨htag, ?_⟩
      intro c hc hnone
      obtain rfl := Response.error.inj hc
      rw [Message.textField, if_neg (by omega)] at hbytes
      obtain rfl := Option.some.inj hbytes
      exact (Option.some.inj hcause).symm
    next htag =>
      obtain ⟨bytes, _, h⟩ := Option.bind_eq_some_iff.mp h
      obtain ⟨name, _, rfl⟩ := Option.map_eq_some_iff.mp h
      exact ⟨htag, fun _ => nofun⟩
    next => exact absurd h (by simp)

structure RootFound (seg : Segment) (r : Response) : Prop where
  long : 16 ≤ (segBytes seg).length
  root : RootInside (segBytes seg)
  tagged : rootStart (segBytes seg) + 2 ≤ (segBytes seg).length
  tag : rootTag (segBytes seg) = r.tag
  pointer : ∃ i w, rootPointer (segBytes seg) 0 = 8 * i ∧ seg[i]? = some w ∧
    ((w = 0 ∧ ∀ cause, r = .error cause → cause = []) ∨ (w ≠ 0 ∧ kind w ≠ 1))

theorem rootFound_of_read (hread : readResponse [seg] = some r) (hkind : kind (wordAt (segBytes seg) 0) = 0) :
    RootFound seg r := by
  obtain ⟨root, p, hroot, hdata, hptrs, hp, htag, hnone⟩ := readResponse_inv hread
  obtain ⟨w, hw, _⟩ := Option.bind_eq_some_iff.mp hroot
  rw [word_single] at hw
  have hat : wordAt (segBytes seg) 0 = w := wordAt_segBytes hw
  rw [hat] at hkind
  obtain ⟨hsegment, htarget, hd, hc, hin⟩ := root_of_near hw hkind hdata hroot
  have hoffset := target_eq htarget
  have hlen := length_segBytes seg
  have hstart : rootStart (segBytes seg) = 8 * root.start := by
    rw [rootStart, hat]
    omega
  have hsize : rootSize (segBytes seg) = 8 * (root.dataWords + root.ptrCount) := by
    rw [rootSize, hat, hd, hc]
  have hlt : root.start < seg.length := by omega
  have hword : seg[root.start]? = some seg[root.start] := List.getElem?_eq_getElem hlt
  have hpointer : rootPointer (segBytes seg) 0 = 8 * (root.start + root.dataWords) := by
    rw [rootPointer, hstart, hat, ← hd]
    omega
  rw [Message.structField, if_pos (by omega), hsegment, Nat.add_zero] at hp
  obtain ⟨w₀, hw₀, hkind₀⟩ := kind_of_readStruct hp
  refine ⟨by omega, ⟨by rw [hat]; exact hkind, by rw [hat]; omega, by omega⟩, by omega, ?_,
    root.start + root.dataWords, w₀, hpointer, hw₀, ?_⟩
  · rw [Message.dataField, if_pos (by omega), hsegment] at htag
    rw [rootTag, hstart, slice_start hword 2 (by decide), ← htag]
    congr 3
    exact (congrArg (Option.getD · 0) hword).symm
  · refine hkind₀.imp (fun hnull => ⟨hnull, ?_⟩) id
    intro cause hcause
    apply hnone cause hcause
    subst hnull
    obtain ⟨w', hw', hp⟩ := Option.bind_eq_some_iff.mp hp
    rw [word_single, hw₀] at hw'
    obtain rfl := Option.some.inj hw'
    obtain rfl := Option.some.inj hp
    rfl

theorem looksRight_iff (hread : readResponse [seg] = some r) : LooksRight (segBytes seg) r ↔ RightInOne seg r := by
  constructor
  · intro h
    have hkind := h.root.isStruct
    obtain ⟨i, w, hi, hw, hpointer⟩ := (rootFound_of_read hread hkind).pointer
    have hat : wordAt (segBytes seg) (rootPointer (segBytes seg) 0) = w := by
      rw [hi, wordAt_segBytes hw]
    refine ⟨hkind, ?_⟩
    cases r with
    | connectionDetails name => exact h.text
    | error cause =>
        rcases hpointer with ⟨hnull, _⟩ | ⟨_, hlist⟩
        · exact .inl (hat.trans hnull)
        · have htext : OneTooFar (segBytes seg) (rootPointer (segBytes seg) 0) "unknown error".toList cause := h.text
          rw [← hat] at hlist
          cases htext with
          | beyond => exact .inr rfl
          | null _ hnull => exact .inl hnull
          | other => exact .inr rfl
          | outside => exact .inr rfl
          | text _ hkind => exact absurd hkind hlist
  · rintro ⟨hkind, h⟩
    have hfound := rootFound_of_read hread hkind
    refine ⟨hfound.long, hfound.root, hfound.tagged, hfound.tag, ?_⟩
    cases r with
    | connectionDetails name => exact h
    | error cause =>
        obtain ⟨i, w, hi, hw, hpointer⟩ := hfound.pointer
        obtain ⟨hlt, _⟩ := List.getElem?_eq_some_iff.mp hw
        have hat : wordAt (segBytes seg) (rootPointer (segBytes seg) 0) = w := by
          rw [hi, wordAt_segBytes hw]
        have hin : rootPointer (segBytes seg) 0 + 8 ≤ (segBytes seg).length := by
          rw [hi, length_segBytes]
          omega
        change OneTooFar (segBytes seg) (rootPointer (segBytes seg) 0) "unknown error".toList cause
        rcases hpointer with ⟨hnull, hcause⟩ | ⟨hnonnull, hlist⟩
        · rw [hcause cause rfl]
          exact .null hin (hat.trans hnull)
        · rw [← hat] at hnonnull hlist
          rw [h.resolve_left hnonnull]
          exact .other hin hnonnull (.inl hlist)

variable {a b : Segment} {m : Message}

theorem words_of_read (hread : readResponse m = some r) : 2 ≤ m.flatten.length := by
  obtain ⟨root, hroot, h⟩ := Option.bind_eq_some_iff.mp hread
  split at h
  next => exact absurd h (by simp)
  next hlayout =>
    obtain ⟨w, _, hroot⟩ := Option.bind_eq_some_iff.mp hroot
    split at hroot
    next =>
      obtain rfl := Option.some.inj hroot
      exact absurd (.inl rfl) hlayout
    next =>
      obtain ⟨o, _, hroot⟩ := Option.bind_eq_some_iff.mp hroot
      obtain ⟨other, hother, hroot⟩ := Option.bind_eq_some_iff.mp hroot
      split at hroot
      next hin =>
        obtain rfl := Option.some.inj hroot
        have hlength := (List.sublist_flatten_of_mem (List.mem_of_getElem? hother)).length_le
        simp only [not_or] at hlayout
        omega
      next => exact absurd hroot (by simp)

theorem rootWord_iff {start : Nat} {w : UInt64} (hw : w = halves (segmentSize m 1) (segmentSize m 2)) :
    rootWord m = some start ↔ kind w = 0 ∧ -1 ≤ offset w ∧ start = (1 + offset w).toNat := by
  have hsmall : segmentSize m 1 < 2 ^ 32 := Nat.mod_lt _ (by decide)
  have hlow : w.toNat % 2 ^ 32 = segmentSize m 1 := by
    rw [hw, toNat_halves]
    omega
  have hkind : kind w = segmentSize m 1 % 4 := by
    rw [kind, ← hlow]
    omega
  rw [hkind, offset, hlow, signed32, rootWord]
  split
  next h => simp [h]
  next h =>
    split
    next => simp only [Option.some.injEq]; omega
    next =>
      split
      next => simp only [Option.some.injEq]; omega
      next => simp only [reduceCtorEq, false_iff]; omega

theorem rootTag_word {words : Segment} {start : Nat} {w : UInt64} (hstart : rootStart (segBytes words) = 8 * start)
    (hw : words[start]? = some w) : rootTag (segBytes words) = w.toNat % 2 ^ 16 := by
  have hlow : slice (wordBytes w) 0 2 = leBytes 2 w.toNat := rfl
  rw [rootTag, hstart, slice_start hw 2 (by decide), hlow, ofLeBytes_leBytes]
  rfl

theorem root_of_sizes {words : Segment} (hat : wordAt (segBytes words) 0 = halves (segmentSize m 1) (segmentSize m 2)) :
    structDataWords (wordAt (segBytes words) 0) = segmentSize m 2 % 2 ^ 16 ∧
      structPtrCount (wordAt (segBytes words) 0) = segmentSize m 2 / 2 ^ 16 := by
  have hword := toNat_halves (segmentSize m 1) (segmentSize m 2)
  have hthird : segmentSize m 2 < 2 ^ 32 := Nat.mod_lt _ (by decide)
  rw [hat, structDataWords, structPtrCount, hword]
  omega

theorem rootPointer_of_sizes {words : Segment} {start : Nat} (slot : Nat)
    (hat : wordAt (segBytes words) 0 = halves (segmentSize m 1) (segmentSize m 2))
    (hstart : rootStart (segBytes words) = 8 * start) :
    rootPointer (segBytes words) slot = 8 * (start + segmentSize m 2 % 2 ^ 16 + slot) := by
  rw [rootPointer, hstart, (root_of_sizes hat).1]
  omega

/-- With several segments the decoder reads the root where the sizes say. -/
theorem looksRight_many (hread : readResponse (a :: b :: m) = some r) :
    LooksRight (segBytes (frameWords (a :: b :: m))) r ↔ ReadRight (a :: b :: m) r := by
  have hlong := words_of_read hread
  have hat := wordAt_segBytes (frameWords_head a b m)
  change _ ↔ ∃ start, rootWord (a :: b :: m) = some start ∧ RightAt (a :: b :: m) r start
  generalize a :: b :: m = m at *
  rw [Nat.mul_zero] at hat
  obtain ⟨hdata, hptrs⟩ := root_of_sizes hat
  have hlen := length_segBytes (frameWords m)
  have hwords : (frameWords m).length = (sizeWords m).length + m.flatten.length := List.length_append
  constructor
  · intro h
    have hstart : rootStart (segBytes (frameWords m)) = 8 * (1 + offset (wordAt (segBytes (frameWords m)) 0)).toNat :=
      rfl
    have hinside := h.root.inside
    rw [rootSize, hdata, hptrs] at hinside
    have htagged := h.tagged
    have hlt : (1 + offset (wordAt (segBytes (frameWords m)) 0)).toNat < (frameWords m).length := by omega
    have hget := List.getElem?_eq_getElem hlt
    refine ⟨_, (rootWord_iff hat).mpr ⟨h.root.isStruct, h.root.notBefore, rfl⟩, by omega, ⟨_, hget, ?_⟩, ?_⟩
    · rw [← rootTag_word hstart hget, h.tag]
    · rw [← rootPointer_of_sizes _ hat hstart]
      exact h.text
  · rintro ⟨start, hroot, h⟩
    obtain ⟨hkind, hbefore, hstart⟩ := (rootWord_iff hat).mp hroot
    have hstart : rootStart (segBytes (frameWords m)) = 8 * start := by rw [rootStart, hstart]
    obtain ⟨w, hw, htag⟩ := h.tag
    obtain ⟨hlt, _⟩ := List.getElem?_eq_some_iff.mp hw
    have hinside := h.inside
    refine ⟨by omega, ⟨hkind, hbefore, ?_⟩, by omega, by rw [rootTag_word hstart hw, htag], ?_⟩
    · rw [rootSize, hdata, hptrs]
      omega
    · rw [rootPointer_of_sizes _ hat hstart]
      exact h.text

/-- The decoder agrees with the generated readers exactly where the word in which
it looks for the text happens to be right. -/
theorem decode_agrees_iff {m : Message} {data : Slice} (hframe : data.bytes = frame m)
    (hread : readResponse m = some r) : decodeConnectionResponse data = r.outcome ↔ ReadRight m r := by
  rw [decode_iff, hframe]
  match m with
  | [] => exact absurd hread (by simp [readResponse, Message.readStruct, Message.word])
  | [seg] => rw [frame_single, looksRight_iff hread]; rfl
  | a :: b :: m => rw [frame_drop, looksRight_many hread]

def causeMessage : Message :=
  [[structPointerAt 0 1 1 1, 0, structPointerAt 2 3 2 1, 0, 0, listPointerAt 5 6 BYTE 14] ++
    padded 2 (utf8 "unknown error".toList)]

theorem decode_agrees_iff_cause : decodeConnectionResponse ⟨frame causeMessage, by decide⟩ =
    (Response.error "unknown error".toList).outcome :=
  (decode_agrees_iff (m := causeMessage) rfl (by decide +kernel)).mpr ⟨by decide +kernel, .inr rfl⟩

def detailsMessage : Message :=
  [[structPointerAt 0 1 1 1, 1, structPointerAt 2 3 0 2, listPointerAt 3 5 BYTE 16, listPointerAt 4 7 BYTE 4] ++
    padded 2 (List.replicate 16 65) ++ padded 1 (utf8 "dfw".toList)]

def detailsData : Slice := ⟨frame detailsMessage, by decide⟩

/-- The decoder takes the uuid for the location, from its ninth byte on. -/
theorem details_misread : readResponse detailsMessage = some (.connectionDetails "dfw".toList) ∧
    detailsData.bytes = frame detailsMessage ∧
    decodeConnectionResponse detailsData = .ok ("AAAAAAAAdfw".toList ++ List.replicate 4 (Char.ofNat 0)) ∧
    decodeConnectionResponse detailsData ≠ (Response.connectionDetails "dfw".toList).outcome := by
  have hdecode : decodeConnectionResponse detailsData =
      .ok ("AAAAAAAAdfw".toList ++ List.replicate 4 (Char.ofNat 0)) := by decide +kernel
  refine ⟨by decide +kernel, rfl, hdecode, ?_⟩
  rw [hdecode]
  decide

end MiniCloudflared.ResponseDecoding
