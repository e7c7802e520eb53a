import MiniCloudflared.HttpTypes
import MiniCloudflared.Library.CapnpReader
import MiniCloudflared.Library.Utf8

namespace MiniCloudflared.CapnpRpc

open Library Capnp HttpTypes

/-- A run over the builder's words. There is no result where the code would
index out of range. -/
abbrev SegBuilder := StateT Segment Option

structure StructAlloc where
  dataW : Nat
  ptrW : Nat
  deriving DecidableEq

def alloc (n : Nat) : SegBuilder Nat := fun words => some (words.length, words ++ List.replicate n 0)

def allocStruct (dataWords ptrCount : Nat) : SegBuilder StructAlloc := do
  let w ← alloc (dataWords + ptrCount)
  return { dataW := w, ptrW := w + dataWords }

/-- The words are seen as bytes, the lowest byte of a word first. -/
def copyFromSlice (start : Nat) (data : Bytes) : SegBuilder Unit := fun words =>
  if start + data.length ≤ (segBytes words).length then some ((), wordsOf (splice (segBytes words) start data))
  else none

def writeBytes (word : Nat) (data : Bytes) : SegBuilder Unit := copyFromSlice (word * 8) data

def allocText (s : Str) : SegBuilder Nat := do
  let b := utf8 s
  let w ← alloc ((b.length + 1 + 7) / 8)
  writeBytes w b
  return w

def allocData (d : Bytes) : SegBuilder Nat := do
  let w ← alloc ((d.length + 7) / 8)
  writeBytes w d
  return w

def allocPtrList (count : Nat) : SegBuilder Nat := alloc (max count 1)

def allocRaw (raw : Segment) : SegBuilder Nat := do
  let w ← alloc raw.length
  fun words =>
    if w + raw.length ≤ words.length then some (w, words.take w ++ raw ++ words.drop (w + raw.length)) else none

def setU8 (word byte : Nat) (v : UInt8) : SegBuilder Unit := copyFromSlice (word * 8 + byte) [v]

def setU16 (word byte : Nat) (v : UInt16) : SegBuilder Unit :=
  copyFromSlice (word * 8 + byte) (leBytes 2 v.toNat)

def setU32 (word byte : Nat) (v : UInt32) : SegBuilder Unit :=
  copyFromSlice (word * 8 + byte) (leBytes 4 v.toNat)

def setWord (word : Nat) (v : UInt64) : SegBuilder Unit := fun words =>
  if word < words.length then some ((), words.set word v) else none

def setU64 (word _byte : Nat) (v : UInt64) : SegBuilder Unit := do
  -- overwritten at once
  setWord word ((wordBytes v).foldl (fun a b => a ||| b.toUInt64) 0)
  setWord word (wordOf (wordBytes v))

def setStructPtr (ptrBase slot targetWord : Nat) (dataWords ptrCount : UInt16) : SegBuilder Unit :=
  let ptrWord := ptrBase + slot
  let offset := (targetWord : Int) - ptrWord - 1
  let lo := UInt32.ofInt (offset * 4)
  let hi := dataWords.toUInt32 ||| ptrCount.toUInt32 <<< 16
  setWord ptrWord (lo.toUInt64 ||| hi.toUInt64 <<< 32)

def setDataPtr (ptrBase slot targetWord len : Nat) : SegBuilder Unit :=
  let ptrWord := ptrBase + slot
  let offset := (targetWord : Int) - ptrWord - 1
  let lo := UInt32.ofInt (offset * 4 + 1)
  let hi := UInt32.ofNat len <<< 3 ||| 2
  setWord ptrWord (lo.toUInt64 ||| hi.toUInt64 <<< 32)

def setTextPtr (ptrBase slot targetWord charCount : Nat) : SegBuilder Unit :=
  setDataPtr ptrBase slot targetWord charCount

def setPtrListPtr (ptrBase slot targetWord count : Nat) : SegBuilder Unit :=
  let ptrWord := ptrBase + slot
  let offset := (targetWord : Int) - ptrWord - 1
  let lo := UInt32.ofInt (offset * 4 + 1)
  let hi := UInt32.ofNat count <<< 3 ||| 6
  setWord ptrWord (lo.toUInt64 ||| hi.toUInt64 <<< 32)

def setListTextEntry (listBase index targetWord charCount : Nat) : SegBuilder Unit :=
  setTextPtr listBase index targetWord charCount

def finish (words : Segment) (rootWord : Nat) (dataWords ptrCount : UInt16) : Bytes :=
  let segSize := UInt32.ofNat (1 + words.length)
  let realOffset := (rootWord : Int) - 1
  let lo := UInt32.ofInt (realOffset * 4)
  let hi := dataWords.toUInt32 ||| ptrCount.toUInt32 <<< 16
  let rootPtr := lo.toUInt64 ||| hi.toUInt64 <<< 32
  leBytes 4 0 ++ leBytes 4 segSize.toNat ++ wordBytes rootPtr ++ segBytes words

def REGISTRATION_SERVER_ID : UInt64 := 0xf71695ec7fe85497

def METHOD_REGISTER : UInt16 := 0

abbrev Uuid := { bytes : Bytes // bytes.length = 16 }

structure RegisterConnection where
  accountTag : Str
  tunnelSecret : Bytes
  tunnelId : Uuid
  connIndex : UInt8
  clientId : Uuid
  version : Str
  arch : Str
  features : List Str

def allocTexts : List Str → SegBuilder (List Nat)
  | [] => return []
  | f :: fs => do
      let w ← allocText f
      let ws ← allocTexts fs
      return w :: ws

def setListTextEntries (listBase : Nat) : Nat → List (Nat × Str) → SegBuilder Unit
  | _, [] => return
  | i, (fw, f) :: rest => do
      setListTextEntry listBase i fw ((utf8 f).length + 1)
      setListTextEntries listBase (i + 1) rest

/-- What `encode_register_connection` does before it frames the words. -/
def registerConnectionWords (p : RegisterConnection) : SegBuilder StructAlloc := do
  let params ← allocStruct 1 3
  let auth ← allocStruct 0 2
  let options ← allocStruct 1 2
  let client ← allocStruct 0 4
  let accountTagW ← allocText p.accountTag
  let secretW ← allocData p.tunnelSecret
  let tunnelIdW ← allocData p.tunnelId.val
  let clientIdW ← allocData p.clientId.val
  let versionW ← allocText p.version
  let archW ← allocText p.arch
  let featWs ← allocTexts p.features
  let featListW ← allocPtrList p.features.length
  setU8 params.dataW 0 p.connIndex
  setStructPtr params.ptrW 0 auth.dataW 0 2
  setDataPtr params.ptrW 1 tunnelIdW p.tunnelId.val.length
  setStructPtr params.ptrW 2 options.dataW 1 2
  setTextPtr auth.ptrW 0 accountTagW ((utf8 p.accountTag).length + 1)
  setDataPtr auth.ptrW 1 secretW p.tunnelSecret.length
  setStructPtr options.ptrW 0 client.dataW 0 4
  setDataPtr client.ptrW 0 clientIdW 16
  setPtrListPtr client.ptrW 1 featListW p.features.length
  setTextPtr client.ptrW 2 versionW ((utf8 p.version).length + 1)
  setTextPtr client.ptrW 3 archW ((utf8 p.arch).length + 1)
  setListTextEntries featListW 0 (featWs.zip p.features)
  return params

def encodeRegisterConnection (p : RegisterConnection) : Option Bytes := do
  let (params, words) ← registerConnectionWords p []
  return finish words params.dataW 1 3

def bootstrapWords (questionId : UInt32) : SegBuilder StructAlloc := do
  let msg ← allocStruct 1 1
  let bootstrap ← allocStruct 1 1
  setU16 msg.dataW 0 8
  setStructPtr msg.ptrW 0 bootstrap.dataW 1 1
  setU32 bootstrap.dataW 0 questionId
  return msg

def buildBootstrapMsg (questionId : UInt32) : Option Bytes := do
  let (msg, words) ← bootstrapWords questionId []
  return finish words msg.dataW 1 1

/-- The number of segments is one more than the frame says, which may overflow. -/
def stripFraming (framed : Bytes) : Option Segment :=
  if framed.length < 16 then some []
  else
    let segCount := ofLeBytes (slice framed 0 4) + 1
    if segCount < 2 ^ 32 then
      let headerWords := (segCount + 2) / 2
      let dataStart := headerWords * 8 + 8
      if framed.length ≤ dataStart then some [] else some (wordsOf (framed.drop dataStart))
    else none

def callWords (questionId : UInt32) (paramsStructBytes : Bytes) : SegBuilder StructAlloc := do
  let paramsWords ← fun words => (stripFraming paramsStructBytes).map (·, words)
  let msg ← allocStruct 1 1
  let call ← allocStruct 3 3
  let payload ← allocStruct 0 2
  let paramsW ← allocRaw paramsWords
  setU16 msg.dataW 0 2
  setStructPtr msg.ptrW 0 call.dataW 3 3
  setU32 call.dataW 0 questionId
  setU16 (call.dataW + 0) 4 METHOD_REGISTER
  setU64 (call.dataW + 1) 0 REGISTRATION_SERVER_ID
  let targetW ← allocStruct 1 1
  setU16 targetW.dataW 0 1
  let paW ← allocStruct 1 1
  setU32 paW.dataW 0 0
  setStructPtr targetW.ptrW 0 paW.dataW 1 1
  setU16 targetW.dataW 0 0
  setU32 targetW.dataW 4 0
  setStructPtr call.ptrW 0 targetW.dataW 1 1
  setStructPtr call.ptrW 1 payload.dataW 0 2
  setStructPtr payload.ptrW 0 paramsW 1 3
  return msg

def buildCallMsg (questionId : UInt32) (paramsStructBytes : Bytes) : Option Bytes := do
  let (msg, words) ← callWords questionId paramsStructBytes []
  return finish words msg.dataW 1 1

theorem toNat_join (lo hi : UInt32) :
    (lo.toUInt64 ||| hi.toUInt64 <<< 32).toNat = lo.toNat + 2 ^ 32 * hi.toNat := by
  have hlo := lo.toNat_lt
  have hhi := hi.toNat_lt
  have hshift : (hi.toUInt64 <<< 32).toNat = hi.toNat <<< 32 := by
    rw [UInt64.toNat_shiftLeft, UInt32.toNat_toUInt64]
    change hi.toNat <<< 32 % 2 ^ 64 = _
    rw [Nat.shiftLeft_eq]
    omega
  rw [UInt64.toNat_or, UInt32.toNat_toUInt64, hshift, Nat.or_comm, ← Nat.shiftLeft_add_eq_or_of_lt hlo,
    Nat.shiftLeft_eq, Nat.add_comm, Nat.mul_comm]

theorem join_eq_halves (lo hi : UInt32) :
    lo.toUInt64 ||| hi.toUInt64 <<< 32 = halves lo.toNat hi.toNat := by
  apply UInt64.toNat_inj.mp
  rw [toNat_join, toNat_halves, Nat.mod_eq_of_lt lo.toNat_lt, Nat.mod_eq_of_lt hi.toNat_lt]

theorem toNat_ofInt32 (n : Int) : (UInt32.ofInt n).toNat = (n % 2 ^ 32).toNat := by
  have h : (n % 2 ^ 32).toNat < 2 ^ 32 := by omega
  exact Nat.mod_eq_of_lt h

theorem structPtr_word (offset : Int) (dataWords ptrCount : UInt16) :
    (UInt32.ofInt (offset * 4)).toUInt64 |||
        (dataWords.toUInt32 ||| ptrCount.toUInt32 <<< 16).toUInt64 <<< 32 =
      structPointer offset dataWords.toNat ptrCount.toNat := by
  have hhi : (dataWords.toUInt32 ||| ptrCount.toUInt32 <<< 16).toNat =
      dataWords.toNat + 2 ^ 16 * ptrCount.toNat := by
    have hd := dataWords.toNat_lt
    have hp := ptrCount.toNat_lt
    have hshift : (ptrCount.toUInt32 <<< 16).toNat = ptrCount.toNat <<< 16 := by
      rw [UInt32.toNat_shiftLeft, UInt16.toNat_toUInt32]
      change ptrCount.toNat <<< 16 % 2 ^ 32 = _
      rw [Nat.shiftLeft_eq]
      omega
    rw [UInt32.toNat_or, UInt16.toNat_toUInt32, hshift, Nat.or_comm, ← Nat.shiftLeft_add_eq_or_of_lt hd,
      Nat.shiftLeft_eq, Nat.add_comm, Nat.mul_comm]
  rw [join_eq_halves, hhi, toNat_ofInt32, structPointer, Int.mul_comm]

theorem listPtr_word (offset : Int) (len elemSize : Nat) (he : elemSize < 8) :
    (UInt32.ofInt (offset * 4 + 1)).toUInt64 |||
        (UInt32.ofNat len <<< 3 ||| UInt32.ofNat elemSize).toUInt64 <<< 32 =
      listPointer offset elemSize len := by
  have hhi : (UInt32.ofNat len <<< 3 ||| UInt32.ofNat elemSize).toNat = (elemSize + 8 * len) % 2 ^ 32 := by
    have hshift : (UInt32.ofNat len <<< 3).toNat = (len % 2 ^ 29) <<< 3 := by
      rw [UInt32.toNat_shiftLeft, UInt32.toNat_ofNat']
      change (len % 2 ^ 32) <<< 3 % 2 ^ 32 = _
      rw [Nat.shiftLeft_eq, Nat.shiftLeft_eq]
      omega
    have helem : (UInt32.ofNat elemSize).toNat = elemSize := by
      rw [UInt32.toNat_ofNat']
      omega
    rw [UInt32.toNat_or, hshift, helem, ← Nat.shiftLeft_add_eq_or_of_lt (i := 3) he, Nat.shiftLeft_eq]
    omega
  rw [join_eq_halves, hhi, toNat_ofInt32, listPointer, Int.mul_comm, halves, halves, Nat.mod_mod]

theorem bind_run {α β : Type} {m : SegBuilder α} {f : α → SegBuilder β} {words words' : Segment} {a : α}
    (h : m words = some (a, words')) : (m >>= f) words = f a words' := by
  change (m words).bind (fun r => f r.1 r.2) = _
  rw [h, Option.bind_some]

variable (words : Segment)

theorem alloc_run (n : Nat) : alloc n words = some (words.length, words ++ List.replicate n 0) := rfl

theorem allocStruct_run (dataWords ptrCount : Nat) :
    allocStruct dataWords ptrCount words =
      some (⟨words.length, words.length + dataWords⟩, words ++ List.replicate (dataWords + ptrCount) 0) := rfl

theorem writeBytes_run {n : Nat} {data : Bytes} (h : data.length ≤ 8 * n) :
    writeBytes words.length data (words ++ List.replicate n 0) = some ((), words ++ padded n data) := by
  rw [writeBytes, copyFromSlice, Nat.mul_comm, splice_fresh h]
  apply if_pos
  rw [length_segBytes, List.length_append, List.length_replicate]
  omega

def textWords (s : Str) : Segment := padded (((utf8 s).length + 1 + 7) / 8) (utf8 s)

def dataWordsOf (d : Bytes) : Segment := padded ((d.length + 7) / 8) d

theorem allocText_run (s : Str) : allocText s words = some (words.length, words ++ textWords s) := by
  rw [allocText, bind_run (alloc_run words _), bind_run (writeBytes_run words (by omega))]
  rfl

theorem allocData_run (d : Bytes) : allocData d words = some (words.length, words ++ dataWordsOf d) := by
  rw [allocData, bind_run (alloc_run words _), bind_run (writeBytes_run words (by omega))]
  rfl

theorem allocRaw_run (raw : Segment) : allocRaw raw words = some (words.length, words ++ raw) := by
  rw [allocRaw, bind_run (alloc_run words _)]
  simp

variable {words} {word byte : Nat}

theorem copyFromSlice_eq {start : Nat} {data : Bytes} (h : start + data.length ≤ 8 * words.length) :
    copyFromSlice start data words = some ((), overwrite words start data) :=
  if_pos (by rw [length_segBytes]; exact h)

theorem copyFromSlice_run {data : Bytes} (hw : word < words.length) (hb : byte + data.length ≤ 8) :
    copyFromSlice (word * 8 + byte) data words = some ((), words.modify word (patchWord · byte data)) := by
  rw [copyFromSlice_eq (by omega), overwrite, Nat.mul_comm, splice_word hw hb]

theorem setWord_run (v : UInt64) (hw : word < words.length) :
    setWord word v words = some ((), words.set word v) := if_pos hw

theorem setWord_eq (word : Nat) (v : UInt64) : setWord word v = copyFromSlice (8 * word) (wordBytes v) := by
  funext words
  by_cases hw : word < words.length
  · rw [setWord_run v hw, copyFromSlice_eq (by rw [length_wordBytes]; omega), overwrite_word v hw]
  · rw [setWord, copyFromSlice, length_segBytes, length_wordBytes, if_neg hw, if_neg (by omega)]

theorem setU64_eq (word byte : Nat) (v : UInt64) : setU64 word byte v = setWord word v := by
  funext words
  by_cases hw : word < words.length
  · rw [setU64, bind_run (setWord_run _ hw), setWord_run _ (by rw [List.length_set]; exact hw), List.set_set,
      wordOf_wordBytes, setWord_run _ hw]
  · have hnone (w : UInt64) : setWord word w words = none := if_neg hw
    rw [hnone]
    change (setWord word _ words).bind _ = none
    rw [hnone, Option.bind_none]

theorem setU64_run (v : UInt64) (hw : word < words.length) :
    setU64 word byte v words = some ((), words.set word v) := by
  rw [setU64_eq, setWord_run _ hw]

theorem setStructPtr_eq (ptrBase slot targetWord : Nat) (dataWords ptrCount : UInt16) :
    setStructPtr ptrBase slot targetWord dataWords ptrCount =
      setWord (ptrBase + slot)
        (structPointerAt (ptrBase + slot) targetWord dataWords.toNat ptrCount.toNat) := by
  rw [setStructPtr, structPtr_word, structPointerAt]

theorem setDataPtr_eq (ptrBase slot targetWord len : Nat) :
    setDataPtr ptrBase slot targetWord len =
      setWord (ptrBase + slot) (listPointerAt (ptrBase + slot) targetWord BYTE len) := by
  rw [setDataPtr]
  congr 1
  exact listPtr_word _ len 2 (by decide)

theorem setPtrListPtr_eq (ptrBase slot targetWord count : Nat) :
    setPtrListPtr ptrBase slot targetWord count =
      setWord (ptrBase + slot) (listPointerAt (ptrBase + slot) targetWord POINTER count) := by
  rw [setPtrListPtr]
  congr 1
  exact listPtr_word _ count 6 (by decide)

variable {ptrBase slot : Nat} (targetWord : Nat)

theorem setStructPtr_run (dataWords ptrCount : UInt16) (h : ptrBase + slot < words.length) :
    setStructPtr ptrBase slot targetWord dataWords ptrCount words =
      some ((), words.set (ptrBase + slot)
        (structPointerAt (ptrBase + slot) targetWord dataWords.toNat ptrCount.toNat)) := by
  rw [setStructPtr_eq, setWord_run _ h]

theorem setDataPtr_run (len : Nat) (h : ptrBase + slot < words.length) :
    setDataPtr ptrBase slot targetWord len words =
      some ((), words.set (ptrBase + slot)
        (listPointerAt (ptrBase + slot) targetWord BYTE len)) := by
  rw [setDataPtr_eq, setWord_run _ h]

theorem setPtrListPtr_run (count : Nat) (h : ptrBase + slot < words.length) :
    setPtrListPtr ptrBase slot targetWord count words =
      some ((), words.set (ptrBase + slot)
        (listPointerAt (ptrBase + slot) targetWord POINTER count)) := by
  rw [setPtrListPtr_eq, setWord_run _ h]

theorem finish_eq (words : Segment) (rootWord : Nat) (dataWords ptrCount : UInt16) :
    finish words rootWord dataWords ptrCount =
      leBytes 4 0 ++ leBytes 4 ((1 + words.length) % 2 ^ 32) ++
        segBytes (structPointer ((rootWord : Int) - 1) dataWords.toNat ptrCount.toNat :: words) := by
  rw [finish, structPtr_word, UInt32.toNat_ofNat', segBytes_cons, List.append_assoc, List.append_assoc]

theorem stripFraming_finish (words : Segment) (rootWord : Nat) (dataWords ptrCount : UInt16) :
    stripFraming (finish words rootWord dataWords ptrCount) = some words := by
  rw [finish_eq]
  generalize hframe : leBytes 4 0 ++ leBytes 4 ((1 + words.length) % 2 ^ 32) = frame
  generalize structPointer ((rootWord : Int) - 1) dataWords.toNat ptrCount.toNat = root
  have hlen : frame.length = 8 := by
    rw [← hframe, List.length_append, length_leBytes, length_leBytes]
  have hcount : slice (frame ++ segBytes (root :: words)) 0 4 = leBytes 4 0 := by
    rw [← hframe, List.append_assoc, slice, List.drop_zero]
    exact List.take_left' (length_leBytes 4 0)
  have hdrop : (frame ++ segBytes (root :: words)).drop 16 = segBytes words := by
    rw [segBytes_cons, ← List.append_assoc]
    exact List.drop_left' (by rw [List.length_append, hlen, length_wordBytes])
  have htotal : (frame ++ segBytes (root :: words)).length = 16 + 8 * words.length := by
    rw [List.length_append, hlen, length_segBytes, List.length_cons]
    omega
  rw [stripFraming, if_neg (by omega), hcount]
  simp only [show ofLeBytes (leBytes 4 0) = 0 from rfl, Nat.zero_add, Nat.reduceAdd, Nat.reduceDiv, Nat.reduceMul]
  rw [if_pos (by decide)]
  split
  next hshort =>
    obtain rfl := List.eq_nil_of_length_eq_zero (by omega : words.length = 0)
    rfl
  next =>
    rw [hdrop, ← List.append_nil (segBytes words), wordsOf_segBytes _ (by decide)]

theorem set_right {pre tail : Segment} (k : Nat) (v : UInt64) :
    (pre ++ tail).set (pre.length + k) v = pre ++ tail.set k v := by
  rw [List.set_append_right _ _ (Nat.le_add_right _ _), Nat.add_sub_cancel_left]

theorem modify_right {pre tail : Segment} (k : Nat) (f : UInt64 → UInt64) :
    (pre ++ tail).modify (pre.length + k) f = pre ++ tail.modify k f := by
  induction pre with
  | nil => rw [List.nil_append, List.nil_append, List.length_nil, Nat.zero_add]
  | cons w pre ih =>
      rw [List.length_cons, Nat.succ_add, List.cons_append, List.modify_succ_cons, ih, List.cons_append]

end MiniCloudflared.CapnpRpc
