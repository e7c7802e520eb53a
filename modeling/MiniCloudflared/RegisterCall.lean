import MiniCloudflared.SchemaReaders

namespace MiniCloudflared.RegisterCall

open Library Capnp HttpTypes CapnpRpc SchemaReaders

def textPlaces : Nat → List Str → List Nat
  | _, [] => []
  | i, f :: fs => i :: textPlaces (i + (textWords f).length) fs

def entryWords (listBase : Nat) : Nat → List (Nat × Str) → Segment
  | _, [] => []
  | i, (fw, f) :: rest =>
      listPointerAt (listBase + i) fw BYTE ((utf8 f).length + 1) ::
        entryWords listBase (i + 1) rest

theorem allocTexts_run (fs : List Str) (words : Segment) :
    allocTexts fs words = some (textPlaces words.length fs, words ++ fs.flatMap textWords) := by
  induction fs generalizing words with
  | nil => rw [allocTexts, textPlaces, List.flatMap_nil, List.append_nil]; rfl
  | cons f fs ih =>
      rw [allocTexts, bind_run (allocText_run words f), bind_run (ih _), List.length_append, List.flatMap_cons,
        ← List.append_assoc]
      rfl

@[simp] theorem length_textPlaces (i : Nat) (fs : List Str) : (textPlaces i fs).length = fs.length := by
  induction fs generalizing i with
  | nil => rfl
  | cons f fs ih => rw [textPlaces, List.length_cons, List.length_cons, ih]

@[simp] theorem length_entryWords (listBase i : Nat) (items : List (Nat × Str)) :
    (entryWords listBase i items).length = items.length := by
  induction items generalizing i with
  | nil => rfl
  | cons item items ih => rw [entryWords, List.length_cons, List.length_cons, ih]

theorem setListTextEntries_run {listBase i : Nat} {pre : Segment} (items : List (Nat × Str)) (spare : Segment)
    (hpre : pre.length = listBase + i) :
    setListTextEntries listBase i items (pre ++ (List.replicate items.length 0 ++ spare)) =
      some ((), pre ++ (entryWords listBase i items ++ spare)) := by
  induction items generalizing i pre with
  | nil => rfl
  | cons item items ih =>
      obtain ⟨fw, f⟩ := item
      have hlt : listBase + i < (pre ++ (List.replicate (items.length + 1) 0 ++ spare)).length := by
        simp only [List.length_append, List.length_replicate]
        omega
      rw [setListTextEntries, setListTextEntry, setTextPtr, List.length_cons,
        bind_run (setDataPtr_run fw _ hlt), List.replicate_succ, List.cons_append,
        List.set_append_right _ _ (Nat.le_of_eq hpre), ← hpre, Nat.sub_self, List.set_cons_zero,
        List.append_cons, ih (by rw [List.length_append, hpre]; rfl), hpre, entryWords, List.cons_append,
        ← List.append_cons]

variable (p : RegisterConnection)

def secretW : Nat := 13 + (textWords p.accountTag).length

def tunnelIdW : Nat := secretW p + (dataWordsOf p.tunnelSecret).length

def clientIdW : Nat := tunnelIdW p + (dataWordsOf p.tunnelId.val).length

def versionW : Nat := clientIdW p + (dataWordsOf p.clientId.val).length

def archW : Nat := versionW p + (textWords p.version).length

def featuresW : Nat := archW p + (textWords p.arch).length

def featListW : Nat := featuresW p + (p.features.flatMap textWords).length

/-- The four structs. Word 6 is the data section of the options, word 8 their
null pointer. -/
def structWords : Segment :=
  [patchWord 0 0 [p.connIndex],
    structPointerAt 1 4 0 2,
    listPointerAt 2 (tunnelIdW p) BYTE p.tunnelId.val.length,
    structPointerAt 3 6 1 2,
    listPointerAt 4 13 BYTE ((utf8 p.accountTag).length + 1),
    listPointerAt 5 (secretW p) BYTE p.tunnelSecret.length,
    0,
    structPointerAt 7 9 0 4,
    0,
    listPointerAt 9 (clientIdW p) BYTE 16,
    listPointerAt 10 (featListW p) POINTER p.features.length,
    listPointerAt 11 (versionW p) BYTE ((utf8 p.version).length + 1),
    listPointerAt 12 (archW p) BYTE ((utf8 p.arch).length + 1)]

def featureEntries : Segment := entryWords (featListW p) 0 ((textPlaces (featuresW p) p.features).zip p.features)

def contentWords : Segment :=
  textWords p.accountTag ++ (dataWordsOf p.tunnelSecret ++ (dataWordsOf p.tunnelId.val ++
    (dataWordsOf p.clientId.val ++ (textWords p.version ++ (textWords p.arch ++
      p.features.flatMap textWords)))))

def paramsWords : Segment :=
  structWords p ++ (contentWords p ++
    (featureEntries p ++ List.replicate (max p.features.length 1 - p.features.length) 0))

theorem registerConnectionWords_run : registerConnectionWords p [] = some (⟨0, 1⟩, paramsWords p) := by
  rw [registerConnectionWords, bind_run (allocStruct_run _ _ _), bind_run (allocStruct_run _ _ _),
    bind_run (allocStruct_run _ _ _), bind_run (allocStruct_run _ _ _), bind_run (allocText_run _ _),
    bind_run (allocData_run _ _), bind_run (allocData_run _ _), bind_run (allocData_run _ _),
    bind_run (allocText_run _ _), bind_run (allocText_run _ _), bind_run (allocTexts_run _ _),
    allocPtrList, bind_run (alloc_run _ _)]
  have hspare : List.replicate (max p.features.length 1) (0 : UInt64) =
      List.replicate p.features.length 0 ++ List.replicate (max p.features.length 1 - p.features.length) 0 := by
    rw [List.replicate_append_replicate]
    congr 1
    omega
  have hstate : [] ++ List.replicate (1 + 3) 0 ++ List.replicate (0 + 2) 0 ++ List.replicate (1 + 2) 0 ++
        List.replicate (0 + 4) 0 ++ textWords p.accountTag ++ dataWordsOf p.tunnelSecret ++
        dataWordsOf p.tunnelId.val ++ dataWordsOf p.clientId.val ++ textWords p.version ++ textWords p.arch ++
        p.features.flatMap textWords ++ List.replicate (max p.features.length 1) 0 =
      0 :: 0 :: 0 :: 0 :: 0 :: 0 :: 0 :: 0 :: 0 :: 0 :: 0 :: 0 :: 0 :: (contentWords p ++
        (List.replicate p.features.length 0 ++
          List.replicate (max p.features.length 1 - p.features.length) 0)) := by
    rw [hspare, contentWords]
    simp only [List.append_assoc]
    rfl
  -- everything is allocated; the words of the structs are still zero
  rw [hstate, paramsWords]
  generalize max p.features.length 1 - p.features.length = spare
  simp only [List.length_append, List.length_replicate, List.length_nil, Nat.zero_add, Nat.add_zero,
    Nat.reduceAdd]
  generalize hrest : contentWords p ++ (List.replicate p.features.length 0 ++ List.replicate spare 0) = rest
  rw [setU8, bind_run (copyFromSlice_run (by simp) (by simp)), bind_run (setStructPtr_run _ _ _ (by simp)),
    bind_run (setDataPtr_run _ _ (by simp)), bind_run (setStructPtr_run _ _ _ (by simp)), setTextPtr,
    bind_run (setDataPtr_run _ _ (by simp)), bind_run (setDataPtr_run _ _ (by simp)),
    bind_run (setStructPtr_run _ _ _ (by simp)), bind_run (setDataPtr_run _ _ (by simp)),
    bind_run (setPtrListPtr_run _ _ (by simp)), setTextPtr, bind_run (setDataPtr_run _ _ (by simp)), setTextPtr,
    bind_run (setDataPtr_run _ _ (by simp))]
  change (setListTextEntries (featListW p) 0 ((textPlaces (featuresW p) p.features).zip p.features) >>=
    fun _ => pure (⟨0, 1⟩ : StructAlloc)) (structWords p ++ rest) = _
  have hitems : ((textPlaces (featuresW p) p.features).zip p.features).length = p.features.length := by
    rw [List.length_zip, length_textPlaces, Nat.min_self]
  have hpre : (structWords p ++ contentWords p).length = featListW p + 0 := by
    simp only [structWords, contentWords, featListW, featuresW, archW, versionW, clientIdW, tunnelIdW, secretW,
      List.length_append, List.length_cons, List.length_nil]
    omega
  rw [← hrest, ← List.append_assoc (structWords p), ← hitems, bind_run (setListTextEntries_run _ _ hpre),
    List.append_assoc]
  rfl

theorem encodeRegisterConnection_eq : encodeRegisterConnection p = some (finish (paramsWords p) 0 1 3) := by
  rw [encodeRegisterConnection, registerConnectionWords_run]
  rfl

/-- Every text and the secret are short enough for a list pointer. -/
structure WithinLimits : Prop where
  accountTag : (utf8 p.accountTag).length + 1 < 2 ^ 29
  tunnelSecret : p.tunnelSecret.length + 1 < 2 ^ 29
  version : (utf8 p.version).length + 1 < 2 ^ 29
  arch : (utf8 p.arch).length + 1 < 2 ^ 29
  features : ∀ f, f ∈ p.features → (utf8 f).length + 1 < 2 ^ 29

theorem readText_textWords {seg : Segment} {i t : Nat} {s : Str} (hseg : seg.length ≤ 2 ^ 29)
    (h : seg[i]? = some (listPointerAt i t BYTE ((utf8 s).length + 1))) (hlen : (utf8 s).length + 1 < 2 ^ 29)
    (hat : StandsAt seg t (textWords s)) : readText seg i = some (utf8 s) :=
  readText_pointer hseg h hlen (by omega) hat

theorem readBytes_dataWordsOf {seg : Segment} {i t : Nat} {d : Bytes} (hseg : seg.length ≤ 2 ^ 29)
    (h : seg[i]? = some (listPointerAt i t BYTE d.length)) (hlen : d.length < 2 ^ 29)
    (hat : StandsAt seg t (dataWordsOf d)) : readBytes seg i = some d :=
  readBytes_pointer hseg h hlen (by omega) hat

theorem readText_entries {seg : Segment} (hseg : seg.length ≤ 2 ^ 29) (listBase i w : Nat) (fs : List Str)
    (htexts : StandsAt seg w (fs.flatMap textWords))
    (hentries : StandsAt seg (listBase + i) (entryWords listBase i ((textPlaces w fs).zip fs)))
    (hlen : ∀ f, f ∈ fs → (utf8 f).length + 1 < 2 ^ 29) :
    (List.range' (listBase + i) fs.length).mapM (readText seg) = some (fs.map utf8) := by
  induction fs generalizing i w with
  | nil => rfl
  | cons f fs ih =>
      rw [List.flatMap_cons] at htexts
      rw [List.forall_mem_cons] at hlen
      rw [textPlaces, List.zip_cons_cons, entryWords] at hentries
      have hread := readText_textWords hseg hentries.head hlen.1 htexts.left
      have hrest := ih (i + 1) _ htexts.right hentries.tail hlen.2
      rw [List.length_cons, List.range'_succ, List.mapM_cons, hread, Option.bind_eq_bind, Option.bind_some,
        Nat.add_assoc, hrest]
      rfl

variable {p}

theorem dataField_patchWord {seg : Segment} {s : StructRef seg} {w : UInt64} {b : UInt8}
    (hword : s.word 0 = patchWord w 0 [b]) : s.dataField 0 1 = b.toNat := by
  have hslice : slice (splice (wordBytes w) 0 [b]) 0 1 = [b] := slice_splice_same (Nat.zero_le _)
  change ofLeBytes (slice (wordBytes (s.word 0)) 0 1) = _
  rw [hword, wordBytes_patchWord (by simp), hslice, ofLeBytes, ofLeBytes, Nat.mul_zero, Nat.add_zero]

structure PartsAt (p : RegisterConnection) (seg : Segment) : Prop where
  accountTag : StandsAt seg 13 (textWords p.accountTag)
  tunnelSecret : StandsAt seg (secretW p) (dataWordsOf p.tunnelSecret)
  tunnelId : StandsAt seg (tunnelIdW p) (dataWordsOf p.tunnelId.val)
  clientId : StandsAt seg (clientIdW p) (dataWordsOf p.clientId.val)
  version : StandsAt seg (versionW p) (textWords p.version)
  arch : StandsAt seg (archW p) (textWords p.arch)
  features : StandsAt seg (featuresW p) (p.features.flatMap textWords)
  entries : StandsAt seg (featListW p) (featureEntries p)

theorem partsAt_paramsWords : PartsAt p (paramsWords p) := by
  have hall : StandsAt (paramsWords p) 13 (contentWords p ++ (featureEntries p ++
      List.replicate (max p.features.length 1 - p.features.length) 0)) :=
    ⟨structWords p, [], (List.append_nil _).symm, rfl⟩
  have htag := hall.left
  rw [contentWords] at htag
  have hsecret := htag.right
  have htunnelId := hsecret.right
  have hclientId := htunnelId.right
  have hversion := hclientId.right
  have harch := hversion.right
  have hentries := hall.right.left
  have hend : 13 + (contentWords p).length = featListW p := by
    simp only [contentWords, featListW, featuresW, archW, versionW, clientIdW, tunnelIdW, secretW,
      List.length_append]
    omega
  rw [hend] at hentries
  exact ⟨htag.left, hsecret.left, htunnelId.left, hclientId.left, hversion.left, harch.left, harch.right, hentries⟩

theorem readParams_paramsWords (hp : WithinLimits p) (hlen : (paramsWords p).length ≤ 2 ^ 29) :
    ∃ inside, readParams (⟨0, 1, 3, inside⟩ : StructRef (paramsWords p)) = some p := by
  have hat := partsAt_paramsWords (p := p)
  have hstructs : 13 ≤ (paramsWords p).length := Nat.le_trans (Nat.le_add_right _ _) hat.accountTag.bound
  have hauth : readStruct (paramsWords p) 1 = some ⟨4, 0, 2, by omega⟩ :=
    readStruct_pointer hlen rfl (by decide) (by decide) (by decide) _
  have hoptions : readStruct (paramsWords p) 3 = some ⟨6, 1, 2, by omega⟩ :=
    readStruct_pointer hlen rfl (by decide) (by decide) (by decide) _
  have hclient : readStruct (paramsWords p) 7 = some ⟨9, 0, 4, by omega⟩ :=
    readStruct_pointer hlen rfl (by decide) (by decide) (by decide) _
  have huuid (id : Uuid) : id.val.length < 2 ^ 29 := by
    rw [id.property]
    decide
  have hcount : p.features.length < 2 ^ 29 := by
    have hbound := hat.entries.bound
    rw [featureEntries, length_entryWords, List.length_zip, length_textPlaces, Nat.min_self] at hbound
    simp only [featListW, featuresW, archW, versionW, clientIdW, tunnelIdW, secretW] at hbound
    omega
  have hplaces : readPointers (paramsWords p) 10 = some (List.range' (featListW p) p.features.length) := by
    apply readPointers_pointer hlen rfl hcount
    have hbound := hat.entries.bound
    rwa [featureEntries, length_entryWords, List.length_zip, length_textPlaces, Nat.min_self] at hbound
  have hfeatures : readTexts (paramsWords p) 10 = some (p.features.map utf8) := by
    rw [readTexts, hplaces, Option.bind_eq_bind, Option.bind_some]
    exact readText_entries hlen (featListW p) 0 _ p.features hat.features hat.entries hp.features
  have hclientId : readBytes (paramsWords p) 9 = some p.clientId.val :=
    readBytes_dataWordsOf hlen (by rw [p.clientId.property]; rfl) (huuid _) hat.clientId
  refine ⟨by omega, readParams_of hauth hoptions hclient (dataField_patchWord (w := 0) rfl)
    (readBytes_dataWordsOf hlen rfl (huuid _) hat.tunnelId)
    (readText_textWords hlen rfl hp.accountTag hat.accountTag)
    (readBytes_dataWordsOf hlen rfl (Nat.lt_of_succ_lt hp.tunnelSecret) hat.tunnelSecret) hclientId hfeatures
    (readText_textWords hlen rfl hp.version hat.version) (readText_textWords hlen rfl hp.arch hat.arch)⟩

def callHead (questionId : UInt32) (n : Nat) : Segment :=
  [patchWord 0 0 (leBytes 2 2),
    structPointerAt 1 2 3 3,
    patchWord (patchWord 0 0 (leBytes 4 questionId.toNat)) 4 (leBytes 2 METHOD_REGISTER.toNat),
    REGISTRATION_SERVER_ID,
    0,
    structPointerAt 5 (10 + n) 1 1,
    structPointerAt 6 8 0 2,
    0,
    structPointerAt 8 10 1 3,
    0]

def targetWords (n : Nat) : Segment :=
  [patchWord (patchWord (patchWord 0 0 (leBytes 2 1)) 0 (leBytes 2 0)) 4 (leBytes 4 0),
    structPointerAt (10 + n + 1) (10 + n + 2) 1 1,
    patchWord 0 0 (leBytes 4 0),
    0]

/-- The words that `build_call_msg` hands to `finish`. -/
def callSegment (questionId : UInt32) (params : Segment) : Segment :=
  callHead questionId params.length ++ params ++ targetWords params.length

theorem callWords_run (questionId : UInt32) {framed : Bytes} {params : Segment}
    (h : stripFraming framed = some params) :
    callWords questionId framed [] = some (⟨0, 1⟩, callSegment questionId params) := by
  have hparams : (fun words => (stripFraming framed).map (·, words) : SegBuilder Segment) [] =
      some (params, []) := by
    rw [h]
    rfl
  rw [callWords, bind_run hparams, bind_run (allocStruct_run _ _ _), bind_run (allocStruct_run _ _ _),
    bind_run (allocStruct_run _ _ _), bind_run (allocRaw_run _ _)]
  simp only [List.length_append, List.length_replicate, List.length_nil, Nat.zero_add, Nat.add_zero,
    Nat.reduceAdd]
  rw [show [] ++ List.replicate 2 (0 : UInt64) ++ List.replicate 6 0 ++ List.replicate 2 0 ++ params =
      0 :: 0 :: 0 :: 0 :: 0 :: 0 :: 0 :: 0 :: 0 :: 0 :: params from rfl, setU16,
    bind_run (copyFromSlice_run (by simp) (by simp)), bind_run (setStructPtr_run _ _ _ (by simp)), setU32,
    bind_run (copyFromSlice_run (by simp) (by simp)), setU16, bind_run (copyFromSlice_run (by simp) (by simp)),
    bind_run (setU64_run _ (by simp))]
  generalize hsofar : List.set _ _ REGISTRATION_SERVER_ID = sofar
  have hlen : sofar.length = 10 + params.length := by
    rw [← hsofar]
    simp
    omega
  have hmodify (tail : Segment) (f : UInt64 → UInt64) :
      (sofar ++ tail).modify sofar.length f = sofar ++ tail.modify 0 f := modify_right 0 f
  -- the target is written behind the parameters
  rw [bind_run (allocStruct_run _ _ _), setU16, bind_run (copyFromSlice_run (by simp) (by simp)), hmodify,
    bind_run (allocStruct_run _ _ _)]
  simp only [List.length_append, List.length_modify, List.length_replicate, List.append_assoc, Nat.reduceAdd]
  rw [setU32, bind_run (copyFromSlice_run (by simp) (by simp)), modify_right,
    bind_run (setStructPtr_run _ _ _ (by simp)), Nat.add_assoc, set_right, setU16,
    bind_run (copyFromSlice_run (by simp) (by simp)), hmodify, setU32,
    bind_run (copyFromSlice_run (by simp) (by simp)), hmodify,
    bind_run (setStructPtr_run _ _ _ (by simp; omega)), bind_run (setStructPtr_run _ _ _ (by simp; omega)),
    bind_run (setStructPtr_run _ _ _ (by simp; omega))]
  rw [hlen, ← hsofar, callSegment, List.append_assoc]
  rfl

variable {questionId : UInt32}

theorem word_of {seg : Segment} {s : StructRef seg} {w : UInt64} {k : Nat} (hk : k < s.dataWords)
    (h : seg[s.start + k]? = some w) : s.word k = w := by
  rw [StructRef.word, if_pos hk, List.getD_eq_getElem?_getD, h, Option.getD_some]

theorem readCall_of_words {seg : Segment} {n : Nat} {p : RegisterConnection} (hlen : seg.length ≤ 2 ^ 29)
    (hhead : StandsAt seg 0 (callHead questionId n)) (htarget : StandsAt seg (10 + n) (targetWords n))
    (inside : 10 + 1 + 3 ≤ seg.length) (hparams : readParams (⟨10, 1, 3, inside⟩ : StructRef seg) = some p) :
    ∃ inside, readCall (⟨0, 1, 1, inside⟩ : StructRef seg) =
      some ⟨questionId, METHOD_REGISTER, REGISTRATION_SERVER_ID, ⟨0, 0, 0⟩, p⟩ := by
  have hbound : 10 + n + 4 ≤ seg.length := htarget.bound
  have hword (i : Nat) {w : UInt64} (hi : (callHead questionId n)[i]? = some w) : seg[i]? = some w := by
    rw [← Nat.zero_add i, hhead.get hi]
  have hcall : readStruct seg 1 = some ⟨2, 3, 3, by omega⟩ :=
    readStruct_pointer hlen (hword 1 rfl) (by decide) (by decide) (by decide) _
  have htargetPtr : readStruct seg 5 = some ⟨10 + n, 1, 1, by omega⟩ :=
    readStruct_pointer hlen (hword 5 rfl) (by decide) (by decide) (by decide) _
  have hanswerPtr : readStruct seg (10 + n + 1) = some ⟨10 + n + 2, 1, 1, by omega⟩ :=
    readStruct_pointer hlen htarget.tail.head (by decide) (by decide) (by decide) _
  have hpayload : readStruct seg 6 = some ⟨8, 0, 2, by omega⟩ :=
    readStruct_pointer hlen (hword 6 rfl) (by decide) (by decide) (by decide) _
  have hcontent : readStruct seg 8 = some ⟨10, 1, 3, by omega⟩ :=
    readStruct_pointer hlen (hword 8 rfl) (by decide) (by decide) (by decide) _
  have hmessageWord : (⟨0, 1, 1, by omega⟩ : StructRef seg).word 0 = patchWord 0 0 (leBytes 2 2) :=
    word_of (Nat.zero_lt_succ _) (hword 0 rfl)
  have hcallWord : (⟨2, 3, 3, by omega⟩ : StructRef seg).word 0 =
      patchWord (patchWord 0 0 (leBytes 4 questionId.toNat)) 4 (leBytes 2 METHOD_REGISTER.toNat) :=
    word_of (Nat.zero_lt_succ _) (hword 2 rfl)
  have hinterface : (⟨2, 3, 3, by omega⟩ : StructRef seg).word 1 = REGISTRATION_SERVER_ID :=
    word_of (Nat.one_lt_succ_succ _) (hword 3 rfl)
  have htargetWord : (⟨10 + n, 1, 1, by omega⟩ : StructRef seg).word 0 = 0 :=
    word_of (Nat.zero_lt_succ _) (htarget.head.trans (congrArg some (by decide +kernel)))
  have hanswerWord : (⟨10 + n + 2, 1, 1, by omega⟩ : StructRef seg).word 0 = 0 :=
    word_of (Nat.zero_lt_succ _) (htarget.tail.tail.head.trans (congrArg some (by decide +kernel)))
  refine ⟨by omega, readCall_of hcall htargetPtr hanswerPtr hpayload hcontent ?_ ?_ ?_ ?_ ?_ ?_ ?_ hparams⟩
  · change ofLeBytes (slice (wordBytes (StructRef.word _ 0)) 0 2) = _
    rw [hmessageWord, field_patchWord (by decide) (by decide), CALL]
  · change ofLeBytes (slice (wordBytes (StructRef.word _ 0)) 0 4) = _
    rw [hcallWord, slice_patchWord_before (by decide) (by decide), field_patchWord (by decide) questionId.toNat_lt]
  · change ofLeBytes (slice (wordBytes (StructRef.word _ 0)) 4 2) = _
    rw [hcallWord, field_patchWord (by decide) METHOD_REGISTER.toNat_lt]
  · change ofLeBytes (slice (wordBytes (StructRef.word _ 1)) 0 8) = _
    rw [hinterface]
    exact (by decide : ofLeBytes (slice (wordBytes REGISTRATION_SERVER_ID) 0 8) = REGISTRATION_SERVER_ID.toNat)
  · change ofLeBytes (slice (wordBytes (StructRef.word _ 0)) 4 2) = _
    rw [htargetWord]
    rfl
  · change ofLeBytes (slice (wordBytes (StructRef.word _ 0)) 0 4) = _
    rw [htargetWord]
    rfl
  · change ofLeBytes (slice (wordBytes (StructRef.word _ 0)) 0 4) = _
    rw [hanswerWord]
    rfl

/-- The parameters of a registration arrive as they were given, whatever their
lengths and however many features there are. -/
theorem registerCall_read_back (questionId : UInt32) (p : RegisterConnection) (hp : WithinLimits p) :
    ∃ framed words, encodeRegisterConnection p = some framed ∧
      callWords questionId framed [] = some (⟨0, 1⟩, words) ∧
      buildCallMsg questionId framed = some (finish words 0 1 1) ∧
      (words.length < 2 ^ 29 → ∃ inside, readCall (⟨0, 1, 1, inside⟩ : StructRef words) =
        some ⟨questionId, METHOD_REGISTER, REGISTRATION_SERVER_ID, ⟨0, 0, 0⟩, p⟩) := by
  have hcall := callWords_run questionId (stripFraming_finish (paramsWords p) 0 1 3)
  refine ⟨_, _, encodeRegisterConnection_eq p, hcall, ?_, ?_⟩
  · rw [buildCallMsg, hcall]
    rfl
  · intro hlen
    have hhead : StandsAt (callSegment questionId (paramsWords p)) 0 (callHead questionId (paramsWords p).length) :=
      ⟨[], paramsWords p ++ targetWords (paramsWords p).length, List.append_assoc _ _ _, rfl⟩
    have htarget : StandsAt (callSegment questionId (paramsWords p)) (10 + (paramsWords p).length)
        (targetWords (paramsWords p).length) :=
      ⟨callHead questionId (paramsWords p).length ++ paramsWords p, [], (List.append_nil _).symm,
        List.length_append⟩
    have hshorter : (paramsWords p).length ≤ 2 ^ 29 := by
      have := htarget.bound
      omega
    obtain ⟨inside, hparams⟩ := readParams_paramsWords hp hshorter
    have hmoved := readParams_moved (callHead questionId (paramsWords p).length)
      (targetWords (paramsWords p).length) hparams
    exact readCall_of_words (Nat.le_of_lt hlen) hhead htarget _ hmoved

def tunnelParams : RegisterConnection where
  accountTag := "account".toList
  tunnelSecret := [1, 2, 3]
  tunnelId := ⟨List.replicate 16 7, rfl⟩
  connIndex := 1
  clientId := ⟨List.replicate 16 9, rfl⟩
  version := "2024.11.1".toList
  arch := "linux_amd64".toList
  features := ["ha-origin".toList, "serialized-headers".toList]

theorem tunnelParams_withinLimits : WithinLimits tunnelParams where
  accountTag := by decide
  tunnelSecret := by decide
  version := by decide
  arch := by decide
  features := by decide

theorem registerCall_read_back_tunnelParams :
    ∃ framed words, encodeRegisterConnection tunnelParams = some framed ∧
      callWords 7 framed [] = some (⟨0, 1⟩, words) ∧
      ∃ inside, readCall (⟨0, 1, 1, inside⟩ : StructRef words) =
        some ⟨7, METHOD_REGISTER, REGISTRATION_SERVER_ID, ⟨0, 0, 0⟩, tunnelParams⟩ := by
  obtain ⟨framed, words, hencode, hcall, _, hread⟩ :=
    registerCall_read_back 7 tunnelParams tunnelParams_withinLimits
  refine ⟨framed, words, hencode, hcall, hread ?_⟩
  rw [encodeRegisterConnection_eq] at hencode
  obtain rfl := Option.some.inj hencode
  rw [callWords_run 7 (stripFraming_finish (paramsWords tunnelParams) 0 1 3)] at hcall
  obtain ⟨_, rfl⟩ := Prod.mk.inj (Option.some.inj hcall)
  decide +kernel

end MiniCloudflared.RegisterCall
