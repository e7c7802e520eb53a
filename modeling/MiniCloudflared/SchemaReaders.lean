import MiniCloudflared.CapnpRpc
import MiniCloudflared.Library.CapnpRelocation

namespace MiniCloudflared.SchemaReaders

open Library Capnp HttpTypes CapnpRpc

variable {seg : Segment}

def strField (s : StructRef seg) (k : Nat) : Option Str := (s.textField k).bind fromUtf8

def strsField (s : StructRef seg) (k : Nat) : Option (List Str) := (s.textsField k).bind (List.mapM fromUtf8)

def uuidField (s : StructRef seg) (k : Nat) : Option Uuid :=
  (s.bytesField k).bind fun bytes => if h : bytes.length = 16 then some ⟨bytes, h⟩ else none

def readParams (params : StructRef seg) : Option RegisterConnection := do
  let auth ← params.structField 0
  let options ← params.structField 2
  let client ← options.structField 0
  return {
    connIndex := UInt8.ofNat (params.dataField 0 1)
    tunnelId := ← uuidField params 1
    accountTag := ← strField auth 0
    tunnelSecret := ← auth.bytesField 1
    clientId := ← uuidField client 0
    features := ← strsField client 1
    version := ← strField client 2
    arch := ← strField client 3 }

/-- Whom a call is for: an imported capability, unless the tag says that the
answer of a question is meant. -/
structure MessageTarget where
  tag : UInt16
  importedCap : UInt32
  promisedAnswer : UInt32

structure Call where
  questionId : UInt32
  methodId : UInt16
  interfaceId : UInt64
  target : MessageTarget
  params : RegisterConnection

def CALL : Nat := 2

def readTarget (target : StructRef seg) : Option MessageTarget := do
  let answer ← target.structField 0
  return {
    tag := UInt16.ofNat (target.dataField 4 2)
    importedCap := UInt32.ofNat (target.dataField 0 4)
    promisedAnswer := UInt32.ofNat (answer.dataField 0 4) }

/-- A message of the RPC protocol that is a call. All its pointers are followed. -/
def readCall (message : StructRef seg) : Option Call := do
  if message.dataField 0 2 ≠ CALL then none else
  let call ← message.structField 0
  let target ← call.structField 0
  let payload ← call.structField 1
  let content ← payload.structField 0
  return {
    questionId := UInt32.ofNat (call.dataField 0 4)
    methodId := UInt16.ofNat (call.dataField 4 2)
    interfaceId := UInt64.ofNat (call.dataField 8 8)
    target := ← readTarget target
    params := ← readParams content }

def BOOTSTRAP : Nat := 8

def readBootstrap (message : StructRef seg) : Option UInt32 := do
  if message.dataField 0 2 ≠ BOOTSTRAP then none else
  let bootstrap ← message.structField 0
  return UInt32.ofNat (bootstrap.dataField 0 4)

theorem mapM_fromUtf8 (ss : List Str) : (ss.map utf8).mapM fromUtf8 = some ss := by
  induction ss with
  | nil => rfl
  | cons s ss ih =>
      rw [List.map_cons, List.mapM_cons, fromUtf8_utf8, Option.bind_eq_bind, Option.bind_some, ih]
      rfl

theorem readParams_of {params auth options client : StructRef seg} {p : RegisterConnection}
    (hauth : params.structField 0 = some auth) (hoptions : params.structField 2 = some options)
    (hclient : options.structField 0 = some client)
    (hindex : params.dataField 0 1 = p.connIndex.toNat)
    (htunnelId : params.bytesField 1 = some p.tunnelId.val)
    (htag : auth.textField 0 = some (utf8 p.accountTag)) (hsecret : auth.bytesField 1 = some p.tunnelSecret)
    (hclientId : client.bytesField 0 = some p.clientId.val)
    (hfeatures : client.textsField 1 = some (p.features.map utf8))
    (hversion : client.textField 2 = some (utf8 p.version))
    (harch : client.textField 3 = some (utf8 p.arch)) : readParams params = some p := by
  have huuid (s : StructRef seg) (k : Nat) (id : Uuid) (h : s.bytesField k = some id.val) :
      uuidField s k = some id := by
    rw [uuidField, h, Option.bind_some, dif_pos id.property]
  have hstr (s : StructRef seg) (k : Nat) (text : Str) (h : s.textField k = some (utf8 text)) :
      strField s k = some text := by
    rw [strField, h, Option.bind_some, fromUtf8_utf8]
  have hstrs : strsField client 1 = some p.features := by
    rw [strsField, hfeatures, Option.bind_some, mapM_fromUtf8]
  simp only [readParams, hauth, hoptions, hclient, huuid _ _ _ htunnelId, hstr _ _ _ htag, hsecret,
    huuid _ _ _ hclientId, hstrs, hstr _ _ _ hversion, hstr _ _ _ harch, hindex, UInt8.ofNat_toNat,
    Option.bind_eq_bind, Option.bind_some, Option.pure_def]

theorem readCall_of {message call target answer payload content : StructRef seg} {c : Call}
    (hmessage : message.structField 0 = some call) (htarget : call.structField 0 = some target)
    (hanswer : target.structField 0 = some answer) (hpayload : call.structField 1 = some payload)
    (hcontent : payload.structField 0 = some content) (hkind : message.dataField 0 2 = CALL)
    (hquestion : call.dataField 0 4 = c.questionId.toNat) (hmethod : call.dataField 4 2 = c.methodId.toNat)
    (hinterface : call.dataField 8 8 = c.interfaceId.toNat) (htag : target.dataField 4 2 = c.target.tag.toNat)
    (hcap : target.dataField 0 4 = c.target.importedCap.toNat)
    (hpromised : answer.dataField 0 4 = c.target.promisedAnswer.toNat)
    (hparams : readParams content = some c.params) : readCall message = some c := by
  simp only [readCall, readTarget, hmessage, htarget, hanswer, hpayload, hcontent, hkind, hquestion, hmethod,
    hinterface, htag, hcap, hpromised, hparams, ne_eq, not_true_eq_false, if_false, Option.bind_eq_bind,
    Option.bind_some, Option.pure_def, UInt16.ofNat_toNat, UInt32.ofNat_toNat, UInt64.ofNat_toNat]

variable {ws : Segment} (pre post : Segment) {s : StructRef ws} {k : Nat}

theorem strField_moved {text : Str} (h : strField s k = some text) : strField (s.moved pre post) k = some text := by
  obtain ⟨bytes, hbytes, h⟩ := Option.bind_eq_some_iff.mp h
  rw [strField, s.textField_moved pre post hbytes, Option.bind_some, h]

theorem strsField_moved {texts : List Str} (h : strsField s k = some texts) :
    strsField (s.moved pre post) k = some texts := by
  obtain ⟨bytes, hbytes, h⟩ := Option.bind_eq_some_iff.mp h
  rw [strsField, s.textsField_moved pre post hbytes, Option.bind_some, h]

theorem uuidField_moved {id : Uuid} (h : uuidField s k = some id) : uuidField (s.moved pre post) k = some id := by
  obtain ⟨bytes, hbytes, h⟩ := Option.bind_eq_some_iff.mp h
  rw [uuidField, s.bytesField_moved pre post hbytes, Option.bind_some, h]

/-- Parameters that are put into another segment keep their meaning. -/
theorem readParams_moved {p : RegisterConnection} (h : readParams s = some p) :
    readParams (s.moved pre post) = some p := by
  obtain ⟨auth, hauth, h⟩ := Option.bind_eq_some_iff.mp h
  obtain ⟨options, hoptions, h⟩ := Option.bind_eq_some_iff.mp h
  obtain ⟨client, hclient, h⟩ := Option.bind_eq_some_iff.mp h
  obtain ⟨tunnelId, htunnelId, h⟩ := Option.bind_eq_some_iff.mp h
  obtain ⟨accountTag, htag, h⟩ := Option.bind_eq_some_iff.mp h
  obtain ⟨secret, hsecret, h⟩ := Option.bind_eq_some_iff.mp h
  obtain ⟨clientId, hclientId, h⟩ := Option.bind_eq_some_iff.mp h
  obtain ⟨features, hfeatures, h⟩ := Option.bind_eq_some_iff.mp h
  obtain ⟨version, hversion, h⟩ := Option.bind_eq_some_iff.mp h
  obtain ⟨arch, harch, h⟩ := Option.bind_eq_some_iff.mp h
  obtain rfl := Option.some.inj h
  simp only [readParams, StructRef.structField_moved pre post hauth, StructRef.structField_moved pre post hoptions,
    StructRef.structField_moved pre post hclient, uuidField_moved pre post htunnelId,
    strField_moved pre post htag, StructRef.bytesField_moved pre post hsecret, uuidField_moved pre post hclientId,
    strsField_moved pre post hfeatures, strField_moved pre post hversion, strField_moved pre post harch,
    StructRef.dataField_moved, Option.bind_eq_bind, Option.bind_some, Option.pure_def]

end MiniCloudflared.SchemaReaders
