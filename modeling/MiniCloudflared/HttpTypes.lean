import MiniCloudflared.Library.Http1

namespace MiniCloudflared.HttpTypes

open Library Http1

abbrev Str := List Char

def toStr (s : Bytes) : Str := s.map (fun b => Char.ofNat b.toNat)

inductive Error
  | io
  | url
  | uri
  | http
  | httparse
  | h2
  | serde
  | uuid
  | base64
  | rpc
  | msg (text : String)
  | context (text : Str) (cause : Error)
  deriving DecidableEq

def maxHeaderNameLen : Nat := 65535

/-- The `http` crate takes the double quote for a character of a name, which
HTTP does not. -/
def isNameByte (b : UInt8) : Bool := isTchar b || b == 34

def isHeaderName (s : Bytes) : Bool := s != [] && s.all isNameByte && decide (s.length ≤ maxHeaderNameLen)

@[ext] structure HeaderName where
  bytes : Bytes
  valid : isHeaderName bytes = true
  lowered : lower bytes = bytes

instance : DecidableEq HeaderName := fun _ _ => decidable_of_iff _ HeaderName.ext_iff.symm

theorem isHeaderName_iff (s : Bytes) :
    isHeaderName s = true ↔
      s ≠ [] ∧ (∀ b, b ∈ s → isNameByte b = true) ∧ s.length ≤ maxHeaderNameLen := by
  simp [isHeaderName, and_assoc]

theorem isNameByte_lowerByte (b : UInt8) : isNameByte (lowerByte b) = isNameByte b := by
  revert b
  apply forall_byte
  decide +kernel

theorem isNameByte_of_isTchar {b : UInt8} (h : isTchar b = true) : isNameByte b = true := by
  rw [isNameByte, h, Bool.true_or]

theorem isTchar_of_isNameByte {b : UInt8} (h : isNameByte b = true) (hb : b ≠ 34) : isTchar b = true := by
  rw [isNameByte, Bool.or_eq_true] at h
  exact h.resolve_right fun hq => hb (beq_iff_eq.mp hq)

theorem isHeaderName_lower {s : Bytes} (h : isHeaderName s = true) : isHeaderName (lower s) = true := by
  rw [isHeaderName_iff] at h ⊢
  refine ⟨by simpa [lower] using h.1, ?_, by simpa [lower] using h.2.2⟩
  intro b hb
  obtain ⟨c, hc, rfl⟩ := List.mem_map.mp hb
  rw [isNameByte_lowerByte]
  exact h.2.1 c hc

namespace HeaderName

def ofBytes? (s : Bytes) : Option HeaderName :=
  if h : isHeaderName s = true then some ⟨lower s, isHeaderName_lower h, lower_idem s⟩ else none

theorem ne_nil (k : HeaderName) : k.bytes ≠ [] := ((isHeaderName_iff k.bytes).mp k.valid).1

theorem nameBytes (k : HeaderName) : ∀ b, b ∈ k.bytes → isNameByte b = true :=
  ((isHeaderName_iff k.bytes).mp k.valid).2.1

end HeaderName

@[ext] structure HeaderValue where
  bytes : Bytes
  valid : bytes.all isFieldByte = true

instance : DecidableEq HeaderValue := fun _ _ => decidable_of_iff _ HeaderValue.ext_iff.symm

def HeaderValue.ofBytes? (s : Bytes) : Option HeaderValue :=
  if h : s.all isFieldByte = true then some ⟨s, h⟩ else none

theorem HeaderValue.legal (v : HeaderValue) : ∀ b, b ∈ v.bytes → isFieldByte b = true :=
  List.all_eq_true.mp v.valid

def isVisibleAscii (b : UInt8) : Bool := (32 ≤ b && b < 127) || b == 9

def HeaderValue.toStr (v : HeaderValue) : Option Bytes :=
  if v.bytes.all isVisibleAscii then some v.bytes else none

abbrev HeaderMap := MultiMap HeaderName HeaderValue

def HOST : HeaderName := ⟨ascii "host", rfl, rfl⟩

def CONTENT_LENGTH : HeaderName := ⟨ascii "content-length", rfl, rfl⟩

def CONTENT_TYPE : HeaderName := ⟨ascii "content-type", rfl, rfl⟩

def TRANSFER_ENCODING : HeaderName := ⟨ascii "transfer-encoding", rfl, rfl⟩

structure Method where
  bytes : Bytes
  valid : (bytes != [] && bytes.all isTchar) = true

theorem Method.ne_nil (m : Method) : m.bytes ≠ [] := bne_iff_ne.mp (Bool.and_eq_true_iff.mp m.valid).1

theorem Method.tchars (m : Method) : ∀ b, b ∈ m.bytes → isTchar b = true :=
  List.all_eq_true.mp (Bool.and_eq_true_iff.mp m.valid).2

def isVisible (b : UInt8) : Bool := 33 ≤ b && b ≤ 126

def isPathByte (b : UInt8) : Bool := isVisible b && b != 35

/-- Path and query as the `http` crate keeps them: visible characters, and
never a fragment. -/
@[ext] structure PathAndQuery where
  bytes : Bytes
  valid : bytes.all isPathByte = true

theorem PathAndQuery.visible (p : PathAndQuery) : ∀ b, b ∈ p.bytes → isVisible b = true :=
  fun b hb => (Bool.and_eq_true_iff.mp (List.all_eq_true.mp p.valid b hb)).1

def PathAndQuery.asStr (p : PathAndQuery) : Bytes := if p.bytes = [] then [47] else p.bytes

def PathAndQuery.path (p : PathAndQuery) : Bytes :=
  let path := p.bytes.takeWhile (· != 63)
  if path = [] then [47] else path

structure Authority where
  bytes : Bytes
  valid : (bytes != [] && bytes.all isVisible) = true

theorem Authority.visible (a : Authority) : ∀ b, b ∈ a.bytes → isVisible b = true :=
  List.all_eq_true.mp (Bool.and_eq_true_iff.mp a.valid).2

structure Uri where
  authority : Option Authority
  pathAndQuery : Option PathAndQuery

def Uri.path (u : Uri) : Bytes :=
  match u.pathAndQuery with
  | none => []
  | some p => p.path

def isSchemeByte (b : UInt8) : Bool := isAlpha b || isDigit b || [43, 45, 46].contains b

def isHostByte (b : UInt8) : Bool := isVisible b && !([35, 47, 63].contains b)

/-- A parsed absolute URL. The host is absent when the URL has an opaque path
or no authority; the port is absent when none is written. -/
structure Url where
  scheme : Bytes
  host : Option Bytes
  port : Option Nat
  scheme_valid : scheme.all isSchemeByte = true
  host_valid : host.all (fun h => h.all isHostByte) = true

theorem Url.scheme_bytes (u : Url) : ∀ b, b ∈ u.scheme → isSchemeByte b = true :=
  List.all_eq_true.mp u.scheme_valid

theorem Url.host_bytes (u : Url) {h : Bytes} (hh : u.host = some h) :
    ∀ b, b ∈ h → isHostByte b = true := by
  have hvalid := u.host_valid
  rw [hh] at hvalid
  exact List.all_eq_true.mp hvalid

def Url.knownDefault (scheme : Bytes) : Option Nat :=
  if scheme = ascii "http" ∨ scheme = ascii "ws" then some 80
  else if scheme = ascii "https" ∨ scheme = ascii "wss" then some 443
  else if scheme = ascii "ftp" then some 21
  else none

def Url.portOrKnownDefault (u : Url) : Option Nat := u.port.or (knownDefault u.scheme)

@[ext] structure StatusCode where
  code : Nat
  range : 100 ≤ code ∧ code < 1000

def StatusCode.fromU16 (n : Nat) : Option StatusCode :=
  if h : 100 ≤ n ∧ n < 1000 then some ⟨n, h⟩ else none

def NOT_FOUND : StatusCode := ⟨404, by decide⟩

def BAD_GATEWAY : StatusCode := ⟨502, by decide⟩

def OK : StatusCode := ⟨200, by decide⟩

structure Request (β : Type) where
  method : Method
  uri : Uri
  headers : HeaderMap
  body : β

structure Response where
  status : StatusCode
  headers : HeaderMap
  body : Bytes

def headerField (f : Field) : Option (HeaderName × HeaderValue) :=
  match HeaderName.ofBytes? f.1, HeaderValue.ofBytes? f.2 with
  | some k, some v => some (k, v)
  | _, _ => none

/-- What `Response::builder` makes of a status, a list of fields and a body:
the first illegal part spoils the whole response. -/
def buildResponse (status : Nat) (fields : List Field) (body : Bytes) : Except Error Response :=
  match StatusCode.fromU16 status, fields.mapM headerField with
  | some status, some fields => .ok ⟨status, .ofList fields, body⟩
  | _, _ => .error .http

theorem toStr_eq_some {v : HeaderValue} {s : Bytes} (h : v.toStr = some s) : s = v.bytes := by
  rw [HeaderValue.toStr] at h
  split at h
  next => exact (Option.some.inj h).symm
  next => exact absurd h (by simp)

theorem isFieldByte_of_isVisible {b : UInt8} (h : isVisible b = true) : isFieldByte b = true := by
  revert b
  apply forall_byte
  decide +kernel

theorem isVisible_of_isTchar {b : UInt8} (h : isTchar b = true) : isVisible b = true := by
  revert b
  apply forall_byte
  decide +kernel

theorem isVisible_of_isNameByte {b : UInt8} (h : isNameByte b = true) : isVisible b = true := by
  revert b
  apply forall_byte
  decide +kernel

theorem isVisible_of_isDigit {b : UInt8} (h : isDigit b = true) : isVisible b = true := by
  revert b
  apply forall_byte
  decide +kernel

theorem isHostByte_of_isDigit {b : UInt8} (h : isDigit b = true) : isHostByte b = true := by
  revert b
  apply forall_byte
  decide +kernel

end MiniCloudflared.HttpTypes
