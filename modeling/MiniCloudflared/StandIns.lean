import MiniCloudflared.ProxyStream
import MiniCloudflared.Http2

namespace MiniCloudflared.StandIns

open Library Http1 HttpTypes Config ThirdParty Origin RequestBody ProxyStream Http2

def knownUrls : List (Str × Url) :=
  [("http://localhost:3000".toList,
      ⟨ascii "http", some (ascii "localhost"), some 3000, rfl, rfl⟩),
    ("https://localhost:8443".toList,
      ⟨ascii "https", some (ascii "localhost"), some 8443, rfl, rfl⟩),
    ("localhost:8080".toList, ⟨ascii "localhost", none, none, rfl, rfl⟩)]

def urlParse (s : Str) : Except Error Url :=
  match knownUrls.find? (fun p => p.1 == s) with
  | some p => .ok p.2
  | none => .error .url

theorem urlParse_requiresScheme : RequiresScheme urlParse := by
  intro s hs
  have hknown : ∀ p, p ∈ knownUrls → urlScheme p.1 ≠ none := by
    simp only [knownUrls, List.forall_mem_cons]
    decide
  cases hf : knownUrls.find? (fun p => p.1 == s) with
  | none => simp only [urlParse, hf]
  | some p =>
      have hp : (p.1 == s) = true := List.find?_some (p := fun q : Str × Url => q.1 == s) hf
      obtain rfl : p.1 = s := beq_iff_eq.mp hp
      exact absurd hs (hknown p (List.mem_of_find?_eq_some hf))

/-- Parse an absolute URI without a fragment: what follows the two slashes is
the authority up to the first slash or question mark. -/
def uriParse (s : Bytes) : Except Error Uri :=
  match s.dropWhile (· != 58) with
  | 58 :: 47 :: 47 :: rest =>
      let authority := rest.takeWhile isHostByte
      let path := rest.dropWhile isHostByte
      if ha : (authority != [] && authority.all isVisible) = true then
        if hp : path.all isPathByte = true then
          .ok ⟨some ⟨authority, ha⟩, some ⟨path, hp⟩⟩
        else .error .uri
      else .error .uri
  | _ => .error .uri

theorem uriParse_keepsPath : KeepsPath uriParse := by
  intro scheme host port p u hscheme hhost hhead h
  have hcolon : 58 ∉ scheme := fun hm => absurd (hscheme 58 hm) (by decide)
  obtain ⟨path, hpath⟩ : ∃ path, p.bytes = 47 :: path := by
    cases hp : p.bytes with
    | nil => simp [hp] at hhead
    | cons b path => exact ⟨path, by simpa [hp] using hhead⟩
  have htext : origin scheme host port ++ p.bytes =
      scheme ++ 58 :: 47 :: 47 :: ((host ++ ascii ":" ++ decimal port) ++ 47 :: path) := by
    simp [origin, hpath, ascii]
  have hauthority : ∀ b, b ∈ host ++ ascii ":" ++ decimal port → isHostByte b = true := by
    intro b hb
    rw [List.mem_append, List.mem_append] at hb
    rcases hb with (hb | hb) | hb
    · exact hhost b hb
    · obtain rfl : b = 58 := by simpa [ascii] using hb
      rfl
    · exact isHostByte_of_isDigit (decimal_digits port b hb)
  have hrest : ((host ++ ascii ":" ++ decimal port) ++ 47 :: path).dropWhile isHostByte = p.bytes := by
    rw [List.dropWhile_append_of_pos hauthority, hpath]
    rfl
  rw [uriParse] at h
  rw [htext, dropWhile_cut _ hcolon] at h
  split at h
  next rest hr =>
    obtain rfl := (List.cons.inj (List.cons.inj (List.cons.inj hr).2).2).2
    dsimp only at h
    split at h
    next =>
      split at h
      next =>
        obtain rfl := Except.ok.inj h
        exact congrArg some (PathAndQuery.ext hrest)
      next => exact absurd h (by simp)
    next => exact absurd h (by simp)
  next => exact absurd h (by simp)

def httparse (room : Nat) (s : Bytes) : Except Error Parsed :=
  match readHead s with
  | none => .ok .incomplete
  | some (h, rest) =>
      if h.fields.length ≤ room then .ok (.complete (s.length - rest.length) (some h.code) h.fields)
      else .error .httparse

theorem httparse_readsHeads : ReadsHeads httparse where
  complete room s h rest hh hroom := by
    rw [httparse]
    rw [hh]
    exact if_pos hroom
  incomplete room s h rest k hh _ hk := by
    rw [httparse]
    rw [readHead_cut hh hk]

theorem httparse_boundsHeaders : BoundsHeaders httparse := by
  intro room s h rest hh hroom
  refine ⟨.httparse, ?_⟩
  rw [httparse]
  rw [hh]
  exact if_neg (Nat.not_le.mpr hroom)

def canonicalReason : Nat → Option Bytes
  | 200 => some (ascii "OK")
  | 404 => some (ascii "Not Found")
  | 502 => some (ascii "Bad Gateway")
  | _ => none

def yaml (s : Str) : Except Error (List IngressRule) :=
  if s = "ingress:\n  - service: localhost:8080\n".toList then
    .ok [⟨[], [], "localhost:8080".toList⟩]
  else if s = "ingress:\n  - service: https://localhost:8443\n".toList then
    .ok [⟨[], [], "https://localhost:8443".toList⟩]
  else .error .serde

def secretText : Str := List.replicate 43 'A' ++ ['=']

def base64 : Base64 where
  standard s := if s = secretText then .ok (List.replicate 32 0) else .error .base64
  urlSafe s := if s = secretText then .ok (List.replicate 32 0) else .error .base64
  urlSafeNoPad _ := .error .base64

def uuidText : Str := "f174e90a-fafe-4643-bbbc-4a0ed4fc8415".toList

def uuidParse (s : Str) : Except Error Bytes :=
  if s = uuidText then
    .ok [0xf1, 0x74, 0xe9, 0x0a, 0xfa, 0xfe, 0x46, 0x43, 0xbb, 0xbc, 0x4a, 0x0e, 0xd4, 0xfc, 0x84, 0x15]
  else .error .uuid

/-- Stand-ins for the third-party code that do what it does on the inputs they
know. -/
def crates : Crates where
  urlParse := urlParse
  uriParse := uriParse
  httparse := httparse
  canonicalReason := canonicalReason
  yaml := yaml
  json _ := .error .serde
  base64 := base64
  uuidParse := uuidParse
  caseTable := asciiCase

def wrongLength (m : Streams) (id : Nat) (chunk : Bytes) : Bool :=
  match (opening id m.heard).bind declaredLength, received id m.heard with
  | some n, some r => r.payload.length + chunk.length != n
  | _, _ => false

theorem wrongLength_of {m : Streams} {id : Nat} {chunk : Bytes} (h : WrongLength m id chunk) :
    wrongLength m id chunk = true := by
  obtain ⟨req, n, r, hopening, hdeclared, hreceived, hne⟩ := h
  rw [wrongLength, hopening, Option.bind_some, hdeclared, hreceived]
  exact bne_iff_ne.mpr hne

def verdict (m : Streams) : InFrame → Verdict
  | .headers id _ endStream =>
      match m.recv id with
      | none => if m.lastId < id then .taken else .connectionError
      | some ⟨_, .running⟩ => if endStream then .taken else .streamError true
      | some ⟨_, .clean⟩ => .connectionError
      | some ⟨_, .failed _⟩ => .dropped
  | .data id chunk endStream =>
      match m.recv id with
      | none => .connectionError
      | some ⟨_, .running⟩ => if endStream && wrongLength m id chunk then .streamError true else .taken
      | some ⟨_, .clean⟩ => .connectionError
      | some ⟨_, .failed _⟩ => .dropped
  | .reset id =>
      match m.recv id with
      | none => if m.lastId < id then .connectionError else .dropped
      | some _ => .taken
  | .close _ => .taken

def h2 : H2 where
  verdict := verdict
  first m id req _ hnone hid _ _ := by
    rw [verdict, hnone]
    exact if_pos hid
  kept m f es hr := by
    cases f with
    | headers id req endStream => cases endStream <;> simp [verdict, show m.recv id = _ from hr]
    | data id chunk endStream =>
        simp only [verdict, show m.recv id = _ from hr]
        split <;> exact Verdict.noConfusion
    | reset id => simp [verdict, show m.recv id = _ from hr]
    | close c => exact Verdict.noConfusion
  behindEnd m id es chunk endStream hr := .inl (by rw [verdict, hr])
  idle m f hf hr hid := by
    cases f with
    | headers id req endStream => exact absurd rfl (hf id req endStream)
    | data id chunk endStream => rw [verdict, show m.recv id = _ from hr]
    | reset id =>
        rw [verdict, show m.recv id = _ from hr]
        exact if_pos hid
    | close c => exact absurd hid (Nat.not_lt_zero _)
  lengths m id es chunk hr h := by
    rw [verdict, hr]
    simp [wrongLength_of h]

def env (answer : Bytes) : Env where
  connect _ := .ok ()
  writeAll _ := .ok ()
  readToEnd _ _ := .ok answer
  sendResponse := .ok ()
  sendData := .ok ()

def localRule : IngressRule := ⟨[], [], "http://localhost:3000".toList⟩

def GET : Method := ⟨ascii "GET", rfl⟩

def exampleCom : Authority := ⟨ascii "example.com", rfl⟩

def slash : PathAndQuery := ⟨ascii "/", rfl⟩

def post (headers : HeaderMap) (body : RecvStream) : HttpTypes.Request RecvStream where
  method := ⟨ascii "POST", rfl⟩
  uri := ⟨some exampleCom, some slash⟩
  headers := headers
  body := body

end MiniCloudflared.StandIns
