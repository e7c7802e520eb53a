import MiniCloudflared.Config

namespace MiniCloudflared.ThirdParty

open Library Http1 HttpTypes Config

inductive Parsed
  | incomplete
  | complete (headLen : Nat) (code : Option Nat) (headers : List Field)

structure Crates where
  urlParse : Str → Except Error Url
  uriParse : Bytes → Except Error Uri
  httparse : Nat → Bytes → Except Error Parsed
  canonicalReason : Nat → Option Bytes
  yaml : Str → Except Error (List IngressRule)
  json : Str → Except Error (List IngressRule)
  base64 : Base64
  uuidParse : Str → Except Error Bytes
  caseTable : CaseTable

def isUrlTrimmed (c : Char) : Bool := c.toNat ≤ 32

def isUrlSkipped (c : Char) : Bool := c.toNat = 9 || c.toNat = 10 || c.toNat = 13

def isSchemeChar (c : Char) : Bool := c.isAlphanum || c = '+' || c = '-' || c = '.'

def urlScheme (s : Str) : Option Str :=
  let s := (s.dropWhile isUrlTrimmed).filter (fun c => !isUrlSkipped c)
  let scheme := s.takeWhile isSchemeChar
  if (scheme.head?.any Char.isAlpha) ∧ (s.drop scheme.length).head? = some ':' then some scheme
  else none

/-- A string without a scheme is no URL, as there is no base to resolve it
against. -/
def RequiresScheme (urlParse : Str → Except Error Url) : Prop :=
  ∀ s, urlScheme s = none → urlParse s = .error .url

def origin (scheme host : Bytes) (port : Nat) : Bytes :=
  scheme ++ ascii "://" ++ host ++ ascii ":" ++ decimal port

/-- A path that follows a scheme and an authority is kept as it is written. -/
def KeepsPath (uriParse : Bytes → Except Error Uri) : Prop :=
  ∀ (scheme host : Bytes) (port : Nat) (p : PathAndQuery) (u : Uri),
    (∀ b, b ∈ scheme → isSchemeByte b = true) → (∀ b, b ∈ host → isHostByte b = true) →
    p.bytes.head? = some 47 → uriParse (origin scheme host port ++ p.bytes) = .ok u →
    u.pathAndQuery = some p

/-- What `httparse` says of a response head, with room for so many headers, of
the bytes that follow it and of the head cut short. -/
structure ReadsHeads (httparse : Nat → Bytes → Except Error Parsed) : Prop where
  complete : ∀ room s h rest, readHead s = some (h, rest) → h.fields.length ≤ room →
    httparse room s = .ok (.complete (s.length - rest.length) (some h.code) h.fields)
  incomplete : ∀ room s h rest k, readHead s = some (h, rest) → h.fields.length ≤ room →
    k < s.length - rest.length → httparse room (s.take k) = .ok .incomplete

/-- A head with more headers than there is room for is refused. -/
def BoundsHeaders (httparse : Nat → Bytes → Except Error Parsed) : Prop :=
  ∀ room s h rest, readHead s = some (h, rest) → room < h.fields.length →
    ∃ e, httparse room s = .error e

end MiniCloudflared.ThirdParty
