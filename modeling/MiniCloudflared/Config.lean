import MiniCloudflared.HttpTypes
import MiniCloudflared.Library.Outcome

namespace MiniCloudflared.Config

open Library HttpTypes

structure Base64 where
  standard : Str → Except Error Bytes
  urlSafe : Str → Except Error Bytes
  urlSafeNoPad : Str → Except Error Bytes

structure TokenCreds where
  a : Str
  s : Str
  t : Str

/-- The characters with the Unicode property `White_Space`. -/
def isWhitespace (c : Char) : Bool :=
  let n := c.toNat
  (9 ≤ n && n ≤ 13) || (0x2000 ≤ n && n ≤ 0x200a) ||
    [0x20, 0x85, 0xa0, 0x1680, 0x2028, 0x2029, 0x202f, 0x205f, 0x3000].contains n

def trim (s : Str) : Str :=
  ((s.dropWhile isWhitespace).reverse.dropWhile isWhitespace).reverse

def TokenCreds.fromToken (b64 : Base64) (fromSlice : Bytes → Except Error TokenCreds) (token : Str) :
    Except Error TokenCreds := do
  let decoded ←
    match b64.standard (trim token) with
    | .ok decoded => .ok decoded
    | .error _ =>
        match b64.urlSafe (trim token) with
        | .ok decoded => .ok decoded
        | .error _ => b64.urlSafeNoPad (trim token)
  fromSlice decoded

def TokenCreds.secretBytes (b64 : Base64) (creds : TokenCreds) : Except Error Bytes := do
  let bytes ←
    match b64.standard creds.s with
    | .ok bytes => .ok bytes
    | .error _ => b64.urlSafeNoPad creds.s
  if bytes.length < 32 then .error (.msg "Tunnel secret too short") else .ok bytes

structure CaseTable where
  toLower : Char → Str
  cased : Char → Bool
  caseIgnorable : Char → Bool
  toLower_ne_nil : ∀ c, toLower c ≠ []
  toLower_ascii : ∀ c, c.toNat < 128 → toLower c = [c.toLower]

def caseIgnorableThenCased (t : CaseTable) (s : Str) : Bool :=
  match s.dropWhile t.caseIgnorable with
  | [] => false
  | c :: _ => t.cased c

def asciiCase : CaseTable where
  toLower c := [c.toLower]
  cased c := c.isAlpha
  caseIgnorable _ := false
  toLower_ne_nil _ := List.cons_ne_nil _ _
  toLower_ascii _ _ := rfl

/-- The first argument holds the characters already passed, last one first. A
capital sigma that ends a word has a lower-case form of its own. -/
def lowercaseFrom (t : CaseTable) (before : Str) : Str → Str
  | [] => []
  | c :: after =>
      (if c = 'Σ' then
        if caseIgnorableThenCased t before && !caseIgnorableThenCased t after then ['ς'] else ['σ']
      else t.toLower c) ++ lowercaseFrom t (c :: before) after

def toLowercase (t : CaseTable) (s : Str) : Str := lowercaseFrom t [] s

structure IngressRule where
  hostname : Str
  path : Str
  service : Str
  deriving DecidableEq

def hostOk (ruleHost reqHost : Str) : Bool :=
  if ['*', '.'].isPrefixOf ruleHost then (ruleHost.drop 1).isSuffixOf reqHost
  else ruleHost == reqHost

def requestHost (host : Str) : Str := host.takeWhile (· != ':')

def IngressRule.matches (t : CaseTable) (rule : IngressRule) (host path : Str) : Bool :=
  -- without a hostname the path is not looked at
  if rule.hostname = [] then true
  else if !hostOk (toLowercase t rule.hostname) (toLowercase t (requestHost host)) then false
  else rule.path.isEmpty || rule.path.isPrefixOf path

def parseU16 (s : Str) : Option Nat :=
  let digits := if s.head? = some '+' then s.drop 1 else s
  if digits ≠ [] ∧ digits.all Char.isDigit ∧ Nat.ofDigitChars 10 digits 0 ≤ 65535 then
    some (Nat.ofDigitChars 10 digits 0)
  else none

def IngressRule.statusCode (rule : IngressRule) : Option Nat :=
  if "http_status:".toList.isPrefixOf rule.service then parseU16 (rule.service.drop 12) else none

theorem secretBytes_eq (b64 : Base64) (creds : TokenCreds) :
    creds.secretBytes b64 =
      (match b64.standard creds.s with
        | .ok bytes => .ok bytes
        | .error _ => b64.urlSafeNoPad creds.s : Except Error Bytes) >>=
      fun bytes => if bytes.length < 32 then .error (.msg "Tunnel secret too short") else .ok bytes := by
  rw [TokenCreds.secretBytes]
  cases b64.standard creds.s <;> rfl

theorem secretBytes_length {b64 : Base64} {creds : TokenCreds} {bytes : Bytes}
    (h : creds.secretBytes b64 = .ok bytes) : 32 ≤ bytes.length := by
  rw [secretBytes_eq] at h
  obtain ⟨decoded, _, h⟩ := except_bind_ok h
  split at h
  next => exact nomatch h
  next hlen =>
    obtain rfl := Except.ok.inj h
    exact Nat.le_of_not_lt hlen

theorem lowercaseFrom_eq_nil {t : CaseTable} {before s : Str} (h : lowercaseFrom t before s = []) :
    s = [] := by
  cases s with
  | nil => rfl
  | cons c s =>
      obtain ⟨hc, _⟩ := List.append_eq_nil_iff.mp h
      split at hc
      next => split at hc <;> exact absurd hc (by simp)
      next => exact absurd hc (t.toLower_ne_nil c)

theorem toLowercase_ne_nil (t : CaseTable) {s : Str} (h : s ≠ []) : toLowercase t s ≠ [] :=
  fun he => h (lowercaseFrom_eq_nil he)

theorem toLowercase_ascii (t : CaseTable) {s : Str} (h : ∀ c, c ∈ s → c.toNat < 128) :
    toLowercase t s = s.map Char.toLower := by
  have hfrom (before : Str) : lowercaseFrom t before s = s.map Char.toLower := by
    induction s generalizing before with
    | nil => rfl
    | cons c s ih =>
        rw [List.forall_mem_cons] at h
        have hsigma : c ≠ 'Σ' := by
          rintro rfl
          exact absurd h.1 (by decide)
        rw [lowercaseFrom, if_neg hsigma, t.toLower_ascii c h.1, ih h.2, List.singleton_append,
          List.map_cons]
  exact hfrom []

theorem hostOk_nil {ruleHost : Str} (h : ruleHost ≠ []) : hostOk ruleHost [] = false := by
  rw [hostOk]
  split
  next hp =>
    obtain ⟨rest, rfl⟩ := List.isPrefixOf_iff_prefix.mp hp
    apply Bool.eq_false_iff.mpr
    simp
  next => simpa using h

theorem matches_nil (t : CaseTable) (rule : IngressRule) (path : Str) :
    rule.matches t [] path = rule.hostname.isEmpty := by
  rw [IngressRule.matches]
  split
  next h => simp [h]
  next h =>
    have hn : hostOk (toLowercase t rule.hostname) (toLowercase t (requestHost [])) = false :=
      hostOk_nil (toLowercase_ne_nil t h)
    simp [hn, h]

end MiniCloudflared.Config
