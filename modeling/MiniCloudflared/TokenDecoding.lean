import MiniCloudflared.Config
import MiniCloudflared.Library.Base64

namespace MiniCloudflared.TokenDecoding

open Library Library.Base64 HttpTypes Config

inductive Encoding
  | standard
  | urlSafe
  | urlSafeNoPad
  deriving DecidableEq

namespace Encoding

def alphabet : Encoding → Alphabet
  | standard => Base64.standard
  | urlSafe => Base64.urlSafe
  | urlSafeNoPad => Base64.urlSafe

def padded : Encoding → Bool
  | standard => true
  | urlSafe => true
  | urlSafeNoPad => false

def encode (e : Encoding) (bs : Bytes) : Str := Base64.encode e.alphabet e.padded bs

def engine (b64 : Config.Base64) : Encoding → Str → Except Error Bytes
  | standard => b64.standard
  | urlSafe => b64.urlSafe
  | urlSafeNoPad => b64.urlSafeNoPad

theorem agree (e e' : Encoding) : Agree e.alphabet e'.alphabet := by
  cases e <;> cases e' <;>
    first
    | exact agree_self _
    | exact agree_standard_urlSafe
    | exact agree_standard_urlSafe.symm

end Encoding

/-- The engines decode canonical texts only: with exactly the padding that is
due or with none, and without bits that are lost. -/
def Canonical (b64 : Config.Base64) : Prop :=
  ∀ (e : Encoding) (s : Str) (bs : Bytes),
    e.engine b64 s = .ok bs ↔ decode e.alphabet e.padded s = some bs

def firstOk (b64 : Config.Base64) (s : Str) : List Encoding → Except Error Bytes
  | [] => .error .base64
  | [e] => e.engine b64 s
  | e :: e' :: es =>
      match e.engine b64 s with
      | .ok bs => .ok bs
      | .error _ => firstOk b64 s (e' :: es)

def tokenOrder : List Encoding := [.standard, .urlSafe, .urlSafeNoPad]

def isAsciiSpace (c : Char) : Bool := c.toNat = 32 || (9 ≤ c.toNat && c.toNat ≤ 13)

/-- What is decoded depends on the text alone, and not on which engine is
tried first. -/
structure Unambiguous (b64 : Config.Base64) (fromSlice : Bytes → Except Error TokenCreds) : Prop where
  decodes : ∀ (e : Encoding) (bs : Bytes) (before after : Str),
    before.all isAsciiSpace = true → after.all isAsciiSpace = true →
    TokenCreds.fromToken b64 fromSlice (before ++ e.encode bs ++ after) = fromSlice bs
  agree : ∀ (e e' : Encoding) (s : Str) (bs bs' : Bytes),
    e.engine b64 s = .ok bs → e'.engine b64 s = .ok bs' → bs = bs'
  order : ∀ (es : List Encoding) (token : Str), es.Perm tokenOrder →
    (firstOk b64 (trim token) es >>= fromSlice).toOption =
      (TokenCreds.fromToken b64 fromSlice token).toOption

variable {b64 : Config.Base64} {fromSlice : Bytes → Except Error TokenCreds}

theorem fromToken_eq (token : Str) :
    TokenCreds.fromToken b64 fromSlice token = firstOk b64 (trim token) tokenOrder >>= fromSlice := by
  rw [TokenCreds.fromToken, tokenOrder, firstOk, firstOk, firstOk]
  cases hs : b64.standard (trim token) with
  | ok bs => simp only [Encoding.engine, hs]
  | error e =>
      cases hu : b64.urlSafe (trim token) with
      | ok bs => simp only [Encoding.engine, hs, hu]
      | error e' => simp only [Encoding.engine, hs, hu]

theorem dropWhile_up_to {p : Char → Bool} {before s after : Str} (hbefore : ∀ c, c ∈ before → p c = true)
    (hs : ∀ c, c ∈ s → p c = false) (hne : s ≠ []) :
    (before ++ (s ++ after)).dropWhile p = s ++ after := by
  rw [List.dropWhile_append_of_pos hbefore]
  cases s with
  | nil => exact absurd rfl hne
  | cons c s => exact List.dropWhile_cons_of_neg (by simp [hs c List.mem_cons_self])

/-- White space is taken away on both sides of a text that has none. -/
theorem trim_between {before s after : Str} (hbefore : ∀ c, c ∈ before → isWhitespace c = true)
    (hafter : ∀ c, c ∈ after → isWhitespace c = true) (hs : ∀ c, c ∈ s → isWhitespace c = false) :
    trim (before ++ s ++ after) = s := by
  rw [trim, List.append_assoc]
  by_cases hne : s = []
  · have hall : ∀ c, c ∈ before ++ after → isWhitespace c = true :=
      fun c hc => (List.mem_append.mp hc).elim (hbefore c) (hafter c)
    rw [hne, List.nil_append, List.dropWhile_eq_nil_iff.mpr hall]
    rfl
  · have hreverse : (s ++ after).reverse = after.reverse ++ (s.reverse ++ []) := by
      rw [List.reverse_append, List.append_nil]
    rw [dropWhile_up_to hbefore hs hne, hreverse,
      dropWhile_up_to (fun c hc => hafter c (List.mem_reverse.mp hc))
        (fun c hc => hs c (List.mem_reverse.mp hc)) (List.reverse_ne_nil_iff.mpr hne),
      List.append_nil, List.reverse_reverse]

theorem isWhitespace_of_isAsciiSpace {c : Char} (h : isAsciiSpace c = true) : isWhitespace c = true := by
  rw [isAsciiSpace, Bool.or_eq_true, decide_eq_true_eq] at h
  rcases h with h | h
  · simp [isWhitespace, h]
  · simp [isWhitespace, h]

theorem encode_not_whitespace (e : Encoding) (bs : Bytes) :
    ∀ c, c ∈ e.encode bs → isWhitespace c = false := by
  have hdigits (al : Alphabet) (hal : al.digits.all (fun c => !isWhitespace c) = true) (padded : Bool) :
      ∀ c, c ∈ Base64.encode al padded bs → isWhitespace c = false := by
    intro c hc
    rcases mem_encode hc with hc | rfl
    · simpa using List.all_eq_true.mp hal c hc
    · rfl
  cases e with
  | standard => exact hdigits Base64.standard (by decide +kernel) true
  | urlSafe => exact hdigits Base64.urlSafe (by decide +kernel) true
  | urlSafeNoPad => exact hdigits Base64.urlSafe (by decide +kernel) false

theorem engine_encode (h : Canonical b64) (e : Encoding) (bs : Bytes) :
    e.engine b64 (e.encode bs) = .ok bs := (h e _ bs).mpr (decode_encode e.alphabet e.padded bs)

theorem engines_agree (h : Canonical b64) {e e' : Encoding} {s : Str} {bs bs' : Bytes}
    (he : e.engine b64 s = .ok bs) (he' : e'.engine b64 s = .ok bs') : bs = bs' :=
  decode_agree (Encoding.agree e e') ((h e s bs).mp he) ((h e' s bs').mp he')

theorem firstOk_iff (h : Canonical b64) (s : Str) (es : List Encoding) (bs : Bytes) :
    firstOk b64 s es = .ok bs ↔ ∃ e, e ∈ es ∧ e.engine b64 s = .ok bs := by
  induction es using firstOk.induct b64 s with
  | case1 => simp [firstOk]
  | case2 e => simp [firstOk]
  | case3 e e' es bs' he =>
      rw [firstOk, he]
      constructor
      · intro heq
        obtain rfl := Except.ok.inj heq
        exact ⟨e, List.mem_cons_self, he⟩
      · rintro ⟨e'', _, he''⟩
        rw [engines_agree h he he'']
  | case4 e e' es err he ih =>
      rw [firstOk, he]
      dsimp only
      rw [ih]
      constructor
      · rintro ⟨e'', hmem, he''⟩
        exact ⟨e'', List.mem_cons_of_mem e hmem, he''⟩
      · rintro ⟨e'', hmem, he''⟩
        rcases List.mem_cons.mp hmem with rfl | hmem
        · exact absurd (he.symm.trans he'') (by simp)
        · exact ⟨e'', hmem, he''⟩

theorem firstOk_perm (h : Canonical b64) (s : Str) {es es' : List Encoding} (hp : es.Perm es') :
    (firstOk b64 s es).toOption = (firstOk b64 s es').toOption := by
  have hiff (bs : Bytes) : firstOk b64 s es = .ok bs ↔ firstOk b64 s es' = .ok bs := by
    rw [firstOk_iff h, firstOk_iff h]
    simp only [hp.mem_iff]
  cases hes : firstOk b64 s es with
  | ok bs => rw [(hiff bs).mp hes]
  | error err =>
      cases hes' : firstOk b64 s es' with
      | ok bs => exact absurd (hes.symm.trans ((hiff bs).mpr hes')) (by simp)
      | error err' => rfl

theorem toOption_bind {α β : Type} {x y : Except Error α} (h : x.toOption = y.toOption)
    (f : α → Except Error β) : (x >>= f).toOption = (y >>= f).toOption := by
  cases x with
  | ok a =>
      cases y with
      | ok b =>
          obtain rfl := Option.some.inj h
          rfl
      | error e => exact absurd h (by simp [Except.toOption])
  | error e =>
      cases y with
      | ok b => exact absurd h (by simp [Except.toOption])
      | error e' => rfl

theorem fromToken_encode (h : Canonical b64) (e : Encoding) (bs : Bytes) {before after : Str}
    (hbefore : before.all isAsciiSpace = true) (hafter : after.all isAsciiSpace = true) :
    TokenCreds.fromToken b64 fromSlice (before ++ e.encode bs ++ after) = fromSlice bs := by
  have htrim : trim (before ++ e.encode bs ++ after) = e.encode bs :=
    trim_between (fun c hc => isWhitespace_of_isAsciiSpace (List.all_eq_true.mp hbefore c hc))
      (fun c hc => isWhitespace_of_isAsciiSpace (List.all_eq_true.mp hafter c hc))
      (encode_not_whitespace e bs)
  have hmem : e ∈ tokenOrder := by cases e <;> decide
  have hfirst : firstOk b64 (e.encode bs) tokenOrder = .ok bs :=
    (firstOk_iff h (e.encode bs) tokenOrder bs).mpr ⟨e, hmem, engine_encode h e bs⟩
  rw [fromToken_eq, htrim, hfirst]
  rfl

/-- The decoders of a token may be tried in any order, and each encoding of
some bytes is decoded to them. -/
theorem token_unambiguous (h : Canonical b64) (fromSlice : Bytes → Except Error TokenCreds) :
    Unambiguous b64 fromSlice where
  decodes e bs before after hbefore hafter := fromToken_encode h e bs hbefore hafter
  agree e e' s bs bs' he he' := engines_agree h he he'
  order es token hp := by
    rw [fromToken_eq]
    exact toOption_bind (firstOk_perm h (trim token) hp) fromSlice

def engineOf (al : Alphabet) (padded : Bool) (s : Str) : Except Error Bytes :=
  match decode al padded s with
  | some bs => .ok bs
  | none => .error .base64

def engines : Config.Base64 where
  standard := engineOf Base64.standard true
  urlSafe := engineOf Base64.urlSafe true
  urlSafeNoPad := engineOf Base64.urlSafe false

theorem engines_canonical : Canonical engines := by
  have hengine (al : Alphabet) (padded : Bool) (s : Str) (bs : Bytes) :
      engineOf al padded s = .ok bs ↔ decode al padded s = some bs := by
    rw [engineOf]
    cases decode al padded s <;> simp
  intro e s bs
  cases e <;> exact hengine _ _ s bs

theorem token_unambiguous_engines :
    Unambiguous engines (fun bs => .ok ⟨toStr bs, [], []⟩) ∧
      TokenCreds.fromToken engines (fun bs => .ok ⟨toStr bs, [], []⟩) "\n _-8= ".toList =
        .ok ⟨toStr [255, 239], [], []⟩ := by
  have h := token_unambiguous engines_canonical (fun bs => .ok ⟨toStr bs, [], []⟩)
  exact ⟨h, h.decodes .urlSafe [255, 239] ['\n', ' '] [' '] rfl rfl⟩

end MiniCloudflared.TokenDecoding
