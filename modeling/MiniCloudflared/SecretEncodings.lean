import MiniCloudflared.TokenDecoding

namespace MiniCloudflared.SecretEncodings

open Library Library.Base64 HttpTypes Config TokenDecoding

variable {b64 : Config.Base64}

/-- A text that shows that it is meant for the URL-safe alphabet and that is
filled up, so that neither decoder of the secret takes it. -/
def Between (e : Encoding) (secret : Bytes) : Prop :=
  e = .urlSafe ∧ secret.length % 3 ≠ 0 ∧ ('-' ∈ e.encode secret ∨ '_' ∈ e.encode secret)

def secretOrder : List Encoding := [.standard, .urlSafeNoPad]

theorem secretBytes_firstOk (creds : TokenCreds) :
    creds.secretBytes b64 = firstOk b64 creds.s secretOrder >>= fun bytes =>
      if bytes.length < 32 then .error (.msg "Tunnel secret too short") else .ok bytes := by
  rw [secretBytes_eq]
  rfl

theorem secretBytes_long (creds : TokenCreds) {secret : Bytes} (hlen : 32 ≤ secret.length) :
    creds.secretBytes b64 = .ok secret ↔ firstOk b64 creds.s secretOrder = .ok secret := by
  rw [secretBytes_firstOk]
  constructor
  · intro h
    obtain ⟨bytes, hb, h⟩ := except_bind_ok h
    split at h
    next => exact absurd h (by simp)
    next => rw [hb, h]
  · intro h
    rw [h]
    exact if_neg (Nat.not_lt.mpr hlen)

theorem engine_encode_iff (h : Canonical b64) (e e' : Encoding) (bs : Bytes) :
    e'.engine b64 (e.encode bs) = .ok bs ↔
      padding e.padded (sextets bs).length = padding e'.padded (sextets bs).length ∧
        ∀ c, c ∈ (sextets bs).map e.alphabet.digit → c ∈ e'.alphabet.digits := by
  rw [h e']
  exact decode_encode_iff (Encoding.agree e e') e.padded e'.padded bs

theorem standard_digits_iff (bs : Bytes) :
    (∀ c, c ∈ (sextets bs).map Base64.urlSafe.digit → c ∈ Base64.standard.digits) ↔
      ¬ ('-' ∈ Encoding.urlSafe.encode bs ∨ '_' ∈ Encoding.urlSafe.encode bs) := by
  have hdigit (c : Char) (hc : c ≠ '=') :
      c ∈ Encoding.urlSafe.encode bs ↔ c ∈ (sextets bs).map Base64.urlSafe.digit := by
    constructor
    · intro h
      exact (List.mem_append.mp h).elim id (fun h => absurd (mem_padding h) hc)
    · exact List.mem_append_left _
  rw [hdigit '-' (by decide), hdigit '_' (by decide)]
  constructor
  · rintro h (hm | hm)
    · exact absurd (h '-' hm) (by decide)
    · exact absurd (h '_' hm) (by decide)
  · intro h c hc
    rcases List.mem_append.mp (digits_mem Base64.urlSafe bs c hc) with hcommon | hlast
    · exact List.mem_append_left _ hcommon
    · exfalso
      rcases List.mem_cons.mp hlast with he | he
      · exact h (.inl (he ▸ hc))
      · exact h (.inr (List.mem_singleton.mp he ▸ hc))

theorem standard_decodes_urlSafe (h : Canonical b64) (bs : Bytes) :
    b64.standard (Encoding.urlSafe.encode bs) = .ok bs ↔
      ¬ ('-' ∈ Encoding.urlSafe.encode bs ∨ '_' ∈ Encoding.urlSafe.encode bs) := by
  rw [← standard_digits_iff]
  exact (engine_encode_iff h .urlSafe .standard bs).trans (and_iff_right rfl)

theorem urlSafeNoPad_decodes_urlSafe (h : Canonical b64) (bs : Bytes) :
    b64.urlSafeNoPad (Encoding.urlSafe.encode bs) = .ok bs ↔ bs.length % 3 = 0 := by
  rw [← length_sextets, ← padding_eq_iff]
  exact (engine_encode_iff h .urlSafe .urlSafeNoPad bs).trans (and_iff_left (digits_mem Base64.urlSafe bs))

/-- A secret is decoded from each encoding that a token may have, but for a
filled up URL-safe text that has a digit of its own. -/
theorem secret_accepted_iff (h : Canonical b64) (e : Encoding) (account tunnel : Str) {secret : Bytes}
    (hlen : 32 ≤ secret.length) :
    TokenCreds.secretBytes b64 ⟨account, e.encode secret, tunnel⟩ = .ok secret ↔ ¬ Between e secret := by
  rw [secretBytes_long _ hlen, firstOk_iff h]
  have hown := engine_encode h e secret
  cases e with
  | standard => exact iff_of_true ⟨.standard, by decide, hown⟩ (fun hb => absurd hb.1 (by decide))
  | urlSafeNoPad => exact iff_of_true ⟨.urlSafeNoPad, by decide, hown⟩ (fun hb => absurd hb.1 (by decide))
  | urlSafe =>
      have hstandard := standard_decodes_urlSafe h secret
      have hnoPad := urlSafeNoPad_decodes_urlSafe h secret
      constructor
      · rintro ⟨e, he, heq⟩ ⟨_, hmod, hdigits⟩
        rcases List.mem_cons.mp he with rfl | he
        · exact hstandard.mp heq hdigits
        · obtain rfl := List.mem_singleton.mp he
          exact hmod (hnoPad.mp heq)
      · intro hb
        by_cases hmod : secret.length % 3 = 0
        · exact ⟨.urlSafeNoPad, by decide, hnoPad.mpr hmod⟩
        · exact ⟨.standard, by decide, hstandard.mpr (fun hdigits => hb ⟨rfl, hmod, hdigits⟩)⟩

def ones : Bytes := List.replicate 32 255

theorem secret_accepted_iff_ones :
    TokenCreds.secretBytes engines ⟨[], Encoding.standard.encode ones, []⟩ = .ok ones :=
  (secret_accepted_iff engines_canonical .standard [] [] (by decide)).mpr (fun hb => absurd hb.1 (by decide))

theorem ones_not_accepted :
    Encoding.urlSafe.encode ones = List.replicate 42 '_' ++ "8=".toList ∧
      engines.urlSafe (Encoding.urlSafe.encode ones) = .ok ones ∧
      TokenCreds.secretBytes engines ⟨[], Encoding.urlSafe.encode ones, []⟩ = .error .base64 := by
  decide +kernel

end MiniCloudflared.SecretEncodings
