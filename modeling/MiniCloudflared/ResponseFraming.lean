import MiniCloudflared.StandIns

namespace MiniCloudflared.ResponseFraming

open Library Http1 HttpTypes ThirdParty Origin

/-- One complete final response, taken apart into its head, the bytes behind
the head and the payload that they carry. -/
structure Complete (raw : Bytes) where
  head : Head
  rest : Bytes
  body : Bytes
  read : readHead raw = some (head, rest)
  final : 200 ≤ head.code
  room : head.fields.length ≤ 64
  whole : payload head rest = some body

def Delimited (h : Head) : Prop := framing h = some .chunked ∨ ∃ n, framing h = some (.length n)

def NamesFit (h : Head) : Prop := ∀ f, f ∈ h.fields → f.1.length ≤ maxHeaderNameLen

def Returns (cr : Crates) {raw : Bytes} (c : Complete raw) : Prop :=
  ∃ resp, parseHttp1Response cr raw = .ok resp ∧ resp.status.code = c.head.code ∧
    (∀ name : HeaderName,
      (resp.headers.getAll name).map HeaderValue.bytes = fieldValues name.bytes c.head.fields) ∧
    resp.body = c.body

def Refuses (cr : Crates) (s : Bytes) : Prop :=
  parseHttp1Response cr s = .ok badGateway ∨ ∃ err, parseHttp1Response cr s = .error err

/-- What is asked of the first `k` bytes of a response: its payload when they
are all of it, and a refusal when they are not and that can be seen. -/
def Deframes (cr : Crates) {raw : Bytes} (c : Complete raw) (k : Nat) : Prop :=
  if raw.length ≤ k then Returns cr c else Delimited c.head → Refuses cr (raw.take k)

theorem headerField_fit {f : Field} (hf : LegalField f) (hlen : f.1.length ≤ maxHeaderNameLen) :
    ∃ k v, headerField f = some (k, v) ∧ k.bytes = lower f.1 ∧ v.bytes = f.2 := by
  have hk : HeaderName.ofBytes? f.1 = some _ :=
    dif_pos ((isHeaderName_iff f.1).mpr ⟨hf.ne_nil, fun b hb => isNameByte_of_isTchar (hf.tchars b hb), hlen⟩)
  have hv : HeaderValue.ofBytes? f.2 = some _ := dif_pos (List.all_eq_true.mpr hf.bytes)
  rw [headerField]
  rw [hk, hv]
  exact ⟨_, _, rfl, rfl, rfl⟩

theorem headerField_long {f : Field} (h : maxHeaderNameLen < f.1.length) : headerField f = none := by
  have hk : HeaderName.ofBytes? f.1 = none :=
    dif_neg (fun hf => Nat.not_le_of_lt h ((isHeaderName_iff f.1).mp hf).2.2)
  simp only [headerField, hk]

theorem mapM_headerField {fs : List Field} (hlegal : ∀ f, f ∈ fs → LegalField f)
    (hfit : ∀ f, f ∈ fs → f.1.length ≤ maxHeaderNameLen) :
    ∃ ps, fs.mapM headerField = some ps ∧
      ∀ name : HeaderName, (valuesAt name ps).map HeaderValue.bytes = fieldValues name.bytes fs := by
  induction fs with
  | nil => exact ⟨[], rfl, fun _ => rfl⟩
  | cons f fs ih =>
      rw [List.forall_mem_cons] at hlegal hfit
      obtain ⟨k, v, hf, hk, hv⟩ := headerField_fit hlegal.1 hfit.1
      obtain ⟨ps, hps, hvalues⟩ := ih hlegal.2 hfit.2
      refine ⟨(k, v) :: ps, by simp [hf, hps], fun name => ?_⟩
      have hvalues := hvalues name
      rw [fieldValues] at hvalues ⊢
      rw [valuesAt_cons, List.map_cons, valuesAt_cons, ← hk]
      by_cases hn : k = name
      · subst hn
        rw [if_pos rfl, if_pos rfl, List.map_cons, hvalues, hv]
      · have hb : k.bytes ≠ name.bytes := fun e => hn (HeaderName.ext e)
        rw [if_neg hn, if_neg hb, hvalues]

theorem mapM_headerField_long {fs : List Field} {f : Field} (hf : f ∈ fs)
    (hlong : maxHeaderNameLen < f.1.length) : fs.mapM headerField = none := by
  induction fs with
  | nil => exact absurd hf List.not_mem_nil
  | cons g fs ih =>
      rcases List.mem_cons.mp hf with rfl | hf
      · simp [headerField_long hlong]
      · cases hg : headerField g with
        | none => simp [hg]
        | some p => simp [hg, ih hf]

variable {cr : Crates}

theorem buildResponse_fit {h : Head} (rest : Bytes) (hcode : 100 ≤ h.code ∧ h.code < 1000)
    (hlegal : ∀ f, f ∈ h.fields → LegalField f) (hfit : NamesFit h) :
    ∃ resp, buildResponse h.code h.fields rest = .ok resp ∧ resp.status.code = h.code ∧
      (∀ name : HeaderName,
        (resp.headers.getAll name).map HeaderValue.bytes = fieldValues name.bytes h.fields) ∧
      resp.body = rest := by
  obtain ⟨ps, hps, hvalues⟩ := mapM_headerField hlegal hfit
  have hs : StatusCode.fromU16 h.code = some ⟨h.code, hcode⟩ := dif_pos hcode
  refine ⟨⟨⟨h.code, hcode⟩, .ofList ps, rest⟩, by simp only [buildResponse, hs, hps],
    rfl, fun name => ?_, rfl⟩
  rw [MultiMap.getAll_ofList]
  exact hvalues name

theorem buildResponse_long {h : Head} {rest : Bytes} (hlong : ¬ NamesFit h) :
    buildResponse h.code h.fields rest = .error .http := by
  simp only [NamesFit, not_forall, Nat.not_le] at hlong
  obtain ⟨f, hf, hlen⟩ := hlong
  rw [buildResponse, mapM_headerField_long hf hlen]
  cases StatusCode.fromU16 h.code <;> rfl

theorem parse_head (hreads : ReadsHeads cr.httparse) {s rest : Bytes} {h : Head}
    (hh : readHead s = some (h, rest)) (hroom : h.fields.length ≤ 64) :
    parseHttp1Response cr s = buildResponse h.code h.fields rest := by
  rw [parseHttp1Response, hreads.complete 64 s h rest hh hroom]
  change buildResponse h.code h.fields (s.drop (s.length - rest.length)) = _
  rw [(readHead_sound hh).2]

theorem body_eq_rest_iff {raw : Bytes} (c : Complete raw) :
    c.body = c.rest ↔ framing c.head ≠ some .chunked := by
  have hwhole := c.whole
  rw [payload] at hwhole
  split at hwhole
  next => exact nomatch hwhole
  next hf =>
    split at hwhole
    next hr =>
      rw [hf, hr, ← Option.some.inj hwhole]
      simp
    next => exact nomatch hwhole
  next hf =>
    split at hwhole
    next body hr =>
      have hlen := readChunks_length hr
      refine iff_of_false (fun he => ?_) (fun hne => hne hf)
      rw [← Option.some.inj hwhole] at he
      rw [he] at hlen
      simp at hlen
    next => exact nomatch hwhole
  next n hf =>
    split at hwhole
    next =>
      rw [hf, Option.some.inj hwhole]
      simp
    next => exact nomatch hwhole
  next hf =>
    rw [hf, Option.some.inj hwhole]
    simp

theorem framing_of_no_fields {h : Head} (hlen : fieldValues (ascii "content-length") h.fields = [])
    (hte : fieldValues (ascii "transfer-encoding") h.fields = []) : ¬ Delimited h := by
  have hc : codings h.fields = [] := by rw [codings, hte]; rfl
  have hl : contentLength h.fields = .absent := by rw [contentLength, hlen]; rfl
  rw [Delimited, framing]
  rw [hc, hl]
  by_cases hcode : h.code = 204 ∨ h.code = 304 <;> simp [hcode]

theorem returns_iff (hreads : ReadsHeads cr.httparse) {raw : Bytes} (c : Complete raw) :
    Returns cr c ↔ NamesFit c.head ∧ framing c.head ≠ some .chunked := by
  obtain ⟨hlt, hlegal⟩ := readHead_parts c.read
  have hcode : 100 ≤ c.head.code := Nat.le_trans (by decide) c.final
  rw [Returns]
  rw [parse_head hreads c.read c.room]
  by_cases hfit : NamesFit c.head
  · obtain ⟨resp, hr, hstatus, hheaders, hbody⟩ :=
      buildResponse_fit c.rest ⟨hcode, hlt⟩ hlegal hfit
    rw [hr, ← body_eq_rest_iff]
    constructor
    · rintro ⟨resp', hr', _, _, hb⟩
      obtain rfl := Except.ok.inj hr'
      exact ⟨hfit, hb.symm.trans hbody⟩
    · rintro ⟨_, hb⟩
      exact ⟨resp, rfl, hstatus, hheaders, hbody.trans hb.symm⟩
  · rw [buildResponse_long hfit]
    refine iff_of_false ?_ (fun h => hfit h.1)
    rintro ⟨resp, hr, _⟩
    exact nomatch hr

/-- A delimited response cut short is refused exactly when the cut goes
through its head, or the head cannot be taken over. -/
theorem refuses_iff (hreads : ReadsHeads cr.httparse) {raw : Bytes} (c : Complete raw) (k : Nat)
    (hd : Delimited c.head) :
    Refuses cr (raw.take k) ↔ k < raw.length - c.rest.length ∨ ¬ NamesFit c.head := by
  obtain ⟨hlt, hlegal⟩ := readHead_parts c.read
  have hcode : 100 ≤ c.head.code := Nat.le_trans (by decide) c.final
  by_cases hk : k < raw.length - c.rest.length
  · have hpart := hreads.incomplete 64 raw c.head c.rest k c.read c.room hk
    refine iff_of_true (Or.inl ?_) (Or.inl hk)
    rw [parseHttp1Response, hpart]
  · have hcut := readHead_take c.read (Nat.le_of_not_lt hk)
    rw [Refuses]
    rw [parse_head hreads hcut c.room]
    by_cases hfit : NamesFit c.head
    · obtain ⟨resp, hr, _, hheaders, _⟩ :=
        buildResponse_fit (c.rest.take (k - (raw.length - c.rest.length))) ⟨hcode, hlt⟩ hlegal hfit
      rw [hr]
      refine iff_of_false ?_ (fun h => h.elim hk (fun hn => hn hfit))
      rintro (hb | ⟨err, he⟩)
      · obtain rfl := Except.ok.inj hb
        exact framing_of_no_fields (hheaders CONTENT_LENGTH).symm (hheaders TRANSFER_ENCODING).symm hd
      · exact nomatch he
    · rw [buildResponse_long hfit]
      exact iff_of_true (Or.inr ⟨.http, rfl⟩) (Or.inr hfit)

/-- When the body of a response is delimited as it should be. -/
theorem deframes_iff (hreads : ReadsHeads cr.httparse) {raw : Bytes} (c : Complete raw) (k : Nat) :
    Deframes cr c k ↔
      if raw.length ≤ k then NamesFit c.head ∧ framing c.head ≠ some .chunked
      else Delimited c.head → k < raw.length - c.rest.length ∨ ¬ NamesFit c.head := by
  rw [Deframes]
  by_cases hk : raw.length ≤ k
  · rw [if_pos hk, if_pos hk]
    exact returns_iff hreads c
  · rw [if_neg hk, if_neg hk]
    exact forall_congr' (refuses_iff hreads c k)

def chunkedText : Bytes :=
  ascii "HTTP/1.1 200 OK\r\nTransfer-Encoding: chunked\r\n\r\n5\r\nhello\r\n0\r\n\r\n"

def chunkedResponse : Complete chunkedText where
  head := ⟨200, [(ascii "Transfer-Encoding", ascii "chunked")]⟩
  rest := ascii "5\r\nhello\r\n0\r\n\r\n"
  body := ascii "hello"
  read := by decide +kernel
  final := by decide
  room := by decide
  whole := by decide +kernel

def lengthText : Bytes := ascii "HTTP/1.1 200 OK\r\nContent-Length: 5\r\n\r\nhello"

def lengthResponse : Complete lengthText where
  head := ⟨200, [(ascii "Content-Length", ascii "5")]⟩
  rest := ascii "hello"
  body := ascii "hello"
  read := by decide +kernel
  final := by decide
  room := by decide
  whole := by decide +kernel

theorem deframes_iff_length : Deframes StandIns.crates lengthResponse 43 := by
  have hfit : NamesFit lengthResponse.head := by
    rw [NamesFit]
    decide
  exact (deframes_iff StandIns.httparse_readsHeads lengthResponse 43).mpr
    (by rw [if_pos (by decide)]; exact ⟨hfit, by decide⟩)

/-- The framing of the chunks is taken for a part of the payload, and a
response that breaks off after two of five bytes is taken for a whole one. -/
theorem not_deframed :
    ¬ Deframes StandIns.crates chunkedResponse chunkedText.length ∧
      ¬ Deframes StandIns.crates lengthResponse 40 := by
  have hchunks : (parseHttp1Response StandIns.crates chunkedText).toOption.map Response.body =
      some (ascii "5\r\nhello\r\n0\r\n\r\n") := by
    decide +kernel
  have hcut : (parseHttp1Response StandIns.crates (lengthText.take 40)).toOption.map Response.body =
      some (ascii "he") := by
    decide +kernel
  constructor
  · intro h
    rw [Deframes, if_pos (Nat.le_refl _)] at h
    obtain ⟨resp, hr, _, _, hb⟩ := h
    rw [hr] at hchunks
    exact absurd ((Option.some.inj hchunks).symm.trans hb) (by decide)
  · intro h
    rw [Deframes, if_neg (by decide)] at h
    rcases h (Or.inr ⟨5, by decide⟩) with hb | ⟨err, he⟩
    · rw [hb] at hcut
      exact absurd (Option.some.inj hcut) (by decide)
    · rw [he] at hcut
      exact nomatch hcut

end MiniCloudflared.ResponseFraming

