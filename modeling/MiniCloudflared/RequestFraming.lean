import MiniCloudflared.Exchange
import MiniCloudflared.StandIns

namespace MiniCloudflared.RequestFraming

open Library Http1 HttpTypes Config ThirdParty Origin RequestBody ProxyStream ForwardedHead Exchange

def declaredLength (fs : List Field) : Option Nat :=
  match contentLength fs with
  | .absent => some 0
  | .malformed => none
  | .length n => some n

/-- The bytes are one request and nothing else: the given one, with the given
body under its true length. -/
def Framed {β : Type} (req : HttpTypes.Request β) (body w : Bytes) : Prop :=
  ∃ parsed, readRequest w = some (parsed, []) ∧ parsed.method = req.method.bytes ∧
    parsed.target = targetOf req.uri ∧
    (body ≠ [] → (fieldValues (ascii "content-length") parsed.fields).length = 1) ∧
    declaredLength parsed.fields = some body.length ∧ parsed.body = body

def copiedValue (headers : HeaderMap) (name : HeaderName) : Option Bytes :=
  (headers.getAll name).getLast?.bind HeaderValue.toStr

def copiedLength (headers : HeaderMap) : Option Bytes := copiedValue headers CONTENT_LENGTH

def Unquoted (headers : HeaderMap) : Prop :=
  ∀ name : HeaderName, 34 ∈ name.bytes → copiedValue headers name = none

def LengthAgrees (headers : HeaderMap) (body : Bytes) : Prop :=
  ∀ v, copiedLength headers = some v → body = [] ∧ readDecimal (trimOws v) = some 0

theorem trimOws_of_not_isOws {s : Bytes} (h : ∀ b, b ∈ s → isOws b = false) : trimOws s = s := by
  have hd : s.dropWhile isOws = s := by
    cases s with
    | nil => rfl
    | cons b s =>
        have hb := h b List.mem_cons_self
        simp [hb]
  rw [trimOws, hd]
  exact List.rdropWhile_eq_self_iff.mpr
    (fun hne => Bool.eq_false_iff.mp (h _ (List.getLast_mem hne)))

theorem isOws_of_isDigit {b : UInt8} (h : isDigit b = true) : isOws b = false := by
  revert b
  apply forall_byte
  decide +kernel

theorem trimOws_decimal (n : Nat) : trimOws (decimal n) = decimal n :=
  trimOws_of_not_isOws (fun b hb => isOws_of_isDigit (decimal_digits n b hb))

theorem fieldValues_map (f : Bytes → Bytes) (name : Bytes) (fs : List Field) :
    fieldValues name (fs.map (fun p => (p.1, f p.2))) = (fieldValues name fs).map f := by
  unfold fieldValues
  induction fs with
  | nil => rfl
  | cons p fs ih =>
      rw [List.map_cons, List.map_cons, List.map_cons, valuesAt_cons, valuesAt_cons, ih]
      by_cases h : lower p.1 = name
      · rw [if_pos h, if_pos h, List.map_cons]
      · rw [if_neg h, if_neg h]

variable {method : Method} {uri : Uri} {headers : HeaderMap} {body : Bytes}

def readPairs (addr : Bytes) (req : HttpTypes.Request Bytes) : List Field :=
  (writtenPairs addr req).map (fun f => (f.1, trimOws f.2))

theorem lengths_readPairs (addr : Bytes) :
    fieldValues (ascii "content-length") (readPairs addr ⟨method, uri, copyHeaders headers, body⟩) =
      ((copiedLength headers).toList.map trimOws) ++
        (if body = [] then [] else [decimal body.length]) := by
  have hcopied : valuesAt (ascii "content-length") (copiedPairs (copyHeaders headers)) =
      (copiedLength headers).toList := valuesAt_copiedPairs headers CONTENT_LENGTH
  have hhost : ascii "host" ≠ ascii "content-length" := by decide
  have hconn : ascii "connection" ≠ ascii "content-length" := by decide
  have hown : valuesAt (ascii "content-length")
      ((lengthPairs body).map (fun f => (ascii "content-length", f.2))) =
      if body = [] then [] else [decimal body.length] := by
    rw [lengthPairs]
    split <;> simp [valuesAt_cons]
  rw [readPairs, fieldValues_map, fieldValues_writtenPairs, hcopied, hown]
  by_cases hb : body = [] <;> simp [valuesAt_cons, hhost, hconn, hb, trimOws_decimal]

theorem codings_readPairs (addr : Bytes) :
    codings (readPairs addr ⟨method, uri, copyHeaders headers, body⟩) = [] := by
  have hcopied : valuesAt (ascii "transfer-encoding") (copiedPairs (copyHeaders headers)) = [] :=
    valuesAt_copiedPairs headers TRANSFER_ENCODING
  have hhost : ascii "host" ≠ ascii "transfer-encoding" := by decide
  have hconn : ascii "connection" ≠ ascii "transfer-encoding" := by decide
  have hlen : ascii "content-length" ≠ ascii "transfer-encoding" := by decide
  have hown : valuesAt (ascii "transfer-encoding")
      ((lengthPairs body).map (fun f => (ascii "content-length", f.2))) = [] := by
    rw [lengthPairs]
    split <;> simp [valuesAt_cons, hlen]
  rw [codings, readPairs, fieldValues_map, fieldValues_writtenPairs, hcopied, hown]
  simp [valuesAt_cons, hhost, hconn]

theorem copied_quoted (headers : HeaderMap) {name : HeaderName} (h : 34 ∈ name.bytes) :
    valuesAt name.bytes (copiedPairs (copyHeaders headers)) = (copiedValue headers name).toList := by
  have hne (b : Bytes) (hb : 34 ∉ b) : name.bytes ≠ b := fun e => hb (e ▸ h)
  have hhead : name.bytes.head? ≠ some 58 := fun hh =>
    absurd (name.nameBytes 58 (List.mem_of_head? hh)) (by decide)
  have hupg : name ≠ HDR_UPGRADE := fun e => hne HDR_UPGRADE.bytes (by decide) (congrArg HeaderName.bytes e)
  have hkept : (isHopByHop name || isWithheld name) = false := by
    simp [isHopByHop, isWithheld, hhead, hupg, hne (ascii "host") (by decide),
      hne (ascii "connection") (by decide), hne (ascii "proxy-connection") (by decide),
      hne (ascii "transfer-encoding") (by decide), hne (ascii "upgrade") (by decide)]
  rw [valuesAt_copiedPairs, if_neg (Bool.eq_false_iff.mp hkept)]
  rfl

/-- The lines are fields of HTTP exactly when no name among them is quoted. -/
theorem legal_iff_unquoted (u : Url) :
    (∀ f, f ∈ writtenPairs (address u) ⟨method, uri, copyHeaders headers, body⟩ → LegalField f) ↔
      Unquoted headers := by
  constructor
  · intro h name hq
    by_contra hne
    obtain ⟨v, hv⟩ := Option.ne_none_iff_exists'.mp hne
    have hmem : (name.bytes, v) ∈ copiedPairs (copyHeaders headers) := by
      rw [← mem_valuesAt, copied_quoted headers hq, hv]
      exact List.mem_singleton_self v
    have hlegal := h (name.bytes, v) (by simp [writtenPairs, hmem])
    exact absurd (hlegal.tchars 34 hq) (by decide)
  · intro h f hf
    refine (writtenPairs_plain u _ f hf).legal fun hq => ?_
    have hhost : 34 ∉ ascii "Host" := by decide
    have hlength : 34 ∉ ascii "Content-Length" := by decide
    simp only [writtenPairs, List.mem_cons, List.mem_append, List.not_mem_nil, or_false] at hf
    rcases hf with rfl | (hf | hf) | rfl
    · exact hhost hq
    · obtain ⟨⟨k, v⟩, _, hp⟩ := List.mem_filterMap.mp hf
      split at hp
      next => exact absurd hp (by simp)
      next =>
        obtain ⟨s, _, rfl⟩ := Option.map_eq_some_iff.mp hp
        rw [← mem_valuesAt, copied_quoted headers hq, h k hq] at hf
        exact absurd hf List.not_mem_nil
    · rw [lengthPairs] at hf
      split at hf
      next => exact absurd hf List.not_mem_nil
      next =>
        obtain rfl := List.mem_singleton.mp hf
        exact hlength hq
    · exact absurd hq (by decide)

theorem readRequest_requestHead (u : Url) (req : HttpTypes.Request Bytes) (rest : Bytes)
    (hlegal : ∀ f, f ∈ writtenPairs (address u) req → LegalField f) :
    readRequest (requestHead (address u) req ++ rest) =
      if isOriginForm (targetOf req.uri) then
        (readRequestBody (readPairs (address u) req) rest).map
          (fun p => (⟨req.method.bytes, targetOf req.uri, readPairs (address u) req, p.1⟩, p.2))
      else none := by
  have hspace : 32 ∉ targetOf req.uri := notMem_of_visible rfl (targetOf_visible req.uri)
  have hfields : readFields ((writtenPairs (address u) req).map (fun f => fieldLine f.1 f.2)) =
      some (readPairs (address u) req) := readFields_fieldLines _ hlegal
  have hline := readRequestLine_requestLine req.method.ne_nil req.method.tchars hspace
  cases ho : isOriginForm (targetOf req.uri) with
  | true => simp [readRequest, readLines_requestHead, hline, hfields, ho]
  | false => simp [readRequest, readLines_requestHead, hline, ho]

theorem legal_of_readRequest (u : Url) (req : HttpTypes.Request Bytes) (rest : Bytes)
    {p : Http1.Request × Bytes} (h : readRequest (requestHead (address u) req ++ rest) = some p) :
    ∀ f, f ∈ writtenPairs (address u) req → LegalField f := by
  intro f hf
  have hplain := writtenPairs_plain u req
  have hcolon : ∀ f, f ∈ writtenPairs (address u) req → 58 ∉ f.1 :=
    fun f hf hm => absurd ((hplain f hf).nameBytes 58 hm) (by decide)
  simp only [readRequest, readLines_requestHead] at h
  split at h
  next fs _ hfs =>
    have hnames := readFields_fieldLines_names hcolon hfs
    have hname : f.1 ∈ fs.map Prod.fst := by
      rw [hnames]
      exact List.mem_map_of_mem hf
    obtain ⟨g, hg, he⟩ := List.mem_map.mp hname
    refine (hplain f hf).legal fun hq => ?_
    exact absurd ((readFields_sound hfs g hg).tchars 34 (he ▸ hq)) (by decide)
  next => exact absurd h (by simp)

theorem readRequestBody_readPairs (addr rest : Bytes) :
    readRequestBody (readPairs addr ⟨method, uri, copyHeaders headers, body⟩) rest =
      match contentLength (readPairs addr ⟨method, uri, copyHeaders headers, body⟩) with
      | .absent => some ([], rest)
      | .malformed => none
      | .length n => if n ≤ rest.length then some (rest.take n, rest.drop n) else none := by
  rw [readRequestBody, codings_readPairs]
  rfl

theorem contentLength_readPairs (addr : Bytes) (h : LengthAgrees headers body) :
    contentLength (readPairs addr ⟨method, uri, copyHeaders headers, body⟩) =
      if body ≠ [] ∨ (copiedLength headers).isSome then .length body.length else .absent := by
  rw [contentLength, lengths_readPairs]
  cases hc : copiedLength headers with
  | none => by_cases hb : body = [] <;> simp [hb, declared, readDecimal_decimal]
  | some v =>
      obtain ⟨rfl, hz⟩ := h v hc
      simp [declared, hz]

theorem readRequestBody_agrees (addr : Bytes) (h : LengthAgrees headers body) :
    readRequestBody (readPairs addr ⟨method, uri, copyHeaders headers, body⟩) body = some (body, []) := by
  rw [readRequestBody_readPairs, contentLength_readPairs addr h]
  by_cases hb : body = []
  · subst hb
    cases copiedLength headers <;> simp
  · simp [hb]

theorem declaredLength_agrees (addr : Bytes) (h : LengthAgrees headers body) :
    declaredLength (readPairs addr ⟨method, uri, copyHeaders headers, body⟩) = some body.length := by
  rw [declaredLength, contentLength_readPairs addr h]
  by_cases hb : body = []
  · subst hb
    cases copiedLength headers <;> simp
  · simp [hb]

theorem one_length_agrees (addr : Bytes) (h : LengthAgrees headers body) (hb : body ≠ []) :
    (fieldValues (ascii "content-length")
      (readPairs addr ⟨method, uri, copyHeaders headers, body⟩)).length = 1 := by
  rw [lengths_readPairs]
  cases hc : copiedLength headers with
  | none => simp [hb]
  | some v => exact absurd (h v hc).1 hb

theorem lengthAgrees_of_declared (addr : Bytes)
    (hone : body ≠ [] → (fieldValues (ascii "content-length")
      (readPairs addr ⟨method, uri, copyHeaders headers, body⟩)).length = 1)
    (hlen : declaredLength (readPairs addr ⟨method, uri, copyHeaders headers, body⟩) =
      some body.length) : LengthAgrees headers body := by
  intro v hv
  rw [lengths_readPairs, hv] at hone
  rw [declaredLength, contentLength, lengths_readPairs, hv] at hlen
  by_cases hb : body = []
  · subst hb
    refine ⟨rfl, ?_⟩
    cases hd : readDecimal (trimOws v) with
    | none => simp [declared, hd] at hlen
    | some n => simpa [declared, hd] using hlen
  · have htwo := hone hb
    simp [hb] at htwo

theorem head_of_isOriginForm {t : Bytes} (h : isOriginForm t = true) : t.head? = some 47 := by
  rw [isOriginForm, Bool.and_eq_true] at h
  exact beq_iff_eq.mp h.1

theorem targetOf_rewritten {cr : Crates} (hpath : KeepsPath cr.uriParse) {base : Url}
    {original uri : Uri} (ho : isOriginForm (targetOf original) = true)
    (h : cr.uriParse (origin base.scheme (hostOrLocal base) (portOrHttp base) ++ targetOf original) =
      .ok uri) : targetOf uri = targetOf original := by
  obtain ⟨p, hp⟩ := exists_targetOf original
  rw [← hp] at h ho ⊢
  have hhead := head_of_isOriginForm ho
  have hkept := hpath base.scheme (hostOrLocal base) (portOrHttp base) p uri base.scheme_bytes
    (hostOrLocal_bytes base) hhead h
  have hne : p.bytes ≠ [] := by
    rintro hn
    rw [hn] at hhead
    exact nomatch hhead
  rw [targetOf, hkept]
  exact if_neg hne

/-- What is written to the origin frames the request exactly when its target
is in origin form and neither a quoted name is copied nor a length that is
unneeded or untrue. -/
theorem framed_iff {cr : Crates} {env : Env} {rules : List IngressRule} {fuel : Nat}
    {req : HttpTypes.Request RecvStream} {io : Io Unit} (hpath : KeepsPath cr.uriParse)
    (h : handleProxyStream cr env rules fuel req = some io) (hne : written io.events ≠ [])
    (hall : Accepts env io.events) :
    Framed req req.body.payload (written io.events) ↔
      isOriginForm (targetOf req.uri) = true ∧ Unquoted req.headers ∧
        LengthAgrees req.headers req.body.payload := by
  obtain ⟨rule, base, uri, rest, _, hu, hw, hrest⟩ := written_handleProxyStream h hne
  rw [hw, hrest hall]
  rw [Framed]
  constructor
  · rintro ⟨parsed, hread, _, htarget, hone, hlen, _⟩
    have hlegal := legal_of_readRequest base _ _ hread
    rw [readRequest_requestHead _ _ _ hlegal] at hread
    split at hread
    next ho =>
      obtain ⟨p, _, hp⟩ := Option.map_eq_some_iff.mp hread
      obtain ⟨rfl, _⟩ := Prod.mk.inj hp
      change targetOf uri = targetOf req.uri at htarget
      exact ⟨htarget ▸ ho, (legal_iff_unquoted base).mp hlegal, lengthAgrees_of_declared _ hone hlen⟩
    next => exact absurd hread (by simp)
  · rintro ⟨ho, hunquoted, hagrees⟩
    have htarget := targetOf_rewritten hpath ho hu
    rw [readRequest_requestHead _ _ _ ((legal_iff_unquoted base).mpr hunquoted), htarget, if_pos ho,
      readRequestBody_agrees (address base) hagrees]
    exact ⟨_, rfl, rfl, rfl, one_length_agrees (address base) hagrees,
      declaredLength_agrees (address base) hagrees, rfl⟩

def upload (headers : HeaderMap) : HttpTypes.Request RecvStream :=
  StandIns.post headers ⟨[.data (ascii "hello")], .clean⟩

theorem framed_iff_upload :
    Framed (upload .empty) (ascii "hello") (written (proxyTo StandIns.crates (StandIns.env [])
      (upload .empty) StandIns.localRule (ascii "hello")).events) := by
  refine (@framed_iff StandIns.crates (StandIns.env []) [StandIns.localRule] 2 (upload .empty) _
    StandIns.uriParse_keepsPath rfl ?_ ?_).mpr ⟨by decide, ?_, ?_⟩
  · decide +kernel
  · exact fun _ _ => rfl
  · exact fun _ _ => rfl
  · exact fun v hv => nomatch hv

def declaredUpload : HttpTypes.Request RecvStream :=
  upload (.ofList [(CONTENT_LENGTH, ⟨ascii "5", rfl⟩)])

theorem declaredUpload_not_framed :
    ∃ io, handleProxyStream StandIns.crates (StandIns.env []) [StandIns.localRule] 2 declaredUpload =
        some io ∧ written io.events ≠ [] ∧ Accepts (StandIns.env []) io.events ∧
      ¬ Framed declaredUpload (ascii "hello") (written io.events) := by
  let io := proxyTo StandIns.crates (StandIns.env []) declaredUpload StandIns.localRule (ascii "hello")
  have hne : written io.events ≠ [] := by decide +kernel
  have htwo : (readRequest (written io.events)).map
      (fun p => (fieldValues (ascii "content-length") p.1.fields).length) = some 2 := by
    decide +kernel
  refine ⟨io, rfl, hne, fun _ _ => rfl, ?_⟩
  rintro ⟨parsed, hread, _, _, hone, _⟩
  rw [hread] at htwo
  exact absurd ((hone (by decide)).symm.trans (Option.some.inj htwo)) (by decide)

end MiniCloudflared.RequestFraming
