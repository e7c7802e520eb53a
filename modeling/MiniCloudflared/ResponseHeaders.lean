import MiniCloudflared.ProxyStream

namespace MiniCloudflared.ResponseHeaders

open Library Http1 HttpTypes Origin ProxyStream

def serialized (headers : HeaderMap) : List (HeaderName × HeaderValue) :=
  headers.iter.filter (fun p => p.1 != CONTENT_LENGTH)

def pairText (p : HeaderName × HeaderValue) : Bytes := fieldLine p.1.bytes (p.2.toStr.getD [])

def Legal (s : Bytes) : Prop := ∀ b, b ∈ s → isFieldByte b = true

/-- A value that `to_str` gives back and that its fallback cannot be taken
for. -/
def Readable (v : HeaderValue) : Prop := v.bytes ≠ [] ∧ v.toStr = some v.bytes

/-- The serialised headers are a legal header value, so that the response is
handed to the edge with them, and no other list of pairs looks the same. -/
structure Survives (headers : HeaderMap) : Prop where
  legal : Legal (serializeHeaders headers)
  sent : ∀ (env : Env) (resp : Response), resp.headers = headers → env.sendResponse = .ok () →
    ∃ hs : HeaderMap, Event.sendResponse resp.status hs resp.body.isEmpty ∈ (replyToEdge env resp).events ∧
      (hs.getAll HDR_RESP_HEADERS).map HeaderValue.bytes = [serializeHeaders headers]
  recoverable : ∀ other, serializeHeaders other = serializeHeaders headers →
    serialized other = serialized headers

theorem serializeHeaders_eq (headers : HeaderMap) :
    serializeHeaders headers = List.intercalate crlf ((serialized headers).map pairText) := rfl

theorem ne_contentLength {headers : HeaderMap} {p : HeaderName × HeaderValue}
    (h : p ∈ serialized headers) : p.1 ≠ CONTENT_LENGTH := by
  simpa using (List.mem_filter.mp h).2

theorem pairText_ne_nil (p : HeaderName × HeaderValue) : pairText p ≠ [] := by
  simp [pairText, fieldLine, p.1.ne_nil]

theorem colon_notMem (k : HeaderName) : 58 ∉ k.bytes :=
  fun h => absurd (k.nameBytes 58 h) (by decide)

theorem toStr_eq_none_or (v : HeaderValue) : v.toStr = none ∨ v.toStr = some v.bytes := by
  rw [HeaderValue.toStr]
  split
  next => exact Or.inr rfl
  next => exact Or.inl rfl

theorem legal_pairText (p : HeaderName × HeaderValue) : Legal (pairText p) := by
  have hsep : ∀ b, b ∈ ascii ": " → isFieldByte b = true := List.all_eq_true.mp rfl
  intro b hb
  rw [pairText, fieldLine, List.mem_append, List.mem_append] at hb
  rcases hb with (hb | hb) | hb
  · exact isFieldByte_of_isVisible (isVisible_of_isNameByte (p.1.nameBytes b hb))
  · exact hsep b hb
  · rcases toStr_eq_none_or p.2 with h | h
    · rw [h] at hb
      exact absurd hb List.not_mem_nil
    · rw [h] at hb
      exact p.2.legal b hb

theorem cr_mem_of_two {p q : HeaderName × HeaderValue} {ps : List (HeaderName × HeaderValue)} :
    13 ∈ List.intercalate crlf ((p :: q :: ps).map pairText) := by
  simp [List.intercalate_cons_cons, crlf]

theorem legal_iff (headers : HeaderMap) :
    Legal (serializeHeaders headers) ↔ (serialized headers).length ≤ 1 := by
  rw [serializeHeaders_eq]
  cases hs : serialized headers with
  | nil => simp [Legal]
  | cons p ps =>
      cases ps with
      | nil => simpa using legal_pairText p
      | cons q ps =>
          have hcr : ¬ Legal (List.intercalate crlf ((p :: q :: ps).map pairText)) :=
            fun h => absurd (h 13 cr_mem_of_two) (by decide)
          exact iff_of_false hcr (by simp)

theorem edgeHeaders_ok {headers : HeaderMap} (h : Legal (serializeHeaders headers)) :
    ∃ hs : HeaderMap, edgeHeaders headers = .ok hs ∧
      (hs.getAll HDR_RESP_HEADERS).map HeaderValue.bytes = [serializeHeaders headers] := by
  have hv : HeaderValue.ofBytes? (serializeHeaders headers) =
      some ⟨serializeHeaders headers, List.all_eq_true.mpr h⟩ := dif_pos (List.all_eq_true.mpr h)
  refine ⟨.ofList (((headers.get CONTENT_LENGTH).toList.map (fun v => (CONTENT_LENGTH, v))) ++
    [(HDR_RESP_HEADERS, ⟨serializeHeaders headers, List.all_eq_true.mpr h⟩)]), by simp only [edgeHeaders, hv], ?_⟩
  have hne : CONTENT_LENGTH ≠ HDR_RESP_HEADERS := by decide
  have hlen : valuesAt HDR_RESP_HEADERS
      ((headers.get CONTENT_LENGTH).toList.map (fun v => (CONTENT_LENGTH, v))) = [] := by
    cases headers.get CONTENT_LENGTH <;> simp [valuesAt, hne]
  rw [MultiMap.getAll_ofList, valuesAt_append, hlen]
  simp [valuesAt]

theorem sendResponse_mem {env : Env} {resp : Response} {hs : HeaderMap}
    (h : edgeHeaders resp.headers = .ok hs) (hsend : env.sendResponse = .ok ()) :
    Event.sendResponse resp.status hs resp.body.isEmpty ∈ (replyToEdge env resp).events := by
  rw [replyToEdge, h, hsend]
  simp [handOver]

theorem iter_single (k : HeaderName) (v : HeaderValue) :
    (MultiMap.empty.insert k v : HeaderMap).iter = [(k, v)] := rfl

theorem serialized_single {k : HeaderName} (v : HeaderValue) (h : k ≠ CONTENT_LENGTH) :
    serialized (MultiMap.empty.insert k v) = [(k, v)] := by
  simp [serialized, iter_single, h]

/-- The one value that looks like an unreadable one: an empty value for a
value that `to_str` refuses, and the other way round. -/
theorem exists_lookalike {v : HeaderValue} (h : ¬ Readable v) :
    ∃ w : HeaderValue, w ≠ v ∧ w.toStr.getD [] = v.toStr.getD [] := by
  by_cases hv : v.bytes = []
  · refine ⟨⟨[128], rfl⟩, ?_, ?_⟩
    · rintro rfl
      exact absurd hv (by decide)
    · simp [HeaderValue.toStr, hv, isVisibleAscii]
  · have hn : v.toStr = none := (toStr_eq_none_or v).resolve_right (fun hs => h ⟨hv, hs⟩)
    refine ⟨⟨[], rfl⟩, ?_, ?_⟩
    · rintro rfl
      exact hv rfl
    · rw [hn]
      rfl

theorem readable_of_recoverable {headers : HeaderMap} {p : HeaderName × HeaderValue}
    (hs : serialized headers = [p])
    (h : ∀ other, serializeHeaders other = serializeHeaders headers →
      serialized other = serialized headers) : Readable p.2 := by
  by_contra hr
  obtain ⟨w, hw, hsame⟩ := exists_lookalike hr
  have hp : p.1 ≠ CONTENT_LENGTH := ne_contentLength (by rw [hs]; exact List.mem_singleton_self p)
  have htext : serializeHeaders (MultiMap.empty.insert p.1 w) = serializeHeaders headers := by
    simp [serializeHeaders_eq, serialized_single w hp, hs, pairText, hsame]
  have heq := h _ htext
  rw [serialized_single w hp, hs] at heq
  exact hw (congrArg Prod.snd (List.singleton_inj.mp heq))

theorem serialized_unique {ps : List (HeaderName × HeaderValue)} {p : HeaderName × HeaderValue}
    (hp : Readable p.2) (h : List.intercalate crlf (ps.map pairText) = pairText p) : ps = [p] := by
  cases ps with
  | nil => exact absurd h.symm (pairText_ne_nil p)
  | cons q qs =>
      cases qs with
      | nil =>
          have ht : q.1.bytes ++ 58 :: 32 :: q.2.toStr.getD [] = p.1.bytes ++ 58 :: 32 :: p.2.bytes := by
            simpa [pairText, fieldLine, ascii, hp.2] using h
          obtain ⟨hname, hvalue⟩ := cut_unique (colon_notMem q.1) (colon_notMem p.1) ht
          have hk : q.1 = p.1 := HeaderName.ext hname
          have hv : q.2 = p.2 := by
            rcases toStr_eq_none_or q.2 with hn | hs
            · rw [hn] at hvalue
              exact absurd (List.cons.inj hvalue).2.symm hp.1
            · rw [hs] at hvalue
              exact HeaderValue.ext (List.cons.inj hvalue).2
          rw [Prod.ext hk hv]
      | cons r rs =>
          have hcr : 13 ∈ pairText p := by
            rw [← h]
            exact cr_mem_of_two
          exact absurd (legal_pairText p 13 hcr) (by decide)

theorem recoverable_of_readable {headers : HeaderMap} (hlen : (serialized headers).length ≤ 1)
    (hr : ∀ p, p ∈ serialized headers → Readable p.2) (other : HeaderMap)
    (h : serializeHeaders other = serializeHeaders headers) : serialized other = serialized headers := by
  rw [serializeHeaders_eq, serializeHeaders_eq] at h
  cases hs : serialized headers with
  | nil =>
      rw [hs] at h
      cases ho : serialized other with
      | nil => rfl
      | cons q qs =>
          rw [ho] at h
          cases qs with
          | nil => exact absurd (by simpa using h) (pairText_ne_nil q)
          | cons r rs => simp [List.intercalate_cons_cons, crlf] at h
  | cons p ps =>
      have hps : ps = [] := by
        rw [hs, List.length_cons] at hlen
        exact List.length_eq_zero_iff.mp (by omega)
      subst hps
      rw [hs] at h hr
      exact serialized_unique (hr p (List.mem_singleton_self p)) (by simpa using h)

/-- Response headers survive the trip to the edge exactly when there is at
most one besides Content-Length and its value is readable. -/
theorem survives_iff (headers : HeaderMap) :
    Survives headers ↔
      (serialized headers).length ≤ 1 ∧ ∀ p, p ∈ serialized headers → Readable p.2 := by
  constructor
  · intro h
    have hlen := (legal_iff headers).mp h.legal
    refine ⟨hlen, fun p hp => ?_⟩
    obtain ⟨q, hq⟩ := List.length_eq_one_iff.mp
      (Nat.le_antisymm hlen (List.length_pos_of_mem hp))
    obtain rfl : p = q := by simpa [hq] using hp
    exact readable_of_recoverable hq h.recoverable
  · rintro ⟨hlen, hr⟩
    have hlegal := (legal_iff headers).mpr hlen
    refine ⟨hlegal, ?_, recoverable_of_readable hlen hr⟩
    rintro env resp rfl hsend
    obtain ⟨hs, hok, hvalue⟩ := edgeHeaders_ok hlegal
    exact ⟨hs, sendResponse_mem hok hsend, hvalue⟩

def twoHeaders : HeaderMap :=
  .ofList [(CONTENT_TYPE, TEXT_HTML),
    (⟨ascii "server", rfl, rfl⟩, ⟨ascii "nginx", rfl⟩)]

theorem twoHeaders_lost : ¬ Survives twoHeaders := by
  intro h
  have hcr : 13 ∈ serializeHeaders twoHeaders := by decide
  exact absurd (h.legal 13 hcr) (by decide)

end MiniCloudflared.ResponseHeaders
