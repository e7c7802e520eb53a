import MiniCloudflared.ProxyStream

namespace MiniCloudflared.ForwardedHead

open Library Http1 HttpTypes Config ThirdParty Origin RequestBody ProxyStream

variable {β : Type}

def copiedPairs (headers : HeaderMap) : List Field :=
  headers.iter.filterMap fun p =>
    if isHopByHop p.1 then none else p.2.toStr.map (fun v => (p.1.bytes, v))

def lengthPairs (body : Bytes) : List Field :=
  if body = [] then [] else [(ascii "Content-Length", decimal body.length)]

def writtenPairs (addr : Bytes) (req : Request Bytes) : List Field :=
  (ascii "Host", addr) ::
    (copiedPairs req.headers ++ lengthPairs req.body ++ [(ascii "Connection", ascii "close")])

/-- Fields whose lines can be told apart, but whose names need not be tokens of
HTTP. -/
structure PlainField (f : Field) : Prop where
  ne_nil : f.1 ≠ []
  nameBytes : ∀ b, b ∈ f.1 → isNameByte b = true
  bytes : ∀ b, b ∈ f.2 → isFieldByte b = true

theorem PlainField.legal {f : Field} (h : PlainField f) (hq : 34 ∉ f.1) : LegalField f := by
  refine ⟨h.ne_nil, fun b hb => isTchar_of_isNameByte (h.nameBytes b hb) ?_, h.bytes⟩
  rintro rfl
  exact hq hb

def targetOf (uri : Uri) : Bytes := (uri.pathAndQuery.map PathAndQuery.asStr).getD (ascii "/")

theorem headerText_eq (ps : List (HeaderName × HeaderValue)) :
    ps.flatMap headerText =
      (ps.filterMap fun p =>
        if isHopByHop p.1 then none else p.2.toStr.map (fun v => (p.1.bytes, v))).flatMap
        (fun f => fieldLine f.1 f.2 ++ crlf) := by
  induction ps with
  | nil => rfl
  | cons p ps ih =>
      rw [List.flatMap_cons, ih, List.filterMap_cons]
      cases hh : isHopByHop p.1 with
      | true => simp [headerText, hh]
      | false => cases hv : p.2.toStr <;> simp [headerText, hh, hv]

theorem requestHead_eq (addr : Bytes) (req : Request Bytes) :
    requestHead addr req =
      writeLines (requestLine req.method.bytes (targetOf req.uri) ::
        (writtenPairs addr req).map (fun f => fieldLine f.1 f.2)) := by
  have hline : ascii " HTTP/1.1\r\nHost: " = ascii " HTTP/1.1" ++ (crlf ++ (ascii "Host" ++ ascii ": ")) :=
    rfl
  have hlast : ascii "Connection: close\r\n\r\n" =
      fieldLine (ascii "Connection") (ascii "close") ++ (crlf ++ crlf) := rfl
  have hlength : ascii "Content-Length: " = ascii "Content-Length" ++ ascii ": " := rfl
  have hbody : (if req.body = [] then [] else
      ascii "Content-Length: " ++ decimal req.body.length ++ crlf) =
      (lengthPairs req.body).flatMap (fun f => fieldLine f.1 f.2 ++ crlf) := by
    rw [lengthPairs]
    split
    next => rfl
    next => simp [fieldLine, hlength]
  rw [requestHead, hbody, headerText_eq, hline, hlast]
  simp only [writeLines, requestLine, targetOf, writtenPairs, copiedPairs, List.flatMap_cons,
    List.flatMap_append, List.flatMap_map, List.map_cons, List.map_append, List.flatMap_nil,
    List.map_nil, fieldLine, List.append_assoc, List.append_nil]

theorem exists_targetOf (uri : Uri) : ∃ p : PathAndQuery, p.bytes = targetOf uri := by
  rw [targetOf]
  cases uri.pathAndQuery with
  | none => exact ⟨⟨[47], rfl⟩, rfl⟩
  | some p =>
      change ∃ q : PathAndQuery, q.bytes = p.asStr
      rw [PathAndQuery.asStr]
      split
      next => exact ⟨⟨[47], rfl⟩, rfl⟩
      next => exact ⟨p, rfl⟩

theorem targetOf_visible (uri : Uri) : ∀ b, b ∈ targetOf uri → isVisible b = true := by
  obtain ⟨p, hp⟩ := exists_targetOf uri
  rw [← hp]
  exact p.visible

theorem notMem_of_visible {c : UInt8} (hc : isVisible c = false) {s : Bytes}
    (h : ∀ b, b ∈ s → isVisible b = true) : c ∉ s :=
  fun hm => nomatch (h c hm).symm.trans hc

theorem hostOrLocal_bytes (u : Url) : ∀ b, b ∈ hostOrLocal u → isHostByte b = true := by
  have hlocal : ∀ b, b ∈ ascii "127.0.0.1" → isHostByte b = true := List.all_eq_true.mp rfl
  rw [hostOrLocal]
  cases hh : u.host with
  | none => exact hlocal
  | some h => exact u.host_bytes hh

theorem address_visible (u : Url) : ∀ b, b ∈ address u → isVisible b = true := by
  intro b hb
  rw [address, List.mem_append, List.mem_append] at hb
  rcases hb with (hb | hb) | hb
  · have hbyte := hostOrLocal_bytes u b hb
    rw [isHostByte, Bool.and_eq_true] at hbyte
    exact hbyte.1
  · obtain rfl : b = 58 := by simpa [ascii] using hb
    rfl
  · exact isVisible_of_isDigit (decimal_digits _ b hb)

theorem requestLine_clean (method : Method) (uri : Uri) :
    requestLine method.bytes (targetOf uri) ≠ [] ∧ 13 ∉ requestLine method.bytes (targetOf uri) := by
  have hm := notMem_of_visible (c := 13) rfl (fun b hb => isVisible_of_isTchar (method.tchars b hb))
  have ht := notMem_of_visible (c := 13) rfl (targetOf_visible uri)
  refine ⟨by simp [requestLine, method.ne_nil], ?_⟩
  simp only [requestLine, List.mem_append, not_or]
  exact ⟨⟨⟨hm, by decide⟩, ht⟩, by decide⟩

theorem line_clean {f : Field} (h : PlainField f) : fieldLine f.1 f.2 ≠ [] ∧ 13 ∉ fieldLine f.1 f.2 := by
  have hn : 13 ∉ f.1 := fun hm => absurd (h.nameBytes 13 hm) (by decide)
  have hv : 13 ∉ f.2 := fun hm => absurd (h.bytes 13 hm) (by decide)
  refine ⟨by simp [fieldLine, h.ne_nil], ?_⟩
  simp only [fieldLine, List.mem_append, not_or]
  exact ⟨⟨hn, by decide⟩, hv⟩

theorem copiedPairs_plain (headers : HeaderMap) : ∀ f, f ∈ copiedPairs headers → PlainField f := by
  intro f hf
  obtain ⟨⟨k, v⟩, _, hp⟩ := List.mem_filterMap.mp hf
  split at hp
  next => exact absurd hp (by simp)
  next =>
    obtain ⟨s, hs, rfl⟩ := Option.map_eq_some_iff.mp hp
    exact ⟨k.ne_nil, k.nameBytes, fun b hb => v.legal b (toStr_eq_some hs ▸ hb)⟩

theorem writtenPairs_plain (u : Url) (req : Request Bytes) :
    ∀ f, f ∈ writtenPairs (address u) req → PlainField f := by
  have hhost : ∀ b, b ∈ ascii "Host" → isNameByte b = true := List.all_eq_true.mp rfl
  have hlength : ∀ b, b ∈ ascii "Content-Length" → isNameByte b = true := List.all_eq_true.mp rfl
  intro f hf
  simp only [writtenPairs, List.mem_cons, List.mem_append, List.not_mem_nil, or_false] at hf
  rcases hf with rfl | (hf | hf) | rfl
  · exact ⟨List.cons_ne_nil _ _, hhost, fun b hb => isFieldByte_of_isVisible (address_visible u b hb)⟩
  · exact copiedPairs_plain req.headers f hf
  · rw [lengthPairs] at hf
    split at hf
    next => exact absurd hf List.not_mem_nil
    next =>
      obtain rfl := List.mem_singleton.mp hf
      exact ⟨List.cons_ne_nil _ _, hlength, fun b hb =>
        isFieldByte_of_isVisible (isVisible_of_isDigit (decimal_digits _ b hb))⟩
  · exact ⟨List.cons_ne_nil _ _, List.all_eq_true.mp rfl, List.all_eq_true.mp rfl⟩

theorem readLines_requestHead (u : Url) (req : Request Bytes) (rest : Bytes) :
    readLines [] (requestHead (address u) req ++ rest) =
      some (requestLine req.method.bytes (targetOf req.uri) ::
        (writtenPairs (address u) req).map (fun f => fieldLine f.1 f.2), rest) := by
  rw [requestHead_eq]
  apply readLines_writeLines
  intro l hl
  rcases List.mem_cons.mp hl with rfl | hl
  · exact requestLine_clean req.method req.uri
  · obtain ⟨f, hf, rfl⟩ := List.mem_map.mp hl
    exact line_clean (writtenPairs_plain u req f hf)

/-- Of the values that a name has in a request, the last one is copied, when
it is readable and the name is not held back. -/
theorem valuesAt_copiedPairs (headers : HeaderMap) (name : HeaderName) :
    valuesAt name.bytes (copiedPairs (copyHeaders headers)) =
      if isHopByHop name || isWithheld name then []
      else ((headers.getAll name).getLast?.bind HeaderValue.toStr).toList := by
  have hcopied (ps : List (HeaderName × HeaderValue)) :
      valuesAt name.bytes (ps.filterMap fun p =>
        if isHopByHop p.1 then none else p.2.toStr.map (fun v => (p.1.bytes, v))) =
      if isHopByHop name then [] else (valuesAt name ps).filterMap HeaderValue.toStr := by
    induction ps with
    | nil => simp
    | cons p ps ih =>
        rw [List.filterMap_cons, valuesAt_cons]
        by_cases hp : p.1 = name
        · subst hp
          cases hh : isHopByHop p.1 with
          | true => simpa [hh] using ih
          | false => cases hv : p.2.toStr <;> simp_all [valuesAt_cons]
        · have hb : p.1.bytes ≠ name.bytes := fun e => hp (HeaderName.ext e)
          cases hh : isHopByHop p.1 with
          | true => simpa [hh, hp] using ih
          | false => cases hv : p.2.toStr <;> simp_all [valuesAt_cons]
  rw [copiedPairs, hcopied, MultiMap.valuesAt_iter, copyHeaders, MultiMap.getAll_foldl_insert,
    valuesAt_filter name (fun k => !isWithheld k), MultiMap.valuesAt_iter]
  cases hh : isHopByHop name with
  | true => simp
  | false =>
      cases hw : isWithheld name with
      | true => simp
      | false =>
          cases hl : (headers.getAll name).getLast? with
          | none => simp [hl]
          | some v => cases hv : v.toStr <;> simp [hl, hv]

theorem lower_copiedPairs (headers : HeaderMap) :
    (copiedPairs headers).map (fun f => (lower f.1, f.2)) = copiedPairs headers := by
  refine (List.map_congr_left ?_).trans (List.map_id _)
  intro f hf
  obtain ⟨⟨k, v⟩, _, hp⟩ := List.mem_filterMap.mp hf
  split at hp
  next => exact absurd hp (by simp)
  next =>
    obtain ⟨s, _, rfl⟩ := Option.map_eq_some_iff.mp hp
    exact Prod.ext k.lowered rfl

/-- What a lower-case name has among the lines written, with the part that
each of the three sources contributes. -/
theorem fieldValues_writtenPairs (addr : Bytes) (req : Request Bytes) (name : Bytes) :
    fieldValues name (writtenPairs addr req) =
      valuesAt name [(ascii "host", addr)] ++
        (valuesAt name (copiedPairs req.headers) ++
          valuesAt name ((lengthPairs req.body).map (fun f => (ascii "content-length", f.2))) ++
          valuesAt name [(ascii "connection", ascii "close")]) := by
  have hhost : lower (ascii "Host") = ascii "host" := rfl
  have hconn : lower (ascii "Connection") = ascii "connection" := rfl
  have hlen : (lengthPairs req.body).map (fun f => (lower f.1, f.2)) =
      (lengthPairs req.body).map (fun f => (ascii "content-length", f.2)) := by
    rw [lengthPairs]
    split <;> rfl
  rw [fieldValues, writtenPairs, List.map_cons, List.map_append, List.map_append,
    lower_copiedPairs, hlen, hhost, List.map_singleton, hconn, ← List.singleton_append,
    valuesAt_append, valuesAt_append, valuesAt_append]

end MiniCloudflared.ForwardedHead
