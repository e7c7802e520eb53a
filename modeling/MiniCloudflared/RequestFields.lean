import MiniCloudflared.Exchange
import MiniCloudflared.StandIns

namespace MiniCloudflared.RequestFields

open Library Http1 HttpTypes Config ThirdParty Origin RequestBody ProxyStream ForwardedHead Exchange

/-- The names that are not passed on: those that end at the tunnel, those that
end at the connection, and the length, which is written anew. -/
def isExempt (k : HeaderName) : Bool :=
  [ascii "host", ascii "content-length", HDR_UPGRADE.bytes, ascii "connection",
    ascii "proxy-connection", ascii "transfer-encoding", ascii "upgrade"].contains k.bytes

def lineField (l : Bytes) : Field := (l.takeWhile (· != 58), (l.dropWhile (· != 58)).drop 2)

def headerLines (w : Bytes) : Option (List Field) :=
  (readLines [] w).map (fun p => p.1.tail.map lineField)

/-- Every name that is not exempt has the same values in the same order in the
header lines as in the map. -/
def KeepsFields (headers : HeaderMap) (w : Bytes) : Prop :=
  ∃ lines, headerLines w = some lines ∧
    ∀ name, isExempt name = false →
      fieldValues name.bytes lines = (headers.getAll name).map HeaderValue.bytes

def SingleReadable (headers : HeaderMap) : Prop :=
  ∀ name, isExempt name = false →
    (headers.getAll name).length ≤ 1 ∧ ∀ v, v ∈ headers.getAll name → v.toStr = some v.bytes

theorem not_withheld {k : HeaderName} (h : isExempt k = false) :
    (isHopByHop k || isWithheld k) = false := by
  simp only [isExempt, List.contains_eq_mem, List.mem_cons, List.not_mem_nil, or_false,
    decide_eq_false_iff_not, not_or] at h
  obtain ⟨hhost, _, hup, hconn, hproxy, hte, hupg⟩ := h
  have hcolon : k.bytes.head? ≠ some 58 := fun hh =>
    absurd (k.nameBytes 58 (List.mem_of_head? hh)) (by decide)
  have hne : k ≠ HDR_UPGRADE := fun e => hup (congrArg HeaderName.bytes e)
  simp [isHopByHop, isWithheld, hhost, hconn, hproxy, hte, hupg, hcolon, hne]

theorem lineField_fieldLine {name : Bytes} (h : 58 ∉ name) (value : Bytes) :
    lineField (fieldLine name value) = (name, value) := by
  have hl : fieldLine name value = name ++ 58 :: 32 :: value := by simp [fieldLine, ascii]
  simp [lineField, hl, takeWhile_cut _ h, dropWhile_cut _ h]

theorem headerLines_requestHead (u : Url) (req : Request Bytes) (rest : Bytes) :
    headerLines (requestHead (address u) req ++ rest) = some (writtenPairs (address u) req) := by
  have hmap : ((writtenPairs (address u) req).map (fun f => fieldLine f.1 f.2)).map lineField =
      writtenPairs (address u) req := by
    rw [List.map_map]
    refine (List.map_congr_left ?_).trans (List.map_id _)
    intro f hf
    have hcolon : 58 ∉ f.1 := fun hm =>
      absurd ((writtenPairs_plain u req f hf).nameBytes 58 hm) (by decide)
    exact lineField_fieldLine hcolon f.2
  rw [headerLines, readLines_requestHead]
  simp [hmap]

/-- A name that is not exempt gets nothing but the last of its values, and not
even that one when it cannot be read as text. -/
theorem fieldValues_of_not_exempt {name : HeaderName} (h : isExempt name = false) (addr body : Bytes)
    (method : Method) (uri : Uri) (headers : HeaderMap) :
    fieldValues name.bytes (writtenPairs addr ⟨method, uri, copyHeaders headers, body⟩) =
      ((headers.getAll name).getLast?.bind HeaderValue.toStr).toList := by
  have hcopied := valuesAt_copiedPairs headers name
  rw [if_neg (Bool.eq_false_iff.mp (not_withheld h))] at hcopied
  simp only [isExempt, List.contains_eq_mem, List.mem_cons, List.not_mem_nil, or_false,
    decide_eq_false_iff_not, not_or] at h
  have hlen : valuesAt name.bytes
      ((lengthPairs body).map (fun f => (ascii "content-length", f.2))) = [] := by
    rw [lengthPairs]
    split <;> simp [valuesAt_cons, Ne.symm h.2.1]
  rw [fieldValues_writtenPairs, hcopied, hlen]
  simp [valuesAt_cons, Ne.symm h.1, Ne.symm h.2.2.2.1]

theorem last_readable_iff (vs : List HeaderValue) :
    (vs.getLast?.bind HeaderValue.toStr).toList = vs.map HeaderValue.bytes ↔
      vs.length ≤ 1 ∧ ∀ v, v ∈ vs → v.toStr = some v.bytes := by
  cases vs with
  | nil => simp
  | cons v vs =>
      cases vs with
      | nil => cases hv : v.toStr <;> simp [hv]
      | cons w vs =>
          have hlen (o : Option Bytes) : o.toList.length ≤ 1 := by cases o <;> simp
          refine iff_of_false (fun h => ?_) (by simp)
          have hle := hlen (((v :: w :: vs).getLast?).bind HeaderValue.toStr)
          rw [h] at hle
          simp at hle

/-- The header lines written for a request keep its end-to-end fields exactly
when none of these is repeated and all their values can be read as text. -/
theorem keepsFields_iff {cr : Crates} {env : Env} {rules : List IngressRule} {fuel : Nat}
    {req : Request RecvStream} {io : Io Unit}
    (h : handleProxyStream cr env rules fuel req = some io) (hne : written io.events ≠ []) :
    KeepsFields req.headers (written io.events) ↔ SingleReadable req.headers := by
  obtain ⟨rule, base, uri, rest, _, _, hw, _⟩ := written_handleProxyStream h hne
  rw [hw]
  rw [KeepsFields, SingleReadable]
  rw [headerLines_requestHead]
  constructor
  · rintro ⟨lines, hl, hkeep⟩ name hname
    obtain rfl := Option.some.inj hl
    have hk := hkeep name hname
    rw [fieldValues_of_not_exempt hname] at hk
    exact (last_readable_iff _).mp hk
  · intro hsingle
    refine ⟨_, rfl, fun name hname => ?_⟩
    rw [fieldValues_of_not_exempt hname]
    exact (last_readable_iff _).mpr (hsingle name hname)

def COOKIE : HeaderName := ⟨ascii "cookie", rfl, rfl⟩

def withCookies (cookies : List HeaderValue) : HttpTypes.Request RecvStream :=
  StandIns.post (.ofList (cookies.map (fun v => (COOKIE, v)))) ⟨[], .clean⟩

def firstCookie : HeaderValue := ⟨ascii "a=1", rfl⟩

def secondCookie : HeaderValue := ⟨ascii "b=2", rfl⟩

theorem keepsFields_iff_cookie :
    KeepsFields (withCookies [firstCookie]).headers (written (proxyTo StandIns.crates (StandIns.env [])
      (withCookies [firstCookie]) StandIns.localRule []).events) := by
  refine (@keepsFields_iff StandIns.crates (StandIns.env []) [StandIns.localRule] 1
    (withCookies [firstCookie]) _ rfl ?_).mpr ?_
  · decide +kernel
  · intro name _
    have hall : (withCookies [firstCookie]).headers.getAll name =
        if name = COOKIE then [firstCookie] else [] := by
      rw [withCookies, StandIns.post, MultiMap.getAll_ofList]
      by_cases h : name = COOKIE
      · subst h
        rfl
      · simp [valuesAt_cons, h, Ne.symm h]
    rw [hall]
    split
    next => exact ⟨by decide, by decide⟩
    next => exact ⟨by decide, by simp⟩

theorem cookies_not_kept :
    ∃ io, handleProxyStream StandIns.crates (StandIns.env []) [StandIns.localRule] 1
        (withCookies [firstCookie, secondCookie]) = some io ∧ written io.events ≠ [] ∧
      ¬ KeepsFields (withCookies [firstCookie, secondCookie]).headers (written io.events) := by
  let io := proxyTo StandIns.crates (StandIns.env []) (withCookies [firstCookie, secondCookie])
    StandIns.localRule []
  have hne : written io.events ≠ [] := by decide +kernel
  have hlines : (headerLines (written io.events)).map (fieldValues (ascii "cookie")) =
      some [ascii "b=2"] := by
    decide +kernel
  refine ⟨io, rfl, hne, ?_⟩
  rintro ⟨lines, hl, hkeep⟩
  rw [hl] at hlines
  have hcookie := hkeep COOKIE (by decide)
  exact absurd (hcookie.symm.trans (Option.some.inj hlines)) (by decide)

end MiniCloudflared.RequestFields

