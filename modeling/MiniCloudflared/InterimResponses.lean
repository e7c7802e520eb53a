import MiniCloudflared.ResponseFraming

namespace MiniCloudflared.InterimResponses

open Library Http1 HttpTypes ThirdParty Origin ResponseFraming

/-- A head of the class 1xx that announces that another one follows. -/
structure Interim where
  bytes : Bytes
  head : Head
  read : readHead bytes = some (head, [])
  informational : 100 ≤ head.code ∧ head.code < 200
  not_switching : head.code ≠ 101

def stream (interims : List Interim) (raw : Bytes) : Bytes := interims.flatMap Interim.bytes ++ raw

/-- The interim responses change nothing of what is returned. -/
def Skipped (cr : Crates) (interims : List Interim) (raw : Bytes) : Prop :=
  (parseHttp1Response cr (stream interims raw)).toOption = (parseHttp1Response cr raw).toOption

def Accepted (h : Head) : Prop := h.fields.length ≤ 64 ∧ NamesFit h

variable {cr : Crates}

theorem readHead_stream (i : Interim) (interims : List Interim) (raw : Bytes) :
    readHead (stream (i :: interims) raw) = some (i.head, stream interims raw) := by
  rw [stream, List.flatMap_cons, List.append_assoc]
  exact readHead_append i.read (stream interims raw)

theorem parse_accepted (hreads : ReadsHeads cr.httparse) {s rest : Bytes} {h : Head}
    (hh : readHead s = some (h, rest)) (hcode : 100 ≤ h.code) (ha : Accepted h) :
    ∃ resp, (parseHttp1Response cr s).toOption = some resp ∧ resp.status.code = h.code := by
  obtain ⟨hlt, hlegal⟩ := readHead_parts hh
  obtain ⟨resp, hr, hstatus, _, _⟩ := buildResponse_fit rest ⟨hcode, hlt⟩ hlegal ha.2
  exact ⟨resp, congrArg Except.toOption ((parse_head hreads hh ha.1).trans hr), hstatus⟩

theorem parse_not_accepted (hreads : ReadsHeads cr.httparse) (hbounds : BoundsHeaders cr.httparse)
    {s rest : Bytes} {h : Head} (hh : readHead s = some (h, rest)) (ha : ¬ Accepted h) :
    (parseHttp1Response cr s).toOption = none := by
  by_cases hroom : h.fields.length ≤ 64
  · have hlong : ¬ NamesFit h := fun hfit => ha ⟨hroom, hfit⟩
    exact congrArg Except.toOption ((parse_head hreads hh hroom).trans (buildResponse_long hlong))
  · obtain ⟨e, he⟩ := hbounds 64 s h rest hh (Nat.lt_of_not_le hroom)
    rw [parseHttp1Response, he]
    rfl

theorem parse_some (hreads : ReadsHeads cr.httparse) (hbounds : BoundsHeaders cr.httparse)
    {s rest : Bytes} {h : Head} (hh : readHead s = some (h, rest)) (hcode : 100 ≤ h.code)
    {resp : Response} (hr : (parseHttp1Response cr s).toOption = some resp) :
    Accepted h ∧ resp.status.code = h.code := by
  by_cases ha : Accepted h
  · obtain ⟨other, hother, hstatus⟩ := parse_accepted hreads hh hcode ha
    obtain rfl : resp = other := Option.some.inj (hr.symm.trans hother)
    exact ⟨ha, hstatus⟩
  · rw [parse_not_accepted hreads hbounds hh ha] at hr
    exact absurd hr (by simp)

/-- The first head is taken for that of the response, so that no interim
response is skipped. Nothing shows only where both heads are refused. -/
theorem skipped_iff (hreads : ReadsHeads cr.httparse) (hbounds : BoundsHeaders cr.httparse)
    (interims : List Interim) {raw : Bytes} (c : Complete raw) :
    Skipped cr interims raw ↔
      ∀ i, interims.head? = some i → ¬ Accepted i.head ∧ ¬ NamesFit c.head := by
  have hfinal : 100 ≤ c.head.code := Nat.le_trans (by decide) c.final
  cases interims with
  | nil => exact iff_of_true rfl (fun i hi => absurd hi (by simp))
  | cons i interims =>
      have hread := readHead_stream i interims raw
      rw [Skipped]
      constructor
      · intro h j hj
        obtain rfl : i = j := Option.some.inj hj
        have hi : ¬ Accepted i.head := by
          intro ha
          obtain ⟨resp, hr, hstatus⟩ := parse_accepted hreads hread i.informational.1 ha
          obtain ⟨_, hstatus'⟩ := parse_some hreads hbounds c.read hfinal (h.symm.trans hr)
          have hinterim := i.informational.2
          have hclass := c.final
          omega
        refine ⟨hi, fun hfit => ?_⟩
        obtain ⟨resp, hr, _⟩ := parse_accepted hreads c.read hfinal ⟨c.room, hfit⟩
        exact hi (parse_some hreads hbounds hread i.informational.1 (h.trans hr)).1
      · intro h
        obtain ⟨hi, hfit⟩ := h i rfl
        rw [parse_not_accepted hreads hbounds hread hi,
          parse_not_accepted hreads hbounds c.read (fun ha => hfit ha.2)]

def continueText : Bytes := ascii "HTTP/1.1 100 Continue\r\n\r\n"

def continueInterim : Interim where
  bytes := continueText
  head := ⟨100, []⟩
  read := by decide +kernel
  informational := by decide
  not_switching := by decide

theorem skipped_iff_continue :
    Skipped StandIns.crates [] lengthText ∧
      ¬ Skipped StandIns.crates [continueInterim, continueInterim] lengthText := by
  have hreads : ReadsHeads StandIns.crates.httparse := StandIns.httparse_readsHeads
  have hbounds : BoundsHeaders StandIns.crates.httparse := StandIns.httparse_boundsHeaders
  have hiff (interims : List Interim) := skipped_iff hreads hbounds interims lengthResponse
  have haccepted : Accepted continueInterim.head := by
    refine ⟨by decide, ?_⟩
    rw [NamesFit]
    decide
  constructor
  · exact (hiff []).mpr (fun i hi => absurd hi (by simp))
  · exact fun h => ((hiff _).mp h continueInterim rfl).1 haccepted

theorem continue_not_skipped :
    (parseHttp1Response StandIns.crates (stream [continueInterim] lengthText)).toOption.map
        (fun resp => (resp.status.code, resp.body)) = some (100, lengthText) ∧
      ¬ Skipped StandIns.crates [continueInterim] lengthText := by
  have hfirst : (parseHttp1Response StandIns.crates (stream [continueInterim] lengthText)).toOption.map
      (fun resp => (resp.status.code, resp.body)) = some (100, lengthText) := by
    decide +kernel
  have halone : (parseHttp1Response StandIns.crates lengthText).toOption.map
      (fun resp => (resp.status.code, resp.body)) = some (200, ascii "hello") := by
    decide +kernel
  refine ⟨hfirst, fun h => ?_⟩
  rw [Skipped] at h
  rw [h, halone] at hfirst
  exact absurd hfirst (by decide)

end MiniCloudflared.InterimResponses
