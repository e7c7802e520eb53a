import MiniCloudflared.H2Stream

namespace MiniCloudflared.EndOfStream

open Library HttpTypes RequestBody H2Stream

/-- A caller that polls with one buffer after the other and stops at the first
count of zero. -/
def readToEnd : H2Reader RecvStream → List Bytes → Option Bytes
  | _, [] => none
  | self, out :: outs =>
      let r := pollRead RecvStream.pollData self out
      match r.poll with
      | .pending => readToEnd r.reader outs
      | .ready (.error _) => none
      | .ready (.ok 0) => some []
      | .ready (.ok (_ + 1)) => (readToEnd r.reader outs).map (r.bytes ++ ·)

def NonEmpty (outs : List Bytes) : Prop := ∀ out, out ∈ outs → out ≠ []

/-- All that the stream carried has been taken and handed out, and the stream
has said that it is at its end. -/
structure AtEnd (stream : RecvStream) (s : Reading RecvStream) : Prop where
  taken : s.reader.recv.events = []
  handedOut : s.reader.buf = [] ∧ s.returned = stream.payload
  reported : RecvCall.pollData (.ready none) ∈ s.calls

structure ZeroMeansEnd (stream : RecvStream) : Prop where
  zero : ∀ outs out, NonEmpty outs → out ≠ [] →
    (pollRead RecvStream.pollData (readings RecvStream.pollData stream outs).reader out).poll =
      .ready (.ok 0) →
    AtEnd stream ((readings RecvStream.pollData stream outs).read RecvStream.pollData out)
  complete : ∃ n, ∀ outs, NonEmpty outs → n ≤ outs.length →
    readToEnd (.new stream) outs = some stream.payload

def NoEmptyChunk (es : List RecvEvent) : Prop := .data [] ∉ es

def remaining (r : H2Reader RecvStream) : Bytes := r.buf ++ r.recv.payload

/-- How many calls may still come before the end: one for each event and one
for each byte that waits in the buffer or in a chunk. -/
def callsLeft (r : H2Reader RecvStream) : Nat := r.recv.events.length + (remaining r).length

structure Plain (r : H2Reader RecvStream) : Prop where
  ending : r.recv.ending = .clean
  chunks : NoEmptyChunk r.recv.events

variable {r : H2Reader RecvStream} {out : Bytes}

theorem pollRead_remaining (r : H2Reader RecvStream) (out : Bytes) :
    (pollRead RecvStream.pollData r out).bytes ++ remaining (pollRead RecvStream.pollData r out).reader =
      remaining r := by
  have hpayload : (pollRead RecvStream.pollData r out).calls.flatMap chunkTaken ++
      (pollRead RecvStream.pollData r out).reader.recv.payload = r.recv.payload := by
    rw [pollRead]
    split
    next => rfl
    next =>
      rcases r with ⟨⟨es, ending⟩, buf⟩
      rcases es with _ | ⟨_ | chunk, es⟩
      · cases ending <;> rfl
      · rfl
      · simp [RecvStream.pollData, RecvStream.payload, chunkTaken, chunkOf]
  rw [remaining, remaining, ← List.append_assoc, pollRead_conserves, List.append_assoc, hpayload]

theorem min_length_pos {out data : Bytes} (hout : out ≠ []) (hdata : data ≠ []) :
    ∃ n, min out.length data.length = n + 1 := by
  have ho := List.length_pos_iff.mpr hout
  have hd := List.length_pos_iff.mpr hdata
  exact ⟨min out.length data.length - 1, by omega⟩

theorem pollRead_buffered {ρ : Type} (pollData : PollData ρ) {self : H2Reader ρ} (hbuf : self.buf ≠ [])
    (out : Bytes) :
    pollRead pollData self out =
      ⟨.ready (.ok (min out.length self.buf.length)),
        copyFromSlice out (self.buf.take (min out.length self.buf.length)),
        ⟨self.recv, self.buf.drop (min out.length self.buf.length)⟩, []⟩ := if_pos hbuf

/-- What a call does to a reader of a stream that ends cleanly and carries no
empty chunk: it waits, or it hands out some bytes, or it has come to the end. -/
theorem pollRead_cases (h : Plain r) (hout : out ≠ []) {res : ReadResult RecvStream}
    (hres : pollRead RecvStream.pollData r out = res) :
    Plain res.reader ∧
      ((res.poll = .pending ∧ callsLeft res.reader < callsLeft r) ∨
        (∃ n, res.poll = .ready (.ok (n + 1)) ∧ callsLeft res.reader < callsLeft r) ∨
        (res.poll = .ready (.ok 0) ∧ r.buf = [] ∧ r.recv.events = [] ∧ res.reader = r ∧
          res.calls = [.pollData (.ready none)])) := by
  have hrem : res.bytes.length + (remaining res.reader).length = (remaining r).length := by
    rw [← List.length_append, ← hres, pollRead_remaining]
  by_cases hbuf : r.buf = []
  · rcases r with ⟨⟨es, ending⟩, buf⟩
    obtain rfl : ending = .clean := h.ending
    obtain rfl : buf = [] := hbuf
    subst hres
    cases es with
    | nil => exact ⟨h, Or.inr (Or.inr ⟨rfl, rfl, rfl, rfl, rfl⟩)⟩
    | cons e es =>
        have htail : NoEmptyChunk es := fun hm => h.chunks (List.mem_cons_of_mem e hm)
        cases e with
        | pending =>
            refine ⟨⟨rfl, htail⟩, Or.inl ⟨rfl, ?_⟩⟩
            have hes : (pollRead RecvStream.pollData ⟨⟨.pending :: es, .clean⟩, []⟩ out).reader.recv.events =
              es := rfl
            simp only [callsLeft, hes, List.length_cons]
            omega
        | data chunk =>
            have hchunk : chunk ≠ [] := fun he => h.chunks (by rw [he]; exact List.mem_cons_self)
            obtain ⟨n, hn⟩ := min_length_pos hout hchunk
            refine ⟨⟨rfl, htail⟩, Or.inr (Or.inl ⟨n, ?_, ?_⟩)⟩
            · exact congrArg (fun k => Poll.ready (Except.ok k)) hn
            · have hes : (pollRead RecvStream.pollData ⟨⟨.data chunk :: es, .clean⟩, []⟩ out).reader.recv.events =
                es := rfl
              simp only [callsLeft, hes, List.length_cons]
              omega
  · obtain ⟨n, hn⟩ := min_length_pos hout hbuf
    rw [pollRead_buffered _ hbuf, hn] at hres
    subst hres
    refine ⟨⟨h.ending, h.chunks⟩, Or.inr (Or.inl ⟨n, rfl, ?_⟩)⟩
    have hlen : (r.buf.take (n + 1)).length = n + 1 := by
      rw [List.length_take]
      omega
    simp only [ReadResult.bytes, copyFromSlice, List.take_left' hlen, hlen] at hrem
    simp only [callsLeft]
    omega

theorem nonEmpty_cons {outs : List Bytes} (h : NonEmpty (out :: outs)) : out ≠ [] ∧ NonEmpty outs :=
  ⟨h out List.mem_cons_self, fun o ho => h o (List.mem_cons_of_mem out ho)⟩

theorem readToEnd_plain (h : Plain r) {outs : List Bytes} (houts : NonEmpty outs)
    (hcalls : callsLeft r < outs.length) : readToEnd r outs = some (remaining r) := by
  induction outs generalizing r with
  | nil => exact absurd hcalls (Nat.not_lt_zero _)
  | cons out outs ih =>
      obtain ⟨hout, houts⟩ := nonEmpty_cons houts
      obtain ⟨hplain, hcases⟩ := pollRead_cases h hout rfl
      have hrem := pollRead_remaining r out
      rw [List.length_cons] at hcalls
      rw [readToEnd]
      rcases hcases with ⟨hpoll, hleft⟩ | ⟨n, hpoll, hleft⟩ | ⟨hpoll, hbuf, hes, _, _⟩
      · have hbytes : (pollRead RecvStream.pollData r out).bytes = [] := by
          rw [ReadResult.bytes, hpoll]
        rw [hbytes, List.nil_append] at hrem
        simp only [hpoll]
        rw [ih hplain houts (by omega), hrem]
      · simp only [hpoll]
        rw [ih hplain houts (by omega), Option.map_some, hrem]
      · simp only [hpoll]
        simp [remaining, RecvStream.payload, hbuf, hes]

structure Underway (stream : RecvStream) (s : Reading RecvStream) : Prop where
  plain : Plain s.reader
  parts : s.returned ++ remaining s.reader = stream.payload

theorem Underway.read {stream : RecvStream} {s : Reading RecvStream} (h : Underway stream s)
    (hout : out ≠ []) : Underway stream (s.read RecvStream.pollData out) := by
  refine ⟨(pollRead_cases h.plain hout rfl).1, ?_⟩
  rw [← h.parts, ← pollRead_remaining s.reader out, ← List.append_assoc]
  rfl

theorem underway_readings {stream : RecvStream} (hend : stream.ending = .clean)
    (hchunks : NoEmptyChunk stream.events) {outs : List Bytes} (houts : NonEmpty outs) :
    Underway stream (readings RecvStream.pollData stream outs) := by
  have hrun (s : Reading RecvStream) (hs : Underway stream s) :
      Underway stream (outs.foldl (Reading.read RecvStream.pollData) s) := by
    induction outs generalizing s with
    | nil => exact hs
    | cons out outs ih => exact ih (nonEmpty_cons houts).2 _ (hs.read (nonEmpty_cons houts).1)
  exact hrun _ ⟨⟨hend, hchunks⟩, rfl⟩

theorem Underway.atEnd {stream : RecvStream} {s : Reading RecvStream} (h : Underway stream s)
    (hout : out ≠ []) (hzero : (pollRead RecvStream.pollData s.reader out).poll = .ready (.ok 0)) :
    AtEnd stream (s.read RecvStream.pollData out) := by
  obtain ⟨_, ⟨hpoll, _⟩ | ⟨n, hpoll, _⟩ | ⟨_, hbuf, hes, hreader, hcalls⟩⟩ := pollRead_cases h.plain hout rfl
  · exact nomatch hpoll.symm.trans hzero
  · exact nomatch hpoll.symm.trans hzero
  · have hparts := (h.read hout).parts
    have hrem : remaining (pollRead RecvStream.pollData s.reader out).reader = [] := by
      rw [hreader, remaining, RecvStream.payload, hbuf, hes]
      rfl
    refine ⟨?_, ⟨?_, ?_⟩, ?_⟩
    · simp [Reading.read, hreader, hes]
    · simp [Reading.read, hreader, hbuf]
    · rw [← hparts]
      simp [Reading.read, hrem]
    · simp [Reading.read, hcalls]

theorem zeroMeansEnd_of_noEmptyChunk {stream : RecvStream} (hend : stream.ending = .clean)
    (hchunks : NoEmptyChunk stream.events) : ZeroMeansEnd stream where
  zero _ _ houts hout hzero := (underway_readings hend hchunks houts).atEnd hout hzero
  complete :=
    ⟨callsLeft (.new stream) + 1, fun _ houts hlen => readToEnd_plain ⟨hend, hchunks⟩ houts hlen⟩

theorem readings_concat (stream : RecvStream) (outs : List Bytes) (out : Bytes) :
    readings RecvStream.pollData stream (outs ++ [out]) =
      (readings RecvStream.pollData stream outs).read RecvStream.pollData out := by
  simp [readings]

theorem readings_reach (stream : RecvStream) {pre rest : List RecvEvent}
    (hes : stream.events = pre ++ rest) :
    ∃ outs, NonEmpty outs ∧ (readings RecvStream.pollData stream outs).reader = ⟨⟨rest, stream.ending⟩, []⟩ := by
  induction pre using List.reverseRecOn generalizing rest with
  | nil =>
      rcases stream with ⟨es, ending⟩
      obtain rfl : es = rest := hes
      exact ⟨[], fun out h => absurd h List.not_mem_nil, rfl⟩
  | append_singleton pre e ih =>
      rw [List.append_assoc] at hes
      obtain ⟨outs, houts, hreader⟩ := ih hes
      refine ⟨outs ++ [0 :: chunkOf e], ?_, ?_⟩
      · intro out hm
        rcases List.mem_append.mp hm with hm | hm
        · exact houts out hm
        · rw [List.mem_singleton.mp hm]
          exact List.cons_ne_nil _ _
      · rw [readings_concat, Reading.read, hreader]
        cases e with
        | pending => rfl
        | data chunk =>
            simp [pollRead, RecvStream.pollData, chunkOf]

theorem used_up_of_reported {stream : RecvStream} (outs : List Bytes)
    (h : RecvCall.pollData (.ready none) ∈ (readings RecvStream.pollData stream outs).calls) :
    (readings RecvStream.pollData stream outs).reader.recv.events = [] := by
  induction outs using List.reverseRecOn with
  | nil => exact absurd h List.not_mem_nil
  | append_singleton outs out ih =>
      rw [readings_concat] at h ⊢
      generalize readings RecvStream.pollData stream outs = s at h ih ⊢
      rcases s with ⟨⟨⟨es, ending⟩, buf⟩, returned, calls⟩
      by_cases hbuf : buf = []
      · subst hbuf
        rcases es with _ | ⟨_ | chunk, es⟩
        · cases ending <;> rfl
        · simp [Reading.read, pollRead, RecvStream.pollData] at h
          exact absurd (ih h) (List.cons_ne_nil _ _)
        · simp [Reading.read, pollRead, RecvStream.pollData] at h
          exact absurd (ih h) (List.cons_ne_nil _ _)
      · rw [Reading.read, pollRead_buffered _ hbuf] at h ⊢
        rw [List.append_nil] at h
        exact ih h

/-- A reader signals the end at the end only, on every sequence of calls, if
and only if no chunk of the stream is empty. -/
theorem zeroMeansEnd_iff (events : List RecvEvent) :
    ZeroMeansEnd ⟨events, .clean⟩ ↔ NoEmptyChunk events := by
  constructor
  · intro h hmem
    obtain ⟨pre, rest, rfl⟩ := List.append_of_mem hmem
    let stream : RecvStream := ⟨pre ++ .data [] :: rest, .clean⟩
    obtain ⟨outs, houts, hreader⟩ := readings_reach stream rfl
    have hend := h.zero outs [0] houts (List.cons_ne_nil _ _) (by rw [hreader]; rfl)
    have hreported := hend.reported
    rw [Reading.read, hreader] at hreported
    have hbefore : RecvCall.pollData (.ready none) ∈ (readings RecvStream.pollData stream outs).calls := by
      simpa [pollRead, RecvStream.pollData] using hreported
    have hused := used_up_of_reported outs hbefore
    rw [hreader] at hused
    exact absurd hused (List.cons_ne_nil _ _)
  · exact fun h => zeroMeansEnd_of_noEmptyChunk rfl h

def interrupted : RecvStream := ⟨[.data (ascii "he"), .data [], .data (ascii "llo")], .clean⟩

/-- A reader that stops at the first count of zero loses what follows an empty
frame. -/
theorem interrupted_cut_short :
    readToEnd (.new interrupted) (List.replicate 8 (List.replicate 8 0)) = some (ascii "he") ∧
    interrupted.payload = ascii "hello" ∧ ¬ ZeroMeansEnd interrupted := by
  refine ⟨by decide, by decide, ?_⟩
  intro h
  have houts : NonEmpty [List.replicate 8 0] :=
    fun out ho => List.mem_singleton.mp ho ▸ List.cons_ne_nil _ _
  have hend := h.zero [List.replicate 8 0] [0] houts (List.cons_ne_nil _ _) rfl
  exact nomatch hend.taken

end MiniCloudflared.EndOfStream
