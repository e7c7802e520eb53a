import MiniCloudflared.EndOfStream

namespace MiniCloudflared.H2Pipe

open Library HttpTypes RequestBody H2Stream EndOfStream

/-- The send half of a stream as the `h2` crate keeps it: what its calls do, the
frames that it has been given so far, each with its flag for the end of the
stream, and what holds of them. -/
structure SendHalf (σ : Type) where
  new : σ
  sendData : σ → Bytes → Bool → Except Error Unit × σ
  reset : σ → Error → σ
  sent : σ → List (Bytes × Bool)
  sent_new : sent new = []
  taken : ∀ s data last, (sendData s data last).1 = .ok () → sent (sendData s data last).2 = sent s ++ [(data, last)]
  refused : ∀ s data last e, (sendData s data last).1 = .error e → sent (sendData s data last).2 = sent s
  ended : ∀ s data, (data, true) ∈ sent s → ∀ more last, ∃ e, (sendData s more last).1 = .error e
  sent_reset : ∀ s e, sent (reset s e) = sent s

structure H2Writer (σ : Type) where
  send : σ

variable {σ : Type}

def pollWrite (h2 : SendHalf σ) (self : H2Writer σ) (buf : Bytes) : Poll (Except Error Nat) × H2Writer σ :=
  match h2.sendData self.send buf false with
  | (.ok (), send) => (.ready (.ok buf.length), ⟨send⟩)
  | (.error _, send) => (.ready (.error .io), ⟨send⟩)

def pollFlush (self : H2Writer σ) : Poll (Except Error Unit) × H2Writer σ := (.ready (.ok ()), self)

def pollClose (h2 : SendHalf σ) (self : H2Writer σ) : Poll (Except Error Unit) × H2Writer σ :=
  (.ready (.ok ()), ⟨(h2.sendData self.send [] true).2⟩)

def writeAll (h2 : SendHalf σ) : Nat → H2Writer σ → Bytes → Except Error Unit × H2Writer σ
  | _, self, [] => (.ok (), self)
  | 0, self, _ => (.error .io, self)
  | fuel + 1, self, buf =>
      match pollWrite h2 self buf with
      | (.ready (.ok n), self) => writeAll h2 fuel self (buf.drop n)
      | (.ready (.error e), self) => (.error e, self)
      | (.pending, self) => (.error .io, self)

inductive Call
  | write (buf : Bytes)
  | writeAll (buf : Bytes)
  | flush
  | close
  | reset (e : Error)

structure Writing (σ : Type) where
  writer : H2Writer σ
  accepted : List Bytes

def acceptedBy (buf : Bytes) : Poll (Except Error Nat) → List Bytes
  | .ready (.ok n) => [buf.take n]
  | _ => []

def Writing.call (h2 : SendHalf σ) (w : Writing σ) : Call → Writing σ
  | .write buf =>
      let r := pollWrite h2 w.writer buf
      ⟨r.2, w.accepted ++ acceptedBy buf r.1⟩
  | .writeAll buf =>
      let r := H2Pipe.writeAll h2 buf.length w.writer buf
      ⟨r.2, w.accepted ++ (if buf ≠ [] ∧ r.1 = .ok () then [buf] else [])⟩
  | .flush => ⟨(pollFlush w.writer).2, w.accepted⟩
  | .close => ⟨(pollClose h2 w.writer).2, w.accepted⟩
  | .reset e => ⟨⟨h2.reset w.writer.send e⟩, w.accepted⟩

def writings (h2 : SendHalf σ) (calls : List Call) : Writing σ := calls.foldl (Writing.call h2) ⟨⟨h2.new⟩, []⟩

def Writing.sent (h2 : SendHalf σ) (w : Writing σ) : List (Bytes × Bool) := h2.sent w.writer.send

/-- The frames go through the connection in their order. There may be waits
between them, and a frame is cut up where it does not fit. The empty frame
that ends the stream may be seen as a chunk or not at all. -/
inductive Carried : List (Bytes × Bool) → List RecvEvent → Prop
  | done : Carried [] []
  | pending {frames : List (Bytes × Bool)} {es : List RecvEvent} : Carried frames es → Carried frames (.pending :: es)
  | frame {frames : List (Bytes × Bool)} {es : List RecvEvent} (data : Bytes) (last : Bool) :
      Carried frames es → Carried ((data, last) :: frames) (.data data :: es)
  | cut {frames : List (Bytes × Bool)} {es : List RecvEvent} {head rest : Bytes} {last : Bool} (hhead : head ≠ [])
      (hrest : rest ≠ []) :
      Carried ((rest, last) :: frames) es → Carried ((head ++ rest, last) :: frames) (.data head :: es)
  | ending {es : List RecvEvent} : Carried [] es → Carried [([], true)] es

variable {h2 : SendHalf σ} {w w' : Writing σ} {frames : List (Bytes × Bool)} {es : List RecvEvent}

def Call.isEmptyWrite : Call → Bool
  | .write [] => true
  | _ => false

inductive Called (h2 : SendHalf σ) (c : Call) (w w' : Writing σ) : Prop
  | nothing (haccepted : w'.accepted = w.accepted) (hsent : w'.sent h2 = w.sent h2)
  | took (buf : Bytes) (hbuf : buf = [] → c.isEmptyWrite = true) (hopen : ∀ data, (data, true) ∉ w.sent h2)
      (haccepted : w'.accepted = w.accepted ++ [buf]) (hsent : w'.sent h2 = w.sent h2 ++ [(buf, false)])
  | closed (hopen : ∀ data, (data, true) ∉ w.sent h2) (haccepted : w'.accepted = w.accepted)
      (hsent : w'.sent h2 = w.sent h2 ++ [([], true)])

theorem not_ended {s : σ} {data : Bytes} {last : Bool} (h : (h2.sendData s data last).1 = .ok ()) (more : Bytes) :
    (more, true) ∉ h2.sent s := by
  intro hm
  obtain ⟨e, he⟩ := h2.ended s more hm data last
  exact absurd (h.symm.trans he) (by simp)

theorem pollWrite_cases (h2 : SendHalf σ) (self : H2Writer σ) (buf : Bytes) :
    (∃ send, pollWrite h2 self buf = (.ready (.error .io), ⟨send⟩) ∧ h2.sent send = h2.sent self.send) ∨
      ∃ send, pollWrite h2 self buf = (.ready (.ok buf.length), ⟨send⟩) ∧
        h2.sent send = h2.sent self.send ++ [(buf, false)] ∧ ∀ data, (data, true) ∉ h2.sent self.send := by
  rw [pollWrite]
  rcases hsend : h2.sendData self.send buf false with ⟨_ | _, send⟩
  next e =>
    have hkept := h2.refused self.send buf false e (by rw [hsend])
    rw [hsend] at hkept
    exact .inl ⟨send, rfl, hkept⟩
  next =>
    have hok : (h2.sendData self.send buf false).1 = .ok () := by rw [hsend]
    have hadded := h2.taken self.send buf false hok
    rw [hsend] at hadded
    exact .inr ⟨send, rfl, hadded, not_ended hok⟩

theorem writeAll_nil (fuel : Nat) (self : H2Writer σ) : writeAll h2 fuel self [] = (.ok (), self) := by
  cases fuel <;> rfl

theorem writeAll_cases (h2 : SendHalf σ) (self : H2Writer σ) {buf : Bytes} (hbuf : buf ≠ []) :
    (∃ send, writeAll h2 buf.length self buf = (.error .io, ⟨send⟩) ∧ h2.sent send = h2.sent self.send) ∨
      ∃ send, writeAll h2 buf.length self buf = (.ok (), ⟨send⟩) ∧
        h2.sent send = h2.sent self.send ++ [(buf, false)] ∧ ∀ data, (data, true) ∉ h2.sent self.send := by
  cases buf with
  | nil => exact absurd rfl hbuf
  | cons b buf =>
      rw [List.length_cons, writeAll]
      · rcases pollWrite_cases h2 self (b :: buf) with ⟨send, hwrite, hsent⟩ | ⟨send, hwrite, hsent⟩
        · rw [hwrite]
          exact .inl ⟨send, rfl, hsent⟩
        · rw [hwrite]
          refine .inr ⟨send, ?_, hsent⟩
          simp only [List.drop_length, writeAll_nil]
      · exact fun h => absurd h (List.cons_ne_nil _ _)

theorem called (h2 : SendHalf σ) (w : Writing σ) (c : Call) : Called h2 c w (w.call h2 c) := by
  cases c with
  | write buf =>
      rcases pollWrite_cases h2 w.writer buf with ⟨send, hwrite, hsent⟩ | ⟨send, hwrite, hsent, hopen⟩
      · refine .nothing ?_ ?_ <;> simp only [Writing.call, Writing.sent, hwrite, hsent, acceptedBy, List.append_nil]
      · refine .took buf (fun hbuf => by rw [hbuf]; rfl) hopen ?_ ?_
        all_goals simp only [Writing.call, Writing.sent, hwrite, hsent, acceptedBy, List.take_length]
  | writeAll buf =>
      by_cases hbuf : buf = []
      · refine .nothing ?_ ?_ <;> simp [Writing.call, Writing.sent, hbuf, writeAll_nil]
      · rcases writeAll_cases h2 w.writer hbuf with ⟨send, hwrite, hsent⟩ | ⟨send, hwrite, hsent, hopen⟩
        · refine .nothing ?_ ?_ <;> simp [Writing.call, Writing.sent, hwrite, hsent]
        · refine .took buf (fun he => absurd he hbuf) hopen ?_ ?_
          all_goals simp [Writing.call, Writing.sent, hwrite, hsent, hbuf]
  | flush => exact .nothing rfl rfl
  | close =>
      rcases hsend : h2.sendData w.writer.send [] true with ⟨_ | _, send⟩
      next e => exact .nothing rfl (h2.refused w.writer.send [] true e (by rw [hsend]))
      next =>
        have hok : (h2.sendData w.writer.send [] true).1 = .ok () := by rw [hsend]
        exact .closed (not_ended hok) rfl (h2.taken w.writer.send [] true hok)
  | reset e => exact .nothing rfl (h2.sent_reset w.writer.send e)

/-- What was sent are the buffers that were taken, each in a frame of its own,
and then the end of the stream if the writer was closed in time. -/
inductive Kept (h2 : SendHalf σ) (w : Writing σ) : Prop
  | running (hsent : w.sent h2 = w.accepted.map fun buf => (buf, false))
  | ended (hsent : w.sent h2 = (w.accepted.map fun buf => (buf, false)) ++ [([], true)])

theorem Kept.called (h : Kept h2 w) {c : Call} (hc : Called h2 c w w') : Kept h2 w' := by
  have hrunning (hopen : ∀ data, (data, true) ∉ w.sent h2) : w.sent h2 = w.accepted.map fun buf => (buf, false) := by
    cases h with
    | running hsent => exact hsent
    | ended hsent => exact absurd (hsent ▸ List.mem_append_right _ List.mem_cons_self) (hopen [])
  cases hc with
  | nothing haccepted hsent =>
      cases h with
      | running hold => exact .running (by rw [hsent, haccepted, hold])
      | ended hold => exact .ended (by rw [hsent, haccepted, hold])
  | took buf _ hopen haccepted hsent =>
      refine .running ?_
      rw [hsent, haccepted, hrunning hopen, List.map_append]
      rfl
  | closed hopen haccepted hsent => exact .ended (by rw [hsent, haccepted, hrunning hopen])

theorem writings_concat (h2 : SendHalf σ) (calls : List Call) (c : Call) :
    writings h2 (calls ++ [c]) = (writings h2 calls).call h2 c := by
  rw [writings, writings, List.foldl_append]
  rfl

theorem kept_writings (h2 : SendHalf σ) (calls : List Call) : Kept h2 (writings h2 calls) := by
  induction calls using List.reverseRecOn with
  | nil => exact .running h2.sent_new
  | append_singleton calls c ih =>
      rw [writings_concat]
      exact ih.called (called h2 _ c)

/-- Where a frame is cut, and whether its end is seen, makes no difference to
the bytes. -/
theorem Carried.payload (h : Carried frames es) : es.flatMap chunkOf = (frames.map Prod.fst).flatten := by
  induction h with
  | done => rfl
  | pending _ ih => exact ih
  | frame data last _ ih => rw [List.flatMap_cons, ih, List.map_cons, List.flatten_cons]; rfl
  | cut _ _ _ ih =>
      rw [List.flatMap_cons, ih, List.map_cons, List.map_cons, List.flatten_cons, List.flatten_cons, List.append_assoc]
      rfl
  | ending _ ih => exact ih

def Split (bufs : List Bytes) (es : List RecvEvent) : Prop :=
  ∃ pre stop, es = pre ++ stop ∧ NoEmptyChunk pre ∧
    pre.flatMap chunkOf = (bufs.takeWhile (· != [])).flatten ∧ (stop = [] ∨ ∃ post, stop = .data [] :: post)

theorem Split.cons {bufs bufs' : List Bytes} (h : Split bufs es) {e : RecvEvent} (he : e ≠ .data [])
    (hbytes : (bufs'.takeWhile (· != [])).flatten = chunkOf e ++ (bufs.takeWhile (· != [])).flatten) :
    Split bufs' (e :: es) := by
  obtain ⟨pre, stop, rfl, hpre, hpayload, hstop⟩ := h
  refine ⟨e :: pre, stop, rfl, fun hm => ?_, ?_, hstop⟩
  · rcases List.mem_cons.mp hm with hm | hm
    · exact he hm.symm
    · exact hpre hm
  · rw [List.flatMap_cons, hpayload, hbytes]

theorem Carried.split (h : Carried frames es) : Split (frames.map Prod.fst) es := by
  induction h with
  | done => exact ⟨[], [], rfl, List.not_mem_nil, rfl, Or.inl rfl⟩
  | pending _ ih => exact ih.cons (by simp) rfl
  | frame data last _ ih =>
      by_cases hdata : data = []
      · subst hdata
        exact ⟨[], _, rfl, List.not_mem_nil, rfl, Or.inr ⟨_, rfl⟩⟩
      · refine ih.cons (by simpa using hdata) ?_
        rw [List.map_cons, List.takeWhile_cons_of_pos (by simpa using hdata), List.flatten_cons]
        rfl
  | cut hhead hrest _ ih =>
      refine ih.cons (by simpa using hhead) ?_
      rw [List.map_cons, List.map_cons, List.takeWhile_cons_of_pos (by simpa using fun h _ => hhead h),
        List.takeWhile_cons_of_pos (by simpa using hrest), List.flatten_cons, List.flatten_cons, List.append_assoc]
      rfl
  | ending _ ih => exact ih

theorem readToEnd_some {r r' : H2Reader RecvStream} {n : Nat} {data out : Bytes} {calls : List RecvCall}
    (hread : pollRead RecvStream.pollData r out =
      ⟨.ready (.ok (n + 1)), copyFromSlice out (data.take (n + 1)), r', calls⟩)
    (hn : n + 1 ≤ data.length) (outs : List Bytes) :
    readToEnd r (out :: outs) = (readToEnd r' outs).map (data.take (n + 1) ++ ·) := by
  have hlen : (data.take (n + 1)).length = n + 1 := by
    rw [List.length_take]
    omega
  rw [readToEnd]
  simp only [hread, ReadResult.bytes, copyFromSlice, List.take_left' hlen, hlen]

/-- A reader gets what stands before the first empty chunk, or all of a stream
without one that ends cleanly, and then a count of zero. -/
theorem readToEnd_stops {pre stop : List RecvEvent} {ending : Ending} (hpre : NoEmptyChunk pre)
    (hstop : stop = [] ∧ ending = .clean ∨ ∃ post, stop = .data [] :: post) {buf : Bytes} {outs : List Bytes}
    (houts : NonEmpty outs) (hcalls : pre.length + (buf ++ pre.flatMap chunkOf).length < outs.length) :
    readToEnd ⟨⟨pre ++ stop, ending⟩, buf⟩ outs = some (buf ++ pre.flatMap chunkOf) := by
  induction outs generalizing pre buf with
  | nil => exact absurd hcalls (Nat.not_lt_zero _)
  | cons out outs ih =>
      obtain ⟨hout, houts⟩ := nonEmpty_cons houts
      rw [List.length_cons] at hcalls
      by_cases hbuf : buf = []
      · subst hbuf
        cases pre with
        | nil =>
            rcases hstop with ⟨rfl, rfl⟩ | ⟨post, rfl⟩
            · rfl
            · simp [readToEnd, pollRead, RecvStream.pollData]
        | cons e pre =>
            have htail : NoEmptyChunk pre := fun hm => hpre (List.mem_cons_of_mem e hm)
            cases e with
            | pending =>
                have hleft : pre.length + ([] ++ pre.flatMap chunkOf).length < outs.length := by
                  simp only [List.length_cons, List.flatMap_cons, chunkOf, List.nil_append] at hcalls ⊢
                  omega
                exact ih htail houts hleft
            | data chunk =>
                have hchunk : chunk ≠ [] := fun he => hpre (by rw [he]; exact List.mem_cons_self)
                obtain ⟨n, hn⟩ := min_length_pos hout hchunk
                have hrest : (if n + 1 < chunk.length then [] ++ chunk.drop (n + 1) else []) = chunk.drop (n + 1) := by
                  split
                  next => rfl
                  next hle => exact (List.drop_eq_nil_of_le (by omega)).symm
                have hread : pollRead RecvStream.pollData ⟨⟨.data chunk :: pre ++ stop, ending⟩, []⟩ out =
                    ⟨.ready (.ok (n + 1)), copyFromSlice out (chunk.take (n + 1)),
                      ⟨⟨pre ++ stop, ending⟩, chunk.drop (n + 1)⟩,
                      [.pollData (.ready (some (.ok chunk))), .releaseCapacity chunk.length]⟩ := by
                  rw [← hrest, ← hn]
                  rfl
                have hall : chunk.take (n + 1) ++ (chunk.drop (n + 1) ++ pre.flatMap chunkOf) =
                    (RecvEvent.data chunk :: pre).flatMap chunkOf := by
                  rw [← List.append_assoc, List.take_append_drop]
                  rfl
                rw [readToEnd_some hread (by omega), ih htail houts ?_, Option.map_some, List.nil_append, hall]
                rw [List.nil_append, ← hall, List.length_append, List.length_take, List.length_cons] at hcalls
                omega
      · obtain ⟨n, hn⟩ := min_length_pos hout hbuf
        have hread : pollRead RecvStream.pollData ⟨⟨pre ++ stop, ending⟩, buf⟩ out =
            ⟨.ready (.ok (n + 1)), copyFromSlice out (buf.take (n + 1)), ⟨⟨pre ++ stop, ending⟩, buf.drop (n + 1)⟩,
              []⟩ := by
          rw [pollRead_buffered _ hbuf, hn]
        rw [readToEnd_some hread (by omega), ih hpre houts ?_, Option.map_some, ← List.append_assoc,
          List.take_append_drop]
        rw [List.length_append] at hcalls ⊢
        rw [List.length_drop]
        omega

theorem returned_first (stream : RecvStream) (outs : List Bytes) :
    (readings RecvStream.pollData stream outs).returned <+: stream.payload := by
  have hparts : (readings RecvStream.pollData stream outs).returned ++
      remaining (readings RecvStream.pollData stream outs).reader = stream.payload := by
    induction outs using List.reverseRecOn with
    | nil => rfl
    | append_singleton outs out ih =>
        rw [readings_concat, ← ih, ← pollRead_remaining (readings RecvStream.pollData stream outs).reader out,
          ← List.append_assoc]
        rfl
  exact ⟨_, hparts⟩

theorem Kept.bytes (h : Kept h2 w) : ((w.sent h2).map Prod.fst).flatten = w.accepted.flatten ∧
    (((w.sent h2).map Prod.fst).takeWhile (· != [])).flatten = (w.accepted.takeWhile (· != [])).flatten := by
  have hmap : (w.accepted.map fun buf => (buf, false)).map Prod.fst = w.accepted := by
    rw [List.map_map]
    exact List.map_id _
  cases h with
  | running hsent => rw [hsent, hmap]; exact ⟨rfl, rfl⟩
  | ended hsent =>
      rw [hsent, List.map_append, hmap]
      refine ⟨by simp, ?_⟩
      rw [List.takeWhile_append]
      split
      next hlen =>
        rw [(List.takeWhile_prefix _).eq_of_length hlen]
        simp
      next => rfl

theorem accepted_ne_nil (h2 : SendHalf σ) {calls : List Call} (h : ∀ c, c ∈ calls → c.isEmptyWrite = false) :
    ∀ buf, buf ∈ (writings h2 calls).accepted → buf ≠ [] := by
  induction calls using List.reverseRecOn with
  | nil => exact fun buf hbuf => absurd hbuf List.not_mem_nil
  | append_singleton calls c ih =>
      have hold := ih fun c hc => h c (List.mem_append_left _ hc)
      have hc := h c (List.mem_append_right _ List.mem_cons_self)
      rw [writings_concat]
      cases called h2 (writings h2 calls) c with
      | nothing haccepted | closed _ haccepted => rwa [haccepted]
      | took taken htaken _ haccepted =>
          rw [haccepted]
          intro buf hbuf
          rcases List.mem_append.mp hbuf with hbuf | hbuf
          · exact hold buf hbuf
          · rw [List.mem_singleton.mp hbuf]
            exact fun hnil => absurd (hc.symm.trans (htaken hnil)) Bool.false_ne_true

/-- A wrapped stream is a pipe. Whatever becomes of it, a reader gets a first
part of what the writer has taken. If the stream ends in good order, the
reader gets all of it up to the first empty buffer, which it takes for the
end. No such buffer comes from `write_all`, so that nothing is missing then. -/
theorem pipe_delivers (h2 : SendHalf σ) (calls : List Call) {es : List RecvEvent}
    (h : Carried ((writings h2 calls).sent h2) es) :
    (∀ pre ending outs, pre <+: es →
      (readings RecvStream.pollData ⟨pre, ending⟩ outs).returned <+: (writings h2 calls).accepted.flatten) ∧
    (∃ n, ∀ outs, NonEmpty outs → n ≤ outs.length →
      readToEnd (.new ⟨es, .clean⟩) outs = some ((writings h2 calls).accepted.takeWhile (· != [])).flatten) ∧
    ((∀ c, c ∈ calls → c.isEmptyWrite = false) → ∃ n, ∀ outs, NonEmpty outs → n ≤ outs.length →
      readToEnd (.new ⟨es, .clean⟩) outs = some (writings h2 calls).accepted.flatten) := by
  obtain ⟨hall, hfirst⟩ := (kept_writings h2 calls).bytes
  obtain ⟨pre, stop, rfl, hpre, hpayload, hstop⟩ := h.split
  have hread : ∃ n, ∀ outs, NonEmpty outs → n ≤ outs.length → readToEnd (.new ⟨pre ++ stop, .clean⟩) outs =
      some ((writings h2 calls).accepted.takeWhile (· != [])).flatten := by
    refine ⟨pre.length + (pre.flatMap chunkOf).length + 1, fun outs houts hlen => ?_⟩
    rw [← hfirst, ← hpayload]
    exact readToEnd_stops hpre (hstop.imp_left fun he => ⟨he, rfl⟩) houts (by rw [List.nil_append]; omega)
  refine ⟨fun part ending outs hpart => ?_, hread, fun hcalls => ?_⟩
  · obtain ⟨rest, hrest⟩ := hpart
    refine (returned_first ⟨part, ending⟩ outs).trans ⟨rest.flatMap chunkOf, ?_⟩
    rw [← hall, ← h.payload, ← hrest, List.flatMap_append]
    rfl
  · have hne : (writings h2 calls).accepted.takeWhile (· != []) = (writings h2 calls).accepted := by
      refine List.takeWhile_eq_self_iff.mpr fun buf hbuf => ?_
      simpa using accepted_ne_nil h2 hcalls buf hbuf
    rwa [hne] at hread

def greeting : List Call := [.writeAll (ascii "he"), .flush, .writeAll [], .write (ascii "llo"), .close]

def greetingCarried : List RecvEvent :=
  [.data (ascii "h"), .pending, .data (ascii "e"), .data (ascii "llo"), .data []]

/-- A queue of frames that takes nothing after the end of the stream or a reset. -/
structure Queue where
  frames : List (Bytes × Bool)
  refused : Option Error
  closed : ∀ data, (data, true) ∈ frames → refused ≠ none

def Queue.push (s : Queue) (hopen : s.refused = none) (data : Bytes) (last : Bool) : Queue where
  frames := s.frames ++ [(data, last)]
  refused := if last then some .h2 else none
  closed more hm := by
    rcases List.mem_append.mp hm with hm | hm
    · exact absurd hopen (s.closed more hm)
    · obtain ⟨-, rfl⟩ := Prod.mk.inj (List.mem_singleton.mp hm)
      exact Option.some_ne_none _

def Queue.sendData (s : Queue) (data : Bytes) (last : Bool) : Except Error Unit × Queue :=
  match hs : s.refused with
  | some e => (.error e, s)
  | none => (.ok (), s.push hs data last)

theorem Queue.sendData_cases (s : Queue) (data : Bytes) (last : Bool) :
    (∃ e, s.refused = some e ∧ s.sendData data last = (.error e, s)) ∨
      ∃ h, s.sendData data last = (.ok (), s.push h data last) := by
  rw [Queue.sendData]
  split
  next e hs => exact .inl ⟨e, hs, rfl⟩
  next hs => exact .inr ⟨hs, rfl⟩

def queue : SendHalf Queue where
  new := ⟨[], none, fun _ hm => absurd hm List.not_mem_nil⟩
  sendData := Queue.sendData
  reset s e := ⟨s.frames, some e, fun _ _ => Option.some_ne_none e⟩
  sent s := s.frames
  sent_new := rfl
  taken s data last h := by
    rcases s.sendData_cases data last with ⟨e, _, hs⟩ | ⟨hopen, hs⟩
    · rw [hs] at h
      exact absurd h (by simp)
    · rw [hs]
      rfl
  refused s data last e h := by
    rcases s.sendData_cases data last with ⟨e', _, hs⟩ | ⟨hopen, hs⟩
    · rw [hs]
    · rw [hs] at h
      exact absurd h (by simp)
  ended s data hm more last := by
    rcases s.sendData_cases more last with ⟨e, _, hs⟩ | ⟨hopen, _⟩
    · exact ⟨e, by rw [hs]⟩
    · exact absurd hopen (s.closed data hm)
  sent_reset _ _ := rfl

theorem pipe_delivers_greeting :
    ∃ n, ∀ outs, NonEmpty outs → n ≤ outs.length →
      readToEnd (.new ⟨greetingCarried, .clean⟩) outs = some (ascii "hello") := by
  have hcarried : Carried ((writings queue greeting).sent queue) greetingCarried := by
    refine @Carried.cut _ _ (ascii "h") (ascii "e") _ (by decide) (by decide) (.pending ?_)
    exact .frame _ _ (.frame _ _ (.frame _ _ .done))
  refine (pipe_delivers queue greeting hcarried).2.2 fun c hc => ?_
  rcases List.mem_cons.mp hc with rfl | hc
  · rfl
  · simp only [List.mem_cons, List.not_mem_nil, or_false] at hc
    rcases hc with rfl | rfl | rfl | rfl <;> rfl

end MiniCloudflared.H2Pipe
