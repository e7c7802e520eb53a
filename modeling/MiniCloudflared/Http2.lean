import MiniCloudflared.RequestBody

namespace MiniCloudflared.Http2

open Library Http1 HttpTypes RequestBody

inductive Closing
  | ended
  | goAway
  | failed (e : Error)

/-- HEADERS on a stream that is open already are its trailers. -/
inductive InFrame
  | headers (id : Nat) (req : HttpTypes.Request Unit) (endStream : Bool)
  | data (id : Nat) (chunk : Bytes) (endStream : Bool)
  | reset (id : Nat)
  | close (c : Closing)

inductive OutFrame
  | headers (id : Nat) (status : StatusCode) (headers : HeaderMap) (endStream : Bool)
  | data (id : Nat) (chunk : Bytes) (endStream : Bool)
  | reset (id : Nat)

def InFrame.id : InFrame → Nat
  | .headers id _ _ => id
  | .data id _ _ => id
  | .reset id => id
  | .close _ => 0

def OutFrame.id : OutFrame → Nat
  | .headers id _ _ _ => id
  | .data id _ _ => id
  | .reset id => id

def OutFrame.isReset : OutFrame → Bool
  | .reset _ => true
  | _ => false

/-- The streams as `h2` keeps them, with all the frames that it has taken off
the socket. What is unread on a stream stays there when the stream is given up. -/
structure Streams where
  heard : List InFrame
  closing : Option Closing
  incoming : List (Nat × HttpTypes.Request Unit)
  lastId : Nat
  recv : Nat → Option RecvStream
  outbound : List OutFrame
  wire : List OutFrame

def endingOf (endStream : Bool) : Ending := if endStream then .clean else .running

def hear (id : Nat) (r : RecvStream) : InFrame → RecvStream
  | .headers j _ endStream =>
      if j = id then
        match r.ending with
        | .running => ⟨r.events, endingOf endStream⟩
        | _ => r
      else r
  | .data j chunk endStream =>
      if j = id then
        match r.ending with
        | .running => ⟨r.events ++ [.data chunk], endingOf endStream⟩
        | _ => r
      else r
  | .reset j => if j = id then r.fail else r
  | .close _ => r

def receiveHalf (id : Nat) : Option RecvStream → InFrame → Option RecvStream
  | some r, f => some (hear id r f)
  | none, .headers j _ endStream => if j = id then some ⟨[], endingOf endStream⟩ else none
  | none, _ => none

/-- What a stream has received, told from the frames that bear its id. -/
def received (id : Nat) (fs : List InFrame) : Option RecvStream := fs.foldl (receiveHalf id) none

def opens? (id : Nat) : InFrame → Option (HttpTypes.Request Unit)
  | .headers j req _ => if j = id then some req else none
  | _ => none

def opening (id : Nat) (fs : List InFrame) : Option (HttpTypes.Request Unit) := fs.findSome? (opens? id)

def declaredLength (req : HttpTypes.Request Unit) : Option Nat :=
  (req.headers.get CONTENT_LENGTH).bind fun v => readDecimal v.bytes

def WrongLength (m : Streams) (id : Nat) (chunk : Bytes) : Prop :=
  ∃ req n r, opening id m.heard = some req ∧ declaredLength req = some n ∧ received id m.heard = some r ∧
    r.payload.length + chunk.length ≠ n

def isConnectionField (k : HeaderName) : Bool :=
  [ascii "connection", ascii "proxy-connection", ascii "keep-alive", ascii "transfer-encoding", ascii "upgrade",
    ascii "te", ascii "content-length"].contains k.bytes

/-- A request in which there is nothing to check: one short field, and not one
about the connection or the length. -/
def Ordinary (req : HttpTypes.Request Unit) : Prop :=
  req.method.bytes = ascii "GET" ∧ req.uri.pathAndQuery.isSome = true ∧ ∃ name value,
    req.headers = .ofList [(name, value)] ∧ isConnectionField name = false ∧
      name.bytes.length + value.bytes.length ≤ 100

/-- What `h2` makes of a frame by its own checks: it takes it, passes it over,
gives up the stream, with RST_STREAM or without, or gives up the connection. -/
inductive Verdict
  | taken
  | dropped
  | streamError (answered : Bool)
  | connectionError

/-- The `h2` crate as far as its checks go, with what the protocol asks of them. -/
structure H2 where
  verdict : Streams → InFrame → Verdict
  first : ∀ m id req, m.closing = none → (∀ j, m.recv j = none) → m.lastId < id → id % 2 = 1 → Ordinary req →
    verdict m (.headers id req false) = .taken
  kept : ∀ m f es, m.recv f.id = some ⟨es, .running⟩ → verdict m f ≠ .dropped
  behindEnd : ∀ m id es chunk endStream, m.recv id = some ⟨es, .clean⟩ →
    verdict m (.data id chunk endStream) = .connectionError ∨
      ∃ answered, verdict m (.data id chunk endStream) = .streamError answered
  idle : ∀ m f, (∀ id req endStream, f ≠ .headers id req endStream) → m.recv f.id = none → m.lastId < f.id →
    verdict m f = .connectionError
  lengths : ∀ m id es chunk, m.recv id = some ⟨es, .running⟩ → WrongLength m id chunk →
    verdict m (.data id chunk true) ≠ .taken

namespace Streams

def setRecv (m : Streams) (id : Nat) (r : RecvStream) : Streams :=
  { m with recv := fun j => if j = id then some r else m.recv j }

def send (m : Streams) (fs : List OutFrame) : Streams := { m with outbound := m.outbound ++ fs }

/-- A stream that is given up. What is queued for it is thrown away. -/
def failStream (m : Streams) (id : Nat) : Streams :=
  { m with
    recv := fun j => if j = id then (m.recv id).map RecvStream.fail else m.recv j
    outbound := m.outbound.filter fun f => f.id != id }

def failAll (m : Streams) : Streams :=
  { m with
    recv := fun j => (m.recv j).map RecvStream.fail
    outbound := [] }

def close (m : Streams) (c : Closing) : Streams := { m.failAll with closing := some c }

def take (m : Streams) : InFrame → Streams
  | .headers id req endStream =>
      if m.lastId < id then
        { m.setRecv id ⟨[], endingOf endStream⟩ with incoming := m.incoming ++ [(id, req)] }
      else
        match m.recv id with
        | some r => m.setRecv id (hear id r (.headers id req endStream))
        | none => m
  | .data id chunk endStream =>
      match m.recv id with
      | some r => m.setRecv id (hear id r (.data id chunk endStream))
      | none => m
  | .reset id => m.failStream id
  | .close c => m.close c

def note (m : Streams) (f : InFrame) : Streams :=
  { m with
    heard := m.heard ++ [f]
    lastId :=
      match f with
      | .headers id _ _ => max m.lastId id
      | _ => m.lastId }

/-- The error of a stream that has been reset, by whichever side, or whose
connection is over. -/
def resetBy (m : Streams) (id : Nat) : Option Error :=
  match m.recv id with
  | some ⟨_, .failed e⟩ => some e
  | some _ => none
  | none => some .h2

/-- All handles of a stream are dropped: unless both its halves are closed, it is
reset behind what is queued for it. -/
def release (m : Streams) (id : Nat) (finished : Bool) : Streams :=
  match m.recv id with
  | some ⟨es, .running⟩ => (m.setRecv id ⟨es, .failed .h2⟩).send [.reset id]
  | some ⟨es, .clean⟩ => if finished then m else (m.setRecv id ⟨es, .failed .h2⟩).send [.reset id]
  | _ => m

def bodyOf (m : Streams) (id : Nat) : RecvStream := (m.recv id).getD ⟨[], .clean⟩

end Streams

/-- An error of the connection is reported as a GOAWAY, whoever has found it. -/
def judged (m : Streams) (f : InFrame) : Verdict → Streams
  | .taken => m.take f
  | .dropped => m
  | .streamError answered => (m.failStream f.id).send (if answered then [.reset f.id] else [])
  | .connectionError => m.close .goAway

def receive (h2 : H2) (m : Streams) (f : InFrame) : Streams :=
  (match f with
    | .close c => m.close c
    | _ => judged m f (h2.verdict m f)).note f

inductive Received (m : Streams) (f : InFrame) : Streams → Prop
  | opened (id : Nat) (req : HttpTypes.Request Unit) (endStream : Bool) (hf : f = .headers id req endStream)
      (hid : m.lastId < id) :
      Received m f { m.setRecv id ⟨[], endingOf endStream⟩ with incoming := m.incoming ++ [(id, req)] }
  | heard (r : RecvStream) (hr : m.recv f.id = some r) : Received m f (m.setRecv f.id (hear f.id r f))
  | nothing (hidle : ∀ es, m.recv f.id ≠ some ⟨es, .running⟩) : Received m f m
  | failed (fs : List OutFrame) (hfs : ∀ g, g ∈ fs → g = .reset f.id) (hnot : m.recv f.id = none → f.id ≤ m.lastId ∨
      ∃ req endStream, f = .headers f.id req endStream) : Received m f ((m.failStream f.id).send fs)
  | closed (c : Closing) : Received m f (m.close c)

theorem judged_cases (h2 : H2) (m : Streams) (f : InFrame) (hf : ∀ c, f ≠ .close c) :
    Received m f (judged m f (h2.verdict m f)) := by
  have hidle : h2.verdict m f ≠ .connectionError → m.recv f.id = none → f.id ≤ m.lastId ∨
      ∃ req endStream, f = .headers f.id req endStream := by
    intro hv hr
    by_contra hnot
    rw [not_or, Nat.not_le] at hnot
    refine hv (h2.idle m f (fun id req endStream he => ?_) hr hnot.1)
    obtain rfl : f.id = id := by rw [he]; rfl
    exact hnot.2 ⟨req, endStream, he⟩
  cases hv : h2.verdict m f with
  | dropped => exact .nothing fun es hr => h2.kept m f es hr hv
  | streamError answered =>
      refine .failed _ (fun g hg => ?_) (hidle (by rw [hv]; exact Verdict.noConfusion))
      cases answered with
      | true => exact List.mem_singleton.mp hg
      | false => exact absurd hg List.not_mem_nil
  | connectionError => exact .closed .goAway
  | taken =>
      rw [judged]
      cases f with
      | headers id req endStream =>
          by_cases hid : m.lastId < id
          · rw [Streams.take, if_pos hid]
            exact .opened id req endStream rfl hid
          · rw [Streams.take, if_neg hid]
            cases hr : m.recv id with
            | none => exact .nothing fun es hes => absurd (hr.symm.trans hes) (by simp)
            | some r => exact .heard (f := .headers id req endStream) r hr
      | data id chunk endStream =>
          rw [Streams.take]
          cases hr : m.recv id with
          | none => exact .nothing fun es hes => absurd (hr.symm.trans hes) (by simp)
          | some r => exact .heard (f := .data id chunk endStream) r hr
      | reset id =>
          have hsend : m.failStream id = (m.failStream id).send [] := by
            rw [Streams.send, List.append_nil]
          rw [Streams.take, hsend]
          exact .failed (f := .reset id) [] (fun g hg => absurd hg List.not_mem_nil)
            (hidle (by rw [hv]; exact Verdict.noConfusion))
      | close c => exact absurd rfl (hf c)

theorem receive_judged (h2 : H2) (m : Streams) {f : InFrame} (hf : ∀ c, f ≠ .close c) :
    receive h2 m f = (judged m f (h2.verdict m f)).note f := by
  cases f with
  | close c => exact absurd rfl (hf c)
  | _ => rfl

theorem receive_cases (h2 : H2) (m : Streams) (f : InFrame) :
    ∃ m', Received m f m' ∧ receive h2 m f = m'.note f := by
  cases f with
  | close c => exact ⟨_, .closed c, rfl⟩
  | _ => exact ⟨_, judged_cases h2 m _ (fun c => InFrame.noConfusion), rfl⟩

variable {h2 : H2} {m m' : Streams} {f : InFrame} {id : Nat} {r : RecvStream}

@[simp] theorem note_recv (m : Streams) (f : InFrame) : (m.note f).recv = m.recv := rfl

@[simp] theorem note_incoming (m : Streams) (f : InFrame) : (m.note f).incoming = m.incoming := rfl

@[simp] theorem note_wire (m : Streams) (f : InFrame) : (m.note f).wire = m.wire := rfl

@[simp] theorem note_heard (m : Streams) (f : InFrame) : (m.note f).heard = m.heard ++ [f] := rfl

@[simp] theorem release_incoming (m : Streams) (id : Nat) (finished : Bool) :
    (m.release id finished).incoming = m.incoming := by
  rw [Streams.release]
  repeat' split
  all_goals rfl

@[simp] theorem release_lastId (m : Streams) (id : Nat) (finished : Bool) :
    (m.release id finished).lastId = m.lastId := by
  rw [Streams.release]
  repeat' split
  all_goals rfl

@[simp] theorem release_heard (m : Streams) (id : Nat) (finished : Bool) :
    (m.release id finished).heard = m.heard := by
  rw [Streams.release]
  repeat' split
  all_goals rfl

@[simp] theorem release_wire (m : Streams) (id : Nat) (finished : Bool) :
    (m.release id finished).wire = m.wire := by
  rw [Streams.release]
  repeat' split
  all_goals rfl

theorem release_events (m : Streams) (id : Nat) (finished : Bool) (j : Nat) :
    ((m.release id finished).recv j).map RecvStream.events = (m.recv j).map RecvStream.events := by
  have hfailed (es : List RecvEvent) (ending : Ending) (hr : m.recv id = some ⟨es, ending⟩) :
      (((m.setRecv id ⟨es, .failed .h2⟩).send [.reset id]).recv j).map RecvStream.events =
        (m.recv j).map RecvStream.events := by
    by_cases hj : j = id
    · have hset : (m.setRecv id ⟨es, .failed .h2⟩).recv id = some ⟨es, .failed .h2⟩ := if_pos rfl
      rw [hj, hr]
      exact (congrArg (Option.map RecvStream.events) hset :)
    · exact congrArg (Option.map RecvStream.events) (if_neg hj)
  rw [Streams.release]
  split
  next es hr => exact hfailed es .running hr
  next es hr =>
    cases finished with
    | true => rfl
    | false => exact hfailed es .clean hr
  next => rfl

theorem release_other (m : Streams) {id j : Nat} (hj : j ≠ id) (finished : Bool) :
    (m.release id finished).recv j = m.recv j := by
  rw [Streams.release]
  repeat' split
  all_goals first
    | rfl
    | exact if_neg hj

theorem lastId_note (m : Streams) (f : InFrame) :
    m.lastId ≤ (m.note f).lastId ∧ ∀ id req endStream, f = .headers id req endStream → id ≤ (m.note f).lastId := by
  cases f with
  | headers id req endStream =>
      refine ⟨Nat.le_max_left _ _, ?_⟩
      rintro _ _ _ ⟨rfl⟩
      exact Nat.le_max_right _ _
  | _ => exact ⟨Nat.le_refl _, fun _ _ _ h => absurd h InFrame.noConfusion⟩

theorem Received.lastId (h : Received m f m') : m'.lastId = m.lastId := by
  cases h <;> rfl

theorem Received.heard_eq (h : Received m f m') : m'.heard = m.heard := by
  cases h <;> rfl

theorem receive_wire (h2 : H2) (m : Streams) (f : InFrame) : (receive h2 m f).wire = m.wire := by
  obtain ⟨m', h, he⟩ := receive_cases h2 m f
  rw [he, note_wire]
  cases h <;> rfl

theorem receive_heard (h2 : H2) (m : Streams) (f : InFrame) : (receive h2 m f).heard = m.heard ++ [f] := by
  obtain ⟨m', h, he⟩ := receive_cases h2 m f
  rw [he, note_heard, h.heard_eq]

theorem receive_lastId (h2 : H2) (m : Streams) (f : InFrame) :
    m.lastId ≤ (receive h2 m f).lastId ∧
      ∀ id req endStream, f = .headers id req endStream → id ≤ (receive h2 m f).lastId := by
  obtain ⟨m', h, he⟩ := receive_cases h2 m f
  rw [he]
  obtain ⟨hle, hnew⟩ := lastId_note m' f
  exact ⟨h.lastId ▸ hle, hnew⟩

theorem hear_other {j : Nat} (hf : f.id ≠ j) (r : RecvStream) : hear j r f = r := by
  cases f with
  | close c => rfl
  | _ => exact if_neg hf

theorem hear_events (id : Nat) (r : RecvStream) (f : InFrame) : r.events <+: (hear id r f).events := by
  cases f with
  | headers j req endStream =>
      simp only [hear]
      repeat' split
      all_goals exact List.prefix_refl _
  | data j chunk endStream =>
      simp only [hear]
      repeat' split
      all_goals first
        | exact List.prefix_refl _
        | exact List.prefix_append _ _
  | reset j =>
      simp only [hear]
      split <;> exact List.prefix_refl _
  | close c => exact List.prefix_refl _

theorem hear_failed (id : Nat) (es : List RecvEvent) (e : Error) (f : InFrame) :
    ∃ e', hear id ⟨es, .failed e⟩ f = ⟨es, .failed e'⟩ := by
  cases f with
  | headers j req endStream => exact ⟨e, ite_self _⟩
  | data j chunk endStream => exact ⟨e, ite_self _⟩
  | reset j =>
      by_cases hj : j = id
      · exact ⟨.h2, if_pos hj⟩
      · exact ⟨e, if_neg hj⟩
  | close c => exact ⟨e, rfl⟩

/-- A stream that is open goes on as its frames say, unless it is given up. -/
theorem receive_recv (h2 : H2) (f : InFrame) (hr : m.recv id = some r) (hid : id ≤ m.lastId) :
    (receive h2 m f).recv id = some r.fail ∨ (receive h2 m f).recv id = some (hear id r f) ∨
      (receive h2 m f).recv id = some r ∧ ∀ es, r ≠ ⟨es, .running⟩ := by
  obtain ⟨m', h, he⟩ := receive_cases h2 m f
  rw [he, note_recv]
  by_cases hf : f.id = id
  · subst hf
    cases h with
    | opened j req endStream hf hj =>
        rw [hf] at hid
        exact absurd hj (Nat.not_lt.mpr hid)
    | heard r' hr' =>
        obtain rfl := Option.some.inj (hr.symm.trans hr')
        exact .inr (.inl (if_pos rfl))
    | nothing hidle =>
        refine .inr (.inr ⟨hr, ?_⟩)
        rintro es rfl
        exact hidle es hr
    | failed fs =>
        refine .inl ((if_pos rfl).trans ?_)
        rw [hr]
        rfl
    | closed c => exact .inl (congrArg (Option.map RecvStream.fail) hr)
  · have hsame : some r = some (hear id r f) := congrArg some (hear_other hf r).symm
    cases h with
    | opened j req endStream hj hlt =>
        subst hj
        exact .inr (.inl ((if_neg (Ne.symm hf)).trans (hr.trans hsame)))
    | heard => exact .inr (.inl ((if_neg (Ne.symm hf)).trans (hr.trans hsame)))
    | nothing => exact .inr (.inl (hr.trans hsame))
    | failed => exact .inr (.inl ((if_neg (Ne.symm hf)).trans (hr.trans hsame)))
    | closed => exact .inl (congrArg (Option.map RecvStream.fail) hr)

theorem receive_none (h2 : H2) (f : InFrame) (hr : m.recv id = none) : (receive h2 m f).recv id = none ∨
    ∃ req endStream, f = .headers id req endStream ∧ m.lastId < id := by
  obtain ⟨m', h, he⟩ := receive_cases h2 m f
  rw [he, note_recv]
  have hset (j : Nat) (r : RecvStream) (hj : j ≠ id) : (m.setRecv j r).recv id = none := (if_neg (Ne.symm hj)).trans hr
  cases h with
  | opened j req endStream hf hj =>
      by_cases he : j = id
      · exact .inr ⟨req, endStream, he ▸ hf, he ▸ hj⟩
      · exact .inl (hset j _ he)
  | heard r' hr' =>
      refine .inl (hset f.id _ ?_)
      rintro rfl
      exact absurd (hr.symm.trans hr') (by simp)
  | nothing => exact .inl hr
  | failed =>
      by_cases hf : id = f.id
      · exact .inl ((if_pos hf).trans (by rw [← hf, hr]; rfl))
      · exact .inl ((if_neg hf).trans hr)
  | closed => exact .inl (congrArg (Option.map RecvStream.fail) hr)

theorem receive_incoming (h2 : H2) (m : Streams) (f : InFrame) : (receive h2 m f).incoming = m.incoming ∨
    ∃ id req endStream, f = .headers id req endStream ∧ m.lastId < id ∧
      (receive h2 m f).incoming = m.incoming ++ [(id, req)] ∧ (receive h2 m f).lastId = id ∧
      (receive h2 m f).recv id = some ⟨[], endingOf endStream⟩ := by
  obtain ⟨m', h, he⟩ := receive_cases h2 m f
  rw [he, note_incoming]
  cases h with
  | opened id req endStream hf hid =>
      subst hf
      exact .inr ⟨id, req, endStream, rfl, hid, rfl, Nat.max_eq_right (Nat.le_of_lt hid), if_pos rfl⟩
  | _ => exact .inl rfl

/-- A frame on a stream that was never opened ends the connection. -/
theorem receive_idle (hf : ∀ id req endStream, f ≠ .headers id req endStream) (hr : m.recv f.id = none)
    (hid : m.lastId < f.id) : (receive h2 m f).closing = some .goAway := by
  have hverdict := h2.idle m f hf hr hid
  rw [receive_judged h2 m fun c hc => Nat.not_lt_zero _ (hc ▸ hid), hverdict]
  rfl

end MiniCloudflared.Http2
