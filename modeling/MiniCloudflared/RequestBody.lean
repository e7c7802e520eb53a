import MiniCloudflared.HttpTypes

namespace MiniCloudflared.RequestBody

open Library HttpTypes

inductive RecvEvent
  | pending
  | data (chunk : Bytes)

inductive Ending
  | running
  | clean
  | failed (e : Error)

structure RecvStream where
  events : List RecvEvent
  ending : Ending

def RecvStream.fail (s : RecvStream) : RecvStream := { s with ending := .failed .h2 }

inductive Poll (α : Type)
  | pending
  | ready (a : α)

/-- A failed stream answers every later call with its error again. -/
def RecvStream.pollData (s : RecvStream) : Poll (Option (Except Error Bytes)) × RecvStream :=
  match s.events, s.ending with
  | .pending :: es, _ => (.pending, { s with events := es })
  | .data chunk :: es, _ => (.ready (some (.ok chunk)), { s with events := es })
  | [], .running => (.pending, s)
  | [], .clean => (.ready none, s)
  | [], .failed e => (.ready (some (.error e)), s)

theorem pollData_ok {s s' : RecvStream} {chunk : Bytes} (h : s.pollData = (.ready (some (.ok chunk)), s')) :
    s.events = .data chunk :: s'.events ∧ s'.ending = s.ending := by
  rcases s with ⟨_ | ⟨_ | chunk', es⟩, ending⟩
  · cases ending <;> exact absurd (congrArg Prod.fst h) (by simp [RecvStream.pollData])
  · exact absurd (congrArg Prod.fst h) (by simp [RecvStream.pollData])
  · obtain ⟨hpoll, rfl⟩ := Prod.mk.inj h
    obtain rfl := Except.ok.inj (Option.some.inj (Poll.ready.inj hpoll))
    exact ⟨rfl, rfl⟩

theorem pollData_error {s s' : RecvStream} {e : Error} (h : s.pollData = (.ready (some (.error e)), s')) : s' = s := by
  rcases s with ⟨_ | ⟨_ | chunk, es⟩, _ | _ | e'⟩
  all_goals first
    | exact (congrArg Prod.snd h).symm
    | exact absurd (congrArg Prod.fst h) (by simp [RecvStream.pollData])

theorem pollData_none {s s' : RecvStream} (h : s.pollData = (.ready none, s')) : s = ⟨[], .clean⟩ := by
  rcases s with ⟨_ | ⟨_ | chunk, es⟩, _ | _ | e⟩
  all_goals first
    | rfl
    | exact absurd (congrArg Prod.fst h) (by simp [RecvStream.pollData])

def drainLoop : Nat → Bytes → RecvStream → Option Bytes
  | 0, _, _ => none
  | fuel + 1, buf, body =>
      match body.pollData with
      | (.pending, body) => drainLoop fuel buf body
      | (.ready none, _) => some buf
      | (.ready (some (.ok data)), body) => drainLoop fuel (buf ++ data) body
      -- `if let Ok(data)`: an error is passed over and the stream polled again
      | (.ready (some (.error _)), body) => drainLoop fuel buf body

def drainBody (fuel : Nat) (body : RecvStream) : Option Bytes := drainLoop fuel [] body

def chunkOf : RecvEvent → Bytes
  | .pending => []
  | .data chunk => chunk

def RecvStream.payload (s : RecvStream) : Bytes := s.events.flatMap chunkOf

theorem drainLoop_clean (es : List RecvEvent) (buf : Bytes) :
    drainLoop (es.length + 1) buf ⟨es, .clean⟩ = some (buf ++ es.flatMap chunkOf) := by
  induction es generalizing buf with
  | nil => simp [drainLoop, RecvStream.pollData]
  | cons e es ih =>
      cases e with
      | pending => simpa [drainLoop, RecvStream.pollData, chunkOf] using ih buf
      | data chunk => simpa [drainLoop, RecvStream.pollData, chunkOf] using ih (buf ++ chunk)

theorem drainLoop_some {fuel : Nat} {buf : Bytes} {s : RecvStream} {body : Bytes}
    (h : drainLoop fuel buf s = some body) : s.ending = .clean ∧ body = buf ++ s.payload := by
  induction fuel generalizing buf s with
  | zero => simp [drainLoop] at h
  | succ fuel ih =>
      rcases s with ⟨es, ending⟩
      cases es with
      | nil =>
          cases ending with
          | clean =>
              simp only [drainLoop, RecvStream.pollData, Option.some.injEq] at h
              subst h
              simp [RecvStream.payload]
          | running => exact ih (by simpa [drainLoop, RecvStream.pollData] using h)
          | failed e => exact ih (by simpa [drainLoop, RecvStream.pollData] using h)
      | cons e es =>
          cases e with
          | pending =>
              obtain ⟨hc, hb⟩ := ih (s := ⟨es, ending⟩)
                (by simpa [drainLoop, RecvStream.pollData] using h)
              exact ⟨hc, by simpa [RecvStream.payload, chunkOf] using hb⟩
          | data chunk =>
              obtain ⟨hc, hb⟩ := ih (s := ⟨es, ending⟩)
                (by simpa [drainLoop, RecvStream.pollData] using h)
              exact ⟨hc, by simpa [RecvStream.payload, chunkOf] using hb⟩

theorem drainBody_clean {s : RecvStream} (h : s.ending = .clean) :
    drainBody (s.events.length + 1) s = some s.payload := by
  rcases s with ⟨es, ending⟩
  obtain rfl : ending = .clean := h
  exact drainLoop_clean es []

/-- The loop comes to an end only on a stream that ends cleanly, and then with
all that the stream carried. -/
theorem drainBody_some {fuel : Nat} {s : RecvStream} {body : Bytes}
    (h : drainBody fuel s = some body) : s.ending = .clean ∧ body = s.payload :=
  drainLoop_some h

end MiniCloudflared.RequestBody
