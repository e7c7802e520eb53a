import MiniCloudflared.Registered

namespace MiniCloudflared.Reconnect

open Library HttpTypes Config ThirdParty Http2 Connection StreamOwners Deadlock Registered

structure Dial where
  tcp : Except Error Unit
  nodelay : Except Error Unit
  serverName : Except Error Unit
  tls : Except Str Unit
  handshake : Except Error Unit

def withText (text : Str) : Except Error Unit → Except Error Unit
  | .ok () => .ok ()
  | .error e => .error (.context text e)

def dial (way : Dial) (addr : Str) : Except Error Unit := do
  withText ("TCP ".toList ++ addr) way.tcp
  way.nodelay
  match way.serverName with
  | .ok () => pure ()
  | .error _ => throw (.msg "bad SNI")
  match way.tls with
  | .ok () => pure ()
  | .error text => throw (.msg (String.ofList ("TLS ".toList ++ addr ++ ": ".toList ++ text)))
  withText "h2 handshake".toList way.handshake

/-- An attempt that has come to its end: its address, whether it registered
with the edge, what `connect_and_serve` returned, the seconds slept after it
and the backoff in force from then on. -/
structure Attempt where
  addr : Str
  registered : Bool
  result : Except Error Unit
  slept : Nat
  backoff : Nat

structure Edge where
  addrs : List Str
  nonempty : 0 < addrs.length

def Edge.addr (edge : Edge) (idx : Nat) : Str :=
  edge.addrs.get ⟨idx % edge.addrs.length, Nat.mod_lt idx edge.nonempty⟩

structure Serving where
  addr : Str
  conn : Connection.State
  registered : Bool

structure State where
  backoff : Nat
  addrIdx : Nat
  serving : Option Serving
  history : List Attempt

inductive Label
  | dial (way : Dial)
  | serve (l : Connection.Label)

def begun : State := ⟨1, 0, none, []⟩

def conclude (s : State) (addr : Str) (registered : Bool) : Except Error Unit → State
  | .ok () =>
      { s with
        backoff := 1
        serving := none
        history := s.history ++ [⟨addr, registered, .ok (), 0, 1⟩] }
  | .error e =>
      { s with
        backoff := min (s.backoff * 2) 64
        serving := none
        history := s.history ++ [⟨addr, registered, .error e, s.backoff, min (s.backoff * 2) 64⟩] }

def isRegistered : Phase → Bool
  | .registered _ _ => true
  | _ => false

def step (d : Driver) (tn : Tunnel) (edge : Edge) (s : State) : Label → Option State
  | .dial way =>
      match s.serving with
      | some _ => none
      | none =>
          let addr := edge.addr s.addrIdx
          -- the index is a `usize`
          let s := { s with addrIdx := (s.addrIdx + 1) % 2 ^ 64 }
          match dial way addr with
          | .error e => some (conclude s addr false (.error e))
          | .ok () => some { s with serving := some ⟨addr, start, false⟩ }
  | .serve l =>
      match s.serving with
      | none => none
      | some a =>
          match Connection.step d tn a.conn l with
          | none => none
          | some conn =>
              let registered := a.registered || isRegistered conn.phase
              match conn.phase with
              | .returned result => some (conclude s a.addr registered result)
              | _ => some { s with serving := some ⟨a.addr, conn, registered⟩ }

def runTunnel (d : Driver) (tn : Tunnel) (edge : Edge) : System State Label :=
  ⟨fun s => s = begun, step d tn edge⟩

variable {d : Driver} {tn : Tunnel} {edge : Edge} {s t : State}

def Begins (history : List Attempt) (i : Nat) : Prop :=
  i = 0 ∨ ∃ a, history[i - 1]? = some a ∧ a.registered = true

/-- In every stretch of attempts without a registration the sleep after the
attempt of index `j` is long enough, and the backoff goes back to one second
after a registration only. -/
structure BackedOff (history : List Attempt) : Prop where
  sleeps : ∀ i j a, Begins history i →
    (∀ k b, k ≤ j → history[i + k]? = some b → b.registered = false) →
    history[i + j]? = some a → min (2 ^ j) 64 ≤ a.slept
  resets : ∀ a, a ∈ history → a.backoff = 1 → a.registered = true

/-- The accept loop does not find that the edge has sent a GOAWAY or has closed
the connection in good order. -/
def NotDismissed (s : State) (l : Label) : Prop :=
  ∀ a, s.serving = some a → l = .serve .finish → a.conn.phase = .accepting →
    a.conn.closing ≠ some .ended ∧ a.conn.closing ≠ some .goAway

/-- `connect_and_serve` returns an error, or the accept loop has found the
connection closed. -/
theorem returned_cases {c c' : Connection.State} {l : Connection.Label}
    (hc : ∀ r, c.phase ≠ .returned r) (hstep : Connection.Step d tn c l c') {r : Except Error Unit}
    (hr : c'.phase = .returned r) :
    (∃ e, r = .error e) ∨
      l = .finish ∧ c.phase = .accepting ∧ ∃ closing, c.closing = some closing ∧ r = closeResult closing := by
  cases hstep with
  | refused id req rest e hphase hin hupg hwhy => exact .inl ⟨e, (Phase.returned.inj hr).symm⟩
  | finish closing hphase hclosing => exact .inr ⟨rfl, hphase, closing, hclosing, (Phase.returned.inj hr).symm⟩
  | called | read | ended | gaveUp | registered => exact absurd hr Phase.noConfusion
  | _ => exact absurd hr (hc r)

theorem isRegistered_iff {phase : Phase} :
    isRegistered phase = true ↔ ∃ id location, phase = .registered id location := by
  cases phase <;> simp [isRegistered]

def Underway (s : State) : Prop :=
  ∀ a, s.serving = some a → Fresh a.conn ∧
    (∀ r, a.conn.phase ≠ .returned r) ∧ (a.registered = true → isRegistered a.conn.phase = true)

theorem underway_none (h : s.serving = none) : Underway s :=
  fun _ ha => absurd (h.symm.trans ha) (Option.some_ne_none _).symm

inductive Added (s t : State) (l : Label) : Prop
  | nothing (hh : t.history = s.history) (hb : t.backoff = s.backoff)
  | failed (addr : Str) (e : Error)
      (hh : t.history = s.history ++ [⟨addr, false, .error e, s.backoff, min (s.backoff * 2) 64⟩])
      (hb : t.backoff = min (s.backoff * 2) 64)
  | dismissed (addr : Str) (hh : t.history = s.history ++ [⟨addr, false, .ok (), 0, 1⟩])
      (hb : t.backoff = 1) (hl : ¬ NotDismissed s l)

theorem step_added (hu : Underway s) {l : Label} (h : step d tn edge s l = some t) :
    Underway t ∧ Added s t l := by
  cases l with
  | dial way =>
      simp only [step] at h
      split at h
      next => exact nomatch h
      next =>
        split at h
        next e _ =>
          obtain rfl := Option.some.inj h
          exact ⟨underway_none rfl, .failed _ e rfl rfl⟩
        next =>
          obtain rfl := Option.some.inj h
          refine ⟨?_, .nothing rfl rfl⟩
          rintro a ⟨rfl⟩
          exact ⟨fresh_start, fun _ => Phase.noConfusion, fun hr => absurd hr Bool.false_ne_true⟩
  | serve l =>
      simp only [step] at h
      split at h
      next => exact nomatch h
      next a ha =>
        obtain ⟨hf, hc, hreg⟩ := hu a ha
        split at h
        next => exact nomatch h
        next conn hconn =>
          have hstep := Connection.step_cases hconn
          have hkept : a.registered = true → isRegistered conn.phase = true := by
            intro hr
            have hphase := hreg hr
            obtain ⟨id, location, he⟩ := isRegistered_iff.mp hphase
            rwa [(registered_step hf he hstep).1]
          split at h
          next r hreturned =>
            have hfalse : (a.registered || isRegistered conn.phase) = false := by
              rw [hreturned] at hkept ⊢
              simpa [isRegistered] using hkept
            rw [hfalse] at h
            obtain rfl := Option.some.inj h
            rcases returned_cases hc hstep hreturned with ⟨e, rfl⟩ | ⟨rfl, hphase, closing, hclosing, rfl⟩
            · exact ⟨underway_none rfl, .failed _ e rfl rfl⟩
            · cases closing with
              | failed e => exact ⟨underway_none rfl, .failed _ e rfl rfl⟩
              | ended =>
                  refine ⟨underway_none rfl, .dismissed _ rfl rfl fun hn => ?_⟩
                  exact (hn a ha rfl hphase).1 hclosing
              | goAway =>
                  refine ⟨underway_none rfl, .dismissed _ rfl rfl fun hn => ?_⟩
                  exact (hn a ha rfl hphase).2 hclosing
          next hne =>
            obtain rfl := Option.some.inj h
            refine ⟨?_, .nothing rfl rfl⟩
            rintro _ ⟨rfl⟩
            refine ⟨hf.step hstep, hne, fun hr => ?_⟩
            rcases Bool.or_eq_true_iff.mp hr with hr | hr
            · exact hkept hr
            · exact hr

theorem backoff_double (n : Nat) : min (min (2 ^ n) 64 * 2) 64 = min (2 ^ (n + 1)) 64 := by
  rw [Nat.pow_succ]
  omega

structure Steady (s : State) : Prop where
  underway : Underway s
  backoff : s.backoff = min (2 ^ s.history.length) 64
  failed : ∀ k a, s.history[k]? = some a →
    a.registered = false ∧ a.slept = min (2 ^ k) 64 ∧ a.backoff = min (2 ^ (k + 1)) 64

theorem Steady.step (hs : Steady s) {l : Label} (hl : NotDismissed s l)
    (h : step d tn edge s l = some t) : Steady t := by
  obtain ⟨hu, hadded⟩ := step_added hs.underway h
  cases hadded with
  | nothing hh hb =>
      refine ⟨hu, ?_, ?_⟩
      · rw [hh, hb]
        exact hs.backoff
      · rw [hh]
        exact hs.failed
  | failed addr e hh hb =>
      refine ⟨hu, ?_, fun k a ha => ?_⟩
      · rw [hh, hb, hs.backoff, List.length_append, List.length_singleton]
        exact backoff_double _
      · rw [hh, List.getElem?_append] at ha
        split at ha
        next => exact hs.failed k a ha
        next hk =>
          obtain ⟨hlt, rfl⟩ := List.getElem?_eq_some_iff.mp ha
          rw [List.length_singleton] at hlt
          obtain rfl : k = s.history.length := by omega
          have hlast : s.history.length - s.history.length = 0 := Nat.sub_self _
          simp only [hlast, List.getElem_cons_zero]
          exact ⟨trivial, hs.backoff, by rw [hs.backoff, backoff_double]⟩
  | dismissed addr hh hb hdismissed => exact absurd hl hdismissed

theorem Steady.backedOff (hs : Steady s) : BackedOff s.history where
  sleeps i j a hbegins _ ha := by
    rcases hbegins with rfl | ⟨b, hb, hreg⟩
    · rw [Nat.zero_add] at ha
      exact Nat.le_of_eq (hs.failed j a ha).2.1.symm
    · exact absurd hreg (by rw [(hs.failed _ b hb).1]; exact Bool.false_ne_true)
  resets a ha hone := by
    obtain ⟨k, hk⟩ := List.mem_iff_getElem?.mp ha
    have hb := (hs.failed k a hk).2.2
    rw [hone, Nat.pow_succ] at hb
    have hpos : 0 < 2 ^ k := Nat.two_pow_pos k
    omega

theorem steady_begun : Steady begun where
  underway := underway_none rfl
  backoff := rfl
  failed k a ha := by simp [begun] at ha

theorem history_kept {a : Attempt} (hs : Underway s) (ha : a ∈ s.history)
    (h : (runTunnel d tn edge).Reaches System.anyStep s t) : a ∈ t.history := by
  refine (h.preserves (I := fun u => Underway u ∧ a ∈ u.history) ?_ ⟨hs, ha⟩).2
  rintro u l v ⟨hu, ha⟩ _ hstep
  obtain ⟨hv, hadded⟩ := step_added hu hstep
  refine ⟨hv, ?_⟩
  cases hadded with
  | nothing hh _ => rwa [hh]
  | failed _ _ hh _ => rw [hh]; exact List.mem_append_left _ ha
  | dismissed _ hh _ _ => rw [hh]; exact List.mem_append_left _ ha

theorem underway_of_reaches (h : (runTunnel d tn edge).Reaches System.anyStep begun t) : Underway t :=
  h.preserves (I := Underway) (fun _ _ _ hu _ hstep => (step_added hu hstep).1) (underway_none rfl)

theorem dismissed_added (hu : Underway s) {l : Label} (hl : ¬ NotDismissed s l)
    (h : step d tn edge s l = some t) : ∃ a, a ∈ t.history ∧ a.backoff = 1 ∧ a.registered = false := by
  simp only [NotDismissed, not_forall] at hl
  obtain ⟨a, ha, rfl, hphase, hclosing⟩ := hl
  have hreg : a.registered = false := by
    by_contra hne
    have hphase' := (hu a ha).2.2 (by simpa using hne)
    rw [hphase] at hphase'
    exact nomatch hphase'
  obtain ⟨c, hc, hok⟩ : ∃ c, a.conn.closing = some c ∧ closeResult c = .ok () := by
    by_cases hended : a.conn.closing = some .ended
    · exact ⟨_, hended, rfl⟩
    · by_cases hgoAway : a.conn.closing = some .goAway
      · exact ⟨_, hgoAway, rfl⟩
      · exact absurd ⟨hended, hgoAway⟩ hclosing
  refine ⟨⟨a.addr, false, .ok (), 0, 1⟩, ?_, rfl, rfl⟩
  simp only [step, ha, Connection.step, hphase, hc, hok, hreg, leave_phase, isRegistered, Bool.or_false] at h
  obtain rfl := Option.some.inj h
  simp [conclude]

/-- A protocol error that the tunnel finds itself counts as a dismissal: its own
GOAWAY ends the accept loop as one of the edge does. -/
theorem idle_dismissed {a : Serving} {f : InFrame} {fs : List InFrame} (ha : s.serving = some a)
    (hphase : a.conn.phase = .accepting) (hopen : a.conn.closing = none) (hin : a.conn.inbound = f :: fs)
    (hf : ∀ id req endStream, f ≠ .headers id req endStream) (hr : a.conn.recv f.id = none)
    (hid : a.conn.lastId < f.id) :
    ∃ t, step d tn edge s (.serve .deliver) = some t ∧ ¬ NotDismissed t (.serve .finish) := by
  have hdeliver : Connection.step d tn a.conn .deliver =
      some { a.conn with toStreams := receive tn.h2 a.conn.toStreams f, inbound := fs } := by
    cases d <;> simp [Connection.step, hphase, hopen, hin, Driver.moves]
  refine ⟨{ s with serving := some ⟨a.addr,
    { a.conn with toStreams := receive tn.h2 a.conn.toStreams f, inbound := fs }, a.registered⟩ }, ?_, fun hn => ?_⟩
  · simp [step, ha, hdeliver, hphase, isRegistered]
  · exact (hn _ rfl rfl hphase).2 (receive_idle hf hr hid)

/-- In every run of `run_tunnel` the attempts are backed off as they should be
if and only if the edge never closes a connection in good order before it has
let the tunnel register. -/
theorem backedOff_iff {ls : List Label} (h : (runTunnel d tn edge).exec begun ls = some s) :
    BackedOff s.history ↔ (runTunnel d tn edge).Along NotDismissed begun ls := by
  constructor
  · intro hb
    by_contra halong
    obtain ⟨t, l, u, hreach, hl, hstep, hlater⟩ := System.exec_not_along halong h
    have hut := underway_of_reaches hreach
    obtain ⟨a, ha, hone, hreg⟩ := dismissed_added hut hl hstep
    have hmem := history_kept (step_added hut hstep).1 ha hlater
    rw [hb.resets a hmem hone] at hreg
    exact nomatch hreg
  · intro halong
    have hreach := System.Reaches.exec_along .refl halong h
    exact (hreach.preserves (fun _ _ _ hs hl hstep => hs.step hl hstep) steady_begun).backedOff

def edgeAddrs : Edge := ⟨["198.41.192.7:7844".toList, "198.41.200.13:7844".toList], by decide⟩

def wayOpen : Dial := ⟨.ok (), .ok (), .ok (), .ok (), .ok ()⟩

def wayClosed : Dial := { wayOpen with tcp := .error .io }

def outage : State where
  backoff := 4
  addrIdx := 2
  serving := none
  history :=
    [⟨"198.41.192.7:7844".toList, false, .error (.context "TCP 198.41.192.7:7844".toList .io), 1, 2⟩,
      ⟨"198.41.200.13:7844".toList, false, .error (.context "TCP 198.41.200.13:7844".toList .io), 2, 4⟩]

theorem backedOff_iff_outage : BackedOff outage.history := by
  have hrun : (runTunnel .accept tunnel edgeAddrs).exec begun [.dial wayClosed, .dial wayClosed] =
      some outage := rfl
  refine (backedOff_iff hrun).mpr ⟨?_, fun _ _ => ⟨?_, fun _ _ => trivial⟩⟩
  · exact fun _ _ hl => nomatch hl
  · exact fun _ _ hl => nomatch hl

/-- The edge opens a control stream, ends it at once, so that the registration
fails, and sends a GOAWAY. -/
def turnedAway : List Label :=
  [.dial wayOpen, .serve (.edge (.headers 1 controlRequest true)), .serve .deliver, .serve .accept, .serve .read,
    .serve (.edge (.close .goAway)), .serve .deliver, .serve .finish]

/-- Two attempts in a row fail to register, and there is no sleep after either
of them. -/
theorem turnedAway_not_backedOff :
    ∃ s, (runTunnel .accept tunnel edgeAddrs).exec begun (turnedAway ++ turnedAway) = some s ∧
      s.history.map (fun a => (a.registered, a.slept)) = [(false, 0), (false, 0)] ∧
      ¬ BackedOff s.history := by
  refine ⟨_, rfl, rfl, fun h => ?_⟩
  have hslept := h.sleeps 0 0 _ (Or.inl rfl) (fun k b hk hb => ?_) rfl
  · exact absurd hslept (by decide)
  · obtain rfl := Nat.le_zero.mp hk
    exact (Option.some.inj hb) ▸ rfl

end MiniCloudflared.Reconnect
