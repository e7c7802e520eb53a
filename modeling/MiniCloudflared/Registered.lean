import MiniCloudflared.Deadlock

namespace MiniCloudflared.Registered

open Library Http1 HttpTypes Config ThirdParty RequestBody ProxyStream Http2 SentFrames Connection StreamOwners
open Deadlock

variable {d : Driver} {tn : Tunnel} {s t : State} {f : InFrame} {id : Nat}

/-- The control stream whose two halves a live RPC system owns. The RPC system
is a local of `rpc_register` and goes with it. -/
def rpcStream : Phase → Option Nat
  | .registering id _ => some id
  | _ => none

def unread (s : State) (id : Nat) : Nat :=
  match s.recv id with
  | some r => r.events.length
  | none => 0

def CanRead (d : Driver) (tn : Tunnel) (s : State) (id : Nat) : Prop :=
  ∃ l t, IsTunnel l ∧ step d tn s l = some t ∧ unread t id < unread s id

def CanHandOver (d : Driver) (tn : Tunnel) (s : State) (p : Nat × HttpTypes.Request Unit) : Prop :=
  ∃ l t, IsTunnel l ∧ step d tn s l = some t ∧ p ∈ t.tasks

def CanReturn (d : Driver) (tn : Tunnel) (s : State) : Prop :=
  ∃ l t result, IsTunnel l ∧ step d tn s l = some t ∧ t.phase = .returned result

/-- What is promised of the state after the registration of control stream
`id`, with what the edge has sent since then. -/
structure Serviceable (d : Driver) (tn : Tunnel) (s : State) (id : Nat) : Prop where
  owned : rpcStream s.phase = some id
  read : 0 < unread s id → CanRead d tn s id
  handOver : ∀ p rest, s.incoming = p :: rest → upgradeOf p.2 ≠ CONTROL_STREAM_VAL → CanHandOver d tn s p
  returns : s.closing ≠ none → CanReturn d tn s

theorem unread_congr (h : (t.recv id).map RecvStream.events = (s.recv id).map RecvStream.events) :
    unread t id = unread s id := by
  rw [unread, unread]
  cases hs : s.recv id with
  | none =>
      rw [hs] at h
      rw [Option.map_eq_none_iff.mp h]
  | some r =>
      rw [hs] at h
      obtain ⟨r', hr', he⟩ := Option.map_eq_some_iff.mp h
      rw [hr']
      exact congrArg List.length he

theorem unread_receive (hc : Coherent s.toStreams) (ht : t.toStreams = receive tn.h2 s.toStreams f) :
    unread s id ≤ unread t id := by
  rw [unread, unread]
  cases hr : s.recv id with
  | none => exact Nat.zero_le _
  | some r =>
      have hid := hc.recv id (by rw [hr]; exact Option.some_ne_none r)
      rw [ht]
      rcases receive_recv tn.h2 f hr hid with he | he | ⟨he, _⟩
      · rw [he]
        exact Nat.le_refl _
      · rw [he]
        exact (hear_events id r f).length_le
      · rw [he]

theorem registered_step (hf : Fresh s) {location : Str} (hphase : s.phase = .registered id location)
    {l : Label} (hstep : Step d tn s l t) :
    t.phase = s.phase ∧ unread s id ≤ unread t id ∧ ∀ p, p ∈ t.tasks → p ∈ s.tasks := by
  have hother {j : Nat} {req : HttpTypes.Request Unit} (htask : taskOf s j = some req) : id ≠ j := by
    rintro rfl
    exact hf.control_task (by rw [hphase]; rfl) (List.mem_map_of_mem (task_mem htask))
  have hended (u : State) (hrecv : u.recv = s.recv) (htasks : u.tasks = s.tasks) (j : Nat) (finished : Bool) :
      unread s id ≤ unread (u.endTask j finished) id ∧ ∀ p, p ∈ (u.endTask j finished).tasks → p ∈ s.tasks := by
    refine ⟨Nat.le_of_eq (unread_congr ?_).symm, fun p hp => htasks ▸ List.mem_of_mem_filter hp⟩
    rw [← hrecv]
    exact release_events u.toStreams j finished id
  cases hstep with
  | deliver f fs hmoves hopen hin => exact ⟨rfl, unread_receive hf.streams rfl, fun _ hp => hp⟩
  | called j req rest tunnelId haccepting => exact absurd (hphase.symm.trans haccepting) Phase.noConfusion
  | refused j req rest e haccepting => exact absurd (hphase.symm.trans haccepting) Phase.noConfusion
  | spawn j req rest haccepting => exact absurd (hphase.symm.trans haccepting) Phase.noConfusion
  | finish c haccepting => exact absurd (hphase.symm.trans haccepting) Phase.noConfusion
  | read j received r r' b bs hregistering => exact absurd (hphase.symm.trans hregistering) Phase.noConfusion
  | ended j received r r' hregistering => exact absurd (hphase.symm.trans hregistering) Phase.noConfusion
  | gaveUp l hl j received hregistering => exact absurd (hphase.symm.trans hregistering) Phase.noConfusion
  | registered j received location' hregistering =>
      exact absurd (hphase.symm.trans hregistering) Phase.noConfusion
  | drained j req rule buf chunk r r' htask hstage hrecv hpoll =>
      refine ⟨rfl, Nat.le_of_eq (unread_congr ?_).symm, fun _ hp => hp⟩
      exact congrArg (Option.map RecvStream.events) (if_neg (hother htask))
  | unasked j => exact ⟨rfl, hended s rfl rfl j false⟩
  | unsent j => exact ⟨rfl, hended s rfl rfl j false⟩
  | answered j req resp headers =>
      exact ⟨rfl, hended { s with toStreams := s.send [.headers j resp.status headers true] } rfl rfl j true⟩
  | completed j req body =>
      exact ⟨rfl, hended { s with toStreams := s.send [.data j body true] } rfl rfl j true⟩
  | _ => exact ⟨rfl, Nat.le_refl _, fun _ hp => hp⟩

theorem registered_of_reaches (hf : Fresh s) {location : Str} (hphase : s.phase = .registered id location)
    (h : (connectAndServe d tn).Reaches System.anyStep s t) : t.phase = .registered id location ∧ Fresh t := by
  refine h.preserves (I := fun u => u.phase = .registered id location ∧ Fresh u) ?_ ⟨hphase, hf⟩
  intro u l v hu _ hs
  have hs := step_cases hs
  exact ⟨(registered_step hu.2 hu.1 hs).1.trans hu.1, hu.2.step hs⟩

/-- From the moment the registration has succeeded, whatever the edge sends and
however well its frames are moved: the RPC system is gone, no byte of the
control stream is read, no proxy stream is taken up and the connection is not
left. -/
theorem registered_unserviced (h : (connectAndServe d tn).Reachable System.anyStep s) {id : Nat}
    {location : Str} (hphase : s.phase = .registered id location)
    (hreach : (connectAndServe d tn).Reaches System.anyStep s t) :
    ¬ Serviceable d tn t id ∧ rpcStream t.phase = none ∧ ¬ CanRead d tn t id ∧
    (∀ p, p ∈ t.incoming → ¬ CanHandOver d tn t p) ∧ ¬ CanReturn d tn t := by
  obtain ⟨htphase, hfresh⟩ := registered_of_reaches (fresh_of_reachable h) hphase hreach
  have hgone : rpcStream t.phase = none := by
    rw [htphase]
    rfl
  refine ⟨fun hserv => absurd (hgone.symm.trans hserv.owned) (by simp), hgone, ?_, ?_, ?_⟩
  · rintro ⟨l, u, _, hstep, hlt⟩
    exact absurd (registered_step hfresh htphase (step_cases hstep)).2.1 (Nat.not_le_of_lt hlt)
  · rintro p hp ⟨l, u, _, hstep, hmem⟩
    have htask := (registered_step hfresh htphase (step_cases hstep)).2.2 p hmem
    exact (hfresh.owner (.inl (List.mem_map_of_mem htask))).2 (List.mem_map_of_mem hp)
  · rintro ⟨l, u, result, _, hstep, hreturned⟩
    have hkept := (registered_step hfresh htphase (step_cases hstep)).1
    rw [htphase, hreturned] at hkept
    exact absurd hkept Phase.noConfusion

theorem served_while_accepting (hphase : s.phase = .accepting) :
    (∀ p rest, s.incoming = p :: rest → upgradeOf p.2 ≠ CONTROL_STREAM_VAL → CanHandOver d tn s p) ∧
    (s.closing ≠ none → CanReturn d tn s) := by
  constructor
  · intro p rest hin hupg
    refine ⟨.accept, { s with incoming := rest, tasks := s.tasks ++ [p] }, trivial, ?_, by simp⟩
    simp [step, hphase, hin, hupg]
  · intro hclosing
    obtain ⟨c, hc⟩ := Option.ne_none_iff_exists'.mp hclosing
    refine ⟨.finish, s.leave (closeResult c), closeResult c, trivial, ?_, rfl⟩
    simp [step, hphase, hc]

def answeringTunnel : Tunnel :=
  { tunnel with
    rpc := ⟨fun _ => ascii "call", fun _ => [],
      fun bytes => if bytes = ascii "return" then some (.ok "fra01".toList) else none⟩ }

def registration : List Label :=
  [.edge (.headers 1 controlRequest false), .deliver, .accept, .edge (.data 1 (ascii "return") false),
    .deliver, .read, .edge (.data 1 (ascii "ping") false), .deliver, .resolve]

def laterFrames : List Label :=
  [.edge (.headers 3 proxyRequest false), .edge (.close .goAway), .deliver, .deliver]

def afterRegistration : State :=
  ((connectAndServe .independent answeringTunnel).exec start registration).getD start

def afterFrames : State :=
  ((connectAndServe .independent answeringTunnel).exec afterRegistration laterFrames).getD start

theorem registered_unserviced_answered :
    ¬ Serviceable .independent answeringTunnel afterFrames 1 ∧
    ¬ CanReturn .independent answeringTunnel afterFrames := by
  have hregistered : (connectAndServe .independent answeringTunnel).exec start registration =
      some afterRegistration := rfl
  have hframes : (connectAndServe .independent answeringTunnel).exec afterRegistration laterFrames =
      some afterFrames := rfl
  have h := registered_unserviced (.of_exec rfl hregistered) rfl
    (.exec .refl hframes)
  exact ⟨h.1, h.2.2.2.2⟩

/-- After a registration that went well three things have arrived, and the
tunnel has no step for any of them. -/
theorem answered_then_stuck :
    (connectAndServe .independent answeringTunnel).exec start registration = some afterRegistration ∧
    afterRegistration.phase = .registered 1 "fra01".toList ∧
    (connectAndServe .independent answeringTunnel).exec afterRegistration laterFrames = some afterFrames ∧
    0 < unread afterFrames 1 ∧ afterFrames.incoming.map Prod.fst = [3] ∧
    afterFrames.closing = some .goAway ∧
    (∀ l, l = .read ∨ l = .resolve ∨ l = .accept ∨ l = .finish →
      step .independent answeringTunnel afterFrames l = none) ∧
    ¬ Serviceable .independent answeringTunnel afterFrames 1 := by
  refine ⟨rfl, rfl, rfl, by decide, rfl, rfl, ?_, fun h => absurd h.owned (by decide)⟩
  rintro l (rfl | rfl | rfl | rfl) <;> rfl

end MiniCloudflared.Registered
