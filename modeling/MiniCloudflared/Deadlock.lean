import MiniCloudflared.StreamOwners
import MiniCloudflared.StandIns

namespace MiniCloudflared.Deadlock

open Library Http1 HttpTypes Config ThirdParty Origin RequestBody ProxyStream Http2 SentFrames Connection StreamOwners

variable {d : Driver} {tn : Tunnel} {s t : State}

def IsTunnel : Label → Prop
  | .edge _ => False
  | _ => True

def Awaits (s : State) (id : Nat) : Prop := ∃ received, s.phase = .registering id received

/-- The connection is open, the handler of a control stream waits for bytes,
and the tunnel has no step. -/
def Deadlocked (d : Driver) (tn : Tunnel) (s : State) : Prop :=
  s.closing = none ∧ (∃ id, Awaits s id) ∧ (connectAndServe d tn).Blocked IsTunnel s

def whileAwaiting (id : Nat) : State → Label → Prop := fun s _ => Awaits s id

/-- While the handler waits, its call can be put on the wire, and whatever the
edge has sent can be taken off the socket unless that ends the connection. -/
structure Serviced (d : Driver) (tn : Tunnel) (s : State) (id : Nat) : Prop where
  sent : ∃ t tunnelId, (connectAndServe d tn).Reaches (whileAwaiting id) s t ∧
    callFrame tn id tunnelId ∈ t.wire
  delivered : ∃ t, (connectAndServe d tn).Reaches (whileAwaiting id) s t ∧
    (t.inbound = [] ∨ t.closing ≠ none)

def NoDeadlock (d : Driver) (tn : Tunnel) (s : State) : Prop :=
  ¬ Deadlocked d tn s ∧ ∀ id, Awaits s id → Serviced d tn s id

/-- The accept loop takes up a control stream that is still open, with a tunnel
id that can be parsed, so that its handler comes to wait. -/
def StartsRegistration (tn : Tunnel) (s : State) (l : Label) : Prop :=
  l = .accept ∧ s.phase = .accepting ∧ ∃ id req rest tunnelId, s.incoming = (id, req) :: rest ∧
    upgradeOf req = CONTROL_STREAM_VAL ∧ s.resetBy id = none ∧
    tn.crates.uuidParse tn.creds.t = .ok tunnelId

theorem awaits_of_step {l : Label} (hstep : Step d tn s l t) {id : Nat} (ha : Awaits t id) :
    Awaits s id ∨ StartsRegistration tn s l := by
  obtain ⟨received, ha⟩ := ha
  cases hstep with
  | called j req rest tunnelId hphase hin hupg hlive huuid =>
      exact .inr ⟨rfl, hphase, j, req, rest, tunnelId, hin, hupg, hlive, huuid⟩
  | read j before r r' b bs hphase hrecv hpoll =>
      obtain ⟨rfl, _⟩ := Phase.registering.inj ha
      exact .inl ⟨before, hphase⟩
  | refused | finish | ended | gaveUp | registered => exact absurd ha Phase.noConfusion
  | _ => exact .inl ⟨received, ha⟩

theorem wire_of_step {l : Label} (hstep : Step d tn s l t) :
    t.wire = s.wire ∨ l = .flush ∧ d.moves s.phase = true := by
  cases hstep with
  | deliver f fs hmoves hopen hin => exact .inl (receive_wire tn.h2 s.toStreams f)
  | flush f fs hmoves hout => exact .inr ⟨rfl, hmoves⟩
  | ended id | gaveUp _ _ id | registered id | unasked id | unsent id => exact .inl (release_wire _ id false)
  | answered id | completed id => exact .inl (release_wire _ id true)
  | _ => exact .inl rfl

theorem wire_while_awaiting {id : Nat}
    (h : (connectAndServe .accept tn).Reaches (whileAwaiting id) s t) : t.wire = s.wire := by
  refine h.preserves (I := fun u => u.wire = s.wire) ?_ rfl
  intro u l v hu ha hs
  obtain ⟨received, hphase⟩ := ha
  -- a frame would have to be moved by `accept`, which is not polled here
  rcases wire_of_step (step_cases hs) with hw | ⟨_, hmoves⟩
  · exact hw.trans hu
  · rw [hphase] at hmoves
    exact absurd hmoves Bool.false_ne_true

/-- A registration that starts answers the stream, queues its call and then
waits. -/
theorem step_of_starts {l : Label} (hstart : StartsRegistration tn s l) :
    ∃ t id req rest tunnelId, s.incoming = (id, req) :: rest ∧
      tn.crates.uuidParse tn.creds.t = .ok tunnelId ∧ step d tn s l = some t ∧ Awaits t id ∧
      t = { s with
        incoming := rest
        outbound := s.outbound ++ [.headers id OK grpcHeaders false, callFrame tn id tunnelId]
        phase := .registering id [] } := by
  obtain ⟨rfl, hphase, id, req, rest, tunnelId, hin, hupg, hreset, huuid⟩ := hstart
  have hreset' : Streams.resetBy { s.toStreams with incoming := rest } id = none := hreset
  have hstep : step d tn s .accept = some (handleControlStream tn { s with incoming := rest } id) := by
    simp [step, hphase, hin, hupg]
  have hcontrol : handleControlStream tn { s with incoming := rest } id =
      { s with
        incoming := rest
        outbound := s.outbound ++ [.headers id OK grpcHeaders false, callFrame tn id tunnelId]
        phase := .registering id [] } := by
    rw [handleControlStream, hreset', huuid]
    rfl
  rw [hcontrol] at hstep
  exact ⟨_, id, req, rest, tunnelId, hin, huuid, hstep, ⟨[], rfl⟩, rfl⟩

theorem not_serviced_of_starts {l : Label} (hf : Fresh s) (hstart : StartsRegistration tn s l) :
    ∃ t id, step .accept tn s l = some t ∧ Awaits t id ∧ ¬ Serviced .accept tn t id := by
  obtain ⟨t, id, req, rest, tunnelId, hin, _, hstep, ha, ht⟩ := step_of_starts hstart
  refine ⟨t, id, hstep, ha, ?_⟩
  rintro ⟨⟨u, other, hreach, hcall⟩, _⟩
  have hwire : u.wire = s.wire := by
    rw [wire_while_awaiting hreach, ht]
  rw [hwire] at hcall
  -- the stream has just been taken up, and nothing was sent on it before
  have hnone := hf.unused id (by rw [hin]; exact List.mem_cons_self)
  have hsent : callFrame tn id other ∈ allOf s.toStreams id :=
    List.mem_filter.mpr ⟨List.mem_append_left _ hcall, beq_self_eq_true id⟩
  exact absurd (List.mem_filter.mpr ⟨hsent, rfl⟩) (hnone ▸ List.not_mem_nil)

theorem not_awaits_of_reachable
    (h : (connectAndServe d tn).Reachable (fun s l => ¬ StartsRegistration tn s l) s) :
    ∀ id, ¬ Awaits s id := by
  refine System.Reachable.invariant (I := fun s => ∀ id, ¬ Awaits s id) ?_ ?_ h
  · rintro s rfl id ⟨received, hphase⟩
    exact absurd hphase Phase.noConfusion
  · intro s l t hs hl hstep id ha
    exact (awaits_of_step (step_cases hstep) ha).elim (hs id) hl

/-- Runs that start no registration never deadlock, and the start of one
always leads to a state in which the handler waits for what cannot come. -/
theorem noDeadlock_iff_no_registration (tn : Tunnel) :
    (∀ s, (connectAndServe .accept tn).Reachable (fun s l => ¬ StartsRegistration tn s l) s →
      NoDeadlock .accept tn s) ∧
    ∀ s l, (connectAndServe .accept tn).Reachable System.anyStep s → StartsRegistration tn s l →
      ∃ t, step .accept tn s l = some t ∧ ¬ NoDeadlock .accept tn t := by
  constructor
  · intro s h
    have hn := not_awaits_of_reachable h
    exact ⟨fun hd => hd.2.1.elim hn, fun id ha => absurd ha (hn id)⟩
  · intro s l h hstart
    obtain ⟨t, id, hs, ha, hns⟩ := not_serviced_of_starts (fresh_of_reachable h) hstart
    exact ⟨t, hs, fun hnd => hns (hnd.2 id ha)⟩

def tunnel : Tunnel where
  creds := ⟨"account".toList, StandIns.secretText, StandIns.uuidText⟩
  connectorId := []
  osArch := "linux-x86_64".toList
  crates := StandIns.crates
  rpc := ⟨fun _ => ascii "call", fun _ => [], fun _ => none⟩
  h2 := StandIns.h2

def proxyRequest : HttpTypes.Request Unit where
  method := StandIns.GET
  uri := ⟨none, some StandIns.slash⟩
  headers := .empty
  body := ()

def controlRequest : HttpTypes.Request Unit :=
  { proxyRequest with headers := .ofList [(HDR_UPGRADE, ⟨ascii "control-stream", rfl⟩)] }

def opened (req : HttpTypes.Request Unit) : State :=
  { start with
    heard := [.headers 1 req false]
    incoming := [(1, req)]
    lastId := 1
    recv := fun j => if j = 1 then some ⟨[], .running⟩ else none }

theorem reachable_opened (req : HttpTypes.Request Unit) :
    (connectAndServe .accept tunnel).Reachable (fun s l => ¬ StartsRegistration tunnel s l)
      (opened req) := by
  let sent : State := { start with inbound := [.headers 1 req false] }
  have hedge : (connectAndServe .accept tunnel).step start (.edge (.headers 1 req false)) = some sent :=
    rfl
  have hdeliver : (connectAndServe .accept tunnel).step sent .deliver = some (opened req) := rfl
  refine ⟨start, rfl, .tail (.tail .refl ?_ hedge) ?_ hdeliver⟩
  · rintro ⟨hl, _⟩
    exact absurd hl Label.noConfusion
  · rintro ⟨hl, _⟩
    exact absurd hl Label.noConfusion

def proxying : State := { opened proxyRequest with incoming := [], tasks := [(1, proxyRequest)] }

theorem noDeadlock_iff_no_registration_proxied : NoDeadlock .accept tunnel proxying := by
  have hstep : (connectAndServe .accept tunnel).step (opened proxyRequest) .accept = some proxying := rfl
  refine (noDeadlock_iff_no_registration tunnel).1 _ ((reachable_opened proxyRequest).step ?_ hstep)
  rintro ⟨_, _, id, req, rest, _, hin, hupg, _⟩
  have hproxy : upgradeOf proxyRequest ≠ CONTROL_STREAM_VAL := by decide
  obtain rfl : proxyRequest = req := congrArg Prod.snd (List.cons.inj hin).1
  exact hproxy hupg

def waiting : State :=
  { opened controlRequest with
    phase := .registering 1 []
    incoming := []
    outbound := [.headers 1 OK grpcHeaders false, .data 1 (ascii "call") false] }

/-- The edge opens a control stream, and the tunnel never moves again: its
call stays in the queue. -/
theorem control_stream_deadlocks :
    (connectAndServe .accept tunnel).exec start
      [.edge (.headers 1 controlRequest false), .deliver, .accept] = some waiting ∧
    Deadlocked .accept tunnel waiting ∧ ¬ NoDeadlock .accept tunnel waiting := by
  have hblocked : (connectAndServe .accept tunnel).Blocked IsTunnel waiting := by
    intro l hl
    cases l with
    | edge f => exact absurd hl id
    | _ => rfl
  have hdead : Deadlocked .accept tunnel waiting := ⟨rfl, ⟨1, [], rfl⟩, hblocked⟩
  exact ⟨rfl, hdead, fun h => h.1 hdead⟩

def CallKept (tn : Tunnel) (s : State) : Prop :=
  ∀ id, Awaits s id → s.resetBy id = none → ∃ tunnelId, callFrame tn id tunnelId ∈ allOf s.toStreams id

theorem CallKept.step {l : Label} (h : CallKept tn s) (hf : Fresh s) (hstep : Step d tn s l t) : CallKept tn t := by
  intro id ha hlive
  rcases awaits_of_step hstep ha with hs | hstart
  · obtain ⟨j, fs, hhands⟩ := hands_of_step hstep
    obtain ⟨hall, hopen⟩ := (hhands.calm id).live hlive
    have hbound : id ≤ s.lastId := by
      obtain ⟨received, hphase⟩ := hs
      exact hf.bounded id (hf.owner (.inr (by rw [hphase]; rfl))).1
    obtain ⟨tunnelId, hcall⟩ := h id hs (hopen.resolve_right (Nat.not_lt.mpr hbound))
    refine ⟨tunnelId, ?_⟩
    rw [hall, allOf_send]
    exact List.mem_append_left _ hcall
  · obtain ⟨rfl, hphase, _⟩ := hstart
    obtain ⟨received, ha⟩ := ha
    cases hstep with
    | called j req rest tunnelId _ hin hupg _ huuid =>
        obtain ⟨rfl, _⟩ := Phase.registering.inj ha
        refine ⟨tunnelId, ?_⟩
        have hsent := allOf_send s.toStreams [.headers j OK grpcHeaders false, callFrame tn j tunnelId] j
        refine hsent ▸ List.mem_append_right _ (List.mem_filter.mpr ⟨?_, beq_self_eq_true j⟩)
        exact List.mem_cons_of_mem _ List.mem_cons_self
    | refused => exact absurd ha Phase.noConfusion
    | spawn j req rest _ hin hupg => exact absurd (hphase.symm.trans ha) Phase.noConfusion
    | gaveUp l hl => exact absurd hl (by simp)
    | unsent j l hl => exact absurd hl (by simp)

theorem callKept_of_reachable (h : (connectAndServe d tn).Reachable System.anyStep s) :
    Fresh s ∧ CallKept tn s := by
  refine h.invariant (I := fun s => Fresh s ∧ CallKept tn s) ?_ fun u l v hu _ hs =>
    ⟨hu.1.step (step_cases hs), hu.2.step hu.1 (step_cases hs)⟩
  rintro s rfl
  refine ⟨fresh_start, fun id ha => ?_⟩
  obtain ⟨received, hphase⟩ := ha
  exact absurd hphase Phase.noConfusion

theorem flush_all {id : Nat} (ha : Awaits s id) :
    ∃ t, (connectAndServe .independent tn).Reaches (whileAwaiting id) s t ∧
      t.wire = s.wire ++ s.outbound := by
  generalize hout : s.outbound = out
  induction out generalizing s with
  | nil => exact ⟨s, .refl, (List.append_nil _).symm⟩
  | cons f fs ih =>
      obtain ⟨received, hphase⟩ := ha
      have hflush : (connectAndServe .independent tn).step s .flush =
          some { s with outbound := fs, wire := s.wire ++ [f] } := by
        simp [connectAndServe, step, hphase, Driver.moves, hout]
      obtain ⟨t, ht, hw⟩ :=
        ih (s := { s with outbound := fs, wire := s.wire ++ [f] }) ⟨received, hphase⟩ rfl
      refine ⟨t, (System.Reaches.tail .refl ⟨received, hphase⟩ hflush).trans ht, ?_⟩
      rw [hw, List.append_assoc]
      rfl

theorem deliver_all {id : Nat} (ha : Awaits s id) :
    ∃ t, (connectAndServe .independent tn).Reaches (whileAwaiting id) s t ∧
      (t.inbound = [] ∨ t.closing ≠ none) := by
  generalize hin : s.inbound = fs
  induction fs generalizing s with
  | nil => exact ⟨s, .refl, .inl hin⟩
  | cons f fs ih =>
      by_cases hopen : s.closing = none
      · obtain ⟨received, hphase⟩ := ha
        have hdeliver : (connectAndServe .independent tn).step s .deliver =
            some { s with toStreams := receive tn.h2 s.toStreams f, inbound := fs } := by
          simp [connectAndServe, step, hphase, Driver.moves, hopen, hin]
        obtain ⟨t, ht, hdone⟩ :=
          ih (s := { s with toStreams := receive tn.h2 s.toStreams f, inbound := fs }) ⟨received, hphase⟩ rfl
        exact ⟨t, (System.Reaches.tail .refl ⟨received, hphase⟩ hdeliver).trans ht, hdone⟩
      · exact ⟨s, .refl, .inr hopen⟩

theorem serviced_of_independent
    (h : (connectAndServe .independent tn).Reachable System.anyStep s) {id : Nat} (ha : Awaits s id)
    (hlive : s.resetBy id = none) : Serviced .independent tn s id := by
  refine ⟨?_, deliver_all ha⟩
  obtain ⟨tunnelId, hcall⟩ := (callKept_of_reachable h).2 id ha hlive
  obtain ⟨t, ht, hw⟩ := @flush_all tn s id ha
  refine ⟨t, tunnelId, ht, ?_⟩
  rw [hw]
  exact (List.mem_filter.mp hcall).1

end MiniCloudflared.Deadlock
