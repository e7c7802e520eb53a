import MiniCloudflared.WholeTunnel

namespace MiniCloudflared.Registration

open Library HttpTypes RequestBody Http2 SentFrames Connection StreamOwners Deadlock Answers OwnRequests Registered
open Reconnect Startup WholeTunnel Library.System

variable {d : Driver} {tn : Tunnel} {s t : Connection.State} {l : Connection.Label} {id : Nat}

/-- The edge has opened a control stream, and these are the first bytes that it
has sent there. -/
def Told (fs : List InFrame) (id : Nat) (bytes : Bytes) : Prop :=
  ∃ req body, opening id fs = some req ∧ upgradeOf req = CONTROL_STREAM_VAL ∧ received id fs = some body ∧
    bytes <+: body.payload

/-- What a registration rests on: a call for the tunnel of the token, and bytes
of the edge. -/
structure Founded (tn : Tunnel) (s : Connection.State) : Prop where
  registering : ∀ id bytes, s.phase = .registering id bytes →
    ∃ req tunnelId, upgradeOf req = CONTROL_STREAM_VAL ∧ tn.crates.uuidParse tn.creds.t = .ok tunnelId ∧
      Carries s id req bytes
  registered : ∀ id location, s.phase = .registered id location →
    ∃ fs bytes tunnelId, fs <+: s.heard ∧ Told fs id bytes ∧ tn.rpc.answer bytes = some (.ok location) ∧
      tn.crates.uuidParse tn.creds.t = .ok tunnelId

theorem founded_start : Founded tn start where
  registering _ _ h := absurd h Phase.noConfusion
  registered _ _ h := absurd h Phase.noConfusion

theorem carries_control (hf : Fresh s) (hstep : Step d tn s l t) (hphase : controls s.phase = some id)
    (hl : l ≠ .read ∧ l ≠ .resolve) :
    t.phase = s.phase ∧ ∀ req read, Carries s id req read → Carries t id req read := by
  have hidle {phase : Phase} (h : s.phase = phase) (hnone : controls phase = none) : False :=
    Option.some_ne_none id (hphase.symm.trans (h ▸ hnone))
  have hapart {j : Nat} {req : HttpTypes.Request Unit} (htask : taskOf s j = some req) : id ≠ j := by
    rintro rfl
    exact hf.control_task hphase (List.mem_map_of_mem (task_mem htask))
  have hended (u : Connection.State) {j : Nat} {req : HttpTypes.Request Unit} (htask : taskOf s j = some req)
      (finished : Bool) (hrecv : u.recv = s.recv) (hheard : u.heard = s.heard) {req' : HttpTypes.Request Unit}
      {read : Bytes} (h : Carries s id req' read) : Carries (u.endTask j finished) id req' read :=
    h.keep ((release_heard _ j finished).trans hheard)
      (.inl ((release_other _ (hapart htask) finished).trans (congrFun hrecv id)))
  cases hstep with
  | deliver f fs hmoves hopen hin =>
      exact ⟨rfl, fun req read h => h.receive (t := { s with toStreams := _, inbound := fs }) hf.streams rfl⟩
  | called j req rest tunnelId h | refused j req rest e h | spawn j req rest h | finish c h => exact (hidle h rfl).elim
  | read | ended => exact absurd rfl hl.1
  | registered => exact absurd rfl hl.2
  | gaveUp l h =>
      rcases h with rfl | rfl
      · exact absurd rfl hl.1
      · exact absurd rfl hl.2
  | drained j req rule buf chunk r r' htask =>
      exact ⟨rfl, fun _ _ h => h.keep rfl (.inl (if_neg (hapart htask)))⟩
  | unasked j req rule buf e htask => exact ⟨rfl, fun _ _ h => hended s htask false rfl rfl h⟩
  | unsent j l _ req htask => exact ⟨rfl, fun _ _ h => hended s htask false rfl rfl h⟩
  | answered j req resp headers htask =>
      exact ⟨rfl, fun _ _ h => hended { s with toStreams := s.send _ } htask true rfl rfl h⟩
  | completed j req body htask =>
      exact ⟨rfl, fun _ _ h => hended { s with toStreams := s.send _ } htask true rfl rfl h⟩
  | _ => exact ⟨rfl, fun _ _ h => h.keep rfl (.inl rfl)⟩

theorem Founded.step {ls : List Connection.Label} (h : Founded tn s) (hh : History tn ls s) (hstep : Step d tn s l t) :
    Founded tn t := by
  have hgone (hnone : controls t.phase = none) : Founded tn t := by
    refine ⟨fun id bytes hp => ?_, fun id location hp => ?_⟩
    all_goals
      rw [hp] at hnone
      exact absurd hnone (Option.some_ne_none id)
  have hkept (hphase : t.phase = s.phase) (hl : l ≠ .read ∧ l ≠ .resolve) : Founded tn t := by
    refine ⟨fun id bytes hp => ?_, fun id location hp => ?_⟩
    · obtain ⟨req, tunnelId, hupg, huuid, hread⟩ := h.registering id bytes (hphase ▸ hp)
      have hcontrols : controls s.phase = some id := by rw [← hphase, hp]; rfl
      exact ⟨req, tunnelId, hupg, huuid, (carries_control hh.pending.fresh hstep hcontrols hl).2 req bytes hread⟩
    · obtain ⟨fs, bytes, tunnelId, hfs, hrest⟩ := h.registered id location (hphase ▸ hp)
      exact ⟨fs, bytes, tunnelId, hfs.trans (heard_of_step hstep).1, hrest⟩
  cases hstep with
  | called j req rest tunnelId hphase hin hupg hlive huuid =>
      refine ⟨fun id bytes hp => ?_, fun id location hp => absurd hp Phase.noConfusion⟩
      obtain ⟨rfl, rfl⟩ := Phase.registering.inj hp
      have hread := hh.waiting j req (by rw [hin]; exact List.mem_cons_self)
      exact ⟨req, tunnelId, hupg, huuid, hread.keep rfl (.inl rfl)⟩
  | refused | finish | ended | gaveUp => exact hgone rfl
  | read j before r r' b bs hphase hrecv hpoll =>
      refine ⟨fun id bytes hp => ?_, fun id location hp => absurd hp Phase.noConfusion⟩
      obtain ⟨rfl, rfl⟩ := Phase.registering.inj hp
      obtain ⟨req, tunnelId, hupg, huuid, hread⟩ := h.registering j before hphase
      exact ⟨req, tunnelId, hupg, huuid, hread.polled hrecv hpoll rfl (if_pos rfl)⟩
  | registered j before place hphase hanswer =>
      refine ⟨fun id bytes hp => absurd hp Phase.noConfusion, fun id location hp => ?_⟩
      obtain ⟨rfl, rfl⟩ := Phase.registered.inj hp
      obtain ⟨req, tunnelId, hupg, huuid, r, fs, body, hr, hfs, hopen, hbody, hpayload, _⟩ :=
        h.registering j before hphase
      refine ⟨fs, before, tunnelId, ?_, ⟨req, body, hopen, hupg, hbody, hpayload ▸ List.prefix_append _ _⟩, hanswer,
        huuid⟩
      rw [show Streams.heard _ = s.heard from release_heard _ j false]
      exact hfs
  | unsent j l hl => exact hkept rfl (by rcases hl with rfl | rfl <;> exact ⟨Label.noConfusion, Label.noConfusion⟩)
  | _ => exact hkept rfl ⟨Label.noConfusion, Label.noConfusion⟩

theorem founded_of_run {ls : List Connection.Label} (h : (connectAndServe d tn).exec start ls = some s) :
    Founded tn s :=
  exec_record (I := fun s _ => Founded tn s) h founded_start fun _ _ _ _ hks hu hs =>
    hu.step (run_answers hks).1 (step_cases hs)

theorem control_sent {ls : List Connection.Label} {sent : List OutFrame} {heard : List InFrame}
    {bytes tunnelId : Bytes} (h : Answer tn ls id sent) (hheard : heard <+: edgeFrames ls) (htold : Told heard id bytes)
    (huuid : tn.crates.uuidParse tn.creds.t = .ok tunnelId) : ∃ whole, ControlFrames tn id whole ∧ sent <+: whole := by
  obtain ⟨req, body, hopen, hupg, _⟩ := htold
  have hopening {gs : List InFrame} (hgs : gs <+: edgeFrames ls) {req' : HttpTypes.Request Unit}
      (ho : opening id gs = some req') : opening id (edgeFrames ls) = some req' := by
    obtain ⟨more, hmore⟩ := hgs
    exact hmore ▸ opening_append ho more
  cases h with
  | silent => exact ⟨_, .called tunnelId [] huuid fun f hf => absurd hf List.not_mem_nil, List.nil_prefix⟩
  | control _ frames _ _ _ hframes hsent => exact ⟨frames, hframes, hsent⟩
  | proxied req' frames _ hne hreplied =>
      obtain ⟨gs, body', rules, env, fuel, io, hgs, hopen', _⟩ := hreplied
      obtain rfl := Option.some.inj ((hopening hheard hopen).symm.trans (hopening hgs hopen'))
      exact absurd hupg hne

variable {edge : Edge} {w : World} {cfg : TunnelConfig} {st : Started} {connectorId : Bytes} {osArch : Str} {rpc : Rpc}
  {h2 : H2}

/-- The tunnel takes itself for registered only on the word of the edge: on a
control stream that the edge has opened, by the bytes that the edge has sent
there, where the tunnel sends nothing before its response and its call. What goes
on on other streams and other connections has no part in it. -/
theorem registered_by_edge (hst : startTunnel w cfg = .ok st) {ls : List WholeTunnel.Label} {s : WholeTunnel.State}
    (h : (tunnelRun d (tunnelOf w st connectorId osArch rpc h2) edge st.configPath).exec (begunAt w st) ls = some s)
    {i : Nat} {a : Link} (ha : s.links[i]? = some a) {location : Str}
    (hphase : a.conn.phase = .registered id location) :
    ∃ heard bytes whole, heard <+: framesTo i ls ∧ Told heard id bytes ∧ rpc.answer bytes = some (.ok location) ∧
      ControlFrames (tunnelOf w st connectorId osArch rpc h2) id whole ∧ framesOf a.conn.toStreams id <+: whole := by
  obtain ⟨ks, hks, hedges⟩ := connection_of_run (rules_of_start hst) h ha
  obtain ⟨heard, bytes, tunnelId, hheard, htold, hanswer, huuid⟩ := (founded_of_run hks).registered id location hphase
  obtain ⟨hhistory, _⟩ := run_answers hks
  have hprefix := hheard.trans hhistory.heard_prefix
  obtain ⟨whole, hwhole, hsent⟩ := control_sent (hhistory.answers id) hprefix htold huuid
  exact ⟨heard, bytes, whole, hedges ▸ hprefix, htold, hanswer, hwhole, hsent⟩

def earlyAnswer : List Connection.Label :=
  [.edge (.headers 1 controlRequest false), .edge (.data 1 (ascii "ret") false), .edge (.data 1 (ascii "urn") false),
    .deliver, .deliver, .deliver, .accept, .read, .read, .resolve]

def registeringRun : List WholeTunnel.Label :=
  .dial wayOpen :: earlyAnswer.map fun l => .link 0 (.conn l)

def answeringOffline : Tunnel := tunnelOf offline Rotation.startedOffline [] [] answeringTunnel.rpc StandIns.h2

theorem registered_by_edge_earlyAnswer :
    ∃ s a bytes whole,
      (tunnelRun .accept answeringOffline (Rotation.edgeOf Rotation.display Rotation.startedOffline)
        Rotation.startedOffline.configPath).exec (begunAt offline Rotation.startedOffline) registeringRun = some s ∧
      s.links[0]? = some a ∧ a.conn.phase = .registered 1 "fra01".toList ∧ bytes = ascii "return" ∧
      ControlFrames answeringOffline 1 whole ∧ framesOf a.conn.toStreams 1 <+: whole := by
  obtain ⟨s, a, hs, ha, hphase⟩ : ∃ s a,
      (tunnelRun .accept answeringOffline (Rotation.edgeOf Rotation.display Rotation.startedOffline)
        Rotation.startedOffline.configPath).exec (begunAt offline Rotation.startedOffline) registeringRun = some s ∧
      s.links[0]? = some a ∧ a.conn.phase = .registered 1 "fra01".toList := ⟨_, _, rfl, rfl, rfl⟩
  obtain ⟨heard, bytes, whole, _, _, hanswer, hwhole, hsent⟩ := registered_by_edge startedOffline_eq hs ha hphase
  refine ⟨s, a, bytes, whole, hs, ha, hphase, ?_, hwhole, hsent⟩
  by_contra hother
  exact absurd ((if_neg hother).symm.trans hanswer) (by simp)

end MiniCloudflared.Registration
