import MiniCloudflared.Deadlock
import MiniCloudflared.Library.Runs

namespace MiniCloudflared.Answers

open Library Http1 HttpTypes Config ThirdParty Origin RequestBody ProxyStream Http2 SentFrames Connection StreamOwners
open Deadlock Library.System

inductive Sending
  | idle
  | opened
  | closed

def closedIf (endStream : Bool) : Sending := if endStream then .closed else .opened

/-- A response comes first and comes once, nothing follows the end of the stream,
and after a reset there are only resets. -/
def sendHalf (final : StatusCode → Bool) : System Sending OutFrame where
  init s := s = .idle
  step
    | _, .reset _ => some .closed
    | .idle, .headers _ status _ endStream => if final status then some (closedIf endStream) else none
    | .opened, .data _ _ endStream => some (closedIf endStream)
    | _, _ => none

/-- A status below 200 announces another head, and no data may follow it. -/
def isFinal (status : StatusCode) : Bool := decide (200 ≤ status.code)

def headStatus : OutFrame → Option StatusCode
  | .headers _ status _ _ => some status
  | _ => none

variable {d : Driver} {tn : Tunnel} {s t : State} {l : Label}

theorem sendHalf_final {final : StatusCode → Bool} {st st' : Sending} {fs : List OutFrame}
    (h : (sendHalf fun _ => true).exec st fs = some st') :
    (∃ u, (sendHalf final).exec st fs = some u) ↔
      ∀ f, f ∈ fs → ∀ status, headStatus f = some status → final status = true := by
  induction fs generalizing st with
  | nil => exact ⟨fun _ f hf => absurd hf List.not_mem_nil, fun _ => ⟨st, rfl⟩⟩
  | cons f fs ih =>
      obtain ⟨v, hv, h⟩ := Option.bind_eq_some_iff.mp h
      have hrest := ih h
      rw [List.forall_mem_cons, ← hrest]
      have hstep (hf : ∀ status, headStatus f = some status → final status = true) :
          (sendHalf final).step st f = some v := by
        cases f with
        | headers id status headers endStream =>
            cases st with
            | idle => exact (if_pos (hf status rfl)).trans hv
            | opened | closed => exact absurd hv (by simp [sendHalf])
        | data => cases st <;> exact hv
        | reset => cases st <;> exact hv
      constructor
      · rintro ⟨u, hu⟩
        obtain ⟨w, hw, hu⟩ := Option.bind_eq_some_iff.mp hu
        have hfinal : ∀ status, headStatus f = some status → final status = true := by
          rintro status hstatus
          cases f with
          | headers id status' headers endStream =>
              obtain rfl := Option.some.inj hstatus
              cases st with
              | idle =>
                  by_contra hne
                  exact absurd ((if_neg hne).symm.trans hw) (by simp)
              | opened | closed => exact absurd hv (by simp [sendHalf])
          | data | reset => exact absurd hstatus (by simp [headStatus])
        obtain rfl : w = v := Option.some.inj (hw.symm.trans (hstep hfinal))
        exact ⟨hfinal, u, hu⟩
      · rintro ⟨hfinal, u, hu⟩
        exact ⟨u, by rw [exec, hstep hfinal, Option.bind_some, hu]⟩

theorem sendHalf_resets {final : StatusCode → Bool} {id : Nat} {fs : List OutFrame} (hfs : ∀ f, f ∈ fs → f = .reset id)
    (st : Sending) : ∃ u, (sendHalf final).exec st fs = some u := by
  induction fs generalizing st with
  | nil => exact ⟨st, rfl⟩
  | cons f fs ih =>
      rw [List.forall_mem_cons] at hfs
      obtain ⟨rfl, hfs⟩ := hfs
      obtain ⟨u, hu⟩ := ih hfs .closed
      exact ⟨u, by cases st <;> exact hu⟩

theorem sendHalf_datas {final : StatusCode → Bool} {id : Nat} {fs : List OutFrame}
    (hfs : ∀ f, f ∈ fs → ∃ bs, f = .data id bs false) : (sendHalf final).exec .opened fs = some .opened := by
  induction fs with
  | nil => rfl
  | cons f fs ih =>
      rw [List.forall_mem_cons] at hfs
      obtain ⟨⟨bs, rfl⟩, hfs⟩ := hfs
      exact ih hfs

theorem sending_of_step (hstep : Step d tn s l t) {id : Nat} {body : Bytes} (h : t.stage id = .sending body) :
    s.stage id = .sending body ∨ ∃ req resp headers, taskOf s id = some req ∧ s.stage id = .answering resp ∧
      edgeHeaders resp.headers = .ok headers ∧ resp.body ≠ [] ∧ body = resp.body ∧ s.resetBy id = none ∧
      t.toStreams = s.send [.headers id resp.status headers false] := by
  have hset {u : State} {j : Nat} {stage : Stage} (hu : u.stage = s.stage) (hstage : ∀ b, stage ≠ .sending b)
      (h : (u.setStage j stage).stage id = .sending body) : s.stage id = .sending body := by
    by_cases hj : id = j
    · exact absurd ((if_pos hj).symm.trans h) (hstage body)
    · exact hu ▸ (if_neg hj).symm.trans h
  have hend (u : State) (j : Nat) (finished : Bool) (hu : u.stage = s.stage)
      (h : (u.endTask j finished).stage id = .sending body) : s.stage id = .sending body := by
    by_cases hj : id = j
    · exact absurd ((if_pos hj).symm.trans h) Stage.noConfusion
    · exact hu ▸ (if_neg hj).symm.trans h
  cases hstep with
  | look j rules req =>
      refine .inl (hset rfl (fun b => ?_) h)
      cases selectRule tn.crates.caseTable rules req <;> exact Stage.noConfusion
  | drained | asked | exchange => exact .inl (hset rfl (fun _ => Stage.noConfusion) h)
  | unasked j => exact .inl (hend s j false rfl h)
  | unsent j => exact .inl (hend s j false rfl h)
  | answered j => exact .inl (hend { s with toStreams := s.send _ } j true rfl h)
  | completed j => exact .inl (hend { s with toStreams := s.send _ } j true rfl h)
  | headed j req resp headers htask hstage hheaders hlive hbody =>
      by_cases hj : id = j
      · subst hj
        obtain rfl := Stage.sending.inj ((if_pos rfl).symm.trans h)
        exact .inr ⟨req, resp, headers, htask, hstage, hheaders, hbody, rfl, hlive, rfl⟩
      · exact .inl ((if_neg hj).symm.trans h)
  | _ => exact .inl h

theorem sending_kept (hstep : Step d tn s l t) {id : Nat} {body : Bytes} (h : s.stage id = .sending body) :
    t.stage id = .sending body ∨ id ∉ t.tasks.map Prod.fst := by
  have hset {u : State} {j : Nat} {stage stage' : Stage} (hu : u.stage = s.stage) (hold : s.stage j = stage')
      (hstage : stage' ≠ .sending body) : (u.setStage j stage).stage id = .sending body := by
    have hj : id ≠ j := by
      rintro rfl
      exact hstage (hold.symm.trans h)
    exact (if_neg hj).trans (hu ▸ h)
  have hend (u : State) (j : Nat) (finished : Bool) (hu : u.stage = s.stage) :
      (u.endTask j finished).stage id = .sending body ∨ id ∉ (u.endTask j finished).tasks.map Prod.fst := by
    by_cases hj : id = j
    · exact .inr (hj ▸ not_task_endTask u id finished)
    · exact .inl ((if_neg hj).trans (hu ▸ h))
  cases hstep with
  | look j rules req htask hstage => exact .inl (hset rfl hstage Stage.noConfusion)
  | drained j req rule buf chunk r r' htask hstage => exact .inl (hset rfl hstage Stage.noConfusion)
  | asked j req rule buf originReq htask hstage => exact .inl (hset rfl hstage Stage.noConfusion)
  | exchange j env req rule originReq htask hstage => exact .inl (hset rfl hstage Stage.noConfusion)
  | headed j req resp headers htask hstage => exact .inl (hset rfl hstage Stage.noConfusion)
  | unasked j => exact hend s j false rfl
  | unsent j => exact hend s j false rfl
  | answered j req resp headers => exact hend { s with toStreams := s.send _ } j true rfl
  | completed j req body => exact hend { s with toStreams := s.send _ } j true rfl
  | _ => exact .inl h

inductive ControlFrames (tn : Tunnel) (id : Nat) : List OutFrame → Prop
  | called (tunnelId : Bytes) (more : List OutFrame) (huuid : tn.crates.uuidParse tn.creds.t = .ok tunnelId)
      (hmore : ∀ f, f ∈ more → ∃ bs, f = .data id bs false) :
      ControlFrames tn id (.headers id OK grpcHeaders false :: callFrame tn id tunnelId :: more)

theorem ControlFrames.further {id : Nat} {fs : List OutFrame} (h : ControlFrames tn id fs) (bs : Bytes) :
    ControlFrames tn id (fs ++ [.data id bs false]) := by
  cases h with
  | called tunnelId more huuid hmore =>
      refine .called tunnelId (more ++ [.data id bs false]) huuid fun f hf => ?_
      rcases List.mem_append.mp hf with hf | hf
      · exact hmore f hf
      · exact ⟨bs, List.mem_singleton.mp hf⟩

theorem ControlFrames.taken {id : Nat} {fs : List OutFrame} (h : ControlFrames tn id fs) :
    (sendHalf fun _ => true).exec .idle fs = some .opened := by
  cases h with
  | called tunnelId more huuid hmore =>
      have hdatas : ∀ f, f ∈ callFrame tn id tunnelId :: more → ∃ bs, f = .data id bs false := by
        rw [List.forall_mem_cons]
        exact ⟨⟨_, rfl⟩, hmore⟩
      exact sendHalf_datas hdatas

theorem registering_of_step (hstep : Step d tn s l t) {id : Nat} {received : Bytes}
    (h : t.phase = .registering id received) : (∃ before, s.phase = .registering id before) ∨
      ∃ req tunnelId, s.incoming = (id, req) :: t.incoming ∧ s.resetBy id = none ∧ upgradeOf req = CONTROL_STREAM_VAL ∧
        tn.crates.uuidParse tn.creds.t = .ok tunnelId ∧
        t.toStreams = Streams.send { s.toStreams with incoming := t.incoming }
          [.headers id OK grpcHeaders false, callFrame tn id tunnelId] := by
  cases hstep with
  | called j req rest tunnelId hphase hin hupg hlive huuid =>
      obtain ⟨rfl, _⟩ := Phase.registering.inj h
      exact .inr ⟨req, tunnelId, hin, hlive, hupg, huuid, rfl⟩
  | read j before r r' b bs hphase =>
      obtain ⟨rfl, _⟩ := Phase.registering.inj h
      exact .inl ⟨before, hphase⟩
  | refused | finish | ended | gaveUp | registered => exact absurd h Phase.noConfusion
  | _ => exact .inl ⟨received, h⟩

/-- What has been sent on a stream, told from where its owner stands. -/
structure Pending (tn : Tunnel) (s : State) : Prop where
  fresh : Fresh s
  idle : ∀ id, id ∉ s.tasks.map Prod.fst → s.stage id = .arrived
  silent : ∀ id, id ∈ s.tasks.map Prod.fst → (∀ body, s.stage id ≠ .sending body) → framesOf s.toStreams id = []
  begun : ∀ id body, s.stage id = .sending body → s.resetBy id = none →
    ∃ status headers, framesOf s.toStreams id = [.headers id status headers false]
  control : ∀ id received, s.phase = .registering id received → s.resetBy id = none →
    ControlFrames tn id (framesOf s.toStreams id)

theorem pending_start : Pending tn start where
  fresh := fresh_start
  idle _ _ := rfl
  silent _ h := absurd h List.not_mem_nil
  begun _ _ h := absurd h Stage.noConfusion
  control _ _ h := absurd h Phase.noConfusion

theorem framesOf_send_own {m : Streams} {fs : List OutFrame} {id : Nat}
    (hfs : ∀ f, f ∈ fs → f.id = id ∧ f.isReset = false) : framesOf (m.send fs) id = framesOf m id ++ fs := by
  rw [framesOf, allOf_send_own fun f hf => (hfs f hf).1, answers, List.filter_append, ← answers, ← framesOf,
    List.filter_eq_self.mpr fun f hf => by rw [(hfs f hf).2]; rfl]

/-- A stream on which nothing is handed over keeps what was sent on it, unless
it is given up. -/
theorem hands_other {j : Nat} {fs : List OutFrame} (h : Hands tn s t j fs) {id : Nat} (hid : fs ≠ [] → id ≠ j) :
    framesOf t.toStreams id <+: framesOf s.toStreams id ∧ (t.resetBy id = none →
      framesOf t.toStreams id = framesOf s.toStreams id ∧ (s.resetBy id = none ∨ s.lastId < id)) := by
  have hsame : framesOf (s.send fs) id = framesOf s.toStreams id := by
    by_cases hne : fs = []
    · rw [hne, framesOf, allOf_send, List.filter_nil, List.append_nil]
      rfl
    · exact framesOf_send_other (fun f hf => (h.handed.own f hf).1) (hid hne)
  have hcalm := h.calm id
  rw [← hsame]
  exact ⟨hcalm.framesOf_first, fun hlive => ⟨hcalm.framesOf_live hlive, (hcalm.live hlive).2⟩⟩

namespace Pending

theorem idle_step (h : Pending tn s) (hstep : Step d tn s l t) (id : Nat)
    (hid : id ∉ s.tasks.map Prod.fst ∨ id ∉ t.tasks.map Prod.fst) : t.stage id = .arrived := by
  have hset {j : Nat} {req : HttpTypes.Request Unit} {stage : Stage} (htask : taskOf s j = some req)
      (hid : id ∉ s.tasks.map Prod.fst ∨ id ∉ s.tasks.map Prod.fst) :
      (s.setStage j stage).stage id = .arrived := by
    rw [or_self] at hid
    have hj : id ≠ j := by
      rintro rfl
      exact hid (List.mem_map_of_mem (task_mem htask))
    exact (if_neg hj).trans (h.idle id hid)
  have hend (u : State) (j : Nat) (finished : Bool) (htasks : u.tasks = s.tasks) (hstage : u.stage = s.stage)
      (hid : id ∉ s.tasks.map Prod.fst ∨ id ∉ (u.endTask j finished).tasks.map Prod.fst) :
      (u.endTask j finished).stage id = .arrived := by
    by_cases hj : id = j
    · exact if_pos hj
    · refine (if_neg hj).trans (hstage ▸ h.idle id fun hmem => hid.elim (absurd hmem) fun hid => hid ?_)
      obtain ⟨p, hp, rfl⟩ := List.mem_map.mp hmem
      exact List.mem_map_of_mem (List.mem_filter.mpr ⟨htasks ▸ hp, bne_iff_ne.mpr hj⟩)
  cases hstep with
  | look j rules req htask hstage => exact hset htask hid
  | drained j req rule buf chunk r r' htask hstage => exact hset htask hid
  | asked j req rule buf originReq htask hstage => exact hset htask hid
  | exchange j env req rule originReq htask hstage => exact hset htask hid
  | headed j req resp headers htask hstage => exact hset htask hid
  | unasked j => exact hend s j false rfl rfl hid
  | unsent j => exact hend s j false rfl rfl hid
  | answered j req resp headers => exact hend { s with toStreams := s.send _ } j true rfl rfl hid
  | completed j req body => exact hend { s with toStreams := s.send _ } j true rfl rfl hid
  | spawn j req rest =>
      refine h.idle id fun hmem => hid.elim (absurd hmem) fun hid => hid ?_
      rw [List.map_append]
      exact List.mem_append_left _ hmem
  | _ => exact h.idle id (hid.elim (fun hid => hid) fun hid => hid)

theorem tasks_of_step (hstep : Step d tn s l t) {p : Nat × HttpTypes.Request Unit} (hp : p ∈ t.tasks) :
    p ∈ s.tasks ∨ p ∈ s.incoming ∧ upgradeOf p.2 ≠ CONTROL_STREAM_VAL := by
  cases hstep with
  | spawn id req rest hphase hin hupg =>
      rcases List.mem_append.mp hp with hp | hp
      · exact .inl hp
      · obtain rfl := List.mem_singleton.mp hp
        exact .inr ⟨by rw [hin]; exact List.mem_cons_self, hupg⟩
  | unasked | unsent | answered | completed => exact .inl (List.mem_of_mem_filter hp)
  | _ => exact .inl hp

theorem silent_step (h : Pending tn s) (ht : Fresh t) (hstep : Step d tn s l t) (id : Nat)
    (hid : id ∈ t.tasks.map Prod.fst) (hstage : ∀ body, t.stage id ≠ .sending body) :
    framesOf t.toStreams id = [] := by
  obtain ⟨j, fs, hhands⟩ := hands_of_step hstep
  have hold : framesOf s.toStreams id = [] := by
    obtain ⟨p, hp, rfl⟩ := List.mem_map.mp hid
    rcases tasks_of_step hstep hp with hp | ⟨hp, _⟩
    · refine h.silent p.1 (List.mem_map_of_mem hp) fun body hbody => ?_
      rcases sending_kept hstep hbody with hkept | hended
      · exact hstage body hkept
      · exact hended hid
    · exact h.fresh.unused p.1 (List.mem_map_of_mem hp)
  refine List.prefix_nil.mp (hold ▸ (hands_other hhands fun hne => ?_).1)
  rintro rfl
  cases hhands.handed with
  | nothing => exact hne rfl
  | called req tunnelId hin hupg huuid hphase => exact ht.control_task (by rw [hphase]; rfl) hid
  | further before received more hbefore hphase => exact ht.control_task (by rw [hphase]; rfl) hid
  | headed req resp headers htask hold hheaders hbody hnext => exact hstage _ hnext
  | answered req resp headers htask hold hheaders hbody hnext => exact hnext hid
  | completed req body htask hold hnext => exact hnext hid

/-- While a handler has its body to send, nobody else sends on its stream. -/
theorem sending_apart (ht : Fresh t) {j : Nat} {fs : List OutFrame} (hhands : Hands tn s t j fs)
    {id : Nat} {body : Bytes} (hold : s.stage id = .sending body) (hid : id ∈ t.tasks.map Prod.fst)
    (hne : fs ≠ []) : id ≠ j := by
  rintro rfl
  cases hhands.handed with
  | nothing => exact hne rfl
  | called req tunnelId hin hupg huuid hphase => exact ht.control_task (by rw [hphase]; rfl) hid
  | further before received more hbefore hphase => exact ht.control_task (by rw [hphase]; rfl) hid
  | headed req resp headers htask hanswering => exact Stage.noConfusion (hold.symm.trans hanswering)
  | answered req resp headers htask _ _ _ hnext => exact hnext hid
  | completed req body htask _ hnext => exact hnext hid

theorem begun_step (h : Pending tn s) (ht : Fresh t) (hstep : Step d tn s l t) (id : Nat) (body : Bytes)
    (hstage : t.stage id = .sending body) (hlive : t.resetBy id = none) :
    ∃ status headers, framesOf t.toStreams id = [.headers id status headers false] := by
  have hid : id ∈ t.tasks.map Prod.fst :=
    not_not.mp fun hnot => Stage.noConfusion ((h.idle_step hstep id (.inr hnot)).symm.trans hstage)
  rcases sending_of_step hstep hstage with hold | ⟨req, resp, headers, htask, hanswering, _, _, _, _, ht⟩
  · obtain ⟨j, fs, hhands⟩ := hands_of_step hstep
    have htask : id ∈ s.tasks.map Prod.fst :=
      not_not.mp fun hnot => Stage.noConfusion ((h.idle id hnot).symm.trans hold)
    obtain ⟨hsame, hopen⟩ := (hands_other hhands (sending_apart ht hhands hold hid)).2 hlive
    rw [hsame]
    exact h.begun id body hold (hopen.resolve_right
      (Nat.not_lt.mpr (h.fresh.bounded id (h.fresh.owner (.inl htask)).1)))
  · refine ⟨resp.status, headers, ?_⟩
    have hnone := h.silent id (List.mem_map_of_mem (task_mem htask)) fun b hb =>
      Stage.noConfusion (hanswering.symm.trans hb)
    rw [ht, framesOf_send_own (by simp [OutFrame.id, OutFrame.isReset]), hnone, List.nil_append]

theorem control_step (h : Pending tn s) (hstep : Step d tn s l t) (id : Nat) (received : Bytes)
    (hphase : t.phase = .registering id received) (hlive : t.resetBy id = none) :
    ControlFrames tn id (framesOf t.toStreams id) := by
  rcases registering_of_step hstep hphase with ⟨before, hbefore⟩ | ⟨req, tunnelId, hin, hslive, _, huuid, ht⟩
  · obtain ⟨j, fs, hhands⟩ := hands_of_step hstep
    obtain ⟨howned, hnew⟩ := h.fresh.owner (.inr (by rw [hbefore]; rfl) : _ ∨ controls s.phase = some id)
    have hbound : ¬ s.lastId < id := Nat.not_lt.mpr (h.fresh.bounded id howned)
    have hother (hid : fs ≠ [] → id ≠ j) : ControlFrames tn id (framesOf t.toStreams id) := by
      obtain ⟨hsame, hopen⟩ := (hands_other hhands hid).2 hlive
      rw [hsame]
      exact h.control id before hbefore (hopen.resolve_right hbound)
    by_cases hid : id = j
    · subst hid
      have hapart {req : HttpTypes.Request Unit} (htask : taskOf s id = some req) : False :=
        h.fresh.control_task (by rw [hbefore]; rfl) (List.mem_map_of_mem (task_mem htask))
      cases hhands.handed with
      | nothing => exact hother fun hne => absurd rfl hne
      | called req tunnelId hin => exact absurd (by rw [hin]; exact List.mem_cons_self) hnew
      | further before' received' more hbefore' hphase' =>
          rw [(hhands.calm id).framesOf_live hlive, framesOf_send_own hhands.handed.own]
          exact (h.control id before hbefore (hhands.live (List.cons_ne_nil _ _))).further more
      | headed req resp headers htask => exact (hapart htask).elim
      | answered req resp headers htask => exact (hapart htask).elim
      | completed req body htask => exact (hapart htask).elim
    · exact hother fun _ => hid
  · have hnone : framesOf { s.toStreams with incoming := t.incoming } id = [] :=
      h.fresh.unused id (by rw [hin]; exact List.mem_cons_self)
    rw [ht, framesOf_send_own (by simp [OutFrame.id, OutFrame.isReset, callFrame]), hnone]
    exact .called tunnelId [] huuid fun f hf => absurd hf List.not_mem_nil

theorem step (h : Pending tn s) (hstep : Step d tn s l t) : Pending tn t where
  fresh := h.fresh.step hstep
  idle id hid := h.idle_step hstep id (.inr hid)
  silent := h.silent_step (h.fresh.step hstep) hstep
  begun := h.begun_step (h.fresh.step hstep) hstep
  control := h.control_step hstep

end Pending

theorem allOf_live (h : Coherent s.toStreams) {id : Nat} (hlive : s.resetBy id = none) :
    allOf s.toStreams id = framesOf s.toStreams id := by
  refine (List.filter_eq_self.mpr fun f hf => ?_).symm
  rw [h.unreset id hlive f hf]
  rfl

def Accepted (s : State) (id : Nat) : Prop :=
  ∃ st, (sendHalf fun _ => true).exec .idle (allOf s.toStreams id) = some st

theorem accepted_handed {id : Nat} {fs : List OutFrame} (h : Pending tn s) (hhands : Hands tn s t id fs)
    (hne : fs ≠ []) : ∃ st, (sendHalf fun _ => true).exec .idle (allOf s.toStreams id ++ fs) = some st := by
  have hlive := hhands.live hne
  rw [allOf_live h.fresh.streams hlive]
  have hsilent {req : HttpTypes.Request Unit} {resp : Response} (htask : taskOf s id = some req)
      (hstage : s.stage id = .answering resp) : framesOf s.toStreams id = [] :=
    h.silent id (List.mem_map_of_mem (task_mem htask)) fun b hb => Stage.noConfusion (hstage.symm.trans hb)
  cases hhands.handed with
  | nothing => exact absurd rfl hne
  | called req tunnelId hin =>
      rw [h.fresh.unused id (by rw [hin]; exact List.mem_cons_self)]
      exact ⟨.opened, rfl⟩
  | further before received more hbefore hphase =>
      exact ⟨.opened, ((h.control id before hbefore hlive).further more).taken⟩
  | headed req resp headers htask hstage =>
      rw [hsilent htask hstage]
      exact ⟨.opened, rfl⟩
  | answered req resp headers htask hstage =>
      rw [hsilent htask hstage]
      exact ⟨.closed, rfl⟩
  | completed req body htask hstage =>
      obtain ⟨status, headers, hframes⟩ := h.begun id body hstage hlive
      rw [hframes]
      exact ⟨.closed, rfl⟩

theorem Accepted.step (h : Pending tn s) (haccepted : ∀ id, Accepted s id) (hstep : Step d tn s l t) (id : Nat) :
    Accepted t id := by
  obtain ⟨j, fs, hhands⟩ := hands_of_step hstep
  obtain ⟨kept, resets, hall, hkept, hresets⟩ := (hhands.calm id).kept
  have hsent : ∃ st, (sendHalf fun _ => true).exec .idle (allOf (s.send fs) id) = some st := by
    by_cases hne : fs = []
    · rw [hne, allOf_send, List.filter_nil, List.append_nil]
      exact haccepted id
    · by_cases hid : id = j
      · subst hid
        rw [allOf_send_own fun f hf => (hhands.handed.own f hf).1]
        exact accepted_handed h hhands hne
      · rw [allOf_send_other (fun f hf => (hhands.handed.own f hf).1) hid]
        exact haccepted id
  -- what is lost of the queue leaves a first part of the run, and a reset is always taken
  obtain ⟨st, hst⟩ := hsent
  obtain ⟨lost, hlost⟩ := hkept
  rw [← hlost] at hst
  obtain ⟨u, hu, _⟩ := exec_take hst
  obtain ⟨v, hv⟩ : ∃ v, (sendHalf fun _ => true).exec u resets = some v := sendHalf_resets hresets u
  exact ⟨v, by rw [hall, exec_append, hu, Option.bind_some, hv]⟩

theorem accepted_of_reachable (h : (connectAndServe d tn).Reachable System.anyStep s) (id : Nat) : Accepted s id := by
  refine (h.invariant (I := fun s => Pending tn s ∧ ∀ id, Accepted s id) ?_ fun u l v hu _ hs => ?_).2 id
  · rintro s rfl
    exact ⟨pending_start, fun _ => ⟨.idle, rfl⟩⟩
  · have hstep := step_cases hs
    exact ⟨hu.1.step hstep, Accepted.step hu.1 hu.2 hstep⟩

/-- In every run the frames sent on a stream, on the wire and after it, make up
a run of the stream's send half, resets and lost frames included, exactly when no
head among them has an interim status. -/
theorem streams_well_formed (h : (connectAndServe d tn).Reachable System.anyStep s) (id : Nat) :
    (∃ st st', (sendHalf isFinal).exec .idle (s.wire.filter fun f => f.id == id) = some st ∧
      (sendHalf isFinal).exec st (s.outbound.filter fun f => f.id == id) = some st') ↔
    ∀ f, f ∈ allOf s.toStreams id → ∀ status, headStatus f = some status → isFinal status = true := by
  obtain ⟨st, hst⟩ := accepted_of_reachable h id
  rw [← sendHalf_final hst, allOf, sent, List.filter_append]
  constructor
  · rintro ⟨u, v, hu, hv⟩
    exact ⟨v, by rw [exec_append, hu, Option.bind_some, hv]⟩
  · rintro ⟨v, hv⟩
    rw [exec_append] at hv
    obtain ⟨u, hu, hv⟩ := Option.bind_eq_some_iff.mp hv
    exact ⟨u, v, hu, hv⟩

/-- Two requests whose bodies come in turns. The later one is answered first, and
the other one's client goes away before its answer. -/
def twoUploads : List Label :=
  [.edge (.headers 1 proxyRequest false), .edge (.headers 3 proxyRequest false), .edge (.data 3 [9] true),
    .edge (.data 1 [7] true), .deliver, .deliver, .accept, .accept, .deliver, .deliver,
    .look 3 [StandIns.localRule], .drain 3, .drain 3, .look 1 [StandIns.localRule], .drain 1, .drain 1,
    .exchange 3 (StandIns.env (ascii "HTTP/1.1 200 OK\r\n\r\nhi")), .head 3, .body 3, .flush,
    .edge (.reset 1), .deliver, .exchange 1 (StandIns.env []), .head 1]

theorem streams_well_formed_twoUploads : ∃ s, (connectAndServe .accept tunnel).exec start twoUploads = some s ∧
    ∀ id, (∃ st st', (sendHalf isFinal).exec .idle (s.wire.filter fun f => f.id == id) = some st ∧
        (sendHalf isFinal).exec st (s.outbound.filter fun f => f.id == id) = some st') ↔
      ∀ f, f ∈ allOf s.toStreams id → ∀ status, headStatus f = some status → isFinal status = true := by
  obtain ⟨s, hs⟩ : ∃ s, (connectAndServe .accept tunnel).exec start twoUploads = some s := ⟨_, rfl⟩
  exact ⟨s, hs, streams_well_formed (.of_exec rfl hs)⟩

end MiniCloudflared.Answers
