import MiniCloudflared.Connection
import MiniCloudflared.SentFrames
import Mathlib.Data.List.Nodup
import Mathlib.Data.List.Perm.Subperm

namespace MiniCloudflared.StreamOwners

open Library Http1 HttpTypes Config ThirdParty Origin RequestBody ProxyStream Http2 SentFrames Connection

variable {d : Driver} {tn : Tunnel} {s t : State} {l : Label}

def controls : Phase → Option Nat
  | .registering id _ => some id
  | .registered id _ => some id
  | _ => none

def owned (s : State) : List Nat :=
  s.incoming.map Prod.fst ++ (s.tasks.map Prod.fst ++ (controls s.phase).toList)

/-- What a step hands over on a stream, and who does. -/
inductive Handed (tn : Tunnel) (s t : State) : Nat → List OutFrame → Prop
  | nothing (id : Nat) : Handed tn s t id []
  | called (id : Nat) (req : HttpTypes.Request Unit) (tunnelId : Bytes) (hin : s.incoming = (id, req) :: t.incoming)
      (hupg : upgradeOf req = CONTROL_STREAM_VAL) (huuid : tn.crates.uuidParse tn.creds.t = .ok tunnelId)
      (hphase : t.phase = .registering id []) :
      Handed tn s t id [.headers id OK grpcHeaders false, callFrame tn id tunnelId]
  | further (id : Nat) (before received more : Bytes) (hbefore : s.phase = .registering id before)
      (hphase : t.phase = .registering id received) : Handed tn s t id [.data id more false]
  | headed (id : Nat) (req : HttpTypes.Request Unit) (resp : Response) (headers : HeaderMap)
      (htask : taskOf s id = some req) (hstage : s.stage id = .answering resp)
      (hheaders : edgeHeaders resp.headers = .ok headers) (hbody : resp.body ≠ [])
      (hnext : t.stage id = .sending resp.body) : Handed tn s t id [.headers id resp.status headers false]
  | answered (id : Nat) (req : HttpTypes.Request Unit) (resp : Response) (headers : HeaderMap)
      (htask : taskOf s id = some req) (hstage : s.stage id = .answering resp)
      (hheaders : edgeHeaders resp.headers = .ok headers) (hbody : resp.body = [])
      (hnext : id ∉ t.tasks.map Prod.fst) : Handed tn s t id [.headers id resp.status headers true]
  | completed (id : Nat) (req : HttpTypes.Request Unit) (body : Bytes) (htask : taskOf s id = some req)
      (hstage : s.stage id = .sending body) (hnext : id ∉ t.tasks.map Prod.fst) :
      Handed tn s t id [.data id body true]

structure Hands (tn : Tunnel) (s t : State) (id : Nat) (fs : List OutFrame) : Prop where
  handed : Handed tn s t id fs
  live : fs ≠ [] → s.resetBy id = none
  calm : ∀ j, Calm (s.send fs) t.toStreams j

theorem Handed.own {id : Nat} {fs : List OutFrame} (h : Handed tn s t id fs) :
    ∀ f, f ∈ fs → f.id = id ∧ f.isReset = false := by
  intro f hf
  cases h with
  | nothing => exact absurd hf List.not_mem_nil
  | called _ _ tunnelId =>
      rcases List.mem_cons.mp hf with rfl | hf
      · exact ⟨rfl, rfl⟩
      · obtain rfl := List.mem_singleton.mp hf
        exact ⟨rfl, rfl⟩
  | _ =>
      obtain rfl := List.mem_singleton.mp hf
      exact ⟨rfl, rfl⟩

theorem task_mem {id : Nat} {req : HttpTypes.Request Unit} (h : taskOf s id = some req) : (id, req) ∈ s.tasks := by
  obtain ⟨⟨j, r⟩, hfind, rfl⟩ := Option.map_eq_some_iff.mp h
  have hj : (j == id) = true := List.find?_some (p := fun p : Nat × HttpTypes.Request Unit => p.1 == id) hfind
  obtain rfl := beq_iff_eq.mp hj
  exact List.mem_of_find?_eq_some hfind

theorem Handed.owner {id : Nat} {fs : List OutFrame} (h : Handed tn s t id fs) (hne : fs ≠ []) :
    id ∈ s.tasks.map Prod.fst ∨ controls s.phase = some id ∨ controls t.phase = some id := by
  cases h with
  | nothing => exact absurd rfl hne
  | called req tunnelId hin hupg huuid hphase => exact .inr (.inr (by rw [hphase]; rfl))
  | further before received more hbefore hphase => exact .inr (.inl (by rw [hbefore]; rfl))
  | headed req resp headers htask => exact .inl (List.mem_map_of_mem (task_mem htask))
  | answered req resp headers htask => exact .inl (List.mem_map_of_mem (task_mem htask))
  | completed req body htask => exact .inl (List.mem_map_of_mem (task_mem htask))

theorem not_task_endTask (s : State) (id : Nat) (finished : Bool) :
    id ∉ (s.endTask id finished).tasks.map Prod.fst := by
  intro hid
  obtain ⟨p, hp, rfl⟩ := List.mem_map.mp hid
  exact absurd (List.mem_filter.mp hp).2 (by simp)

theorem resetBy_poll {m : Streams} {id : Nat} {r r' : RecvStream} {chunk : Bytes} (hr : m.recv id = some r)
    (hpoll : r.pollData = (.ready (some (.ok chunk)), r')) (j : Nat) : (m.setRecv id r').resetBy j = m.resetBy j :=
  resetBy_setRecv hr (pollData_ok hpoll).2 j

theorem furtherFrames_cases (tn : Tunnel) (m : Streams) (id : Nat) (received : Bytes) :
    furtherFrames tn m id received = [] ∨
      m.resetBy id = none ∧ ∃ more, furtherFrames tn m id received = [.data id more false] := by
  rw [furtherFrames]
  split
  next b bs hlive _ => exact .inr ⟨hlive, b :: bs, rfl⟩
  next => exact .inl rfl

theorem Hands.none (h : ∀ j, Calm s.toStreams t.toStreams j) : Hands tn s t 0 [] where
  handed := .nothing 0
  live hne := absurd rfl hne
  calm j := (h j).congr (by rw [allOf_send]; exact List.append_nil _) rfl rfl

theorem hands_of_step (hstep : Step d tn s l t) : ∃ id fs, Hands tn s t id fs := by
  cases hstep with
  | deliver f fs hmoves hopen hin => exact ⟨0, [], .none (Calm.receive tn.h2 s.toStreams f)⟩
  | flush f fs hmoves hout =>
      refine ⟨0, [], .none fun j => .same ?_ .inl⟩
      rw [allOf, allOf, sent, sent, hout, List.append_assoc]
      rfl
  | called id req rest tunnelId hphase hin hupg hlive huuid =>
      exact ⟨id, _, .called id req tunnelId hin hupg huuid rfl, fun _ => hlive, fun j => .same rfl .inl⟩
  | refused id req rest e hphase hin hupg hwhy =>
      exact ⟨0, [], .none fun j => (Calm.failAll { s.toStreams with incoming := rest } j).congr rfl rfl rfl⟩
  | finish c hphase hclosing => exact ⟨0, [], .none (Calm.failAll s.toStreams)⟩
  | read id received r r' b bs hphase hrecv hpoll =>
      have hset (fs : List OutFrame) (j : Nat) :
          Calm (s.send fs) ((s.setRecv id r').send fs) j := .same rfl fun h => .inl (resetBy_poll hrecv hpoll j ▸ h)
      rcases furtherFrames_cases tn s.toStreams id (received ++ b :: bs) with hnone | ⟨hlive, more, hmore⟩
      · exact ⟨id, [], .nothing id, fun hne => absurd rfl hne, by rw [hnone]; exact hset []⟩
      · exact ⟨id, _, .further id received (received ++ b :: bs) more hphase rfl, fun _ => hlive,
          by rw [hmore]; exact hset _⟩
  | ended id received r r' hphase hrecv hpoll =>
      exact ⟨0, [], .none fun j =>
        (Calm.release (s.setRecv id r') id false j).congr rfl (resetBy_poll hrecv hpoll j).symm rfl⟩
  | gaveUp l hl id received hphase => exact ⟨0, [], .none (Calm.release s.toStreams id false)⟩
  | registered id received location hphase hanswer => exact ⟨0, [], .none (Calm.release s.toStreams id false)⟩
  | drained id req rule buf chunk r r' htask hstage hrecv hpoll =>
      exact ⟨0, [], .none fun j => .same rfl fun h => .inl (resetBy_poll hrecv hpoll j ▸ h)⟩
  | unasked id req rule buf e htask hstage hbody hreq => exact ⟨0, [], .none (Calm.release s.toStreams id false)⟩
  | unsent id l hl req htask => exact ⟨0, [], .none (Calm.release s.toStreams id false)⟩
  | headed id req resp headers htask hstage hheaders hlive hbody =>
      exact ⟨id, _, .headed id req resp headers htask hstage hheaders hbody (if_pos rfl), fun _ => hlive,
        fun j => .same rfl .inl⟩
  | answered id req resp headers htask hstage hheaders hlive hbody =>
      exact ⟨id, _, .answered id req resp headers htask hstage hheaders hbody (not_task_endTask _ id true),
        fun _ => hlive, Calm.release _ id true⟩
  | completed id req body htask hstage hlive =>
      exact ⟨id, _, .completed id req body htask hstage (not_task_endTask _ id true), fun _ => hlive,
        Calm.release _ id true⟩
  | _ => exact ⟨0, [], .none fun j => .same rfl .inl⟩

theorem coherent_of_step (h : Coherent s.toStreams) (hstep : Step d tn s l t) : Coherent t.toStreams := by
  have hopen {id : Nat} {r : RecvStream} (hrecv : s.recv id = some r) : s.recv id ≠ none := by
    rw [hrecv]
    exact Option.some_ne_none r
  have hpolled {id : Nat} {r r' : RecvStream} {chunk : Bytes} (hrecv : s.recv id = some r)
      (hpoll : r.pollData = (.ready (some (.ok chunk)), r')) : Coherent (s.setRecv id r') := by
    refine h.setRecv (hopen hrecv) fun hend => resetBy_eq_none.mpr ⟨r, hrecv, fun e he => ?_⟩
    exact hend e ((pollData_ok hpoll).2.trans he)
  cases hstep with
  | edge f => exact h
  | deliver f fs hmoves hopen hin => exact h.receive tn.h2 f
  | flush f fs hmoves hout =>
      have hsent (id : Nat) : allOf { s.toStreams with outbound := fs, wire := s.wire ++ [f] } id =
          allOf s.toStreams id := by
        rw [allOf, allOf, sent, sent, hout, List.append_assoc]
        rfl
      exact h.calm (fun id => .same (hsent id) .inl) rfl (fun _ hid => hid) fun id hid => .inl (hsent id ▸ hid)
  | called id req rest tunnelId hphase hin hupg hlive huuid =>
      refine Coherent.send (m := { s.toStreams with incoming := rest }) ⟨h.recv, h.sent, h.unreset⟩ hlive ?_
      exact (Handed.called (s := s) (t := { s with incoming := rest, phase := .registering id [] })
        id req tunnelId hin hupg huuid rfl).own
  | refused id req rest e hphase hin hupg hwhy =>
      exact Coherent.failAll (m := { s.toStreams with incoming := rest }) ⟨h.recv, h.sent, h.unreset⟩
  | spawn id req rest hphase hin hupg => exact ⟨h.recv, h.sent, h.unreset⟩
  | finish c hphase hclosing => exact h.failAll
  | read id received r r' b bs hphase hrecv hpoll =>
      have hset := hpolled hrecv hpoll
      rcases furtherFrames_cases tn s.toStreams id (received ++ b :: bs) with hnone | ⟨hlive, more, hmore⟩
      · rw [hnone]
        exact ⟨hset.recv, fun j hj => hset.sent j (by rwa [allOf_send, List.filter_nil, List.append_nil] at hj),
          fun j hj f hf => hset.unreset j hj f (by rwa [allOf_send, List.filter_nil, List.append_nil] at hf)⟩
      · rw [hmore]
        exact hset.send_one _ ((resetBy_poll hrecv hpoll id).trans hlive) rfl
  | ended id received r r' hphase hrecv hpoll => exact (hpolled hrecv hpoll).release id false
  | gaveUp l hl id received hphase => exact h.release id false
  | registered id received location hphase hanswer => exact h.release id false
  | look id rules req htask hstage => exact h
  | drained id req rule buf chunk r r' htask hstage hrecv hpoll => exact hpolled hrecv hpoll
  | spun id req rule buf r e htask hstage hrecv hpoll => exact h
  | asked id req rule buf originReq htask hstage hbody hreq => exact h
  | unasked id req rule buf e htask hstage hbody hreq => exact h.release id false
  | exchange id env req rule originReq htask hstage => exact h
  | unsent id l hl req htask => exact h.release id false
  | headed id req resp headers htask hstage hheaders hlive hbody =>
      exact h.send_one (.headers id resp.status headers false) hlive rfl
  | answered id req resp headers htask hstage hheaders hlive hbody =>
      exact (h.send_one (.headers id resp.status headers true) hlive rfl).release id true
  | completed id req body htask hstage hlive =>
      exact (h.send_one (.data id body true) hlive rfl).release id true

theorem owned_subperm (hin : t.incoming.Sublist s.incoming) (htasks : t.tasks.Sublist s.tasks)
    (hphase : controls t.phase = controls s.phase ∨ controls t.phase = none) : (owned t).Subperm (owned s) := by
  have hcontrol : (controls t.phase).toList.Sublist (controls s.phase).toList := by
    rcases hphase with hphase | hphase
    · rw [hphase]
    · rw [hphase]
      exact List.nil_sublist _
  exact ((hin.map _).append ((htasks.map _).append hcontrol)).subperm

/-- Streams change hands, and they end; only a head from the edge adds one. -/
theorem owned_of_step (hstep : Step d tn s l t) :
    s.lastId ≤ t.lastId ∧ (∀ p, p ∈ t.incoming → p ∈ s.incoming ∨ s.lastId < p.1) ∧
      ((owned t).Subperm (owned s) ∨ ∃ id, s.lastId < id ∧ id ≤ t.lastId ∧ (owned t).Perm (id :: owned s)) := by
  have hkept (hin : t.incoming = s.incoming) (hlast : t.lastId = s.lastId) (htasks : t.tasks.Sublist s.tasks)
      (hphase : controls t.phase = controls s.phase ∨ controls t.phase = none) :
      s.lastId ≤ t.lastId ∧ (∀ p, p ∈ t.incoming → p ∈ s.incoming ∨ s.lastId < p.1) ∧
        ((owned t).Subperm (owned s) ∨ ∃ id, s.lastId < id ∧ id ≤ t.lastId ∧ (owned t).Perm (id :: owned s)) :=
    ⟨Nat.le_of_eq hlast.symm, fun p hp => .inl (hin ▸ hp), .inl (owned_subperm (by rw [hin]) htasks hphase)⟩
  have htaken {id : Nat} {req : HttpTypes.Request Unit} {rest : List (Nat × HttpTypes.Request Unit)}
      (hin : s.incoming = (id, req) :: rest) : ∀ p, p ∈ rest → p ∈ s.incoming ∨ s.lastId < p.1 := by
    intro p hp
    rw [hin]
    exact .inl (List.mem_cons_of_mem _ hp)
  have hmoved {id : Nat} {req : HttpTypes.Request Unit} {rest : List (Nat × HttpTypes.Request Unit)}
      (hphase : s.phase = .accepting) (hin : s.incoming = (id, req) :: rest) :
      (rest.map Prod.fst ++ (s.tasks.map Prod.fst ++ [id])).Subperm (owned s) := by
    rw [owned, hin, hphase, ← List.append_assoc]
    exact ((List.perm_append_singleton id _).trans (by simp [controls])).subperm
  cases hstep with
  | deliver f fs hmoves hopen hin =>
      refine ⟨(receive_lastId tn.h2 s.toStreams f).1, ?_⟩
      rcases receive_incoming tn.h2 s.toStreams f with hsame | ⟨id, req, endStream, hf, hid, hnew, hlast, hrecv⟩
      · exact ⟨fun p hp => .inl (hsame ▸ hp), .inl (owned_subperm (by rw [hsame]) (List.Sublist.refl _) (.inl rfl))⟩
      · refine ⟨fun p hp => ?_, .inr ⟨id, hid, Nat.le_of_eq hlast.symm, ?_⟩⟩
        · rw [hnew, List.mem_append, List.mem_singleton] at hp
          refine hp.imp_right ?_
          rintro rfl
          exact hid
        · rw [owned, hnew, List.map_append, List.append_assoc]
          exact List.perm_middle
  | called id req rest tunnelId hphase hin hupg hlive huuid =>
      exact ⟨Nat.le_refl _, htaken hin, .inl (hmoved hphase hin)⟩
  | refused id req rest e hphase hin hupg hwhy =>
      refine ⟨Nat.le_refl _, htaken hin, .inl (owned_subperm ?_ (List.Sublist.refl _) (.inr rfl))⟩
      rw [hin]
      exact List.sublist_cons_self _ _
  | spawn id req rest hphase hin hupg =>
      refine ⟨Nat.le_refl _, htaken hin, .inl ?_⟩
      rw [owned, hphase]
      simpa [controls] using hmoved hphase hin
  | finish c hphase hclosing => exact hkept rfl rfl (List.Sublist.refl _) (.inr rfl)
  | read id received r r' b bs hphase hrecv hpoll =>
      exact hkept rfl rfl (List.Sublist.refl _) (.inl (by rw [hphase]; rfl))
  | ended id received r r' hphase hrecv hpoll =>
      exact hkept (release_incoming _ id false) (release_lastId _ id false) (List.Sublist.refl _) (.inr rfl)
  | gaveUp l hl id received hphase =>
      exact hkept (release_incoming _ id false) (release_lastId _ id false) (List.Sublist.refl _) (.inr rfl)
  | registered id received location hphase hanswer =>
      exact hkept (release_incoming _ id false) (release_lastId _ id false) (List.Sublist.refl _)
        (.inl (by rw [hphase]; rfl))
  | unasked id req rule buf e htask hstage hbody hreq =>
      exact hkept (release_incoming _ id false) (release_lastId _ id false) List.filter_sublist (.inl rfl)
  | unsent id l hl req htask =>
      exact hkept (release_incoming _ id false) (release_lastId _ id false) List.filter_sublist (.inl rfl)
  | answered id req resp headers htask hstage hheaders hlive hbody =>
      exact hkept (release_incoming _ id true) (release_lastId _ id true) List.filter_sublist (.inl rfl)
  | completed id req body htask hstage hlive =>
      exact hkept (release_incoming _ id true) (release_lastId _ id true) List.filter_sublist (.inl rfl)
  | _ => exact hkept rfl rfl (List.Sublist.refl _) (.inl rfl)

/-- Each stream has one owner, and one that has not been taken up yet is new in
every respect. -/
structure Fresh (s : State) : Prop where
  streams : Coherent s.toStreams
  nodup : (owned s).Nodup
  bounded : ∀ id, id ∈ owned s → id ≤ s.lastId
  unused : ∀ id, id ∈ s.incoming.map Prod.fst → framesOf s.toStreams id = []

theorem fresh_start : Fresh start where
  streams := ⟨fun _ h => absurd rfl h, fun _ h => absurd rfl h, fun _ _ _ hf => absurd hf List.not_mem_nil⟩
  nodup := List.nodup_nil
  bounded _ h := absurd h List.not_mem_nil
  unused _ h := absurd h List.not_mem_nil

theorem framesOf_send_other {m : Streams} {fs : List OutFrame} {id j : Nat} (hfs : ∀ f, f ∈ fs → f.id = id)
    (hj : j ≠ id) : framesOf (m.send fs) j = framesOf m j := congrArg answers (allOf_send_other hfs hj)

namespace Fresh

theorem owner (h : Fresh s) {id : Nat} (hid : id ∈ s.tasks.map Prod.fst ∨ controls s.phase = some id) :
    id ∈ owned s ∧ id ∉ s.incoming.map Prod.fst := by
  have hmem : id ∈ s.tasks.map Prod.fst ++ (controls s.phase).toList := by
    rw [List.mem_append]
    exact hid.imp_right Option.mem_toList.mpr
  exact ⟨List.mem_append_right _ hmem, fun hin => (List.nodup_append.mp h.nodup).2.2 id hin id hmem rfl⟩

theorem control_task (h : Fresh s) {id : Nat} (hphase : controls s.phase = some id) : id ∉ s.tasks.map Prod.fst := by
  intro hid
  exact (List.nodup_append.mp (List.nodup_append.mp h.nodup).2.1).2.2 id hid id (Option.mem_toList.mpr hphase) rfl

theorem tasks_nodup (h : Fresh s) : (s.tasks.map Prod.fst).Nodup :=
  (List.nodup_append.mp (List.nodup_append.mp h.nodup).2.1).1

theorem task_unique (h : Fresh s) {id : Nat} {req req' : HttpTypes.Request Unit} (hm : (id, req) ∈ s.tasks)
    (hm' : (id, req') ∈ s.tasks) : req' = req :=
  (Prod.mk.inj (List.inj_on_of_nodup_map h.tasks_nodup hm' hm rfl)).2

theorem step (h : Fresh s) (hstep : Step d tn s l t) : Fresh t := by
  obtain ⟨hlast, hincoming, howned⟩ := owned_of_step hstep
  have hnodup : (owned t).Nodup ∧ ∀ id, id ∈ owned t → id ≤ t.lastId := by
    rcases howned with ⟨ids, hperm, hsub⟩ | ⟨id, hid, hle, hperm⟩
    · refine ⟨hperm.nodup_iff.mp (h.nodup.sublist hsub), fun id hid => ?_⟩
      exact Nat.le_trans (h.bounded id (hsub.subset (hperm.mem_iff.mpr hid))) hlast
    · refine ⟨hperm.nodup_iff.mpr (List.nodup_cons.mpr ⟨fun hm => ?_, h.nodup⟩), fun j hj => ?_⟩
      · exact Nat.not_le.mpr hid (h.bounded id hm)
      · rcases List.mem_cons.mp (hperm.mem_iff.mp hj) with rfl | hj
        · exact hle
        · exact Nat.le_trans (h.bounded j hj) hlast
  have hcoherent := coherent_of_step h.streams hstep
  refine ⟨hcoherent, hnodup.1, hnodup.2, fun j hj => ?_⟩
  obtain ⟨id, fs, hhands⟩ := hands_of_step hstep
  obtain ⟨p, hp, rfl⟩ := List.mem_map.mp hj
  have hold : framesOf s.toStreams p.1 = [] := by
    rcases hincoming p hp with hwas | hnew
    · exact h.unused p.1 (List.mem_map_of_mem hwas)
    · have hnone : allOf s.toStreams p.1 = [] :=
        not_not.mp fun hne => Nat.not_le.mpr hnew (h.streams.sent p.1 hne)
      rw [framesOf, hnone]
      rfl
  -- whoever hands frames over has the stream, and this one nobody has yet
  have hother : fs ≠ [] → p.1 ≠ id := by
    rintro hne rfl
    have hs (ho : p.1 ∈ s.tasks.map Prod.fst ∨ controls s.phase = some p.1) : False := by
      obtain ⟨hmem, hnot⟩ := h.owner ho
      rcases hincoming p hp with hwas | hnew
      · exact hnot (List.mem_map_of_mem hwas)
      · exact Nat.not_le.mpr hnew (h.bounded p.1 hmem)
    rcases hhands.handed.owner hne with ho | ho | ho
    · exact hs (.inl ho)
    · exact hs (.inr ho)
    · exact (List.nodup_append.mp hnodup.1).2.2 p.1 hj p.1
        (List.mem_append_right _ (Option.mem_toList.mpr ho)) rfl
  have hsame : framesOf (s.send fs) p.1 = [] := by
    by_cases hne : fs = []
    · rw [framesOf, hne, allOf_send, List.filter_nil, List.append_nil]
      exact hold
    · rw [framesOf_send_other (fun f hf => (hhands.handed.own f hf).1) (hother hne), hold]
  exact List.prefix_nil.mp (hsame ▸ (hhands.calm p.1).framesOf_first)

end Fresh

theorem fresh_of_reachable (h : (connectAndServe d tn).Reachable System.anyStep s) : Fresh s := by
  refine h.invariant ?_ (fun _ _ _ hf _ hs => hf.step (step_cases hs))
  rintro s rfl
  exact fresh_start

end MiniCloudflared.StreamOwners
