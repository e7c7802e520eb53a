import MiniCloudflared.WholeTunnel

namespace MiniCloudflared.LoopRefinement

open Library HttpTypes ThirdParty Config Ingress Http2 Connection Deadlock Serving Reconnect Startup WholeTunnel
open Library.System

variable {d : Driver} {tn : Tunnel} {edge : Edge} {config : Path} {file : Except Error Str}
  {rules : List IngressRule} {ls : List WholeTunnel.Label} {s t : WholeTunnel.State}

def Noted (s : Reconnect.State) : Prop :=
  ∀ a, s.serving = some a → isRegistered a.conn.phase = true → a.registered = true

theorem noted_of_step {s t : Reconnect.State} {l : Reconnect.Label} (h : Reconnect.step d tn edge s l = some t) :
    Noted t := by
  cases l with
  | dial way =>
      simp only [Reconnect.step] at h
      split at h
      next => exact absurd h (by simp)
      next =>
        split at h
        next e _ =>
          obtain rfl := Option.some.inj h
          exact fun a ha => absurd ha (by simp [conclude])
        next =>
          obtain rfl := Option.some.inj h
          rintro a ⟨rfl⟩ hr
          exact absurd hr (by simp [isRegistered, Connection.start])
  | serve l =>
      simp only [Reconnect.step] at h
      split at h
      next => exact absurd h (by simp)
      next a _ =>
        split at h
        next => exact absurd h (by simp)
        next conn _ =>
          split at h
          next r _ =>
            obtain rfl := Option.some.inj h
            exact fun a ha => absurd (conclude_serving _ _ _ _ ▸ ha) (by simp)
          next =>
            obtain rfl := Option.some.inj h
            rintro b ⟨rfl⟩ hr
            rw [Bool.or_eq_true]
            exact Or.inr hr

/-- Seen from the loop, what is done to its connection is a step of the loop. -/
theorem settle_serve {a : Reconnect.Serving} (ha : s.loop.serving = some a) {v : Serving.State}
    {k : Connection.Label} (h : Connection.step d tn a.conn k = some v.conn) :
    Reconnect.step d tn edge s.loop (.serve k) = some (settle s a v).loop := by
  simp only [Reconnect.step, ha, h]
  rw [settle]
  cases v.conn.phase <;> rfl

theorem settle_same {a : Reconnect.Serving} (ha : s.loop.serving = some a) (hu : Underway s.loop)
    (hn : Noted s.loop) {v : Serving.State} (hv : v.conn = a.conn) : (settle s a v).loop = s.loop := by
  have hregistered : (a.registered || isRegistered a.conn.phase) = a.registered := by
    cases hr : isRegistered a.conn.phase with
    | false => exact Bool.or_false _
    | true => rw [hn a ha hr, Bool.true_or]
  rw [settle, hv, hregistered]
  split
  next r hr => exact absurd hr ((hu a ha).2.1 r)
  next =>
    rw [← ha]

theorem returned_kept {c c' : Connection.State} {r : Except Error Unit} (hc : c.phase = .returned r)
    {l : Connection.Label} (h : Connection.Step d tn c l c') : c'.phase = .returned r ∧ c'.wire = c.wire := by
  have hmoves : d.moves c.phase = false := by
    rw [hc]
    cases d <;> rfl
  have hnot {phase : Phase} (hphase : c.phase = phase) (hne : phase ≠ .returned r) :
      c'.phase = .returned r ∧ c'.wire = c.wire := absurd (hphase.symm.trans hc) hne
  cases h with
  | deliver f fs hm => exact absurd (hmoves.symm.trans hm) Bool.false_ne_true
  | flush f fs hm => exact absurd (hmoves.symm.trans hm) Bool.false_ne_true
  | called id req rest tunnelId hphase => exact hnot hphase Phase.noConfusion
  | refused id req rest e hphase => exact hnot hphase Phase.noConfusion
  | spawn id req rest hphase => exact hnot hphase Phase.noConfusion
  | finish closing hphase => exact hnot hphase Phase.noConfusion
  | read id received r r' b bs hphase => exact hnot hphase Phase.noConfusion
  | ended id received r r' hphase => exact hnot hphase Phase.noConfusion
  | gaveUp l hl id received hphase => exact hnot hphase Phase.noConfusion
  | registered id received location hphase => exact hnot hphase Phase.noConfusion
  | unasked id | unsent id => exact ⟨hc, release_wire _ id false⟩
  | answered id | completed id => exact ⟨hc, release_wire _ id true⟩
  | _ => exact ⟨hc, rfl⟩

theorem link_returned {reload : HotReload.State} {a : Link} {r : Except Error Unit} (hr : a.conn.phase = .returned r)
    {l : Serving.Label} {v : Serving.State} (h : linkStep d tn config reload a l = some v) :
    v.conn.phase = .returned r ∧ v.conn.wire = a.conn.wire := by
  cases moved_of_step (linkStep_some h).2 with
  | conn k _ hconn => exact returned_kept hr (Connection.step_cases hconn)
  | reload k _ _ hconn => exact hconn ▸ ⟨hr, rfl⟩
  | lock _ _ _ _ hconn => exact hconn ▸ ⟨hr, rfl⟩
  | choose _ _ _ _ hconn => exact returned_kept hr (Connection.step_cases hconn)

theorem settle_past (s : WholeTunnel.State) (a : Reconnect.Serving) (v : Serving.State) :
    (settle s a v).past = s.past ∨
      ∃ r, v.conn.phase = .returned r ∧ (settle s a v).past = s.past ++ [⟨v.conn, v.reading⟩] := by
  rw [settle]
  split
  next r hr => exact Or.inr ⟨r, hr, rfl⟩
  next => exact Or.inl rfl

/-- A connection that has been left behind puts nothing more on the wire. -/
theorem past_step {l : WholeTunnel.Label} (h : WholeTunnel.step d tn edge config s l = some t) {i : Nat}
    {a : Link} {r : Except Error Unit} (ha : s.past[i]? = some a) (hr : a.conn.phase = .returned r) :
    ∃ b, t.past[i]? = some b ∧ b.conn.phase = .returned r ∧ b.conn.wire = a.conn.wire := by
  cases l with
  | dial way =>
      obtain ⟨_, _, rfl⟩ := Option.map_eq_some_iff.mp h
      exact ⟨a, ha, hr, rfl⟩
  | link j l =>
      simp only [WholeTunnel.step] at h
      split at h
      next b hb =>
        obtain ⟨v, hv, rfl⟩ := Option.map_eq_some_iff.mp h
        by_cases hj : j = i
        · subst hj
          obtain rfl := Option.some.inj (hb.symm.trans ha)
          exact ⟨_, List.getElem?_set_self (List.getElem?_eq_some_iff.mp ha).1, link_returned hr hv⟩
        · exact ⟨a, (List.getElem?_set_ne hj).trans ha, hr, rfl⟩
      next b _ _ =>
        split at h
        next =>
          obtain ⟨v, _, rfl⟩ := Option.map_eq_some_iff.mp h
          refine ⟨a, ?_, hr, rfl⟩
          rcases settle_past s b v with hpast | ⟨_, _, hpast⟩
          · rw [hpast, ha]
          · rw [hpast, List.getElem?_append_left (List.getElem?_eq_some_iff.mp ha).1, ha]
        next => exact absurd h (by simp)
      next => exact absurd h (by simp)
  | reload l =>
      simp only [WholeTunnel.step] at h
      split at h
      next => exact absurd h (by simp)
      next =>
        obtain ⟨_, _, rfl⟩ := Option.map_eq_some_iff.mp h
        exact ⟨a, ha, hr, rfl⟩

theorem past_of_run {ks : List WholeTunnel.Label} (h : (tunnelRun d tn edge config).exec s ks = some t) {i : Nat}
    {a : Link} {r : Except Error Unit} (ha : s.past[i]? = some a) (hr : a.conn.phase = .returned r) :
    ∃ b, t.past[i]? = some b ∧ b.conn.phase = .returned r ∧ b.conn.wire = a.conn.wire := by
  refine exec_record (I := fun t _ => ∃ b, t.past[i]? = some b ∧ b.conn.phase = .returned r ∧
    b.conn.wire = a.conn.wire) h ⟨a, ha, hr, rfl⟩ ?_
  rintro u _ l v _ ⟨b, hb, hphase, hwire⟩ hstep
  obtain ⟨c, hc, hphase', hwire'⟩ := past_step hstep hb hphase
  exact ⟨c, hc, hphase', hwire'.trans hwire⟩

/-- To the loop the handlers and the reload task are not there. -/
structure Looped (d : Driver) (tn : Tunnel) (edge : Edge) (s : WholeTunnel.State) : Prop where
  run : ∃ ks, (runTunnel d tn edge).exec Reconnect.begun ks = some s.loop
  past : ∀ a, a ∈ s.past → ∃ r, a.conn.phase = .returned r

theorem Looped.next (h : Looped d tn edge s) {l : Reconnect.Label} {loop : Reconnect.State}
    (hstep : Reconnect.step d tn edge s.loop l = some loop) :
    ∃ ks, (runTunnel d tn edge).exec Reconnect.begun ks = some loop := by
  obtain ⟨ks, hks⟩ := h.run
  have hrun : (runTunnel d tn edge).exec Reconnect.begun (ks ++ [l]) = some loop := exec_concat hks hstep
  exact ⟨_, hrun⟩

theorem Looped.underway (h : Looped d tn edge s) : Underway s.loop := by
  obtain ⟨ks, hks⟩ := h.run
  exact underway_of_reaches (.exec .refl hks)

theorem Looped.noted (h : Looped d tn edge s) : Noted s.loop := by
  obtain ⟨ks, hks⟩ := h.run
  have hreach : (runTunnel d tn edge).Reaches anyStep Reconnect.begun s.loop := .exec .refl hks
  refine hreach.preserves (I := Noted) (fun _ _ _ _ _ hstep => noted_of_step hstep) fun a ha => ?_
  exact absurd ha (by simp [Reconnect.begun])

theorem Looped.settle (h : Looped d tn edge s) {a : Reconnect.Serving} (ha : s.loop.serving = some a)
    {l : Serving.Label} {v : Serving.State} (hv : linkStep d tn config s.reload ⟨a.conn, s.reading⟩ l = some v) :
    Looped d tn edge (settle s a v) := by
  refine ⟨?_, fun b hb => ?_⟩
  · cases moved_of_step (linkStep_some hv).2 with
    | conn k _ hconn => exact h.next (settle_serve ha hconn)
    | reload k => exact absurd (linkStep_some hv).1 (by simp [isReload])
    | lock _ _ _ _ hconn => exact (settle_same ha h.underway h.noted hconn).symm ▸ h.run
    | choose _ _ _ _ hconn => exact h.next (settle_serve ha hconn)
  · rcases settle_past s a v with hpast | ⟨r, hr, hpast⟩
    · exact h.past b (hpast ▸ hb)
    · rw [hpast, List.mem_append, List.mem_singleton] at hb
      rcases hb with hb | rfl
      · exact h.past b hb
      · exact ⟨r, hr⟩

theorem Looped.step (h : Looped d tn edge s) {l : WholeTunnel.Label}
    (hstep : WholeTunnel.step d tn edge config s l = some t) : Looped d tn edge t := by
  cases l with
  | dial way =>
      obtain ⟨loop, hloop, rfl⟩ := Option.map_eq_some_iff.mp hstep
      exact ⟨h.next hloop, h.past⟩
  | link i l =>
      simp only [WholeTunnel.step] at hstep
      split at hstep
      next a ha =>
        obtain ⟨v, hv, rfl⟩ := Option.map_eq_some_iff.mp hstep
        refine ⟨h.run, fun b hb => ?_⟩
        rcases List.mem_or_eq_of_mem_set hb with hb | rfl
        · exact h.past b hb
        · obtain ⟨r, hr⟩ := h.past a (List.mem_of_getElem? ha)
          exact ⟨r, (link_returned hr hv).1⟩
      next a _ ha =>
        split at hstep
        next =>
          obtain ⟨v, hv, rfl⟩ := Option.map_eq_some_iff.mp hstep
          exact h.settle ha hv
        next => exact absurd hstep (by simp)
      next => exact absurd hstep (by simp)
  | reload l =>
      simp only [WholeTunnel.step] at hstep
      split at hstep
      next => exact absurd hstep (by simp)
      next =>
        obtain ⟨_, _, rfl⟩ := Option.map_eq_some_iff.mp hstep
        exact ⟨h.run, h.past⟩

theorem looped_of_run (h : (tunnelRun d tn edge config).exec (begun file rules) ls = some s) : Looped d tn edge s :=
  exec_record (I := fun s _ => Looped d tn edge s) h ⟨⟨[], rfl⟩, fun _ ha => absurd ha List.not_mem_nil⟩
    (fun _ _ _ _ _ hu hs => hu.step hs)

variable {w : World} {st : Started} {connectorId : Bytes} {osArch : Str} {rpc : Rpc} {h2 : H2}

/-- To its loop the tunnel runs as if there were no handlers and no reload task.
Only the connection that the loop waits for is still served, and nothing more
goes on the wire of one that it has left behind, whatever the handlers of that
one still do. -/
theorem loop_undisturbed
    (h : (tunnelRun d (tunnelOf w st connectorId osArch rpc h2) edge st.configPath).exec (begunAt w st) ls = some s) :
    (∃ ks, (runTunnel d (tunnelOf w st connectorId osArch rpc h2) edge).exec Reconnect.begun ks = some s.loop) ∧
    (∀ a, s.loop.serving = some a → ∀ r, a.conn.phase ≠ .returned r) ∧
    ∀ ks t, (tunnelRun d (tunnelOf w st connectorId osArch rpc h2) edge st.configPath).exec s ks = some t →
      ∀ (i : Nat) (a : Link), s.past[i]? = some a → ∃ b r, t.past[i]? = some b ∧ a.conn.phase = .returned r ∧
        b.conn.phase = .returned r ∧ b.conn.wire = a.conn.wire := by
  have hlooped := looped_of_run h
  refine ⟨hlooped.run, fun a ha => (hlooped.underway a ha).2.1, fun ks t hks i a ha => ?_⟩
  obtain ⟨r, hr⟩ := hlooped.past a (List.mem_of_getElem? ha)
  obtain ⟨b, hb, hphase, hwire⟩ := past_of_run hks ha hr
  exact ⟨b, r, hb, hr, hphase, hwire⟩

theorem loop_undisturbed_edgeBack :
    ∃ s t a b, offlineRun.exec (begunAt offline Rotation.startedOffline) edgeGone = some s ∧
      offlineRun.exec s edgeBack = some t ∧ s.past[0]? = some a ∧ t.past[0]? = some b ∧
      b.conn.wire = a.conn.wire := by
  obtain ⟨s, t, a, hs, ht, ha⟩ : ∃ s t a, offlineRun.exec (begunAt offline Rotation.startedOffline) edgeGone =
      some s ∧ offlineRun.exec s edgeBack = some t ∧ s.past[0]? = some a := ⟨_, _, _, rfl, rfl, rfl⟩
  obtain ⟨b, _, hb, _, _, hwire⟩ := (loop_undisturbed hs).2.2 edgeBack t ht 0 a ha
  exact ⟨s, t, a, b, hs, ht, ha, hb, hwire⟩

end MiniCloudflared.LoopRefinement
