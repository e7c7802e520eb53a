import MiniCloudflared.WholeTunnel

namespace MiniCloudflared.LockRelease

open Library HttpTypes ThirdParty Config Ingress Http2 Connection Answers Serving TableLock Reconnect Startup
open WholeTunnel
open Library.System

variable {d : Driver} {tn : Tunnel} {edge : Edge} {config : Path} {file : Except Error Str}
  {rules loaded : List IngressRule} {ls ks : List WholeTunnel.Label} {s t : WholeTunnel.State}

def takesLock : WholeTunnel.Label → Bool
  | .link _ l => isLock l
  | _ => false

def looks : WholeTunnel.Label → Bool
  | .link _ l => isChoose l
  | _ => false

def writes : WholeTunnel.Label → Bool
  | .reload .write => true
  | _ => false

theorem draining_changed (hw : s.reload.task = .writing loaded) {l : WholeTunnel.Label} (hlock : takesLock l = false)
    (hwrite : writes l = false) (hc : Changed d tn config s t l) :
    t.reload.task = .writing loaded ∧
      t.reload.readers.length + (if looks l then 1 else 0) = s.reload.readers.length := by
  cases hc with
  | dial way _ hreload =>
      rw [hreload]
      exact ⟨hw, rfl⟩
  | link i l a v _ hl hv _ hreload =>
      have hwrite : isWrite l = false := by
        cases l with
        | reload k => exact absurd hl (by simp [isReload])
        | _ => rfl
      rw [hreload]
      exact draining_step (s := ⟨a.conn, s.reload, a.reading⟩) hw hlock hwrite (moved_of_step hv)
  | reload l hl hk _ =>
      have hwrite : isWrite (.reload l) = false := by
        cases l with
        | write => exact absurd hwrite (by simp [writes])
        | _ => rfl
      rw [readers_of_step hl hk]
      exact ⟨task_of_step hw hwrite hk, rfl⟩

theorem draining_run (hw : s.reload.task = .writing loaded)
    (hks : (tunnelRun d tn edge config).exec s ks = some t) (hlock : ∀ l, l ∈ ks → takesLock l = false)
    (hwrite : ∀ l, l ∈ ks → writes l = false) :
    t.reload.task = .writing loaded ∧ t.reload.readers.length + ks.countP looks = s.reload.readers.length := by
  induction ks generalizing s with
  | nil =>
      obtain rfl := Option.some.inj hks
      exact ⟨hw, rfl⟩
  | cons l ks ih =>
      obtain ⟨u, hu, hks⟩ := Option.bind_eq_some_iff.mp hks
      rw [List.forall_mem_cons] at hlock hwrite
      obtain ⟨htask, hone⟩ := draining_changed hw hlock.1 hwrite.1 (changed_of_step hu)
      obtain ⟨hlast, hrest⟩ := ih htask hks hlock.2 hwrite.2
      refine ⟨hlast, ?_⟩
      rw [List.countP_cons]
      omega

theorem link_enabled {i : Nat} {a : Link} (ha : s.links[i]? = some a) {l : Serving.Label} {v : Serving.State}
    (hl : isReload l = false) (hv : Serving.step d tn config ⟨a.conn, s.reload, a.reading⟩ l = some v) :
    ∃ t, WholeTunnel.step d tn edge config s (.link i l) = some t := by
  have hlink : linkStep d tn config s.reload a l = some v := by rw [linkStep, if_neg (by simp [hl]), hv]
  by_cases hi : i < s.past.length
  · have hpast : s.past[i]? = some a := by rw [← ha, State.links, List.getElem?_append_left hi]
    simp only [WholeTunnel.step, hpast, hlink, Option.map_some]
    exact ⟨_, rfl⟩
  · have hpast : s.past[i]? = none := List.getElem?_eq_none (Nat.le_of_not_lt hi)
    cases hserving : s.loop.serving with
    | none =>
        rw [links_idle hserving, hpast] at ha
        exact absurd ha (by simp)
    | some b =>
        rw [links_serving hserving, List.getElem?_append_right (Nat.le_of_not_lt hi)] at ha
        obtain ⟨hlast, hb⟩ := List.getElem?_eq_some_iff.mp ha
        rw [List.length_singleton] at hlast
        obtain rfl : ⟨b.conn, s.reading⟩ = a := by simpa using hb
        have hcurrent : i = s.past.length := by omega
        simp only [WholeTunnel.step, hpast, hserving, if_pos hcurrent, hlink, Option.map_some]
        exact ⟨_, rfl⟩

/-- A handler that holds the lock stands where it can look, and its connection
is as it would be alone. -/
theorem link_alone (hload : loadFromFile tn.crates (fun _ => file) config = .ok rules)
    (hp : Projected d tn config file rules ls s) {i : Nat} {a : Link} (ha : s.links[i]? = some a) :
    Pending tn a.conn ∧ ∀ id, a.reading id = true → id ∈ a.conn.tasks.map Prod.fst ∧ a.conn.stage id = .arrived := by
  obtain ⟨v, hv, hseen⟩ := hp.own i
  rw [← linkAt_eq ha, ← hseen.conn, ← hseen.reading]
  exact ⟨(held_of_run hload hv).2, (refined_of_run hload hv).reading⟩

theorem look_enabled (hload : loadFromFile tn.crates (fun _ => file) config = .ok rules)
    (hp : Projected d tn config file rules ls s) (hne : s.reload.readers ≠ []) :
    ∃ i id t, WholeTunnel.step d tn edge config s (.link i (.choose id)) = some t := by
  obtain ⟨p, hmem⟩ := List.exists_mem_of_ne_nil _ hne
  obtain ⟨a, ha, hheld⟩ := List.mem_flatMap.mp (hp.lock.mem_iff.mp hmem)
  obtain ⟨i, hi⟩ := List.getElem?_of_mem ha
  obtain ⟨hpending, hreading⟩ : _ ∧ ∀ id, a.reading id = true → _ := link_alone hload hp hi
  obtain ⟨id, u, hu⟩ :=
    choose_enabled (s := ⟨a.conn, s.reload, a.reading⟩) d tn config hpending.fresh hreading hheld hmem
  exact ⟨i, id, link_enabled hi rfl hu⟩

theorem write_enabled (hw : s.reload.task = .writing loaded) (hfree : s.reload.readers = []) :
    ∃ t, WholeTunnel.step d tn edge config s (.reload .write) = some t ∧ t.links = s.links ∧
      t.reload.table = loaded ∧ t.reload.task = .sleeping := by
  simp only [WholeTunnel.step, isLookup, HotReload.step, hw, hfree, Bool.false_eq_true, if_false, Option.map_some]
  exact ⟨_, rfl, rfl, rfl, rfl⟩

variable {w : World} {cfg : TunnelConfig} {st : Started} {connectorId : Bytes} {osArch : Str} {rpc : Rpc}
  {h2 : H2}

/-- A reload that waits for the lock gets it after as many lookups as there are
holders, on whichever connections these are, and in whatever order the rest of
the tunnel moves, as long as the lock lets nobody in past the one who waits.
Until then some holder can look, even if its connection is gone. -/
theorem reload_gets_lock (hst : startTunnel w cfg = .ok st)
    (h : (tunnelRun d (tunnelOf w st connectorId osArch rpc h2) edge st.configPath).exec (begunAt w st) ls = some s)
    (hw : s.reload.task = .writing loaded)
    (hks : (tunnelRun d (tunnelOf w st connectorId osArch rpc h2) edge st.configPath).exec s ks = some t)
    (hlock : ∀ l, l ∈ ks → takesLock l = false) (hwrite : ∀ l, l ∈ ks → writes l = false) :
    t.reload.readers.length + ks.countP looks = s.reload.readers.length ∧
    (ks.countP looks = s.reload.readers.length →
      ∃ u, WholeTunnel.step d (tunnelOf w st connectorId osArch rpc h2) edge st.configPath t (.reload .write) = some u ∧
        u.reload.table = loaded ∧ u.links = t.links) ∧
    (ks.countP looks ≠ s.reload.readers.length →
      ∃ i id u, WholeTunnel.step d (tunnelOf w st connectorId osArch rpc h2) edge st.configPath t
        (.link i (.choose id)) = some u) := by
  have hload := rules_of_start hst
  have hall : (tunnelRun d (tunnelOf w st connectorId osArch rpc h2) edge st.configPath).exec (begunAt w st)
      (ls ++ ks) = some t := by
    rw [exec_append, h]
    exact hks
  obtain ⟨htask, hcount⟩ := draining_run hw hks hlock hwrite
  refine ⟨hcount, fun hdone => ?_, fun hleft => look_enabled hload (projected_of_run hload hall) fun hnil => ?_⟩
  · obtain ⟨u, hu, hlinks, htable, _⟩ := write_enabled htask (List.length_eq_zero_iff.mp (by omega))
    exact ⟨u, hu, htable, hlinks⟩
  · rw [hnil, List.length_nil] at hcount
    omega

/-- The reload task comes for the lock, which a handler of a connection that is
gone still holds. -/
def lockedOut : List WholeTunnel.Label := edgeGone ++ [.reload .tick]

def handlerLooks : List WholeTunnel.Label := [.dial wayOpen, .link 0 (.choose 1)]

theorem reload_gets_lock_lockedOut :
    ∃ s t u, offlineRun.exec (begunAt offline Rotation.startedOffline) lockedOut = some s ∧
      offlineRun.exec s handlerLooks = some t ∧ offlineRun.step t (.reload .write) = some u ∧
      u.reload.table = HotReload.savedRules := by
  obtain ⟨s, t, hs, ht, hw, hone⟩ : ∃ s t, offlineRun.exec (begunAt offline Rotation.startedOffline) lockedOut =
      some s ∧ offlineRun.exec s handlerLooks = some t ∧ s.reload.task = .writing HotReload.savedRules ∧
        s.reload.readers.length = 1 := ⟨_, _, rfl, rfl, rfl, rfl⟩
  have hlabels {p : WholeTunnel.Label → Bool} (hdial : p (.dial wayOpen) = false)
      (hlook : p (.link 0 (.choose 1)) = false) : ∀ l, l ∈ handlerLooks → p l = false := by
    rw [handlerLooks, List.forall_mem_cons, List.forall_mem_singleton]
    exact ⟨hdial, hlook⟩
  have h := reload_gets_lock startedOffline_eq hs hw ht (hlabels rfl rfl) (hlabels rfl rfl)
  obtain ⟨u, hu, htable, _⟩ := h.2.1 hone.symm
  exact ⟨s, t, u, hs, ht, hu, htable⟩

end MiniCloudflared.LockRelease
