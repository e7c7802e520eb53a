import MiniCloudflared.Rotation
import MiniCloudflared.TableLock

namespace MiniCloudflared.WholeTunnel

open Library HttpTypes Config ThirdParty Ingress ProxyStream Http2 SentFrames Connection StreamOwners Deadlock Answers
open OwnRequests Serving TableLock Reconnect Startup Library.System

structure Link where
  conn : Connection.State
  reading : Nat → Bool

def fresh : Link := ⟨Connection.start, fun _ => false⟩

/-- The loop of `run_tunnel` with the handlers of the connection that it serves,
which outlive it, and the reload task. The connections that it has served before
are in their order. -/
structure State where
  loop : Reconnect.State
  reading : Nat → Bool
  past : List Link
  reload : HotReload.State

inductive Label
  | dial (way : Dial)
  | link (i : Nat) (l : Serving.Label)
  | reload (l : HotReload.Label)

def State.links (s : State) : List Link :=
  s.past ++ (s.loop.serving.map fun a => Link.mk a.conn s.reading).toList

def isReload : Serving.Label → Bool
  | .reload _ => true
  | _ => false

def linkStep (d : Driver) (tn : Tunnel) (config : Path) (reload : HotReload.State) (a : Link) (l : Serving.Label) :
    Option Serving.State :=
  if isReload l then none else Serving.step d tn config ⟨a.conn, reload, a.reading⟩ l

/-- The loop goes on with what has become of its connection. -/
def settle (s : State) (a : Reconnect.Serving) (v : Serving.State) : State :=
  let registered := a.registered || isRegistered v.conn.phase
  match v.conn.phase with
  | .returned result =>
      { loop := conclude s.loop a.addr registered result
        reading := fun _ => false
        past := s.past ++ [⟨v.conn, v.reading⟩]
        reload := v.reload }
  | _ =>
      { loop := { s.loop with serving := some ⟨a.addr, v.conn, registered⟩ }
        reading := v.reading
        past := s.past
        reload := v.reload }

def step (d : Driver) (tn : Tunnel) (edge : Edge) (config : Path) (s : State) : Label → Option State
  | .dial way =>
      (Reconnect.step d tn edge s.loop (.dial way)).map fun loop =>
        { s with
          loop := loop
          reading := fun _ => false }
  | .link i l =>
      match s.past[i]?, s.loop.serving with
      | some a, _ =>
          (linkStep d tn config s.reload a l).map fun v =>
            { s with
              past := s.past.set i ⟨v.conn, v.reading⟩
              reload := v.reload }
      | none, some a =>
          if i = s.past.length then (linkStep d tn config s.reload ⟨a.conn, s.reading⟩ l).map (settle s a) else none
      | none, none => none
  | .reload l =>
      if isLookup l then none
      else (HotReload.step tn.crates config s.reload l).map fun r => { s with reload := r }

def begun (file : Except Error Str) (rules : List IngressRule) : State :=
  ⟨Reconnect.begun, fun _ => false, [], HotReload.started file rules⟩

def tunnelRun (d : Driver) (tn : Tunnel) (edge : Edge) (config : Path) : System State Label where
  init s := ∃ file rules, loadFromFile tn.crates (fun _ => file) config = .ok rules ∧ s = begun file rules
  step := step d tn edge config

variable {d : Driver} {tn : Tunnel} {edge : Edge} {config : Path} {s t : State}

inductive Changed (d : Driver) (tn : Tunnel) (config : Path) (s t : State) : Label → Prop
  | dial (way : Dial) (hlinks : t.links = s.links ∨ t.links = s.links ++ [fresh]) (hreload : t.reload = s.reload) :
      Changed d tn config s t (.dial way)
  | link (i : Nat) (l : Serving.Label) (a : Link) (v : Serving.State) (ha : s.links[i]? = some a)
      (hl : isReload l = false) (hv : Serving.step d tn config ⟨a.conn, s.reload, a.reading⟩ l = some v)
      (hlinks : t.links = s.links.set i ⟨v.conn, v.reading⟩) (hreload : t.reload = v.reload) :
      Changed d tn config s t (.link i l)
  | reload (l : HotReload.Label) (hl : isLookup l = false)
      (hk : HotReload.step tn.crates config s.reload l = some t.reload) (hlinks : t.links = s.links) :
      Changed d tn config s t (.reload l)

theorem linkStep_some {reload : HotReload.State} {a : Link} {l : Serving.Label} {v : Serving.State}
    (h : linkStep d tn config reload a l = some v) :
    isReload l = false ∧ Serving.step d tn config ⟨a.conn, reload, a.reading⟩ l = some v := by
  rw [linkStep] at h
  split at h
  next => exact absurd h (by simp)
  next hl => exact ⟨by simpa using hl, h⟩

theorem links_serving {a : Reconnect.Serving} (h : s.loop.serving = some a) :
    s.links = s.past ++ [⟨a.conn, s.reading⟩] := by
  rw [State.links, h]
  rfl

theorem links_idle (h : s.loop.serving = none) : s.links = s.past := by
  rw [State.links, h]
  exact List.append_nil _

theorem conclude_serving (s : Reconnect.State) (addr : Str) (registered : Bool) (r : Except Error Unit) :
    (conclude s addr registered r).serving = none := by
  cases r <;> rfl

theorem settle_links (s : State) (a : Reconnect.Serving) (v : Serving.State) :
    (settle s a v).links = s.past ++ [⟨v.conn, v.reading⟩] ∧ (settle s a v).reload = v.reload := by
  rw [settle]
  split
  next result hphase => exact ⟨links_idle (conclude_serving _ _ _ _), rfl⟩
  next => exact ⟨rfl, rfl⟩

theorem changed_of_step {l : Label} (h : step d tn edge config s l = some t) : Changed d tn config s t l := by
  cases l with
  | dial way =>
      obtain ⟨loop, hloop, rfl⟩ := Option.map_eq_some_iff.mp h
      simp only [Reconnect.step] at hloop
      split at hloop
      next => exact absurd hloop (by simp)
      next hserving =>
        have hidle : s.links = s.past := links_idle hserving
        split at hloop
        next e _ =>
          obtain rfl := Option.some.inj hloop
          exact .dial way (Or.inl (by rw [hidle]; exact links_idle (conclude_serving _ _ _ _))) rfl
        next =>
          obtain rfl := Option.some.inj hloop
          exact .dial way (Or.inr (by rw [hidle]; rfl)) rfl
  | link i l =>
      simp only [step] at h
      split at h
      next a ha =>
        obtain ⟨v, hv, rfl⟩ := Option.map_eq_some_iff.mp h
        obtain ⟨hl, hv⟩ := linkStep_some hv
        have hi := (List.getElem?_eq_some_iff.mp ha).1
        refine .link i l a v ?_ hl hv ?_ rfl
        · rw [State.links, List.getElem?_append_left hi, ha]
        · rw [State.links, State.links, List.set_append_left i _ hi]
      next a hnone hserving =>
        split at h
        next hi =>
          subst hi
          obtain ⟨v, hv, rfl⟩ := Option.map_eq_some_iff.mp h
          obtain ⟨hl, hv⟩ := linkStep_some hv
          refine .link _ l ⟨a.conn, s.reading⟩ v ?_ hl hv ?_ (settle_links s a v).2
          · rw [links_serving hserving, List.getElem?_concat_length]
          · rw [links_serving hserving, (settle_links s a v).1, List.set_append_right _ _ (Nat.le_refl _), Nat.sub_self]
            rfl
        next => exact absurd h (by simp)
      next => exact absurd h (by simp)
  | reload l =>
      simp only [step] at h
      split at h
      next => exact absurd h (by simp)
      next hl =>
        obtain ⟨r, hr, rfl⟩ := Option.map_eq_some_iff.mp h
        exact .reload l (by simpa using hl) hr rfl

def held (a : Link) : List (Str × Str) := a.conn.tasks.filterMap (holder a.reading)

/-- To a connection it is as if it had the table to itself: others only hold the
lock too. -/
structure Seen (r : HotReload.State) (a : Link) (v : Serving.State) : Prop where
  conn : v.conn = a.conn
  reading : v.reading = a.reading
  file : v.reload.file = r.file
  table : v.reload.table = r.table
  task : v.reload.task = r.task

theorem Seen.reload {r r' : HotReload.State} {a : Link} {v : Serving.State} (h : Seen r a v) {k : HotReload.Label}
    (hl : isLookup k = false) (hk : HotReload.step tn.crates config r k = some r')
    (hfree : r.readers = [] → v.reload.readers = []) :
    ∃ w, Serving.step d tn config v (.reload k) = some w ∧ Seen r' a w := by
  rcases v with ⟨conn, q, reading⟩
  obtain ⟨hconn, hreading, hfile, htable, htask⟩ := h
  dsimp only at hfile htable htask hfree
  suffices hq : ∃ q', HotReload.step tn.crates config q k = some q' ∧ q'.file = r'.file ∧ q'.table = r'.table ∧
      q'.task = r'.task by
    obtain ⟨q', hq', hfile', htable', htask'⟩ := hq
    exact ⟨⟨conn, q', reading⟩, by simp [Serving.step, hl, hq'], hconn, hreading, hfile', htable', htask'⟩
  cases k with
  | edit file =>
      obtain rfl := Option.some.inj hk
      exact ⟨_, rfl, rfl, htable, htask⟩
  | tick =>
      have hload : HotReload.loadNow tn.crates config q = HotReload.loadNow tn.crates config r := by
        rw [HotReload.loadNow, HotReload.loadNow]
        exact congrArg (fun f => loadFromFile tn.crates (fun _ => f) config) hfile
      simp only [HotReload.step, ← htask, ← hload] at hk ⊢
      split at hk
      next => exact absurd hk (by simp)
      next =>
        split at hk
        next rules _ =>
          obtain rfl := Option.some.inj hk
          exact ⟨_, rfl, hfile, htable, rfl⟩
        next e _ =>
          obtain rfl := Option.some.inj hk
          exact ⟨_, rfl, hfile, htable, rfl⟩
  | write =>
      simp only [HotReload.step] at hk
      split at hk
      next rules hwriting hreaders =>
        obtain rfl := Option.some.inj hk
        simp only [HotReload.step, htask.trans hwriting, hfree hreaders]
        exact ⟨_, rfl, hfile, rfl, rfl⟩
      next => exact absurd hk (by simp)
  | read host path => exact absurd hl (by simp [isLookup])
  | answer host path => exact absurd hl (by simp [isLookup])

/-- Its own steps are the same with the table to itself, and take and give back
the same locks. -/
theorem Seen.step {r : HotReload.State} {a : Link} {v u : Serving.State} (h : Seen r a v) (hheld : Held v)
    {l : Serving.Label} (hl : isReload l = false) (hu : Serving.step d tn config ⟨a.conn, r, a.reading⟩ l = some u)
    {rest : List (Str × Str)} (hperm : r.readers.Perm (v.reload.readers ++ rest)) :
    ∃ w, Serving.step d tn config v l = some w ∧ Seen u.reload ⟨u.conn, u.reading⟩ w ∧
      u.reload.readers.Perm (w.reload.readers ++ rest) := by
  rcases v with ⟨conn, q, reading⟩
  rcases a with ⟨_, _⟩
  obtain ⟨rfl, rfl, hfile, htable, htask⟩ := h
  dsimp only at hfile htable htask hperm
  cases l with
  | conn k =>
      simp only [Serving.step] at hu ⊢
      split at hu
      next => exact absurd hu (by simp)
      next hk =>
        obtain ⟨c, hc, rfl⟩ := Option.map_eq_some_iff.mp hu
        rw [if_neg hk, hc]
        exact ⟨_, rfl, ⟨rfl, rfl, hfile, htable, htask⟩, hperm⟩
  | reload k => exact absurd hl (by simp [isReload])
  | lock id =>
      simp only [Serving.step] at hu
      split at hu
      next req hmine harrived hfree =>
        obtain ⟨_, hk, rfl⟩ := Option.map_eq_some_iff.mp hu
        obtain rfl := Option.some.inj hk
        simp only [Serving.step, hmine, harrived, hfree]
        exact ⟨_, rfl, ⟨rfl, rfl, hfile, htable, htask⟩, hperm.cons _⟩
      next => exact absurd hu (by simp)
  | choose id =>
      simp only [Serving.step] at hu
      split at hu
      next req hmine hholds =>
        obtain ⟨_, hk, hu⟩ := Option.bind_eq_some_iff.mp hu
        simp only [HotReload.step] at hk
        split at hk
        next =>
          obtain rfl := Option.some.inj hk
          obtain ⟨c, hc, rfl⟩ := Option.map_eq_some_iff.mp hu
          have hin : (hostOf req, pathOf req) ∈ q.readers :=
            hheld.mem_iff.mpr (List.mem_filterMap.mpr ⟨(id, req), task_mem hmine, holder_reading hholds req⟩)
          have herase := hperm.erase (hostOf req, pathOf req)
          rw [List.erase_append_left _ hin] at herase
          simp only [Serving.step, hmine, hholds, HotReload.step, if_pos hin, htable, Option.bind_some, hc]
          exact ⟨_, rfl, ⟨rfl, rfl, hfile, rfl, htask⟩, herase⟩
        next => exact absurd hk (by simp)
      next => exact absurd hu (by simp)

theorem Seen.holders {r : HotReload.State} {a : Link} {v : Serving.State} (h : Seen r a v) : holders v = held a := by
  rw [TableLock.holders, h.conn, h.reading]
  rfl

theorem reload_kept {u v : Serving.State} {l : Serving.Label} (hl : isReload l = false)
    (h : Serving.step d tn config u l = some v) :
    v.reload.file = u.reload.file ∧ v.reload.table = u.reload.table ∧ v.reload.task = u.reload.task := by
  cases moved_of_step h with
  | conn _ _ _ hreload => exact hreload ▸ ⟨rfl, rfl, rfl⟩
  | reload => exact absurd hl (by simp [isReload])
  | lock _ _ _ hk => exact Option.some.inj hk ▸ ⟨rfl, rfl, rfl⟩
  | choose _ _ _ hk =>
      simp only [HotReload.step] at hk
      split at hk
      next => exact Option.some.inj hk ▸ ⟨rfl, rfl, rfl⟩
      next => exact absurd hk (by simp)

def own? (i : Nat) : Label → Option Serving.Label
  | .dial _ => none
  | .link j l => if j = i then some l else none
  | .reload l => some (.reload l)

def ownRun (i : Nat) (ls : List Label) : List Serving.Label := ls.filterMap (own? i)

def linkAt (s : State) (i : Nat) : Link := (s.links[i]?).getD fresh

theorem linkAt_eq {i : Nat} {a : Link} (ha : s.links[i]? = some a) : linkAt s i = a := by
  rw [linkAt, ha, Option.getD_some]

structure Projected (d : Driver) (tn : Tunnel) (config : Path) (file : Except Error Str) (rules : List IngressRule)
    (ls : List Label) (s : State) : Prop where
  own : ∀ i, ∃ v, (serving d tn config).exec (Serving.begun file rules) (ownRun i ls) = some v ∧
    Seen s.reload (linkAt s i) v
  lock : s.reload.readers.Perm (s.links.flatMap held)

theorem ownRun_concat (i : Nat) (ls : List Label) (l : Label) :
    ownRun i (ls ++ [l]) = ownRun i ls ++ (own? i l).toList := filterMap_concat (own? i) ls l

theorem linkAt_dial (h : t.links = s.links ∨ t.links = s.links ++ [fresh]) (i : Nat) : linkAt t i = linkAt s i := by
  rcases h with h | h
  · rw [linkAt, linkAt, h]
  · rw [linkAt, linkAt, h, List.getElem?_append]
    split
    next => rfl
    next hi =>
      rw [List.getElem?_eq_none (Nat.le_of_not_lt hi), List.getElem?_singleton]
      split <;> rfl

theorem held_nil (h : s.links.flatMap held = []) (i : Nat) : held (linkAt s i) = [] := by
  rw [linkAt]
  cases hi : s.links[i]? with
  | none => rfl
  | some a => exact List.flatMap_eq_nil_iff.mp h a (List.mem_of_getElem? hi)

variable {file : Except Error Str} {rules : List IngressRule} {ls : List Label}

theorem Projected.link (hload : loadFromFile tn.crates (fun _ => file) config = .ok rules)
    (h : Projected d tn config file rules ls s) {i : Nat} {l : Serving.Label} {a : Link} {v : Serving.State}
    (ha : s.links[i]? = some a) (hl : isReload l = false)
    (hv : Serving.step d tn config ⟨a.conn, s.reload, a.reading⟩ l = some v)
    (hlinks : t.links = s.links.set i ⟨v.conn, v.reading⟩) (hreload : t.reload = v.reload) :
    Projected d tn config file rules (ls ++ [.link i l]) t := by
  obtain ⟨w, hw, hseen⟩ := h.own i
  rw [linkAt_eq ha] at hseen
  obtain ⟨hi, hget⟩ := List.getElem?_eq_some_iff.mp ha
  have hheld := (held_of_run hload hw).1
  have hall : s.reload.readers.Perm (w.reload.readers ++ (s.links.eraseIdx i).flatMap held) := by
    have hsplit := (List.getElem_cons_eraseIdx_perm hi).flatMap_right held
    rw [hget, List.flatMap_cons, ← hseen.holders] at hsplit
    exact h.lock.trans (hsplit.symm.trans (hheld.symm.append_right _))
  obtain ⟨w', hw', hseen', hall'⟩ := hseen.step hheld hl hv hall
  have hrun : (serving d tn config).exec (Serving.begun file rules) (ownRun i ls ++ [l]) = some w' :=
    exec_concat hw hw'
  refine ⟨fun j => ?_, ?_⟩
  · by_cases hj : j = i
    · subst hj
      refine ⟨w', by rw [ownRun_concat, own?, if_pos rfl]; exact hrun, ?_⟩
      rw [linkAt, hlinks, List.getElem?_set_self hi, Option.getD_some, hreload]
      exact hseen'
    · obtain ⟨u, hu, hother⟩ := h.own j
      obtain ⟨hfile, htable, htask⟩ := reload_kept hl hv
      refine ⟨u, by rw [ownRun_concat, own?, if_neg (Ne.symm hj)]; exact (List.append_nil _).symm ▸ hu, ?_⟩
      rw [linkAt, hlinks, List.getElem?_set_ne (Ne.symm hj), hreload]
      exact ⟨hother.conn, hother.reading, hother.file.trans hfile.symm, hother.table.trans htable.symm,
        hother.task.trans htask.symm⟩
  · have hset := (List.set_perm_cons_eraseIdx hi ⟨v.conn, v.reading⟩).flatMap_right held
    rw [List.flatMap_cons, ← hseen'.holders] at hset
    rw [hlinks, hreload]
    exact hall'.trans (((held_of_run hload hrun).1.append_right _).trans hset.symm)

theorem Projected.step (hload : loadFromFile tn.crates (fun _ => file) config = .ok rules)
    (h : Projected d tn config file rules ls s) {l : Label} (hc : Changed d tn config s t l) :
    Projected d tn config file rules (ls ++ [l]) t := by
  cases hc with
  | dial way hlinks hreload =>
      refine ⟨fun i => ?_, ?_⟩
      · rw [ownRun_concat, linkAt_dial hlinks, hreload]
        exact (List.append_nil (ownRun i ls)).symm ▸ h.own i
      · rw [hreload]
        rcases hlinks with hlinks | hlinks
        · exact hlinks ▸ h.lock
        · rw [hlinks, List.flatMap_append]
          exact (List.append_nil (s.links.flatMap held)).symm ▸ h.lock
  | link i l a v ha hl hv hlinks hreload => exact h.link hload ha hl hv hlinks hreload
  | reload l hl hk hlinks =>
      refine ⟨fun i => ?_, ?_⟩
      · obtain ⟨v, hv, hseen⟩ := h.own i
        have hheld : v.reload.readers.Perm (held (linkAt s i)) := hseen.holders ▸ (held_of_run hload hv).1
        obtain ⟨w, hw, hseen'⟩ := hseen.reload (d := d) hl hk fun hnone => by
          rw [held_nil (hnone ▸ h.lock).nil_eq.symm i] at hheld
          exact hheld.eq_nil
        rw [ownRun_concat, linkAt, hlinks]
        exact ⟨w, exec_concat hv hw, hseen'⟩
      · rw [readers_of_step hl hk, hlinks]
        exact h.lock

theorem projected_of_run (hload : loadFromFile tn.crates (fun _ => file) config = .ok rules)
    (h : (tunnelRun d tn edge config).exec (begun file rules) ls = some s) :
    Projected d tn config file rules ls s := by
  have hbegun : Projected d tn config file rules [] (begun file rules) :=
    ⟨fun i => ⟨_, rfl, rfl, rfl, rfl, rfl, rfl⟩, List.Perm.refl []⟩
  exact exec_record (I := fun s ls => Projected d tn config file rules ls s) h hbegun
    (fun u ks l v _ hu hs => hu.step hload (changed_of_step hs))

def framesTo (i : Nat) (ls : List Label) : List InFrame := edgeFrames (connLabels (ownRun i ls))

/-- To the edge each connection looks as if it were the only one. -/
theorem connection_of_run (hload : loadFromFile tn.crates (fun _ => file) config = .ok rules)
    (h : (tunnelRun d tn edge config).exec (begun file rules) ls = some s) {i : Nat} {a : Link}
    (ha : s.links[i]? = some a) :
    ∃ ks, (connectAndServe d tn).exec Connection.start ks = some a.conn ∧ edgeFrames ks = framesTo i ls := by
  obtain ⟨v, hv, hseen⟩ := (projected_of_run hload h).own i
  obtain ⟨ks, hks, hedges, _⟩ := (refined_of_run hload hv).run
  rw [← linkAt_eq ha, ← hseen.conn]
  exact ⟨ks, hks, hedges⟩

def LookedUp (d : Driver) (tn : Tunnel) (edge : Edge) (config : Path) (s₀ : State) (ls : List Label) (i id : Nat)
    (rules : List IngressRule) : Prop :=
  ∃ pre post u, ls = pre ++ .link i (.choose id) :: post ∧ (tunnelRun d tn edge config).exec s₀ pre = some u ∧
    rules = u.reload.table

theorem own?_link {i : Nat} {l : Label} {k : Serving.Label} (h : own? i l = some k) (hk : isReload k = false) :
    l = .link i k := by
  cases l with
  | dial way => exact absurd h (by simp [own?])
  | reload l =>
      obtain rfl := Option.some.inj h
      exact absurd hk (by simp [isReload])
  | link j l =>
      simp only [own?] at h
      split at h
      next hj => rw [hj, Option.some.inj h]
      next => exact absurd h (by simp)

theorem mem_own {i : Nat} {k : Connection.Label} (h : k ∈ connLabels (ownRun i ls)) : .link i (.conn k) ∈ ls := by
  obtain ⟨k', hk', hconn⟩ := List.mem_filterMap.mp h
  obtain ⟨l, hl, hown⟩ := List.mem_filterMap.mp hk'
  cases k' with
  | conn k'' =>
      obtain rfl := Option.some.inj hconn
      exact own?_link hown rfl ▸ hl
  | _ => exact absurd hconn (by simp [connLabel?])

theorem lookedUp_of_own (hload : loadFromFile tn.crates (fun _ => file) config = .ok rules)
    (h : (tunnelRun d tn edge config).exec (begun file rules) ls = some s) {i id : Nat} {version : List IngressRule}
    (hlooked : Serving.LookedUp d tn config (Serving.begun file rules) (ownRun i ls) id version) :
    LookedUp d tn edge config (begun file rules) ls i id version := by
  obtain ⟨pre, post, v, hls, hv, rfl⟩ := hlooked
  obtain ⟨before, l, after, rfl, hpre, hl⟩ := filterMap_step hls
  obtain rfl := own?_link hl rfl
  obtain ⟨u, hu, _⟩ := exec_take h
  obtain ⟨w, hw, hseen⟩ := (projected_of_run hload hu).own i
  -- the connection was alone in the same state when its handler looked
  have hwv : w = v := by
    rw [ownRun, hpre, hv] at hw
    exact (Option.some.inj hw).symm
  exact ⟨before, after, u, rfl, hu, by rw [← hwv, hseen.table]⟩

def tunnelOf (w : World) (st : Started) (connectorId : Bytes) (osArch : Str) (rpc : Rpc) (h2 : H2) : Tunnel :=
  ⟨st.creds, connectorId, osArch, w.crates, rpc, h2⟩

def begunAt (w : World) (st : Started) : State := begun (w.readToString st.configPath) st.rules

variable {w : World} {cfg : TunnelConfig} {st : Started} {connectorId : Bytes} {osArch : Str} {rpc : Rpc}
  {h2 : H2}

/-- On every connection that the tunnel ever makes, and however its handlers,
those of the others and the reload task take turns, an answer is the one to the
request of its own stream, made with the rule of the table that was in force
when its handler looked. -/
theorem served_throughout (hst : startTunnel w cfg = .ok st)
    (h : (tunnelRun d (tunnelOf w st connectorId osArch rpc h2) edge st.configPath).exec (begunAt w st) ls = some s)
    {i : Nat} {a : Link} (ha : s.links[i]? = some a) (id : Nat) :
    Served (tunnelOf w st connectorId osArch rpc h2) (framesTo i ls)
      (LookedUp d (tunnelOf w st connectorId osArch rpc h2) edge st.configPath (begunAt w st) ls i id)
      (fun env => .link i (.conn (.exchange id env)) ∈ ls) id (framesOf a.conn.toStreams id) := by
  have hload := rules_of_start hst
  obtain ⟨v, hv, hseen⟩ := (projected_of_run hload h).own i
  rw [← linkAt_eq ha, ← hseen.conn]
  exact (served_of_run hload hv id).mono (fun _ hlooked => lookedUp_of_own hload h hlooked)
    fun _ hasked => mem_own hasked

def offlineTunnel : Tunnel := tunnelOf offline Rotation.startedOffline [] [] tunnel.rpc StandIns.h2

abbrev offlineRun : System State Label :=
  tunnelRun .accept offlineTunnel (Rotation.edgeOf Rotation.display Rotation.startedOffline)
    Rotation.startedOffline.configPath

theorem startedOffline_eq : startTunnel offline ⟨TunnelSecret.badToken, none⟩ = .ok Rotation.startedOffline := rfl

def hi : Origin.Env := StandIns.env (ascii "HTTP/1.1 200 OK\r\n\r\nhi")

def answering (i id : Nat) : List Label :=
  [.link i (.conn (.drain id)), .link i (.conn (.exchange id hi)), .link i (.conn (.head id)),
    .link i (.conn (.body id))]

def edgeGone : List Label :=
  [.dial wayOpen, .link 0 (.conn (.edge (.headers 1 proxyRequest true))), .link 0 (.conn .deliver),
    .link 0 (.conn .accept), .link 0 (.lock 1), .link 0 (.conn (.edge (.close .ended))), .link 0 (.conn .deliver),
    .link 0 (.conn .finish)]

def edgeBack : List Label :=
  [.dial wayOpen, .reload .tick, .link 1 (.conn (.edge (.headers 1 proxyRequest true))), .link 1 (.conn .deliver),
    .link 1 (.conn .accept), .link 0 (.choose 1), .reload .write, .link 1 (.lock 1), .link 1 (.choose 1),
    .link 0 (.conn (.drain 1))] ++ answering 1 1 ++ [.link 1 (.conn .flush)]

theorem served_throughout_edgeBack :
    ∃ s a, offlineRun.exec (begunAt offline Rotation.startedOffline) (edgeGone ++ edgeBack) = some s ∧
      s.links[1]? = some a ∧ ∀ id, Served offlineTunnel (framesTo 1 (edgeGone ++ edgeBack))
        (LookedUp .accept offlineTunnel (Rotation.edgeOf Rotation.display Rotation.startedOffline)
          Rotation.startedOffline.configPath (begunAt offline Rotation.startedOffline) (edgeGone ++ edgeBack) 1 id)
        (fun env => .link 1 (.conn (.exchange id env)) ∈ edgeGone ++ edgeBack) id
        (framesOf a.conn.toStreams id) := by
  obtain ⟨s, a, hs, ha⟩ : ∃ s a, offlineRun.exec (begunAt offline Rotation.startedOffline) (edgeGone ++ edgeBack) =
      some s ∧ s.links[1]? = some a := ⟨_, _, rfl, rfl⟩
  exact ⟨s, a, hs, ha, served_throughout startedOffline_eq hs ha⟩

end MiniCloudflared.WholeTunnel
