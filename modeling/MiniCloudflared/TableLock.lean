import MiniCloudflared.Serving

namespace MiniCloudflared.TableLock

open Library HttpTypes Config ThirdParty Ingress ProxyStream Connection StreamOwners
open Deadlock Answers OwnRequests Serving
open Library.System

variable {d : Driver} {tn : Tunnel} {config : Path} {s t : Serving.State}

def holder (reading : Nat → Bool) (p : Nat × HttpTypes.Request Unit) : Option (Str × Str) :=
  if reading p.1 then some (hostOf p.2, pathOf p.2) else none

def holders (s : Serving.State) : List (Str × Str) := s.conn.tasks.filterMap (holder s.reading)

theorem holder_reading {reading : Nat → Bool} {id : Nat} (h : reading id = true) (req : HttpTypes.Request Unit) :
    holder reading (id, req) = some (hostOf req, pathOf req) := if_pos h

theorem holder_none {reading : Nat → Bool} {id : Nat} (h : reading id = false) (req : HttpTypes.Request Unit) :
    holder reading (id, req) = none := if_neg (by rw [h]; exact Bool.false_ne_true)

theorem holder_congr {reading reading' : Nat → Bool} {p : Nat × HttpTypes.Request Unit}
    (h : reading' p.1 = reading p.1) : holder reading' p = holder reading p := by
  rw [holder, holder, h]

theorem holders_insert {reading reading' : Nat → Bool} {tasks : List (Nat × HttpTypes.Request Unit)} {id : Nat}
    {req : HttpTypes.Request Unit} (hnodup : (tasks.map Prod.fst).Nodup) (hmem : (id, req) ∈ tasks)
    (hother : ∀ j, j ≠ id → reading' j = reading j) (hout : reading id = false) (hin : reading' id = true) :
    (tasks.filterMap (holder reading')).Perm ((hostOf req, pathOf req) :: tasks.filterMap (holder reading)) := by
  obtain ⟨before, after, rfl⟩ := List.append_of_mem hmem
  rw [List.map_append, List.map_cons, List.nodup_middle, List.nodup_cons, ← List.map_append] at hnodup
  have hsame (rest : List (Nat × HttpTypes.Request Unit)) (hrest : ∀ p, p ∈ rest → p ∈ before ++ after) :
      rest.filterMap (holder reading') = rest.filterMap (holder reading) := by
    refine List.filterMap_congr fun p hp => holder_congr (hother p.1 ?_)
    rintro rfl
    exact hnodup.1 (List.mem_map.mpr ⟨p, hrest p hp, rfl⟩)
  rw [List.filterMap_append, List.filterMap_append, List.filterMap_cons_some (holder_reading hin req),
    List.filterMap_cons_none (holder_none hout req), hsame before (fun p => List.mem_append_left after),
    hsame after (fun p => List.mem_append_right before)]
  exact List.perm_middle

theorem holders_done {reading : Nat → Bool} {tasks : List (Nat × HttpTypes.Request Unit)} {id : Nat}
    (hout : reading id = false) :
    (tasks.filter (fun p => p.1 != id)).filterMap (holder reading) = tasks.filterMap (holder reading) := by
  rw [List.filterMap_filter]
  refine List.filterMap_congr fun p _ => ?_
  by_cases hp : p.1 = id
  · rw [if_neg (by simpa using hp)]
    exact (holder_none (hp ▸ hout) p.2).symm
  · rw [if_pos (by simpa using hp)]

/-- A step of a connection adds a handler or takes one away that has looked for
its rule. -/
theorem tasks_change {c c' : Connection.State} {l : Connection.Label} (hstep : Connection.Step d tn c l c') :
    c'.tasks = c.tasks ∨
      (∃ id req, c.incoming = (id, req) :: c'.incoming ∧ c'.tasks = c.tasks ++ [(id, req)]) ∨
      ∃ id, c.stage id ≠ .arrived ∧ c'.tasks = c.tasks.filter fun p => p.1 != id := by
  have hgone {id : Nat} {stage : Stage} (hstage : c.stage id = stage) (hne : stage ≠ .arrived)
      (htasks : c'.tasks = c.tasks.filter fun p => p.1 != id) :
      ∃ id, c.stage id ≠ .arrived ∧ c'.tasks = c.tasks.filter fun p => p.1 != id := ⟨id, hstage ▸ hne, htasks⟩
  cases hstep with
  | spawn id req rest hphase hin => exact .inr (.inl ⟨id, req, hin, rfl⟩)
  | unasked id req rule buf e htask hstage => exact .inr (.inr (hgone hstage Stage.noConfusion rfl))
  | unsent id l hl req htask hstage =>
      rcases hstage with ⟨resp, hstage⟩ | ⟨body, hstage⟩
      all_goals exact .inr (.inr (hgone hstage Stage.noConfusion rfl))
  | answered id req resp headers htask hstage => exact .inr (.inr (hgone hstage Stage.noConfusion rfl))
  | completed id req body htask hstage => exact .inr (.inr (hgone hstage Stage.noConfusion rfl))
  | _ => exact .inl rfl

/-- The lock is held by the handlers that are reading and by nobody else. -/
def Held (s : Serving.State) : Prop := s.reload.readers.Perm (holders s)

theorem readers_of_step {cr : Crates} {r r' : HotReload.State} {l : HotReload.Label} (hl : isLookup l = false)
    (h : HotReload.step cr config r l = some r') : r'.readers = r.readers := by
  cases l with
  | edit file =>
      obtain rfl := Option.some.inj h
      rfl
  | tick =>
      simp only [HotReload.step] at h
      split at h
      next => exact absurd h (by simp)
      next =>
        split at h
        next =>
          obtain rfl := Option.some.inj h
          rfl
        next =>
          obtain rfl := Option.some.inj h
          rfl
  | write =>
      simp only [HotReload.step] at h
      split at h
      next hreaders =>
        obtain rfl := Option.some.inj h
        rfl
      next => exact absurd h (by simp)
  | read host path => exact absurd hl (by simp [isLookup])
  | answer host path => exact absurd hl (by simp [isLookup])

theorem answer_step {cr : Crates} {r r' : HotReload.State} {host path : Str}
    (h : HotReload.step cr config r (.answer host path) = some r') :
    r'.readers = r.readers.erase (host, path) ∧ r'.task = r.task := by
  simp only [HotReload.step] at h
  split at h
  next =>
    obtain rfl := Option.some.inj h
    exact ⟨rfl, rfl⟩
  next => exact absurd h (by simp)

theorem Held.step (hheld : Held s) (hfresh : Fresh s.conn)
    (hreading : ∀ id, s.reading id = true → id ∈ s.conn.tasks.map Prod.fst ∧ s.conn.stage id = .arrived)
    {l : Serving.Label} (hm : Moved d tn config s t l) : Held t := by
  have hkept {l : Connection.Label} (hconn : Connection.Step d tn s.conn l t.conn) :
      t.conn.tasks.filterMap (holder s.reading) = s.conn.tasks.filterMap (holder s.reading) := by
    rcases tasks_change hconn with htasks | ⟨id, req, hin, htasks⟩ | ⟨id, hstage, htasks⟩
    · rw [htasks]
    · have hfree : s.reading id = false := by
        refine Bool.eq_false_of_not_eq_true fun hid => (hfresh.owner (.inl (hreading id hid).1)).2 ?_
        rw [hin]
        exact List.mem_cons_self
      rw [htasks, List.filterMap_append, List.filterMap_cons_none (holder_none hfree req), List.filterMap_nil,
        List.append_nil]
    · rw [htasks]
      exact holders_done (Bool.eq_false_of_not_eq_true fun hid => hstage (hreading id hid).2)
  cases hm with
  | conn l hl hconn hreload hsame =>
      rw [Held, hreload, holders, hsame, hkept (Connection.step_cases hconn)]
      exact hheld
  | reload l hl hk hconn hsame =>
      rw [Held, readers_of_step hl hk, holders, hconn, hsame]
      exact hheld
  | lock id req htask hk hconn harrived hfree hnext =>
      have hreaders : t.reload.readers = (hostOf req, pathOf req) :: s.reload.readers := by
        rw [← Option.some.inj hk]
      have hinsert : (holders t).Perm ((hostOf req, pathOf req) :: holders s) := by
        rw [holders, holders, hconn, hnext]
        exact holders_insert hfresh.tasks_nodup (task_mem htask) (fun j hj => if_neg hj) hfree (if_pos rfl)
      rw [Held, hreaders]
      exact (hheld.cons _).trans hinsert.symm
  | choose id req htask hk hconn hholds hnext =>
      have hinsert : (holders s).Perm ((hostOf req, pathOf req) :: s.conn.tasks.filterMap (holder t.reading)) := by
        refine holders_insert hfresh.tasks_nodup (task_mem htask) (fun j hj => ?_) ?_ hholds
        · rw [hnext]
          exact (if_neg hj).symm
        · rw [hnext]
          exact if_pos rfl
      have hlook : t.conn.tasks = s.conn.tasks := by
        obtain ⟨req', _, _, hnext⟩ := look_some hconn
        rw [hnext]
        rfl
      rw [Held, (answer_step hk).1, holders, hlook]
      have herase := (hheld.trans hinsert).erase (hostOf req, pathOf req)
      rwa [List.erase_cons_head] at herase

theorem held_of_run {file : Except Error Str} {rules : List IngressRule}
    (hload : loadFromFile tn.crates (fun _ => file) config = .ok rules) {ls : List Serving.Label}
    (h : (serving d tn config).exec (begun file rules) ls = some s) : Held s ∧ Pending tn s.conn := by
  have hpending {ks : List Serving.Label} {u : Serving.State}
      (hks : (serving d tn config).exec (begun file rules) ks = some u) : Pending tn u.conn := by
    obtain ⟨_, hrun, _⟩ := (refined_of_run hload hks).run
    exact (run_answers hrun).1.pending
  refine ⟨exec_record (I := fun s _ => Held s) h (List.Perm.refl []) (fun u ks l v hks hu hs => ?_), hpending h⟩
  exact hu.step (hpending hks).fresh (refined_of_run hload hks).reading (moved_of_step hs)

theorem taskOf_of_mem {c : Connection.State} (hfresh : Fresh c) {id : Nat} {req : HttpTypes.Request Unit}
    (hmem : (id, req) ∈ c.tasks) : taskOf c id = some req := by
  cases htask : taskOf c id with
  | none =>
      have hnone := List.find?_eq_none.mp (Option.map_eq_none_iff.mp htask) (id, req) hmem
      exact absurd (beq_self_eq_true id) hnone
  | some req' => rw [hfresh.task_unique hmem (task_mem htask)]

theorem choose_enabled (d : Driver) (tn : Tunnel) (config : Path) (hfresh : Fresh s.conn)
    (hreading : ∀ id, s.reading id = true → id ∈ s.conn.tasks.map Prod.fst ∧ s.conn.stage id = .arrived)
    {p : Str × Str} (hp : p ∈ holders s) (hin : p ∈ s.reload.readers) :
    ∃ id u, Serving.step d tn config s (.choose id) = some u := by
  obtain ⟨⟨id, req⟩, hmem, hholder⟩ := List.mem_filterMap.mp hp
  have hholds : s.reading id = true := by
    by_contra hother
    rw [holder_none (Bool.eq_false_of_not_eq_true hother)] at hholder
    exact absurd hholder (by simp)
  obtain rfl := Option.some.inj ((holder_reading hholds req).symm.trans hholder)
  refine ⟨id, Option.isSome_iff_exists.mp ?_⟩
  simp only [Serving.step, taskOf_of_mem hfresh hmem, hholds, HotReload.step, if_pos hin, Option.bind_some,
    Connection.step, (hreading id hholds).2, Option.map_some, Option.isSome_some]

def isLock : Serving.Label → Bool
  | .lock _ => true
  | _ => false

def isChoose : Serving.Label → Bool
  | .choose _ => true
  | _ => false

def isWrite : Serving.Label → Bool
  | .reload .write => true
  | _ => false

theorem task_of_step {cr : Crates} {r r' : HotReload.State} {l : HotReload.Label} {rules : List IngressRule}
    (hw : r.task = .writing rules) (hl : isWrite (.reload l) = false)
    (h : HotReload.step cr config r l = some r') : r'.task = .writing rules := by
  cases l with
  | tick =>
      simp only [HotReload.step, hw] at h
      exact absurd h (by simp)
  | write => exact absurd hl (by simp [isWrite])
  | answer host path => rw [(answer_step h).2, hw]
  | _ =>
      obtain rfl := Option.some.inj h
      exact hw

/-- While the reload task waits, each lookup leaves one holder less, and
nothing but a lookup changes their number. -/
theorem draining_step {rules : List IngressRule} (hw : s.reload.task = .writing rules) {l : Serving.Label}
    (hlock : isLock l = false) (hwrite : isWrite l = false) (hm : Moved d tn config s t l) :
    t.reload.task = .writing rules ∧
      t.reload.readers.length + (if isChoose l then 1 else 0) = s.reload.readers.length := by
  cases hm with
  | conn l hl hconn hreload =>
      rw [hreload]
      exact ⟨hw, rfl⟩
  | reload l hl hk =>
      rw [readers_of_step hl hk]
      exact ⟨task_of_step hw hwrite hk, rfl⟩
  | lock id => exact absurd hlock (by simp [isLock])
  | choose id req htask hk =>
      have hmem : (hostOf req, pathOf req) ∈ s.reload.readers := by
        by_contra hout
        simp only [HotReload.step, if_neg hout] at hk
        exact absurd hk (by simp)
      have hpos := List.length_pos_of_mem hmem
      rw [(answer_step hk).1, (answer_step hk).2, List.length_erase_of_mem hmem]
      refine ⟨hw, ?_⟩
      simp only [isChoose, if_true]
      omega

end MiniCloudflared.TableLock
