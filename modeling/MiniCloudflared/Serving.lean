import MiniCloudflared.HotReload
import MiniCloudflared.OwnRequests

namespace MiniCloudflared.Serving

open Library Http1 HttpTypes Config ThirdParty Ingress Origin RequestBody ProxyStream Exchange Http2 SentFrames
open Connection StreamOwners Deadlock Answers OwnRequests Library.System

/-- A connection whose handlers look up their rules in the table that the reload
task writes. Between `arrived` and its rule a handler holds the read lock. -/
structure State where
  conn : Connection.State
  reload : HotReload.State
  reading : Nat → Bool

inductive Label
  | conn (l : Connection.Label)
  | reload (l : HotReload.Label)
  | lock (id : Nat)
  | choose (id : Nat)

def State.setReading (s : State) (id : Nat) (b : Bool) : State :=
  { s with reading := fun j => if j = id then b else s.reading j }

def isLook : Connection.Label → Bool
  | .look _ _ => true
  | _ => false

def isLookup : HotReload.Label → Bool
  | .read _ _ => true
  | .answer _ _ => true
  | _ => false

def step (d : Driver) (tn : Tunnel) (config : Path) (s : State) : Label → Option State
  | .conn l =>
      if isLook l then none else (Connection.step d tn s.conn l).map fun conn => { s with conn := conn }
  | .reload l =>
      if isLookup l then none
      else (HotReload.step tn.crates config s.reload l).map fun r => { s with reload := r }
  | .lock id =>
      match taskOf s.conn id, s.conn.stage id, s.reading id with
      | some req, .arrived, false =>
          (HotReload.step tn.crates config s.reload (.read (hostOf req) (pathOf req))).map fun r =>
            { s with reload := r }.setReading id true
      | _, _, _ => none
  | .choose id =>
      match taskOf s.conn id, s.reading id with
      | some req, true =>
          (HotReload.step tn.crates config s.reload (.answer (hostOf req) (pathOf req))).bind fun r =>
            (Connection.step d tn s.conn (.look id s.reload.table)).map fun conn =>
              { s with conn := conn, reload := r }.setReading id false
      | _, _ => none

def begun (file : Except Error Str) (rules : List IngressRule) : State :=
  ⟨start, HotReload.started file rules, fun _ => false⟩

def serving (d : Driver) (tn : Tunnel) (config : Path) : System State Label where
  init s := ∃ file rules, loadFromFile tn.crates (fun _ => file) config = .ok rules ∧ s = begun file rules
  step := step d tn config

variable {d : Driver} {tn : Tunnel} {config : Path} {s t : State}

inductive Moved (d : Driver) (tn : Tunnel) (config : Path) (s t : State) : Label → Prop
  | conn (l : Connection.Label) (hl : isLook l = false) (hconn : Connection.step d tn s.conn l = some t.conn)
      (hreload : t.reload = s.reload) (hreading : t.reading = s.reading) : Moved d tn config s t (.conn l)
  | reload (l : HotReload.Label) (hl : isLookup l = false)
      (hk : HotReload.step tn.crates config s.reload l = some t.reload)
      (hconn : t.conn = s.conn) (hreading : t.reading = s.reading) : Moved d tn config s t (.reload l)
  | lock (id : Nat) (req : HttpTypes.Request Unit) (htask : taskOf s.conn id = some req)
      (hk : HotReload.step tn.crates config s.reload (.read (hostOf req) (pathOf req)) = some t.reload)
      (hconn : t.conn = s.conn) (harrived : s.conn.stage id = .arrived) (hfree : s.reading id = false)
      (hreading : t.reading = fun j => if j = id then true else s.reading j) : Moved d tn config s t (.lock id)
  | choose (id : Nat) (req : HttpTypes.Request Unit) (htask : taskOf s.conn id = some req)
      (hk : HotReload.step tn.crates config s.reload (.answer (hostOf req) (pathOf req)) = some t.reload)
      (hconn : Connection.step d tn s.conn (.look id s.reload.table) = some t.conn) (hheld : s.reading id = true)
      (hreading : t.reading = fun j => if j = id then false else s.reading j) : Moved d tn config s t (.choose id)

theorem moved_of_step {l : Label} (h : step d tn config s l = some t) : Moved d tn config s t l := by
  cases l with
  | conn l =>
      simp only [step] at h
      split at h
      next => exact absurd h (by simp)
      next hl =>
        obtain ⟨c, hc, rfl⟩ := Option.map_eq_some_iff.mp h
        exact .conn l (by simpa using hl) hc rfl rfl
  | reload l =>
      simp only [step] at h
      split at h
      next => exact absurd h (by simp)
      next hl =>
        obtain ⟨r, hr, rfl⟩ := Option.map_eq_some_iff.mp h
        exact .reload l (by simpa using hl) hr rfl rfl
  | lock id =>
      simp only [step] at h
      split at h
      next req htask harrived hfree =>
        obtain ⟨r, hr, rfl⟩ := Option.map_eq_some_iff.mp h
        exact .lock id req htask hr rfl harrived hfree rfl
      next => exact absurd h (by simp)
  | choose id =>
      simp only [step] at h
      split at h
      next req htask hheld =>
        obtain ⟨r, hr, h⟩ := Option.bind_eq_some_iff.mp h
        obtain ⟨c, hc, rfl⟩ := Option.map_eq_some_iff.mp h
        exact .choose id req htask hr hc hheld rfl
      next => exact absurd h (by simp)

def connLabel? : Label → Option Connection.Label
  | .conn l => some l
  | _ => none

def connLabels (ls : List Label) : List Connection.Label := ls.filterMap connLabel?

theorem connLabels_concat (ls : List Label) (l : Label) :
    connLabels (ls ++ [l]) = connLabels ls ++ (connLabel? l).toList := filterMap_concat connLabel? ls l

def LookedUp (d : Driver) (tn : Tunnel) (config : Path) (s₀ : State) (ls : List Label) (id : Nat)
    (rules : List IngressRule) : Prop :=
  ∃ pre post u, ls = pre ++ .choose id :: post ∧ (serving d tn config).exec s₀ pre = some u ∧ rules = u.reload.table

theorem LookedUp.mono {s₀ : State} {ls : List Label} {id : Nat} {rules : List IngressRule}
    (h : LookedUp d tn config s₀ ls id rules) (l : Label) : LookedUp d tn config s₀ (ls ++ [l]) id rules := by
  obtain ⟨pre, post, u, rfl, hu, hr⟩ := h
  exact ⟨pre, post ++ [l], u, by rw [List.append_assoc, List.cons_append], hu, hr⟩

/-- To the edge the connection looks as if nobody else was there: it has taken a
run of its own, with the rules that its handlers have found. -/
structure Refined (d : Driver) (tn : Tunnel) (config : Path) (s₀ : State) (ls : List Label) (s : State) : Prop where
  table : HotReload.Consistent tn.crates s.reload
  run : ∃ ks, (connectAndServe d tn).exec start ks = some s.conn ∧ edgeFrames ks = edgeFrames (connLabels ls) ∧
    (∀ id rules, .look id rules ∈ ks → LookedUp d tn config s₀ ls id rules) ∧
    ∀ id env, .exchange id env ∈ ks → .exchange id env ∈ connLabels ls
  reading : ∀ id, s.reading id = true → id ∈ s.conn.tasks.map Prod.fst ∧ s.conn.stage id = .arrived

/-- A handler that has not looked for its rule does nothing before. -/
theorem arrived_kept {c c' : Connection.State} {l : Connection.Label} {id : Nat} (hstep : Connection.Step d tn c l c')
    (hl : ∀ rules, l ≠ .look id rules) (hid : id ∈ c.tasks.map Prod.fst) (h : c.stage id = .arrived) :
    id ∈ c'.tasks.map Prod.fst ∧ c'.stage id = .arrived := by
  have hset {u : Connection.State} {j : Nat} {stage stage' : Stage} (hu : u.stage = c.stage) (hold : c.stage j = stage)
      (hstage : stage ≠ .arrived) : (u.setStage j stage').stage id = .arrived := by
    have hj : id ≠ j := by
      rintro rfl
      exact hstage (hold.symm.trans h)
    exact (if_neg hj).trans (hu ▸ h)
  have hend (u : Connection.State) (j : Nat) (finished : Bool) (hu : u.stage = c.stage ∧ u.tasks = c.tasks)
      (hold : c.stage j ≠ .arrived) :
      id ∈ (u.endTask j finished).tasks.map Prod.fst ∧ (u.endTask j finished).stage id = .arrived := by
    have hj : id ≠ j := by
      rintro rfl
      exact hold h
    obtain ⟨p, hp, rfl⟩ := List.mem_map.mp (hu.2 ▸ hid)
    exact ⟨List.mem_map_of_mem (List.mem_filter.mpr ⟨hp, by simpa using hj⟩), (if_neg hj).trans (hu.1 ▸ h)⟩
  cases hstep with
  | spawn j req rest hphase hin =>
      refine ⟨?_, h⟩
      rw [List.map_append]
      exact List.mem_append_left _ hid
  | look j rules req htask hstage =>
      have hj : id ≠ j := by
        rintro rfl
        exact hl rules rfl
      exact ⟨hid, (if_neg hj).trans h⟩
  | drained j req rule buf chunk r r' htask hstage => exact ⟨hid, hset rfl hstage Stage.noConfusion⟩
  | asked j req rule buf originReq htask hstage => exact ⟨hid, hset rfl hstage Stage.noConfusion⟩
  | exchange j env req rule originReq htask hstage => exact ⟨hid, hset rfl hstage Stage.noConfusion⟩
  | headed j req resp headers htask hstage => exact ⟨hid, hset rfl hstage Stage.noConfusion⟩
  | unasked j req rule buf e htask hstage => exact hend c j false ⟨rfl, rfl⟩ (by rw [hstage]; exact Stage.noConfusion)
  | unsent j l hl req htask hstage =>
      refine hend c j false ⟨rfl, rfl⟩ ?_
      rcases hstage with ⟨resp, hstage⟩ | ⟨body, hstage⟩
      all_goals
        rw [hstage]
        exact Stage.noConfusion
  | answered j req resp headers htask hstage =>
      exact hend { c with toStreams := c.send _ } j true ⟨rfl, rfl⟩ (by rw [hstage]; exact Stage.noConfusion)
  | completed j req body htask hstage =>
      exact hend { c with toStreams := c.send _ } j true ⟨rfl, rfl⟩ (by rw [hstage]; exact Stage.noConfusion)
  | _ => exact ⟨hid, h⟩

theorem Refined.step {s₀ : State} {ls : List Label} (h : Refined d tn config s₀ ls s)
    (hrun : (serving d tn config).exec s₀ ls = some s) {l : Label} (hm : Moved d tn config s t l) :
    Refined d tn config s₀ (ls ++ [l]) t := by
  obtain ⟨ks, hks, hedges, hlooked, hasked⟩ := h.run
  have hmore (k : Label) {id : Nat} {env : Env} (hk : .exchange id env ∈ connLabels ls) :
      .exchange id env ∈ connLabels (ls ++ [k]) := by
    rw [connLabels_concat]
    exact List.mem_append_left _ hk
  have hkept (k : Label) (hk : connLabel? k = none) (hconn : t.conn = s.conn) :
      ∃ ks, (connectAndServe d tn).exec start ks = some t.conn ∧ edgeFrames ks = edgeFrames (connLabels (ls ++ [k])) ∧
        (∀ id rules, .look id rules ∈ ks → LookedUp d tn config s₀ (ls ++ [k]) id rules) ∧
        ∀ id env, .exchange id env ∈ ks → .exchange id env ∈ connLabels (ls ++ [k]) := by
    refine ⟨ks, hconn ▸ hks, ?_, fun id rules hm => (hlooked id rules hm).mono k, fun id env hm =>
      hmore k (hasked id env hm)⟩
    rw [connLabels_concat, hk, Option.toList_none, List.append_nil, hedges]
  cases hm with
  | conn l hl hconn hreload hreading =>
      refine ⟨hreload ▸ h.table, ⟨ks ++ [l], exec_concat hks hconn, ?_, fun id rules hm => ?_, fun id env hm => ?_⟩,
        fun id hid => ?_⟩
      · rw [connLabels_concat, edgeFrames_concat, hedges, connLabel?, Option.toList_some, edgeFrames_concat]
      · rcases List.mem_append.mp hm with hm | hm
        · exact (hlooked id rules hm).mono _
        · rw [← List.mem_singleton.mp hm] at hl
          exact absurd hl (by simp [isLook])
      · rcases List.mem_append.mp hm with hm | hm
        · exact hmore _ (hasked id env hm)
        · rw [connLabels_concat]
          exact List.mem_append_right _ hm
      · rw [hreading] at hid
        obtain ⟨htask, harrived⟩ := h.reading id hid
        refine arrived_kept (Connection.step_cases hconn) ?_ htask harrived
        rintro rules rfl
        exact absurd hl (by simp [isLook])
  | reload l hl hk hconn hreading =>
      refine ⟨h.table.step hk, hkept _ rfl hconn, ?_⟩
      rw [hreading, hconn]
      exact h.reading
  | lock id req htask hk hconn harrived hfree hreading =>
      refine ⟨h.table.step hk, hkept _ rfl hconn, fun j hj => ?_⟩
      rw [hconn]
      by_cases he : j = id
      · rw [he]
        exact ⟨List.mem_map_of_mem (task_mem htask), harrived⟩
      · rw [hreading] at hj
        exact h.reading j ((if_neg he).symm.trans hj)
  | choose id req htask hk hconn hheld hreading =>
      have hlook : (connectAndServe d tn).exec start (ks ++ [.look id s.reload.table]) = some t.conn :=
        exec_concat hks hconn
      refine ⟨h.table.step hk, ⟨ks ++ [.look id s.reload.table], hlook, ?_, fun j rules hm => ?_,
        fun j env hm => ?_⟩, fun j hj => ?_⟩
      · rw [connLabels_concat, edgeFrames_concat, hedges]
        simp [connLabel?, edgeFrame?]
      · rcases List.mem_append.mp hm with hm | hm
        · exact (hlooked j rules hm).mono _
        · obtain ⟨rfl, rfl⟩ := Connection.Label.look.inj (List.mem_singleton.mp hm)
          exact ⟨ls, [], s, rfl, hrun, rfl⟩
      · rcases List.mem_append.mp hm with hm | hm
        · exact hmore _ (hasked j env hm)
        · exact absurd (List.mem_singleton.mp hm) Connection.Label.noConfusion
      · have he : j ≠ id := by
          rintro rfl
          rw [hreading] at hj
          exact absurd ((if_pos rfl).symm.trans hj) Bool.false_ne_true
        rw [hreading] at hj
        obtain ⟨hmem, harrived⟩ := h.reading j ((if_neg he).symm.trans hj)
        exact arrived_kept (Connection.step_cases hconn) (fun rules hl => he (Connection.Label.look.inj hl).1.symm) hmem
          harrived

theorem refined_of_run {file : Except Error Str} {rules : List IngressRule}
    (hload : loadFromFile tn.crates (fun _ => file) config = .ok rules) {ls : List Label}
    (h : (serving d tn config).exec (begun file rules) ls = some s) :
    Refined d tn config (begun file rules) ls s := by
  have hbegun : Refined d tn config (begun file rules) [] (begun file rules) := by
    refine ⟨?_, ⟨[], rfl, rfl, fun _ _ hm => absurd hm List.not_mem_nil, fun _ _ hm => absurd hm List.not_mem_nil⟩,
      fun _ hid => absurd hid Bool.false_ne_true⟩
    exact HotReload.consistent_of_reachable ⟨_, ⟨file, rules, hload, rfl⟩, .refl⟩
  exact exec_record (I := fun s ls => Refined d tn config (begun file rules) ls s) h hbegun
    (fun u ks l v hks hu hs => hu.step hks (moved_of_step hs))

/-- Where the frames on a stream come from, given what the edge has sent, the
rules that the handler of the stream has looked up and how the origin was when
it was asked: an answer to a request is made with the rule that these had for
it. It may have been cut off, as by a reset. -/
inductive Served (tn : Tunnel) (frames : List InFrame) (looked : List IngressRule → Prop) (asked : Env → Prop)
    (id : Nat) : List OutFrame → Prop
  | silent : Served tn frames looked asked id []
  | control (req : HttpTypes.Request Unit) (whole fs : List OutFrame) (hopening : opening id frames = some req)
      (hupg : upgradeOf req = CONTROL_STREAM_VAL) (hwhole : ControlFrames tn id whole) (hfs : fs <+: whole) :
      Served tn frames looked asked id fs
  | proxied (req : HttpTypes.Request Unit) (body : RecvStream) (env : Env) (rules : List IngressRule)
      (rule : IngressRule) (heard : List InFrame) (fs : List OutFrame) (hheard : heard <+: frames)
      (hopening : opening id heard = some req) (hbody : received id heard = some body) (hclean : body.ending = .clean)
      (hlooked : looked rules) (hrule : selectRule tn.crates.caseTable rules req = some rule) (hasked : asked env)
      (hfs : fs <+: (proxyTo tn.crates (taking env) (withBody req body) rule body.payload).events.filterMap
        (replyFrame id)) : Served tn frames looked asked id fs

theorem Served.mono {frames : List InFrame} {looked looked' : List IngressRule → Prop} {asked asked' : Env → Prop}
    {id : Nat} {fs : List OutFrame} (h : Served tn frames looked asked id fs)
    (hlooked : ∀ rules, looked rules → looked' rules) (hasked : ∀ env, asked env → asked' env) :
    Served tn frames looked' asked' id fs := by
  cases h with
  | silent => exact .silent
  | control req whole _ hopening hupg hwhole hfs => exact .control req whole fs hopening hupg hwhole hfs
  | proxied req body env rules rule heard _ hheard hopening hbody hclean hrules hrule henv hfs =>
      exact .proxied req body env rules rule heard fs hheard hopening hbody hclean (hlooked rules hrules) hrule
        (hasked env henv) hfs

/-- While the table is reloaded under the handlers, every answer is made with
the rule of one version of it, the version in force when the handler looked. No
request is left without a rule. -/
theorem served_of_run {file : Except Error Str} {rules : List IngressRule}
    (hload : loadFromFile tn.crates (fun _ => file) config = .ok rules) {ls : List Label}
    (h : (serving d tn config).exec (begun file rules) ls = some s) (id : Nat) :
    Served tn (edgeFrames (connLabels ls)) (LookedUp d tn config (begun file rules) ls id)
      (fun env => .exchange id env ∈ connLabels ls) id (framesOf s.conn.toStreams id) := by
  obtain ⟨ks, hks, hedges, hlooked, hasked⟩ := (refined_of_run hload h).run
  have hanswer := (run_answers hks).1.answers id
  generalize framesOf s.conn.toStreams id = sent at hanswer ⊢
  cases hanswer with
  | silent => exact .silent
  | control req whole fs hopening hupg hwhole hfs =>
      exact .control req whole sent (hedges ▸ hopening) hupg hwhole hfs
  | proxied req frames fs hupg hreplied hfs =>
      obtain ⟨heard, body, version, env, fuel, io, hheard, hopening, hbody, hlook, hexchange, hrun, rfl⟩ := hreplied
      have hversion := hlooked id version hlook
      have hcatchAll : HotReload.EndsInCatchAll version := by
        obtain ⟨_, _, u, _, hu, rfl⟩ := hversion
        exact (refined_of_run hload hu).table.catchAll
      rcases handleProxyStream_some hrun with ⟨hnone, _⟩ | ⟨rule, hrule, hclean, rfl⟩
      · exact absurd hnone (HotReload.selectRule_catchAll tn.crates.caseTable hcatchAll _)
      · exact .proxied req body env version rule heard sent (hedges ▸ hheard) hopening hbody hclean hversion hrule
          (hasked id env (hexchange rule hrule)) hfs

end MiniCloudflared.Serving
