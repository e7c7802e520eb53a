import MiniCloudflared.StandIns
import MiniCloudflared.Library.Transition

namespace MiniCloudflared.HotReload

open Library HttpTypes Config ThirdParty Ingress ProxyStream

inductive ReloadTask
  | sleeping
  | writing (rules : List IngressRule)

structure Answer where
  host : Str
  path : Str
  rule : Option IngressRule

/-- The file as it can be read at the moment, the table, and who holds its read
lock. What the calls of `load_from_file` and of `resolve` have returned is kept,
the latest first. -/
structure State where
  file : Except Error Str
  table : List IngressRule
  task : ReloadTask
  readers : List (Str × Str)
  loads : List (Except Error (List IngressRule))
  answers : List Answer

inductive Label
  | edit (file : Except Error Str)
  | tick
  | write
  | read (host path : Str)
  | answer (host path : Str)

variable {cr : Crates} {config : Path}

def loadNow (cr : Crates) (config : Path) (s : State) : Except Error (List IngressRule) :=
  loadFromFile cr (fun _ => s.file) config

def step (cr : Crates) (config : Path) (s : State) : Label → Option State
  | .edit file => some { s with file := file }
  | .tick =>
      match s.task with
      | .writing _ => none
      | .sleeping =>
          match loadNow cr config s with
          | .ok rules => some { s with task := .writing rules, loads := .ok rules :: s.loads }
          | .error e => some { s with loads := .error e :: s.loads }
  | .write =>
      match s.task, s.readers with
      | .writing rules, [] => some { s with table := rules, task := .sleeping }
      | _, _ => none
  | .read host path => some { s with readers := (host, path) :: s.readers }
  | .answer host path =>
      if (host, path) ∈ s.readers then
        some { s with
          readers := s.readers.erase (host, path)
          answers := ⟨host, path, resolve cr.caseTable s.table host path⟩ :: s.answers }
      else none

def started (file : Except Error Str) (rules : List IngressRule) : State where
  file := file
  table := rules
  task := .sleeping
  readers := []
  loads := [.ok rules]
  answers := []

def reloading (cr : Crates) (config : Path) : System State Label where
  init s := ∃ file rules, loadFromFile cr (fun _ => file) config = .ok rules ∧ s = started file rules
  step := step cr config

def lastLoaded : List (Except Error (List IngressRule)) → Option (List IngressRule)
  | [] => none
  | .ok rules :: _ => some rules
  | .error _ :: loads => lastLoaded loads

def EndsInCatchAll (rules : List IngressRule) : Prop :=
  ∃ last, rules.getLast? = some last ∧ last.hostname = []

theorem validateRules_ok {rules : List IngressRule} (h : validateRules rules = .ok ()) :
    EndsInCatchAll rules := by
  rw [validateRules] at h
  split at h
  next => exact nomatch h
  next last hlast =>
    split at h
    next => exact nomatch h
    next hhost => exact ⟨last, hlast, not_not.mp hhost⟩

theorem loadFromFile_ok {readToString : Path → Except Error Str} {rules : List IngressRule}
    (h : loadFromFile cr readToString config = .ok rules) : EndsInCatchAll rules := by
  have hvalidated (loaded : List IngressRule)
      (h : (do validateRules loaded; return loaded) = (.ok rules : Except Error (List IngressRule))) :
      EndsInCatchAll rules := by
    obtain ⟨_, hvalid, h⟩ := except_bind_ok h
    obtain rfl : loaded = rules := Except.ok.inj h
    exact validateRules_ok hvalid
  rw [loadFromFile] at h
  obtain ⟨content, _, h⟩ := except_bind_ok h
  dsimp only at h
  split at h
  next =>
    obtain ⟨loaded, _, h⟩ := except_bind_ok h
    exact hvalidated loaded h
  next =>
    obtain ⟨loaded, _, h⟩ := except_bind_ok h
    exact hvalidated loaded h

theorem matches_catchAll (t : CaseTable) {rule : IngressRule} (h : rule.hostname = []) (host path : Str) :
    rule.matches t host path = true := if_pos h

theorem resolve_mem {t : CaseTable} {rules : List IngressRule} {host path : Str} {rule : IngressRule}
    (h : resolve t rules host path = some rule) : rule ∈ rules := List.mem_of_find?_eq_some h

theorem resolve_catchAll (t : CaseTable) {rules : List IngressRule} (h : EndsInCatchAll rules)
    (host path : Str) : ∃ rule, resolve t rules host path = some rule := by
  obtain ⟨last, hlast, hhost⟩ := h
  refine Option.isSome_iff_exists.mp (List.find?_isSome.mpr ?_)
  exact ⟨last, List.mem_of_getLast? hlast, matches_catchAll t hhost host path⟩

def Answered (t : CaseTable) (s : State) (a : Answer) : Prop :=
  ∃ version rule, .ok version ∈ s.loads ∧ resolve t version a.host a.path = some rule ∧
    a.rule = some rule ∧ rule ∈ version

/-- The table is the last version that was loaded, or the one before it while
the task waits to write the last. -/
def Current (s : State) : Prop :=
  match s.task with
  | .sleeping => lastLoaded s.loads = some s.table
  | .writing rules => ∃ before, s.loads = .ok rules :: before ∧ lastLoaded before = some s.table

structure Consistent (cr : Crates) (s : State) : Prop where
  current : Current s
  catchAll : EndsInCatchAll s.table
  pending : ∀ rules, s.task = .writing rules → EndsInCatchAll rules
  answered : ∀ a, a ∈ s.answers → Answered cr.caseTable s a

theorem lastLoaded_mem {loads : List (Except Error (List IngressRule))} {rules : List IngressRule}
    (h : lastLoaded loads = some rules) : .ok rules ∈ loads := by
  induction loads with
  | nil => exact nomatch h
  | cons load loads ih =>
      cases load with
      | ok r =>
          obtain rfl : r = rules := Option.some.inj h
          exact List.mem_cons_self
      | error e => exact List.mem_cons_of_mem _ (ih h)

theorem Current.table_mem {s : State} (h : Current s) : .ok s.table ∈ s.loads := by
  rw [Current] at h
  split at h
  next => exact lastLoaded_mem h
  next rules _ =>
    obtain ⟨before, hloads, hlast⟩ := h
    rw [hloads]
    exact List.mem_cons_of_mem _ (lastLoaded_mem hlast)

theorem Current.failed {s : State} (h : Current s) (hsleeping : s.task = .sleeping) (e : Error) :
    Current { s with loads := .error e :: s.loads } := by
  simp only [Current, hsleeping] at h ⊢
  exact h

theorem Current.loaded {s : State} (h : Current s) (hsleeping : s.task = .sleeping) (rules : List IngressRule) :
    Current { s with task := .writing rules, loads := .ok rules :: s.loads } := by
  simp only [Current, hsleeping] at h
  exact ⟨s.loads, rfl, h⟩

theorem Current.written {s : State} (h : Current s) {rules : List IngressRule} (hw : s.task = .writing rules) :
    Current { s with table := rules, task := .sleeping } ∧ lastLoaded s.loads = some rules := by
  simp only [Current, hw] at h
  obtain ⟨before, hloads, _⟩ := h
  have hlast : lastLoaded s.loads = some rules := by
    rw [hloads]
    rfl
  exact ⟨hlast, hlast⟩

theorem Answered.mono {t : CaseTable} {s s' : State} {a : Answer} (h : Answered t s a)
    (hloads : ∀ load, load ∈ s.loads → load ∈ s'.loads) : Answered t s' a := by
  obtain ⟨version, rule, hmem, hrest⟩ := h
  exact ⟨version, rule, hloads _ hmem, hrest⟩

theorem Consistent.step {s t : State} (h : Consistent cr s) {l : Label}
    (hstep : step cr config s l = some t) : Consistent cr t := by
  cases l with
  | edit file =>
      obtain rfl := Option.some.inj hstep
      exact ⟨h.current, h.catchAll, h.pending, h.answered⟩
  | tick =>
      simp only [HotReload.step] at hstep
      split at hstep
      next => exact nomatch hstep
      next hsleeping =>
        split at hstep
        next rules hload =>
          obtain rfl := Option.some.inj hstep
          refine ⟨h.current.loaded hsleeping rules, h.catchAll, ?_,
            fun a ha => (h.answered a ha).mono (fun _ hl => List.mem_cons_of_mem _ hl)⟩
          rintro _ ⟨rfl⟩
          exact loadFromFile_ok hload
        next e _ =>
          obtain rfl := Option.some.inj hstep
          exact ⟨h.current.failed hsleeping e, h.catchAll, h.pending,
            fun a ha => (h.answered a ha).mono (fun _ hl => List.mem_cons_of_mem _ hl)⟩
  | write =>
      simp only [HotReload.step] at hstep
      split at hstep
      next rules htask _ =>
        obtain rfl := Option.some.inj hstep
        exact ⟨(h.current.written htask).1, h.pending rules htask, (fun _ hw => nomatch hw), h.answered⟩
      next => exact nomatch hstep
  | read host path =>
      obtain rfl := Option.some.inj hstep
      exact ⟨h.current, h.catchAll, h.pending, h.answered⟩
  | answer host path =>
      simp only [HotReload.step] at hstep
      split at hstep
      next =>
        obtain rfl := Option.some.inj hstep
        refine ⟨h.current, h.catchAll, h.pending, ?_⟩
        intro a ha
        rcases List.mem_cons.mp ha with rfl | ha
        · obtain ⟨rule, hrule⟩ := resolve_catchAll cr.caseTable h.catchAll host path
          exact ⟨s.table, rule, h.current.table_mem, hrule, hrule, resolve_mem hrule⟩
        · exact h.answered a ha
      next => exact nomatch hstep

theorem consistent_of_reachable {s : State} (h : (reloading cr config).Reachable System.anyStep s) :
    Consistent cr s := by
  refine h.invariant ?_ (fun _ _ _ hc _ hs => hc.step hs)
  rintro _ ⟨file, rules, hload, rfl⟩
  exact ⟨rfl, loadFromFile_ok hload, (fun _ hw => nomatch hw), fun a ha => absurd ha List.not_mem_nil⟩

theorem table_of_step {s t : State} (h : Current s) {l : Label} (hstep : step cr config s l = some t) :
    t.table = s.table ∨ l = .write ∧ t.task = .sleeping ∧ lastLoaded s.loads = some t.table := by
  cases l with
  | tick =>
      simp only [HotReload.step] at hstep
      split at hstep
      next => exact nomatch hstep
      next =>
        split at hstep
        next => exact Or.inl (Option.some.inj hstep ▸ rfl)
        next => exact Or.inl (Option.some.inj hstep ▸ rfl)
  | write =>
      simp only [HotReload.step] at hstep
      split at hstep
      next rules htask _ =>
        obtain rfl := Option.some.inj hstep
        exact Or.inr ⟨rfl, rfl, (h.written htask).2⟩
      next => exact nomatch hstep
  | answer host path =>
      simp only [HotReload.step] at hstep
      split at hstep
      next => exact Or.inl (Option.some.inj hstep ▸ rfl)
      next => exact nomatch hstep
  | _ => exact Or.inl (Option.some.inj hstep ▸ rfl)

theorem selectRule_catchAll {β : Type} (t : CaseTable) {rules : List IngressRule}
    (h : EndsInCatchAll rules) (req : HttpTypes.Request β) : selectRule t rules req ≠ none := by
  obtain ⟨rule, hrule⟩ := resolve_catchAll t h (hostOf req) (pathOf req)
  rw [selectRule, hrule]
  exact Option.some_ne_none rule

/-- What the file holds is loaded at the tick, and the task goes on to the write
lock if the load went well. -/
theorem tick_loads {s : State} (hsleeping : s.task = .sleeping) :
    ∃ t, step cr config s .tick = some t ∧ t.loads = loadNow cr config s :: s.loads ∧ t.table = s.table ∧
      ∀ rules, t.task = .writing rules ↔ loadNow cr config s = .ok rules := by
  simp only [HotReload.step, hsleeping]
  cases hload : loadNow cr config s with
  | ok rules =>
      refine ⟨_, rfl, rfl, rfl, fun other => ?_⟩
      constructor
      · rintro ⟨rfl⟩
        rfl
      · rintro ⟨rfl⟩
        rfl
  | error e => exact ⟨_, rfl, rfl, rfl, fun rules => by simp⟩

theorem write_writes {s : State} {rules : List IngressRule} (hwriting : s.task = .writing rules)
    (hreaders : s.readers = []) :
    ∃ t, step cr config s .write = some t ∧ t.table = rules ∧ t.loads = s.loads ∧ t.task = .sleeping :=
  ⟨{ s with table := rules, task := .sleeping }, by simp only [HotReload.step, hwriting, hreaders], rfl, rfl, rfl⟩

theorem tick_failed {s t : State} {e : Error} (hload : loadNow cr config s = .error e)
    (hstep : step cr config s .tick = some t) : t = { s with loads := .error e :: s.loads } := by
  simp only [HotReload.step] at hstep
  split at hstep
  next => exact nomatch hstep
  next =>
    rw [hload] at hstep
    exact (Option.some.inj hstep).symm

/-- In every state that the reload task and the calls of `resolve` can reach
together the table is the last version that was loaded, unless the task waits to
write that one, which it does as soon as nobody reads. The table changes to that
version as a whole and in no other way, and it has a rule for every request. -/
theorem table_holds {s : State} (h : (reloading cr config).Reachable System.anyStep s) :
    (s.task = .sleeping → lastLoaded s.loads = some s.table) ∧
    (∀ rules, s.task = .writing rules →
      (∃ before, s.loads = .ok rules :: before ∧ lastLoaded before = some s.table) ∧
      (s.readers = [] →
        ∃ t, step cr config s .write = some t ∧ t.table = rules ∧ t.loads = s.loads ∧ t.task = .sleeping)) ∧
    (s.task = .sleeping →
      ∃ t, step cr config s .tick = some t ∧ t.loads = loadNow cr config s :: s.loads ∧ t.table = s.table ∧
        ∀ rules, t.task = .writing rules ↔ loadNow cr config s = .ok rules) ∧
    (∀ e t, loadNow cr config s = .error e → step cr config s .tick = some t →
      t = { s with loads := .error e :: s.loads }) ∧
    (∀ l t, step cr config s l = some t →
      t.table = s.table ∨ l = .write ∧ t.task = .sleeping ∧ lastLoaded s.loads = some t.table) ∧
    EndsInCatchAll s.table ∧
    (∀ a, a ∈ s.answers → Answered cr.caseTable s a) ∧
    (∀ host path, ∃ rule, resolve cr.caseTable s.table host path = some rule) ∧
    ∀ req : HttpTypes.Request RequestBody.RecvStream, selectRule cr.caseTable s.table req ≠ none := by
  have hc := consistent_of_reachable h
  have hcurrent := hc.current
  refine ⟨fun hs => ?_, fun rules hw => ⟨?_, write_writes hw⟩, tick_loads, fun _ _ => tick_failed,
    fun _ _ => table_of_step hc.current, hc.catchAll, hc.answered, resolve_catchAll cr.caseTable hc.catchAll,
    selectRule_catchAll cr.caseTable hc.catchAll⟩
  · simpa only [Current, hs] using hcurrent
  · simpa only [Current, hw] using hcurrent

def configPath : Path := ⟨"config.yaml".toList, some "yaml".toList⟩

def savedText : Str := "ingress:\n  - service: localhost:8080\n".toList

def savedRules : List IngressRule := [⟨[], [], "localhost:8080".toList⟩]

/-- The file is lost after the start, a reload fails, and a request is served
from the table as it was. -/
def afterLoss : State where
  file := .error .io
  table := savedRules
  task := .sleeping
  readers := []
  loads := [.error (.context "Cannot read config file: config.yaml".toList .io), .ok savedRules]
  answers := [⟨"a.com".toList, "/".toList, savedRules.head?⟩]

theorem table_holds_afterLoss :
    lastLoaded afterLoss.loads = some savedRules ∧
    selectRule StandIns.crates.caseTable savedRules (StandIns.post .empty ⟨[], .clean⟩) ≠ none := by
  have hinit : (reloading StandIns.crates configPath).init (started (.ok savedText) savedRules) :=
    ⟨.ok savedText, savedRules, rfl, rfl⟩
  have hrun : (reloading StandIns.crates configPath).exec (started (.ok savedText) savedRules)
      [.edit (.error .io), .tick, .read "a.com".toList "/".toList, .answer "a.com".toList "/".toList] =
      some afterLoss := rfl
  have h := table_holds (.of_exec hinit hrun)
  exact ⟨h.1 rfl, h.2.2.2.2.2.2.2.2 _⟩

def newText : Str := "ingress:\n  - service: https://localhost:8443\n".toList

def newRules : List IngressRule := [⟨[], [], "https://localhost:8443".toList⟩]

def loadedBehindReader : State where
  file := .ok newText
  table := savedRules
  task := .writing newRules
  readers := [("a.com".toList, "/".toList)]
  loads := [.ok newRules, .ok savedRules]
  answers := []

theorem table_behind_load :
    (reloading StandIns.crates configPath).Reachable System.anyStep loadedBehindReader ∧
    lastLoaded loadedBehindReader.loads = some newRules ∧ loadedBehindReader.table ≠ newRules ∧
    ¬ ∀ s, (reloading StandIns.crates configPath).Reachable System.anyStep s →
      lastLoaded s.loads = some s.table := by
  have hinit : (reloading StandIns.crates configPath).init (started (.ok savedText) savedRules) :=
    ⟨.ok savedText, savedRules, rfl, rfl⟩
  have hrun : (reloading StandIns.crates configPath).exec (started (.ok savedText) savedRules)
      [.edit (.ok newText), .read "a.com".toList "/".toList, .tick] = some loadedBehindReader := rfl
  have hreach := System.Reachable.of_exec hinit hrun
  have hne : loadedBehindReader.table ≠ newRules := by decide
  refine ⟨hreach, rfl, hne, fun h => hne ?_⟩
  exact (Option.some.inj (h _ hreach)).symm

end MiniCloudflared.HotReload
