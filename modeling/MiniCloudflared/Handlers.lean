import MiniCloudflared.LockRelease

namespace MiniCloudflared.Handlers

open Library HttpTypes Config ThirdParty Ingress Origin RequestBody ProxyStream Http2 SentFrames Connection StreamOwners
open Deadlock Answers OwnRequests Serving TableLock Reconnect Startup WholeTunnel LockRelease Library.System

variable {d : Driver} {tn : Tunnel} {edge : Edge} {config : Path} {file : Except Error Str} {rules : List IngressRule}

section OneConnection

variable {c c' : Connection.State} {m m' : Streams} {l : Connection.Label} {id : Nat} {req : HttpTypes.Request Unit}
  {env : Env}

def Undrained (c : Connection.State) (id : Nat) : Prop :=
  c.stage id = .arrived ∨ ∃ rule buf, c.stage id = .draining rule buf

/-- The body has been taken, or all of it is there to be taken. -/
def Complete (c : Connection.State) (id : Nat) : Prop := Undrained c id → (c.bodyOf id).ending = .clean

/-- The stream was given up before its body was taken. -/
def Broken (c : Connection.State) (id : Nat) : Prop := Undrained c id ∧ ∃ e, (c.bodyOf id).ending = .failed e

/-- The next frame to be taken off the socket is one that `h2` does not accept on
the stream: DATA behind the end of its body, or an end of the body that does not
fit the length that was declared. -/
def Refused (c : Connection.State) (id : Nat) : Prop :=
  ∃ chunk endStream rest es ending, c.inbound = .data id chunk endStream :: rest ∧ c.recv id = some ⟨es, ending⟩ ∧
    (ending = .clean ∨ ending = .running ∧ endStream = true ∧ WrongLength c.toStreams id chunk)

def Loaded (m : Streams) : Prop := ∀ id r, m.recv id = some r → ∀ e, e ∈ r.events → ∃ chunk, e = .data chunk

theorem Loaded.congr (h : Loaded m)
    (hsame : ∀ id, (m'.recv id).map RecvStream.events = (m.recv id).map RecvStream.events) : Loaded m' := by
  intro id r hr e he
  have hevents := hsame id
  rw [hr] at hevents
  cases hold : m.recv id with
  | none => exact absurd (hevents.trans (congrArg (Option.map RecvStream.events) hold)) (by simp)
  | some r' =>
      rw [hold] at hevents
      exact h id r' hold e (Option.some.inj hevents ▸ he)

theorem Loaded.setRecv (h : Loaded m) {r : RecvStream} (hr : ∀ e, e ∈ r.events → ∃ chunk, e = .data chunk) :
    Loaded (m.setRecv id r) := by
  intro j r' hj e he
  by_cases hid : j = id
  · subst hid
    obtain rfl := Option.some.inj ((if_pos rfl).symm.trans hj)
    exact hr e he
  · exact h j r' ((if_neg hid).symm.trans hj) e he

theorem hear_data {r : RecvStream} (hr : ∀ e, e ∈ r.events → ∃ chunk, e = .data chunk) (f : InFrame) :
    ∀ e, e ∈ (hear id r f).events → ∃ chunk, e = .data chunk := by
  obtain ⟨more, hmore⟩ := hear_events id r f
  intro e he
  rw [← hmore, List.mem_append] at he
  rcases he with he | he
  · exact hr e he
  · rcases r with ⟨es, ending⟩
    cases f with
    | data j chunk endStream =>
        simp only [hear] at hmore
        split at hmore
        next =>
          cases ending with
          | running =>
              obtain rfl := List.append_cancel_left hmore
              exact ⟨chunk, List.mem_singleton.mp he⟩
          | _ => exact absurd (List.append_right_eq_self.mp hmore ▸ he) List.not_mem_nil
        next => exact absurd (List.append_right_eq_self.mp hmore ▸ he) List.not_mem_nil
    | _ =>
        have hsame : more = [] := by
          refine List.append_right_eq_self.mp (hmore.trans ?_)
          simp only [hear]
          repeat' split
          all_goals rfl
        exact absurd (hsame ▸ he) List.not_mem_nil

theorem fail_events (r : Option RecvStream) :
    (r.map RecvStream.fail).map RecvStream.events = r.map RecvStream.events := by
  cases r <;> rfl

theorem Loaded.received (h : Loaded m) {f : InFrame} (hm : Received m f m') : Loaded m' := by
  cases hm with
  | opened j request endStream hf hj =>
      exact h.setRecv (r := ⟨[], endingOf endStream⟩) fun e he => absurd he List.not_mem_nil
  | heard r hr => exact h.setRecv (hear_data (h f.id r hr) f)
  | nothing => exact h
  | failed fs =>
      refine h.congr fun j => ?_
      by_cases hj : j = f.id
      · exact (congrArg (Option.map RecvStream.events) (if_pos hj)).trans (hj ▸ fail_events _)
      · exact congrArg (Option.map RecvStream.events) (if_neg hj)
  | closed close => exact h.congr fun j => fail_events (m.recv j)

theorem Loaded.polled (h : Loaded m) {r r' : RecvStream} {chunk : Bytes} (hr : m.recv id = some r)
    (hpoll : r.pollData = (.ready (some (.ok chunk)), r')) : Loaded (m.setRecv id r') := by
  refine h.setRecv fun e he => h id r hr e ?_
  rw [(pollData_ok hpoll).1]
  exact List.mem_cons_of_mem _ he

theorem Loaded.release (h : Loaded m) (id : Nat) (finished : Bool) : Loaded (m.release id finished) :=
  h.congr (release_events m id finished)

theorem Loaded.step (h : Loaded c.toStreams) (hstep : Connection.Step d tn c l c') : Loaded c'.toStreams := by
  cases hstep with
  | deliver f fs hmoves hopen hin =>
      obtain ⟨m, hm, he⟩ := receive_cases tn.h2 c.toStreams f
      have hloaded : Loaded m := h.received hm
      exact he ▸ (hloaded : Loaded (m.note f))
  | refused | finish => exact h.congr fun j => fail_events (c.recv j)
  | read j received r r' b bs hphase hrecv hpoll => exact h.polled hrecv hpoll
  | ended j received r r' hphase hrecv hpoll => exact (h.polled hrecv hpoll).release j false
  | drained j req rule buf chunk r r' htask hstage hrecv hpoll => exact h.polled hrecv hpoll
  | gaveUp l hl j | registered j | unasked j | unsent j => exact h.release j false
  | answered j | completed j => exact Loaded.release (m := c.send _) h j true
  | _ => exact h

theorem loaded_of_run {ks : List Connection.Label} (h : (connectAndServe d tn).exec start ks = some c) :
    Loaded c.toStreams :=
  exec_record (I := fun c _ => Loaded c.toStreams) h (fun _ _ hr => absurd hr (by simp [start]))
    fun _ _ _ _ _ hu hs => hu.step (step_cases hs)

inductive Own (env : Env) (id : Nat) : Connection.Label → Prop
  | drain : Own env id (.drain id)
  | exchange : Own env id (.exchange id env)
  | head : Own env id (.head id)
  | body : Own env id (.body id)

def Finishes (d : Driver) (tn : Tunnel) (env : Env) (c : Connection.State) (id : Nat) : Prop :=
  ∃ ks c', (∀ k, k ∈ ks → Own env id k) ∧ (connectAndServe d tn).exec c ks = some c' ∧ id ∉ c'.tasks.map Prod.fst

theorem Finishes.done (h : id ∉ c.tasks.map Prod.fst) : Finishes d tn env c id :=
  ⟨[], c, fun _ hk => absurd hk List.not_mem_nil, rfl, h⟩

theorem Finishes.cons (hl : Own env id l) (hstep : Connection.step d tn c l = some c') (h : Finishes d tn env c' id) :
    Finishes d tn env c id := by
  obtain ⟨ks, u, hks, hrun, hgone⟩ := h
  exact ⟨l :: ks, u, List.forall_mem_cons.mpr ⟨hl, hks⟩, Option.bind_eq_some_iff.mpr ⟨c', hstep, hrun⟩, hgone⟩

theorem finishes_sending {body : Bytes} (htask : taskOf c id = some req) (hstage : c.stage id = .sending body) :
    Finishes d tn env c id := by
  have hstep : Connection.step d tn c (.body id) = some (sendBody c id body) := by
    simp only [Connection.step, htask, hstage]
  refine .cons .body hstep (.done ?_)
  rw [sendBody]
  split
  · exact not_task_endTask _ id true
  · exact not_task_endTask _ id false

theorem finishes_answering {resp : Response} (htask : taskOf c id = some req) (hstage : c.stage id = .answering resp) :
    Finishes d tn env c id := by
  have hstep : Connection.step d tn c (.head id) = some (sendHead c id resp) := by
    simp only [Connection.step, htask, hstage]
  refine .cons .head hstep ?_
  rw [sendHead]
  split
  · split
    · exact .done (not_task_endTask _ id true)
    · exact finishes_sending htask (if_pos rfl)
  · exact .done (not_task_endTask _ id false)

theorem finishes_asking {rule : IngressRule} {originReq : HttpTypes.Request Bytes} (htask : taskOf c id = some req)
    (hstage : c.stage id = .asking rule originReq) : Finishes d tn env c id := by
  have hstep : Connection.step d tn c (.exchange id env) =
      some (c.setStage id (.answering (responseOf (dispatch tn.crates env rule originReq)))) := by
    simp only [Connection.step, htask, hstage]
  exact .cons .exchange hstep (finishes_answering htask (if_pos rfl))

theorem finishes_drained {rule : IngressRule} {buf : Bytes} (htask : taskOf c id = some req)
    (hstage : c.stage id = .draining rule buf) (hbody : c.bodyOf id = ⟨[], .clean⟩) : Finishes d tn env c id := by
  have hstep : Connection.step d tn c (.drain id) = drain tn c id req rule buf ⟨[], .clean⟩ := by
    simp only [Connection.step, htask, hstage, hbody]
  simp only [drain, RecvStream.pollData] at hstep
  cases hreq : originRequest tn.crates req rule.service buf with
  | error e =>
      rw [hreq] at hstep
      exact .cons .drain hstep (.done (not_task_endTask c id false))
  | ok originReq =>
      rw [hreq] at hstep
      exact .cons .drain hstep (finishes_asking htask (if_pos rfl))

theorem finishes_draining {rule : IngressRule} {buf : Bytes} {es : List RecvEvent}
    (htask : taskOf c id = some req) (hstage : c.stage id = .draining rule buf) (hbody : c.bodyOf id = ⟨es, .clean⟩)
    (hdata : ∀ e, e ∈ es → ∃ chunk, e = .data chunk) : Finishes d tn env c id := by
  induction es generalizing c buf with
  | nil => exact finishes_drained htask hstage hbody
  | cons e es ih =>
      rw [List.forall_mem_cons] at hdata
      obtain ⟨⟨chunk, rfl⟩, hdata⟩ := hdata
      have hstep : Connection.step d tn c (.drain id) = some (State.setStage
          { c with toStreams := c.setRecv id ⟨es, .clean⟩ } id (.draining rule (buf ++ chunk))) := by
        simp only [Connection.step, htask, hstage, hbody, drain, RecvStream.pollData]
      refine .cons .drain hstep (ih htask (if_pos rfl) ?_ hdata)
      exact congrArg (fun r : Option RecvStream => r.getD ⟨[], .clean⟩) (if_pos rfl)

/-- A handler that has its rule can come to an end by itself once its body is
there, whatever becomes of the origin. -/
theorem finishes (env : Env) (hloaded : Loaded c.toStreams) (htask : taskOf c id = some req)
    (hlooked : c.stage id ≠ .arrived) (hcomplete : Complete c id) : Finishes d tn env c id := by
  cases hstage : c.stage id with
  | arrived => exact absurd hstage hlooked
  | draining rule buf =>
      have hclean : (c.bodyOf id).ending = .clean := hcomplete (.inr ⟨rule, buf, hstage⟩)
      have hbody : c.bodyOf id = ⟨(c.bodyOf id).events, .clean⟩ := by rw [← hclean]
      refine finishes_draining htask hstage hbody fun e he => ?_
      rw [Streams.bodyOf] at he
      cases hr : c.recv id with
      | none =>
          rw [hr] at he
          exact absurd he List.not_mem_nil
      | some r =>
          rw [hr] at he
          exact hloaded id r hr e he
  | asking rule originReq => exact finishes_asking htask hstage
  | answering resp => exact finishes_answering htask hstage
  | sending body => exact finishes_sending htask hstage

/-- The handler of a request waits for its body. -/
structure Waits (c : Connection.State) (id : Nat) (req : HttpTypes.Request Unit) : Prop where
  task : (id, req) ∈ c.tasks
  undrained : Undrained c id
  unended : (c.bodyOf id).ending ≠ .clean

/-- What a step leaves of a handler that waits: it goes on waiting unless a frame
of the edge has ended its body, which none does once the stream is given up. -/
structure Left (c c' : Connection.State) (id : Nat) (req : HttpTypes.Request Unit) (delivered : Prop) : Prop where
  task : (id, req) ∈ c'.tasks
  undrained : Undrained c' id
  unended : ¬ delivered → (c'.bodyOf id).ending ≠ .clean
  broken : (∃ e, (c.bodyOf id).ending = .failed e) → ∃ e, (c'.bodyOf id).ending = .failed e

namespace Waits

variable {delivered : Prop} {r r' : RecvStream}

theorem recv (h : Waits c id req) : ∃ r, c.recv id = some r ∧ r.ending ≠ .clean := by
  have hunended := h.unended
  rw [Streams.bodyOf] at hunended
  cases hr : c.recv id with
  | none =>
      rw [hr] at hunended
      exact absurd rfl hunended
  | some r =>
      rw [hr] at hunended
      exact ⟨r, rfl, hunended⟩

theorem left (h : Waits c id req) (hr : c.recv id = some r) (htask : (id, req) ∈ c'.tasks)
    (hundrained : Undrained c' id) (hr' : c'.recv id = some r')
    (hend : r'.ending = r.ending ∨ ∃ e, r'.ending = .failed e) : Left c c' id req delivered := by
  have hbody {m : Streams} {r : RecvStream} (hr : m.recv id = some r) : m.bodyOf id = r := by
    rw [Streams.bodyOf, hr]
    rfl
  have hunended := h.unended
  rw [hbody hr] at hunended
  refine ⟨htask, hundrained, fun _ => ?_, fun hfailed => ?_⟩
  · rw [hbody hr']
    rcases hend with hend | ⟨e, hend⟩
    · rwa [hend]
    · rw [hend]
      exact Ending.noConfusion
  · rw [hbody hr'] at ⊢
    rw [hbody hr] at hfailed
    rcases hend with hend | hend
    · rwa [hend]
    · exact hend

theorem kept (h : Waits c id req) (htask : (id, req) ∈ c'.tasks) (hstage : c'.stage id = c.stage id)
    (hrecv : c'.recv id = c.recv id ∨ c'.recv id = (c.recv id).map RecvStream.fail) : Left c c' id req delivered := by
  obtain ⟨r, hr, _⟩ := h.recv
  have hundrained : Undrained c' id := by
    rw [Undrained, hstage]
    exact h.undrained
  rw [hr] at hrecv
  rcases hrecv with hrecv | hrecv
  · exact h.left hr htask hundrained hrecv (.inl rfl)
  · exact h.left hr htask hundrained hrecv (.inr ⟨.h2, rfl⟩)

theorem other (h : Waits c id req) {u : Connection.State} {j : Nat} (hj : id ≠ j) (finished : Bool)
    (hu : u.tasks = c.tasks ∧ u.stage = c.stage ∧ u.recv = c.recv) :
    Left c (u.endTask j finished) id req delivered := by
  have hrecv : (u.endTask j finished).recv id = c.recv id := (release_other _ hj finished).trans (congrFun hu.2.2 id)
  refine h.kept ?_ ((if_neg hj).trans (congrFun hu.2.1 id)) (.inl hrecv)
  exact List.mem_filter.mpr ⟨hu.1.symm ▸ h.task, by simpa using hj⟩

theorem past (h : Waits c id req) {j : Nat} {stage : Stage} (hstage : c.stage j = stage) (hnot : stage ≠ .arrived)
    (hnot' : ∀ rule buf, stage ≠ .draining rule buf) : id ≠ j := by
  rintro rfl
  rcases h.undrained with harrived | ⟨rule, buf, hdraining⟩
  · exact hnot (hstage.symm.trans harrived)
  · exact hnot' rule buf (hstage.symm.trans hdraining)

theorem heard (h : Waits c id req) (hf : Fresh c) (h2 : H2) (f : InFrame) (fs : List InFrame) :
    Left c { c with toStreams := receive h2 c.toStreams f, inbound := fs } id req True := by
  obtain ⟨r, hr, _⟩ := h.recv
  have hid : id ≤ c.lastId := hf.bounded id (hf.owner (.inl (List.mem_map_of_mem h.task))).1
  refine ⟨h.task, h.undrained, fun hnot => absurd trivial hnot, fun ⟨e, he⟩ => ?_⟩
  rw [Streams.bodyOf, hr] at he
  rcases r with ⟨es, ending⟩
  obtain rfl : ending = .failed e := he
  rcases receive_recv h2 f hr hid with hr' | hr' | ⟨hr', _⟩
  · exact ⟨.h2, by rw [Streams.bodyOf, hr']; rfl⟩
  · obtain ⟨e', he'⟩ := hear_failed id es e f
    exact ⟨e', by rw [Streams.bodyOf, hr', he']; rfl⟩
  · exact ⟨e, by rw [Streams.bodyOf, hr']; rfl⟩

theorem step (h : Waits c id req) (hf : Fresh c) (hstep : Connection.Step d tn c l c')
    (hlook : ∀ rules, l = .look id rules → HotReload.EndsInCatchAll rules) : Left c c' id req (l = .deliver) := by
  have hcontrol {j : Nat} (hphase : controls c.phase = some j) : id ≠ j := by
    rintro rfl
    exact hf.control_task hphase (List.mem_map_of_mem h.task)
  have hclean {j : Nat} (hj : c.bodyOf j = ⟨[], .clean⟩) : id ≠ j := by
    rintro rfl
    exact h.unended (congrArg RecvStream.ending hj)
  cases hstep with
  | deliver f fs =>
      have hleft := h.heard hf tn.h2 f fs
      exact ⟨hleft.task, hleft.undrained, fun hl => absurd rfl hl, hleft.broken⟩
  | refused | finish => exact h.kept h.task rfl (.inr rfl)
  | spawn => exact h.kept (List.mem_append_left _ h.task) rfl (.inl rfl)
  | read j received r r' b bs hphase => exact h.kept h.task rfl (.inl (if_neg (hcontrol (by rw [hphase]; rfl))))
  | ended j received r r' hphase =>
      have hj := hcontrol (j := j) (by rw [hphase]; rfl)
      exact h.kept h.task rfl (.inl ((release_other _ hj false).trans (if_neg hj)))
  | gaveUp l hl j received hphase =>
      exact h.kept h.task rfl (.inl (release_other _ (hcontrol (by rw [hphase]; rfl)) false))
  | registered j received location hphase =>
      exact h.kept h.task rfl (.inl (release_other _ (hcontrol (by rw [hphase]; rfl)) false))
  | look j rules req' =>
      by_cases hj : id = j
      · subst hj
        -- with a catch-all rule at its end the table sends every handler to the body
        have hrule := HotReload.selectRule_catchAll tn.crates.caseTable (hlook rules rfl) req'
        obtain ⟨rule, hrule⟩ := Option.ne_none_iff_exists'.mp hrule
        obtain ⟨r, hr, _⟩ := h.recv
        refine h.left hr h.task (.inr ⟨rule, [], ?_⟩) hr (.inl rfl)
        rw [hrule]
        exact if_pos rfl
      · exact h.kept h.task (if_neg hj) (.inl rfl)
  | drained j req' rule buf chunk r r' htask hstage hrecv hpoll =>
      by_cases hj : id = j
      · subst hj
        exact h.left hrecv h.task (.inr ⟨rule, buf ++ chunk, if_pos rfl⟩) (if_pos rfl) (.inl (pollData_ok hpoll).2)
      · exact h.kept h.task (if_neg hj) (.inl (if_neg hj))
  | asked j req' rule buf originReq htask hstage hbody => exact h.kept h.task (if_neg (hclean hbody)) (.inl rfl)
  | unasked j req' rule buf e htask hstage hbody => exact h.other (hclean hbody) false ⟨rfl, rfl, rfl⟩
  | exchange j env req' rule originReq htask hstage =>
      exact h.kept h.task (if_neg (h.past hstage Stage.noConfusion fun _ _ => Stage.noConfusion)) (.inl rfl)
  | unsent j l hl req' htask hstage =>
      rcases hstage with ⟨resp, hstage⟩ | ⟨body, hstage⟩
      all_goals exact h.other (h.past hstage Stage.noConfusion fun _ _ => Stage.noConfusion) false ⟨rfl, rfl, rfl⟩
  | headed j req' resp headers htask hstage =>
      exact h.kept h.task (if_neg (h.past hstage Stage.noConfusion fun _ _ => Stage.noConfusion)) (.inl rfl)
  | answered j req' resp headers htask hstage =>
      have hj := h.past hstage Stage.noConfusion fun _ _ => Stage.noConfusion
      exact h.other (u := { c with toStreams := c.send _ }) hj true ⟨rfl, rfl, rfl⟩
  | completed j req' body htask hstage =>
      have hj := h.past hstage Stage.noConfusion fun _ _ => Stage.noConfusion
      exact h.other (u := { c with toStreams := c.send _ }) hj true ⟨rfl, rfl, rfl⟩
  | _ => exact h.kept h.task rfl (.inl rfl)

end Waits

/-- A frame that `h2` refuses costs the stream. -/
theorem refused_broken (hrefused : Refused c id) (hundrained : Undrained c id)
    (hstep : Connection.Step d tn c .deliver c') : Broken c' id := by
  obtain ⟨chunk, endStream, rest, es, ending, hin, hr, hwhy⟩ := hrefused
  cases hstep with
  | gaveUp _ hl => exact absurd hl (by simp)
  | unsent _ _ hl => exact absurd hl (by simp)
  | deliver f fs hmoves hopen hin' =>
      obtain ⟨rfl, rfl⟩ := List.cons.inj (hin.symm.trans hin')
      refine ⟨hundrained, .h2, ?_⟩
      have hfailed {m : Streams} (hm : m.recv id = (c.recv id).map RecvStream.fail) :
          (m.bodyOf id).ending = .failed .h2 := by
        rw [Streams.bodyOf, hm, hr]
        rfl
      have hverdict : tn.h2.verdict c.toStreams (.data id chunk endStream) = .connectionError ∨
          ∃ answered, tn.h2.verdict c.toStreams (.data id chunk endStream) = .streamError answered := by
        rcases hwhy with rfl | ⟨rfl, rfl, hlength⟩
        · exact tn.h2.behindEnd c.toStreams id es chunk endStream hr
        · cases hv : tn.h2.verdict c.toStreams (.data id chunk true) with
          | taken => exact absurd hv (tn.h2.lengths c.toStreams id es chunk hr hlength)
          | dropped => exact absurd hv (tn.h2.kept c.toStreams (.data id chunk true) es hr)
          | streamError answered => exact .inr ⟨answered, rfl⟩
          | connectionError => exact .inl rfl
      have hjudged : receive tn.h2 c.toStreams (.data id chunk endStream) = _ :=
        receive_judged tn.h2 c.toStreams fun _ => InFrame.noConfusion
      change ((receive tn.h2 c.toStreams (.data id chunk endStream)).bodyOf id).ending = .failed .h2
      rw [hjudged]
      rcases hverdict with hv | ⟨answered, hv⟩
      · rw [hv]
        exact hfailed (m := (c.toStreams.close .goAway).note _) rfl
      · rw [hv]
        exact hfailed (m := Streams.note _ _) (if_pos rfl)

end OneConnection

section OneTable

variable {s t : Serving.State} {ls ks : List Serving.Label} {id : Nat} {req : HttpTypes.Request Unit}

theorem waits_moved (h : Waits s.conn id req) (hf : Fresh s.conn) (hcatchAll : HotReload.EndsInCatchAll s.reload.table)
    {l : Serving.Label} (hm : Moved d tn config s t l) : Left s.conn t.conn id req (l = .conn .deliver) := by
  have hkept (hconn : t.conn = s.conn) : Left s.conn t.conn id req (l = .conn .deliver) := by
    rw [hconn]
    exact h.kept h.task rfl (.inl rfl)
  cases hm with
  | conn k hk hconn =>
      have hleft := h.step hf (Connection.step_cases hconn) (by
        rintro rules rfl
        exact absurd hk (by simp [isLook]))
      exact ⟨hleft.task, hleft.undrained, fun hl => hleft.unended fun hk => hl (congrArg Serving.Label.conn hk),
        hleft.broken⟩
  | reload k hk hnext hconn => exact hkept hconn
  | lock j req' htask hnext hconn => exact hkept hconn
  | choose j req' htask hnext hconn =>
      have hleft := h.step hf (Connection.step_cases hconn) (by
        intro rules hl
        obtain ⟨-, rfl⟩ := Connection.Label.look.inj hl
        exact hcatchAll)
      exact ⟨hleft.task, hleft.undrained, fun _ => hleft.unended Connection.Label.noConfusion, hleft.broken⟩

theorem waits (hload : loadFromFile tn.crates (fun _ => file) config = .ok rules)
    (h : (serving d tn config).exec (Serving.begun file rules) ls = some s) (hwaits : Waits s.conn id req)
    (hks : (serving d tn config).exec s ks = some t)
    (hwhy : (∃ e, (s.conn.bodyOf id).ending = .failed e) ∨ ∀ l, l ∈ ks → l ≠ .conn .deliver) : Waits t.conn id req := by
  induction ks generalizing s ls with
  | nil => exact Option.some.inj hks ▸ hwaits
  | cons l ks ih =>
      obtain ⟨u, hu, hks⟩ := Option.bind_eq_some_iff.mp hks
      have hrun : (serving d tn config).exec (Serving.begun file rules) (ls ++ [l]) = some u := exec_concat h hu
      have hleft := waits_moved hwaits (held_of_run hload h).2.fresh (refined_of_run hload h).table.catchAll
        (moved_of_step hu)
      rcases hwhy with hbroken | hquiet
      · obtain ⟨e, he⟩ := hleft.broken hbroken
        refine ih hrun ⟨hleft.task, hleft.undrained, ?_⟩ hks (.inl ⟨e, he⟩)
        rw [he]
        exact Ending.noConfusion
      · rw [List.forall_mem_cons] at hquiet
        exact ih hrun ⟨hleft.task, hleft.undrained, hleft.unended hquiet.1⟩ hks (.inr hquiet.2)

end OneTable

variable {s t : WholeTunnel.State} {ls ks : List WholeTunnel.Label} {i id : Nat} {req : HttpTypes.Request Unit}
  {env : Env} {a : Link}

def Waiting (i id : Nat) (req : HttpTypes.Request Unit) (s : WholeTunnel.State) : Prop :=
  ∃ a, s.links[i]? = some a ∧ (id, req) ∈ a.conn.tasks ∧ framesOf a.conn.toStreams id = []

theorem own_continued (hload : loadFromFile tn.crates (fun _ => file) config = .ok rules)
    (h : (tunnelRun d tn edge config).exec (WholeTunnel.begun file rules) ls = some s)
    (hks : (tunnelRun d tn edge config).exec s ks = some t) (ha : s.links[i]? = some a) :
    ∃ v w, (serving d tn config).exec (Serving.begun file rules) (ownRun i ls) = some v ∧ v.conn = a.conn ∧
      (serving d tn config).exec v (ownRun i ks) = some w ∧ w.conn = (linkAt t i).conn := by
  have hall : (tunnelRun d tn edge config).exec (WholeTunnel.begun file rules) (ls ++ ks) = some t := by
    rw [exec_append, h]
    exact hks
  obtain ⟨v, hv, hbefore⟩ := (projected_of_run hload h).own i
  obtain ⟨w, hw, hafter⟩ := (projected_of_run hload hall).own i
  rw [ownRun, List.filterMap_append] at hw
  obtain ⟨v', hv', hrest⟩ := exec_take hw
  obtain rfl := Option.some.inj (hv.symm.trans hv')
  exact ⟨v, w, hv, hbefore.conn.trans (congrArg Link.conn (linkAt_eq ha)), hrest, hafter.conn⟩

theorem waiting_of_run (hload : loadFromFile tn.crates (fun _ => file) config = .ok rules)
    (h : (tunnelRun d tn edge config).exec (WholeTunnel.begun file rules) ls = some s) (ha : s.links[i]? = some a)
    (hwaits : Waits a.conn id req) (hks : (tunnelRun d tn edge config).exec s ks = some t)
    (hwhy : (∃ e, (a.conn.bodyOf id).ending = .failed e) ∨ ∀ l, l ∈ ks → l ≠ .link i (.conn .deliver)) :
    Waiting i id req t := by
  obtain ⟨v, w, hv, hbefore, hw, hafter⟩ := own_continued hload h hks ha
  rw [← hbefore] at hwaits hwhy
  have hkept : Waits w.conn id req := by
    refine waits hload hv hwaits hw (hwhy.imp_right fun hquiet l hl => ?_)
    rintro rfl
    obtain ⟨k, hk, hown⟩ := List.mem_filterMap.mp hl
    exact hquiet k hk (own?_link hown rfl)
  have hrun : (serving d tn config).exec (Serving.begun file rules) (ownRun i ls ++ ownRun i ks) = some w := by
    rw [exec_append, hv]
    exact hw
  have hsilent : framesOf w.conn.toStreams id = [] := by
    refine (held_of_run hload hrun).2.silent id (List.mem_map_of_mem hkept.task) fun body hbody => ?_
    exact hkept.past hbody Stage.noConfusion (fun _ _ => Stage.noConfusion) rfl
  have htask := hkept.task
  rw [hafter] at htask hsilent
  cases hb : t.links[i]? with
  | none =>
      rw [linkAt, hb, Option.getD_none] at htask
      exact absurd htask List.not_mem_nil
  | some b =>
      rw [linkAt_eq hb] at htask hsilent
      exact ⟨b, hb, htask, hsilent⟩

/-- What the handler of a stream does by itself, and what else gives the lock of
the table back. -/
inductive Helps (env : Env) (i id : Nat) : WholeTunnel.Label → Prop
  | lock : Helps env i id (.link i (.lock id))
  | look (j k : Nat) : Helps env i id (.link j (.choose k))
  | write : Helps env i id (.reload .write)
  | own (k : Connection.Label) (hk : Own env id k) : Helps env i id (.link i (.conn k))

def fairLock (s : WholeTunnel.State) (l : WholeTunnel.Label) : Prop := takesLock l = true → s.reload.task = .sleeping

/-- The handler can come to an end, with these steps alone. -/
def Ends (d : Driver) (tn : Tunnel) (edge : Edge) (config : Path) (env : Env) (s : WholeTunnel.State) (i id : Nat) :
    Prop :=
  ∃ ks t a, (∀ l, l ∈ ks → Helps env i id l) ∧ (tunnelRun d tn edge config).Along fairLock s ks ∧
    (tunnelRun d tn edge config).exec s ks = some t ∧ t.links[i]? = some a ∧ id ∉ a.conn.tasks.map Prod.fst

theorem Ends.cons {l : WholeTunnel.Label} (hl : Helps env i id l) (hfair : fairLock s l)
    (hstep : WholeTunnel.step d tn edge config s l = some t) (h : Ends d tn edge config env t i id) :
    Ends d tn edge config env s i id := by
  obtain ⟨ks, u, a, hks, halong, hrun, ha, hgone⟩ := h
  refine ⟨l :: ks, u, a, List.forall_mem_cons.mpr ⟨hl, hks⟩, ⟨hfair, fun t' ht' => ?_⟩, ?_, ha, hgone⟩
  · obtain rfl := Option.some.inj (hstep.symm.trans ht')
    exact halong
  · exact Option.bind_eq_some_iff.mpr ⟨t, hstep, hrun⟩

theorem link_moves (ha : s.links[i]? = some a) {l : Serving.Label} {v : Serving.State} (hl : isReload l = false)
    (hv : Serving.step d tn config ⟨a.conn, s.reload, a.reading⟩ l = some v) :
    ∃ t, WholeTunnel.step d tn edge config s (.link i l) = some t ∧ t.links[i]? = some ⟨v.conn, v.reading⟩ := by
  obtain ⟨t, ht⟩ : ∃ t, WholeTunnel.step d tn edge config s (.link i l) = some t := link_enabled ha hl hv
  refine ⟨t, ht, ?_⟩
  cases changed_of_step ht with
  | link _ _ b w hb _ hw hlinks =>
      obtain rfl := Option.some.inj (ha.symm.trans hb)
      obtain rfl := Option.some.inj (hv.symm.trans hw)
      rw [hlinks, List.getElem?_set_self (List.getElem?_eq_some_iff.mp ha).1]

theorem ends_own {js : List Connection.Label} {c : Connection.State} (ha : s.links[i]? = some a)
    (hjs : ∀ k, k ∈ js → Own env id k) (hrun : (connectAndServe d tn).exec a.conn js = some c)
    (hgone : id ∉ c.tasks.map Prod.fst) : Ends d tn edge config env s i id := by
  induction js generalizing s a with
  | nil =>
      obtain rfl := Option.some.inj hrun
      exact ⟨[], s, a, fun _ hl => absurd hl List.not_mem_nil, trivial, rfl, ha, hgone⟩
  | cons k js ih =>
      obtain ⟨c', hc', hrun⟩ := Option.bind_eq_some_iff.mp hrun
      rw [List.forall_mem_cons] at hjs
      have hk : isLook k = false := by
        cases hjs.1 <;> rfl
      have hv : Serving.step d tn config ⟨a.conn, s.reload, a.reading⟩ (.conn k) = some ⟨c', s.reload, a.reading⟩ := by
        have hc' : Connection.step d tn a.conn k = some c' := hc'
        simp only [Serving.step, hk, hc', Bool.false_eq_true, if_false, Option.map_some]
      obtain ⟨t, ht, hlink⟩ : ∃ t, WholeTunnel.step d tn edge config s (.link i (.conn k)) = some t ∧
          t.links[i]? = some ⟨c', a.reading⟩ := link_moves ha rfl hv
      exact Ends.cons (.own k hjs.1) (fun hlock => absurd hlock Bool.false_ne_true) ht (ih hlink hjs.2 hrun)

theorem ends_looked (hload : loadFromFile tn.crates (fun _ => file) config = .ok rules)
    (h : (tunnelRun d tn edge config).exec (WholeTunnel.begun file rules) ls = some s) (ha : s.links[i]? = some a)
    (hmem : (id, req) ∈ a.conn.tasks) (hlooked : a.conn.stage id ≠ .arrived) (hcomplete : Complete a.conn id) :
    Ends d tn edge config env s i id := by
  obtain ⟨hpending, _⟩ : Pending tn a.conn ∧ _ := link_alone hload (projected_of_run hload h) ha
  obtain ⟨js, hjs, _⟩ : ∃ js, (connectAndServe d tn).exec Connection.start js = some a.conn ∧ _ :=
    connection_of_run hload h ha
  obtain ⟨ks, c, hks, hrun, hgone⟩ : Finishes d tn env a.conn id :=
    finishes env (loaded_of_run hjs) (taskOf_of_mem hpending.fresh hmem) hlooked hcomplete
  exact ends_own ha hks hrun hgone

structure Stands (s : WholeTunnel.State) (i id : Nat) (req : HttpTypes.Request Unit) (a : Link) : Prop where
  link : s.links[i]? = some a
  task : (id, req) ∈ a.conn.tasks
  stage : a.conn.stage id = .arrived
  ended : (a.conn.bodyOf id).ending = .clean

theorem ends_reading (hload : loadFromFile tn.crates (fun _ => file) config = .ok rules)
    (h : (tunnelRun d tn edge config).exec (WholeTunnel.begun file rules) ls = some s) (hat : Stands s i id req a)
    (hreading : a.reading id = true) : Ends d tn edge config env s i id := by
  have hp := projected_of_run hload h
  obtain ⟨hpending, _⟩ : Pending tn a.conn ∧ _ := link_alone hload hp hat.link
  have hreader : (hostOf req, pathOf req) ∈ s.reload.readers := by
    refine hp.lock.mem_iff.mpr (List.mem_flatMap.mpr ⟨a, List.mem_of_getElem? hat.link, ?_⟩)
    exact List.mem_filterMap.mpr ⟨(id, req), hat.task, holder_reading hreading req⟩
  have htask := taskOf_of_mem hpending.fresh hat.task
  obtain ⟨v, hv⟩ : ∃ v, Serving.step d tn config ⟨a.conn, s.reload, a.reading⟩ (.choose id) = some v := by
    refine Option.isSome_iff_exists.mp ?_
    simp only [Serving.step, htask, hreading, HotReload.step, if_pos hreader, Option.bind_some, Connection.step,
      hat.stage, Option.map_some, Option.isSome_some]
  obtain ⟨t, ht, hlink⟩ := link_moves hat.link rfl hv
  have hrun : (tunnelRun d tn edge config).exec (WholeTunnel.begun file rules) (ls ++ [.link i (.choose id)]) =
      some t := exec_concat h ht
  refine Ends.cons (.look i id) (fun hlock => absurd hlock Bool.false_ne_true) ht ?_
  cases moved_of_step hv with
  | choose _ req' _ _ hconn =>
      obtain ⟨req'', _, _, hnext⟩ := look_some hconn
      have hstage : v.conn.stage id = chosen (selectRule tn.crates.caseTable s.reload.table req'') := by
        rw [hnext]
        exact if_pos rfl
      refine ends_looked hload hrun hlink (by rw [hnext]; exact hat.task) ?_ fun _ => ?_
      · rw [show Link.conn _ = v.conn from rfl, hstage]
        cases selectRule tn.crates.caseTable s.reload.table req'' <;> exact Stage.noConfusion
      · rw [show Link.conn _ = v.conn from rfl, hnext]
        exact hat.ended

theorem ends_sleeping (hload : loadFromFile tn.crates (fun _ => file) config = .ok rules)
    (h : (tunnelRun d tn edge config).exec (WholeTunnel.begun file rules) ls = some s) (hat : Stands s i id req a)
    (hfree : a.reading id = false) (hsleeping : s.reload.task = .sleeping) : Ends d tn edge config env s i id := by
  obtain ⟨hpending, _⟩ : Pending tn a.conn ∧ _ := link_alone hload (projected_of_run hload h) hat.link
  have htask := taskOf_of_mem hpending.fresh hat.task
  obtain ⟨v, hv⟩ : ∃ v, Serving.step d tn config ⟨a.conn, s.reload, a.reading⟩ (.lock id) = some v := by
    refine Option.isSome_iff_exists.mp ?_
    simp only [Serving.step, htask, hat.stage, hfree, HotReload.step, Option.map_some, Option.isSome_some]
  obtain ⟨t, ht, hlink⟩ := link_moves hat.link rfl hv
  have hrun : (tunnelRun d tn edge config).exec (WholeTunnel.begun file rules) (ls ++ [.link i (.lock id)]) =
      some t := exec_concat h ht
  refine Ends.cons .lock (fun _ => hsleeping) ht ?_
  cases moved_of_step hv with
  | lock _ req' _ _ hconn _ _ hreading =>
      have hstands : Stands t i id req ⟨v.conn, v.reading⟩ :=
        ⟨hlink, by rw [hconn]; exact hat.task, by rw [hconn]; exact hat.stage, by rw [hconn]; exact hat.ended⟩
      exact ends_reading hload hrun hstands ((congrFun hreading id).trans (if_pos rfl))

theorem stands_kept (hat : Stands s i id req a) (hfree : a.reading id = false) {j k : Nat}
    (hc : Changed d tn config s t (.link j (.choose k))) : ∃ b, Stands t i id req b ∧ b.reading id = false := by
  cases hc with
  | link _ _ b v hb _ hv hlinks =>
      by_cases hj : j = i
      · subst hj
        obtain rfl := Option.some.inj (hat.link.symm.trans hb)
        cases moved_of_step hv with
        | choose _ req' _ _ hconn hheld hreading =>
            have hne : id ≠ k := by
              rintro rfl
              exact Bool.false_ne_true (hfree.symm.trans hheld)
            obtain ⟨req'', _, _, hnext⟩ := look_some hconn
            have hlink : t.links[j]? = some ⟨v.conn, v.reading⟩ := by
              rw [hlinks, List.getElem?_set_self (List.getElem?_eq_some_iff.mp hat.link).1]
            refine ⟨_, ⟨hlink, ?_, ?_, ?_⟩, (congrFun hreading id).trans ((if_neg hne).trans hfree)⟩
            · rw [hnext]
              exact hat.task
            · rw [hnext]
              exact (if_neg hne).trans hat.stage
            · rw [hnext]
              exact hat.ended
      · exact ⟨a, ⟨by rw [hlinks, List.getElem?_set_ne hj, hat.link], hat.task, hat.stage, hat.ended⟩, hfree⟩

theorem ends_writing (hload : loadFromFile tn.crates (fun _ => file) config = .ok rules)
    (h : (tunnelRun d tn edge config).exec (WholeTunnel.begun file rules) ls = some s) (hat : Stands s i id req a)
    (hfree : a.reading id = false) {loaded : List IngressRule} (hw : s.reload.task = .writing loaded) {n : Nat}
    (hn : s.reload.readers.length = n) : Ends d tn edge config env s i id := by
  induction n generalizing s ls a with
  | zero =>
      obtain ⟨t, ht, hlinks, _, hsleeping⟩ : ∃ t, WholeTunnel.step d tn edge config s (.reload .write) = some t ∧
          t.links = s.links ∧ t.reload.table = loaded ∧ t.reload.task = .sleeping :=
        write_enabled hw (List.length_eq_zero_iff.mp hn)
      have hrun : (tunnelRun d tn edge config).exec (WholeTunnel.begun file rules) (ls ++ [.reload .write]) =
          some t := exec_concat h ht
      have hstands : Stands t i id req a := ⟨by rw [hlinks, hat.link], hat.task, hat.stage, hat.ended⟩
      refine Ends.cons .write (fun hlock => absurd hlock Bool.false_ne_true) ht ?_
      exact ends_sleeping hload hrun hstands hfree hsleeping
  | succ n ih =>
      obtain ⟨j, k, t, ht⟩ : ∃ j k t, WholeTunnel.step d tn edge config s (.link j (.choose k)) = some t :=
        look_enabled hload (projected_of_run hload h) fun hnil => by simp [hnil] at hn
      obtain ⟨htask, hone⟩ := draining_changed hw rfl rfl (changed_of_step ht)
      have hrun : (tunnelRun d tn edge config).exec (WholeTunnel.begun file rules) (ls ++ [.link j (.choose k)]) =
          some t := exec_concat h ht
      obtain ⟨b, hstands, hstill⟩ := stands_kept hat hfree (changed_of_step ht)
      refine Ends.cons (.look j k) (fun hlock => absurd hlock Bool.false_ne_true) ht ?_
      refine ih hrun hstands hstill htask ?_
      simp only [LockRelease.looks, isChoose, if_true] at hone
      omega

theorem ends_complete (hload : loadFromFile tn.crates (fun _ => file) config = .ok rules)
    (h : (tunnelRun d tn edge config).exec (WholeTunnel.begun file rules) ls = some s) (ha : s.links[i]? = some a)
    (hmem : (id, req) ∈ a.conn.tasks) (hcomplete : Complete a.conn id) : Ends d tn edge config env s i id := by
  by_cases harrived : a.conn.stage id = .arrived
  · have hat : Stands s i id req a := ⟨ha, hmem, harrived, hcomplete (.inl harrived)⟩
    cases hreading : a.reading id with
    | true => exact ends_reading hload h hat hreading
    | false =>
        cases htask : s.reload.task with
        | sleeping => exact ends_sleeping hload h hat hreading htask
        | writing loaded => exact ends_writing hload h hat hreading htask rfl
  · exact ends_looked hload h ha hmem harrived hcomplete

theorem link_delivers {u : WholeTunnel.State} (ha : s.links[i]? = some a)
    (hu : WholeTunnel.step d tn edge config s (.link i (.conn .deliver)) = some u) :
    ∃ b, u.links[i]? = some b ∧ Connection.Step d tn a.conn .deliver b.conn := by
  cases changed_of_step hu with
  | link _ _ b v hb _ hv hlinks =>
      obtain rfl := Option.some.inj (ha.symm.trans hb)
      refine ⟨⟨v.conn, v.reading⟩, by rw [hlinks, List.getElem?_set_self (List.getElem?_eq_some_iff.mp ha).1], ?_⟩
      cases moved_of_step hv with
      | conn _ _ hconn => exact Connection.step_cases hconn

variable {w : World} {cfg : TunnelConfig} {st : Started} {connectorId : Bytes} {osArch : Str} {rpc : Rpc} {h2 : H2}

/-- Once a handler has taken its body, or all of it is there to be taken, it can
come to an end from wherever it stands, even if it has to let a reload pass.
Until then it waits. Where the stream is given up before, by the edge, with the
connection, or by `h2` for a frame that it refuses, it waits for ever. -/
theorem ends_when_sent (env : Env) (hst : startTunnel w cfg = .ok st)
    (h : (tunnelRun d (tunnelOf w st connectorId osArch rpc h2) edge st.configPath).exec (begunAt w st) ls = some s)
    (ha : s.links[i]? = some a) (hmem : (id, req) ∈ a.conn.tasks) :
    (Complete a.conn id → Ends d (tunnelOf w st connectorId osArch rpc h2) edge st.configPath env s i id) ∧
    (¬ Complete a.conn id → ∀ ks t,
      (tunnelRun d (tunnelOf w st connectorId osArch rpc h2) edge st.configPath).exec s ks = some t →
      (∀ l, l ∈ ks → l ≠ .link i (.conn .deliver)) → Waiting i id req t) ∧
    (Broken a.conn id → ∀ ks t,
      (tunnelRun d (tunnelOf w st connectorId osArch rpc h2) edge st.configPath).exec s ks = some t →
      Waiting i id req t) ∧
    (Undrained a.conn id → Refused a.conn id → ∀ ks t,
      (tunnelRun d (tunnelOf w st connectorId osArch rpc h2) edge st.configPath).exec s
        (.link i (.conn .deliver) :: ks) = some t → Waiting i id req t) := by
  have hload := rules_of_start hst
  have hforever {ls : List WholeTunnel.Label} {s : WholeTunnel.State} {a : Link}
      (h : (tunnelRun d (tunnelOf w st connectorId osArch rpc h2) edge st.configPath).exec (begunAt w st) ls = some s)
      (ha : s.links[i]? = some a) (hmem : (id, req) ∈ a.conn.tasks) (hbroken : Broken a.conn id)
      (ks : List WholeTunnel.Label) (t : WholeTunnel.State)
      (hks : (tunnelRun d (tunnelOf w st connectorId osArch rpc h2) edge st.configPath).exec s ks = some t) :
      Waiting i id req t := by
    obtain ⟨hundrained, e, he⟩ := hbroken
    refine waiting_of_run hload h ha ⟨hmem, hundrained, ?_⟩ hks (.inl ⟨e, he⟩)
    rw [he]
    exact Ending.noConfusion
  refine ⟨ends_complete hload h ha hmem, fun hnot ks t hks hquiet => ?_, fun hbroken => hforever h ha hmem hbroken,
    fun hundrained hrefused ks t hks => ?_⟩
  · rw [Complete, Classical.not_imp] at hnot
    exact waiting_of_run hload h ha ⟨hmem, hnot.1, hnot.2⟩ hks (.inr hquiet)
  · obtain ⟨u, hu, hks⟩ := Option.bind_eq_some_iff.mp hks
    have hrun : (tunnelRun d (tunnelOf w st connectorId osArch rpc h2) edge st.configPath).exec (begunAt w st)
        (ls ++ [.link i (.conn .deliver)]) = some u := exec_concat h hu
    have hdelivers : WholeTunnel.step d (tunnelOf w st connectorId osArch rpc h2) edge st.configPath s
        (.link i (.conn .deliver)) = some u := hu
    obtain ⟨⟨c, reading⟩, hb, hstep⟩ := link_delivers ha hdelivers
    have htasks : c.tasks = a.conn.tasks := by
      cases hstep with
      | deliver => rfl
      | gaveUp _ hl => exact absurd hl (by simp)
      | unsent _ _ hl => exact absurd hl (by simp)
    exact hforever hrun hb (htasks ▸ hmem) (refused_broken hrefused hundrained hstep) ks t hks

/-- The edge opens two streams, and on the second one there is DATA behind the
END_STREAM. The reload task comes for the lock. -/
def brokenUpload : List WholeTunnel.Label :=
  [.dial wayOpen, .link 0 (.conn (.edge (.headers 1 proxyRequest true))),
    .link 0 (.conn (.edge (.headers 3 proxyRequest false))), .link 0 (.conn (.edge (.data 3 (ascii "he") true))),
    .link 0 (.conn (.edge (.data 3 (ascii "llo") true))), .link 0 (.conn .deliver), .link 0 (.conn .deliver),
    .link 0 (.conn .accept), .link 0 (.conn .accept), .link 0 (.conn .deliver), .reload .tick]

theorem ends_when_sent_brokenUpload :
    ∃ s, offlineRun.exec (begunAt offline Rotation.startedOffline) brokenUpload = some s ∧
      Ends .accept offlineTunnel (Rotation.edgeOf Rotation.display Rotation.startedOffline)
        Rotation.startedOffline.configPath hi s 0 1 ∧
      ∀ ks t, offlineRun.exec s (.link 0 (.conn .deliver) :: ks) = some t → Waiting 0 3 proxyRequest t := by
  obtain ⟨s, a, hs, ha, hsent, hmem, hundrained, hrefused⟩ : ∃ s a,
      offlineRun.exec (begunAt offline Rotation.startedOffline) brokenUpload = some s ∧ s.links[0]? = some a ∧
      ((1, proxyRequest) ∈ a.conn.tasks ∧ (a.conn.bodyOf 1).ending = .clean) ∧ (3, proxyRequest) ∈ a.conn.tasks ∧
      Undrained a.conn 3 ∧ Refused a.conn 3 :=
    ⟨_, _, rfl, rfl, ⟨List.mem_cons_self, rfl⟩, List.mem_cons_of_mem _ List.mem_cons_self, .inl rfl,
      ascii "llo", true, [], [.data (ascii "he")], .clean, rfl, rfl, .inl rfl⟩
  refine ⟨s, hs, (ends_when_sent hi startedOffline_eq hs ha hsent.1).1 fun _ => hsent.2, ?_⟩
  exact (ends_when_sent hi startedOffline_eq hs ha hmem).2.2.2 hundrained hrefused

end MiniCloudflared.Handlers
