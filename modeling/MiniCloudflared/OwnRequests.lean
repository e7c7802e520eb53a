import MiniCloudflared.Answers
import MiniCloudflared.BodyDrain

namespace MiniCloudflared.OwnRequests

open Library HttpTypes Config ThirdParty Origin RequestBody ProxyStream Http2 SentFrames Connection StreamOwners
open Deadlock Answers Library.System

variable {cr : Crates} {env : Env} {d : Driver} {tn : Tunnel} {s t : State} {l : Label} {id : Nat}
  {req : HttpTypes.Request Unit}

def edgeFrame? : Label → Option InFrame
  | .edge f => some f
  | _ => none

def edgeFrames (ls : List Label) : List InFrame := ls.filterMap edgeFrame?

def looks (id : Nat) : Label → Bool
  | .look j _ => j == id
  | _ => false

def looked (id : Nat) (ls : List Label) : Nat := ls.countP (looks id)

theorem edgeFrames_concat (ls : List Label) (l : Label) :
    edgeFrames (ls ++ [l]) = edgeFrames ls ++ (edgeFrame? l).toList := filterMap_concat edgeFrame? ls l

theorem received_concat (id : Nat) (fs : List InFrame) (f : InFrame) :
    received id (fs ++ [f]) = receiveHalf id (received id fs) f := List.foldl_concat ..

theorem opening_append {fs : List InFrame} (h : opening id fs = some req) (more : List InFrame) :
    opening id (fs ++ more) = some req := by
  rw [opening, List.findSome?_append, ← opening, h]
  rfl

theorem unopened {fs : List InFrame} (h : ∀ req endStream, .headers id req endStream ∉ fs) :
    opening id fs = none ∧ received id fs = none := by
  induction fs using List.reverseRecOn with
  | nil => exact ⟨rfl, rfl⟩
  | append_singleton fs f ih =>
      obtain ⟨hopen, hrecv⟩ := ih (fun req e hm => h req e (List.mem_append_left _ hm))
      rw [received_concat, hrecv, opening, List.findSome?_append, ← opening, hopen]
      cases f with
      | headers j req e =>
          have hj : j ≠ id := by
            rintro rfl
            exact h req e (List.mem_append_right _ List.mem_cons_self)
          simp [opens?, receiveHalf, hj]
      | data j chunk e => simp [opens?, receiveHalf]
      | reset j => simp [opens?, receiveHalf]
      | close c => simp [opens?, receiveHalf]

/-- A stream to the edge that takes all that it is given. -/
def taking (env : Env) : Env := { env with sendResponse := .ok (), sendData := .ok () }

/-- The frames of a response. One whose headers the edge cannot be given has
none. -/
def replyFrames (id : Nat) (resp : Response) : List OutFrame :=
  match edgeHeaders resp.headers with
  | .error _ => []
  | .ok headers =>
      if resp.body = [] then [.headers id resp.status headers true]
      else [.headers id resp.status headers false, .data id resp.body true]

theorem frames_replyToEdge (env : Env) (resp : Response) (id : Nat) :
    (replyToEdge (taking env) resp).events.filterMap (replyFrame id) = replyFrames id resp := by
  rw [replyToEdge, replyFrames]
  cases hh : edgeHeaders resp.headers with
  | error e => rw [Traced.lift_error_bind, List.filterMap_nil]
  | ok headers =>
      rw [Traced.lift_ok_bind]
      by_cases hbody : resp.body = []
      · rw [hbody]
        rfl
      · have hempty : resp.body.isEmpty = false := by simpa using hbody
        rw [hempty]
        simp only [ne_eq, hbody, not_false_eq_true, if_true]
        rfl

theorem filterMap_dispatch {γ : Type} {f : Event → Option γ} (hwrite : ∀ data, f (.write data) = none)
    (hconnect : ∀ transport addr, f (.connect transport addr) = none) (cr : Crates) (env : Env)
    (rule : IngressRule) (o : HttpTypes.Request Bytes) : (dispatch cr env rule o).events.filterMap f = [] := by
  cases hb : Exchange.isBuiltin rule with
  | true =>
      obtain ⟨resp, hr⟩ := Exchange.dispatch_builtin cr env hb o
      rw [hr]
      rfl
  | false =>
      rw [Exchange.dispatch_forward hb]
      cases hu : cr.urlParse rule.service with
      | error err =>
          rw [Exchange.forwardHttp_error hu]
          rfl
      | ok u =>
          rw [Exchange.filterMap_forwardHttp hwrite hu o, List.filterMap_cons_none (hconnect _ _), List.filterMap_nil]

theorem dispatch_taking (cr : Crates) (env : Env) (rule : IngressRule) (o : HttpTypes.Request Bytes) :
    dispatch cr (taking env) rule o = dispatch cr env rule o := rfl

theorem orElse_badGateway (x : Io Response) : (x.orElse badGateway).result = .ok (responseOf x) := by
  rcases x with ⟨events, _ | resp⟩ <;> rfl

/-- The handler, done all at once, on a body that has ended. -/
theorem frames_proxyTo {request : HttpTypes.Request RecvStream} {rule : IngressRule} {body : Bytes}
    {originReq : HttpTypes.Request Bytes} (ho : originRequest cr request rule.service body = .ok originReq) (id : Nat) :
    (proxyTo cr (taking env) request rule body).events.filterMap (replyFrame id) =
      replyFrames id (responseOf (dispatch cr env rule originReq)) := by
  obtain ⟨resp, hresp, hproxy⟩ := Exchange.proxyTo_ok (taking env) ho
  rw [dispatch_taking, orElse_badGateway] at hresp
  obtain rfl := Except.ok.inj hresp
  rw [hproxy, List.filterMap_cons_none rfl, List.filterMap_append,
    filterMap_dispatch (fun _ => rfl) (fun _ _ => rfl), List.nil_append, frames_replyToEdge]

/-- The reader of a stream has taken so much of the body that the edge has sent
on it, and the rest is there to be read. -/
def Carries (s : State) (id : Nat) (req : HttpTypes.Request Unit) (read : Bytes) : Prop :=
  ∃ r fs body, s.recv id = some r ∧ fs <+: s.heard ∧ opening id fs = some req ∧ received id fs = some body ∧
    body.payload = read ++ r.payload ∧ ((∃ e, r.ending = .failed e) ∨ r.ending = body.ending) ∧
    (r.ending = .running → fs = s.heard)

theorem Carries.keep {read : Bytes} (h : Carries s id req read) (hheard : t.heard = s.heard)
    (hrecv : t.recv id = s.recv id ∨ t.recv id = (s.recv id).map RecvStream.fail) : Carries t id req read := by
  obtain ⟨r, fs, body, hr, hfs, hopen, hbody, hpayload, hend, hall⟩ := h
  rw [← hheard] at hfs
  rcases hrecv with hrecv | hrecv
  · exact ⟨r, fs, body, hrecv.trans hr, hfs, hopen, hbody, hpayload, hend, fun hrun => (hall hrun).trans hheard.symm⟩
  · exact ⟨r.fail, fs, body, hrecv.trans (congrArg (Option.map RecvStream.fail) hr), hfs, hopen, hbody, hpayload,
      .inl ⟨.h2, rfl⟩, fun hrun => absurd hrun Ending.noConfusion⟩

theorem hear_running (id : Nat) (f : InFrame) :
    ∃ more ending, ∀ es, hear id ⟨es, .running⟩ f = ⟨es ++ more, ending⟩ := by
  cases f with
  | headers j request endStream =>
      by_cases hj : j = id
      · exact ⟨[], endingOf endStream, fun es => by simp [hear, hj]⟩
      · exact ⟨[], .running, fun es => by simp [hear, hj]⟩
  | data j chunk endStream =>
      by_cases hj : j = id
      · exact ⟨[.data chunk], endingOf endStream, fun es => by simp [hear, hj]⟩
      · exact ⟨[], .running, fun es => by simp [hear, hj]⟩
  | reset j =>
      by_cases hj : j = id
      · exact ⟨[], .failed .h2, fun es => by simp [hear, hj, RecvStream.fail]⟩
      · exact ⟨[], .running, fun es => by simp [hear, hj]⟩
  | close c => exact ⟨[], .running, fun es => by simp [hear]⟩

theorem hear_ended {r : RecvStream} (hr : r.ending ≠ .running) (id : Nat) (f : InFrame) :
    hear id r f = r ∨ hear id r f = r.fail := by
  rcases r with ⟨es, _ | _ | e⟩
  · exact absurd rfl hr
  all_goals
    cases f with
    | headers j request endStream => exact .inl (by simp [hear])
    | data j chunk endStream => exact .inl (by simp [hear])
    | reset j =>
        by_cases hj : j = id
        · exact .inr (if_pos hj)
        · exact .inl (if_neg hj)
    | close c => exact .inl rfl

theorem Carries.receive {read : Bytes} {f : InFrame} (h : Carries s id req read) (hc : Coherent s.toStreams)
    (ht : t.toStreams = receive tn.h2 s.toStreams f) : Carries t id req read := by
  obtain ⟨r, fs, body, hr, hfs, hopen, hbody, hpayload, hend, hall⟩ := h
  have hheard : t.heard = s.heard ++ [f] := by
    rw [ht]
    exact receive_heard tn.h2 s.toStreams f
  have hmore : fs <+: t.heard := by
    rw [hheard]
    exact hfs.trans (List.prefix_append _ _)
  have hfailed (hrecv : t.recv id = some r.fail) : Carries t id req read :=
    ⟨r.fail, fs, body, hrecv, hmore, hopen, hbody, hpayload, .inl ⟨.h2, rfl⟩,
      fun hrun => absurd hrun Ending.noConfusion⟩
  have hstays (hrecv : t.recv id = some r) (hrun : r.ending ≠ .running) : Carries t id req read :=
    ⟨r, fs, body, hrecv, hmore, hopen, hbody, hpayload, hend, fun h => absurd h hrun⟩
  rcases receive_recv tn.h2 f hr (hc.recv id (by rw [hr]; exact Option.some_ne_none r)) with
    hrecv | hrecv | ⟨hrecv, hidle⟩
  · exact hfailed (by rw [ht, hrecv])
  · by_cases hrun : r.ending = .running
    · obtain ⟨more, ending, hhear⟩ := hear_running id f
      rcases r with ⟨es, ending'⟩
      obtain rfl : ending' = .running := hrun
      rcases body with ⟨bs, ending'⟩
      obtain rfl : Ending.running = ending' := hend.resolve_left fun ⟨e, he⟩ => Ending.noConfusion he
      obtain rfl := hall rfl
      refine ⟨⟨es ++ more, ending⟩, s.heard ++ [f], ⟨bs ++ more, ending⟩, ?_, ?_, opening_append hopen _, ?_, ?_,
        .inr rfl, fun _ => hheard.symm⟩
      · rw [ht, hrecv, hhear]
      · exact hheard.symm ▸ List.prefix_refl _
      · rw [received_concat, hbody]
        exact congrArg some (hhear bs)
      · simp only [RecvStream.payload, List.flatMap_append, ← List.append_assoc] at hpayload ⊢
        rw [hpayload]
    · rcases hear_ended hrun id f with hsame | hsame
      · exact hstays (by rw [ht, hrecv, hsame]) hrun
      · exact hfailed (by rw [ht, hrecv, hsame])
  · refine hstays (by rw [ht, hrecv]) fun hrun => hidle r.events ?_
    rw [← hrun]

theorem Carries.polled {read chunk : Bytes} {r r' : RecvStream} (h : Carries s id req read) (hr : s.recv id = some r)
    (hpoll : r.pollData = (.ready (some (.ok chunk)), r')) (hheard : t.heard = s.heard) (hrecv : t.recv id = some r') :
    Carries t id req (read ++ chunk) := by
  obtain ⟨r₀, fs, body, hr₀, hfs, hopen, hbody, hpayload, hend, hall⟩ := h
  obtain rfl : r = r₀ := Option.some.inj (hr.symm.trans hr₀)
  obtain ⟨hevents, hending⟩ := pollData_ok hpoll
  refine ⟨r', fs, body, hrecv, hheard ▸ hfs, hopen, hbody, ?_, by rw [hending]; exact hend, fun hrun => ?_⟩
  · rw [hpayload, RecvStream.payload, hevents, List.append_assoc]
    rfl
  · rw [hheard]
    exact hall (hending ▸ hrun)

theorem Carries.whole {read : Bytes} (h : Carries s id req read) (hend : s.bodyOf id = ⟨[], .clean⟩) :
    ∃ fs body, fs <+: s.heard ∧ opening id fs = some req ∧ received id fs = some body ∧ body.ending = .clean ∧
      body.payload = read := by
  obtain ⟨r, fs, body, hr, hfs, hopen, hbody, hpayload, hsame, _⟩ := h
  obtain rfl : r = ⟨[], .clean⟩ := by
    rw [Streams.bodyOf, hr] at hend
    exact hend
  have hclean : body.ending = .clean := by
    rcases hsame with ⟨e, he⟩ | hsame
    · exact absurd he Ending.noConfusion
    · exact hsame.symm
  refine ⟨fs, body, hfs, hopen, hbody, hclean, ?_⟩
  rw [hpayload]
  exact List.append_nil read

/-- What the edge has sent is what was taken off the socket, and then what is
still there. -/
theorem heard_of_step (hstep : Step d tn s l t) :
    s.heard <+: t.heard ∧ t.heard ++ t.inbound = s.heard ++ s.inbound ++ (edgeFrame? l).toList := by
  have hsame (hheard : t.heard = s.heard) (hin : t.inbound = s.inbound) (hl : edgeFrame? l = none) :
      s.heard <+: t.heard ∧ t.heard ++ t.inbound = s.heard ++ s.inbound ++ (edgeFrame? l).toList := by
    rw [hheard, hin, hl, Option.toList_none, List.append_nil]
    exact ⟨List.prefix_refl _, rfl⟩
  cases hstep with
  | edge f => exact ⟨List.prefix_refl _, (List.append_assoc _ _ _).symm⟩
  | deliver f fs hmoves hopen hin =>
      have hheard := receive_heard tn.h2 s.toStreams f
      refine ⟨hheard ▸ List.prefix_append _ _, ?_⟩
      rw [hheard, hin, List.append_assoc]
      exact (List.append_nil _).symm
  | gaveUp l hl id => exact hsame (release_heard _ id false) rfl (by rcases hl with rfl | rfl <;> rfl)
  | ended id | registered id | unasked id => exact hsame (release_heard _ id false) rfl rfl
  | unsent id l hl => exact hsame (release_heard _ id false) rfl (by rcases hl with rfl | rfl <;> rfl)
  | answered id | completed id => exact hsame (release_heard _ id true) rfl rfl
  | _ => exact hsame rfl rfl rfl

/-- Nobody but its handler reads the body of a request. -/
theorem carries_of_step (hp : Pending tn s) (hstep : Step d tn s l t) {read : Bytes}
    (hid : id ∈ s.incoming.map Prod.fst ∨ id ∈ s.tasks.map Prod.fst) (h : Carries s id req read) :
    Carries t id req read ∨ (l = .drain id ∧ id ∈ s.tasks.map Prod.fst) ∨
      id ∉ t.incoming.map Prod.fst ∧ id ∉ t.tasks.map Prod.fst := by
  have hcontrol {j : Nat} (hphase : controls s.phase = some j) : id ≠ j := by
    rintro rfl
    rcases hid with hid | hid
    · exact (hp.fresh.owner (.inr hphase)).2 hid
    · exact hp.fresh.control_task hphase hid
  have hended (u : State) (hrecv : u.recv = s.recv) (hheard : u.heard = s.heard) (hin : u.incoming = s.incoming)
      {j : Nat} {req' : HttpTypes.Request Unit} (htask : taskOf s j = some req') (finished : Bool) :
      Carries (u.endTask j finished) id req read ∨ (l = .drain id ∧ id ∈ s.tasks.map Prod.fst) ∨
        id ∉ (u.endTask j finished).incoming.map Prod.fst ∧ id ∉ (u.endTask j finished).tasks.map Prod.fst := by
    by_cases hj : id = j
    · refine .inr (.inr ⟨?_, hj ▸ not_task_endTask u id finished⟩)
      rw [show (u.endTask j finished).incoming = s.incoming from (release_incoming _ j finished).trans hin]
      exact (hp.fresh.owner (.inl (hj ▸ List.mem_map_of_mem (task_mem htask)))).2
    · exact .inl (h.keep ((release_heard _ j finished).trans hheard)
        (.inl ((release_other _ hj finished).trans (congrFun hrecv id))))
  cases hstep with
  | deliver f fs hmoves hopen hin =>
      exact .inl (h.receive (t := { s with toStreams := _, inbound := fs }) hp.fresh.streams rfl)
  | refused j req' rest e => exact .inl (h.keep rfl (.inr rfl))
  | finish c => exact .inl (h.keep rfl (.inr rfl))
  | read j received r r' b bs hphase => exact .inl (h.keep rfl (.inl (if_neg (hcontrol (by rw [hphase]; rfl)))))
  | ended j received r r' hphase =>
      have hj := hcontrol (j := j) (by rw [hphase]; rfl)
      exact .inl (h.keep (release_heard _ j false) (.inl ((release_other _ hj false).trans (if_neg hj))))
  | gaveUp l hl j received hphase =>
      exact .inl (h.keep (release_heard _ j false) (.inl (release_other _ (hcontrol (by rw [hphase]; rfl)) false)))
  | registered j received location hphase =>
      exact .inl (h.keep (release_heard _ j false) (.inl (release_other _ (hcontrol (by rw [hphase]; rfl)) false)))
  | drained j req' rule buf chunk r r' htask hstage hrecv hpoll =>
      by_cases hj : id = j
      · exact .inr (.inl ⟨by rw [hj], hj ▸ List.mem_map_of_mem (task_mem htask)⟩)
      · exact .inl (h.keep rfl (.inl (if_neg hj)))
  | unasked j req' rule buf e htask => exact hended s rfl rfl rfl htask false
  | unsent j l hl req' htask => exact hended s rfl rfl rfl htask false
  | answered j req' resp headers htask => exact hended { s with toStreams := s.send _ } rfl rfl rfl htask true
  | completed j req' body htask => exact hended { s with toStreams := s.send _ } rfl rfl rfl htask true
  | _ => exact .inl (h.keep rfl (.inl rfl))

/-- The response is the one that `handle_proxy_stream` has for the request: with
the rules that its handler has looked at, the body that the edge has sent, and
the origin as it was asked. -/
def Replied (tn : Tunnel) (ls : List Label) (heard : List InFrame) (id : Nat) (req : HttpTypes.Request Unit)
    (frames : List OutFrame) : Prop :=
  ∃ fs body rules env fuel io, fs <+: heard ∧ opening id fs = some req ∧ received id fs = some body ∧
    .look id rules ∈ ls ∧ (∀ rule, selectRule tn.crates.caseTable rules req = some rule → .exchange id env ∈ ls) ∧
    handleProxyStream tn.crates (taking env) rules fuel (withBody req body) = some io ∧
    io.events.filterMap (replyFrame id) = frames

theorem Replied.mono {ls ls' : List Label} {heard heard' : List InFrame} {frames : List OutFrame}
    (h : Replied tn ls heard id req frames) (hls : ∀ l, l ∈ ls → l ∈ ls') (hheard : heard <+: heard') :
    Replied tn ls' heard' id req frames := by
  obtain ⟨fs, body, rules, env, fuel, io, hfs, hopen, hbody, hlook, hexchange, hrun, hframes⟩ := h
  exact ⟨fs, body, rules, env, fuel, io, hfs.trans hheard, hopen, hbody, hls _ hlook,
    fun rule hrule => hls _ (hexchange rule hrule), hrun, hframes⟩

/-- What a handler has done by the time that it stands where it does. -/
def Working (tn : Tunnel) (ls : List Label) (s : State) (id : Nat) (req : HttpTypes.Request Unit) : Stage → Prop
  | .arrived => Carries s id req []
  | .draining rule buf =>
      (∃ rules, .look id rules ∈ ls ∧ selectRule tn.crates.caseTable rules req = some rule) ∧ Carries s id req buf
  | .asking rule originReq =>
      (∃ rules, .look id rules ∈ ls ∧ selectRule tn.crates.caseTable rules req = some rule) ∧
        ∃ fs body, fs <+: s.heard ∧ opening id fs = some req ∧ received id fs = some body ∧ body.ending = .clean ∧
          originRequest tn.crates req rule.service body.payload = .ok originReq
  | .answering resp => Replied tn ls s.heard id req (replyFrames id resp)
  | .sending body => ∃ resp headers, Replied tn ls s.heard id req (replyFrames id resp) ∧
      edgeHeaders resp.headers = .ok headers ∧ resp.body ≠ [] ∧ body = resp.body ∧
      framesOf s.toStreams id <+: [.headers id resp.status headers false]

theorem Working.mono {ls ls' : List Label} {stage : Stage} (h : Working tn ls s id req stage)
    (hls : ∀ l, l ∈ ls → l ∈ ls') (hheard : s.heard <+: t.heard)
    (hcarries : ∀ read, Carries s id req read → Carries t id req read)
    (hframes : ∀ body, stage = .sending body → framesOf t.toStreams id <+: framesOf s.toStreams id) :
    Working tn ls' t id req stage := by
  cases stage with
  | arrived => exact hcarries [] h
  | draining rule buf =>
      obtain ⟨⟨rules, hlook, hrule⟩, hread⟩ := h
      exact ⟨⟨rules, hls _ hlook, hrule⟩, hcarries buf hread⟩
  | asking rule originReq =>
      obtain ⟨⟨rules, hlook, hrule⟩, fs, body, hfs, hrest⟩ := h
      exact ⟨⟨rules, hls _ hlook, hrule⟩, fs, body, hfs.trans hheard, hrest⟩
  | answering resp => exact Replied.mono h hls hheard
  | sending body =>
      obtain ⟨resp, headers, hreplied, hheaders, hne, hbody, hsent⟩ := h
      exact ⟨resp, headers, hreplied.mono hls hheard, hheaders, hne, hbody, (hframes body rfl).trans hsent⟩

/-- Where the frames on a stream come from: from nothing, from the handler of a
control stream, or from that of the request that opened the stream. They may
have been cut off, as by a reset. -/
inductive Answer (tn : Tunnel) (ls : List Label) (id : Nat) : List OutFrame → Prop
  | silent : Answer tn ls id []
  | control (req : HttpTypes.Request Unit) (frames fs : List OutFrame)
      (hopening : opening id (edgeFrames ls) = some req) (hupg : upgradeOf req = CONTROL_STREAM_VAL)
      (hframes : ControlFrames tn id frames) (hfs : fs <+: frames) : Answer tn ls id fs
  | proxied (req : HttpTypes.Request Unit) (frames fs : List OutFrame) (hupg : upgradeOf req ≠ CONTROL_STREAM_VAL)
      (hreplied : Replied tn ls (edgeFrames ls) id req frames) (hfs : fs <+: frames) : Answer tn ls id fs

theorem Answer.mono {ls : List Label} {fs fs' : List OutFrame} (h : Answer tn ls id fs) (l : Label) (hfs : fs' <+: fs) :
    Answer tn (ls ++ [l]) id fs' := by
  have hmore := edgeFrames_concat ls l
  cases h with
  | silent => exact List.prefix_nil.mp hfs ▸ .silent
  | control req frames _ hopening hupg hframes hsent =>
      exact .control req frames fs' (by rw [hmore]; exact opening_append hopening _) hupg hframes (hfs.trans hsent)
  | proxied req frames _ hupg hreplied hsent =>
      refine .proxied req frames fs' hupg (hreplied.mono (fun k hk => List.mem_append_left _ hk) ?_) (hfs.trans hsent)
      rw [hmore]
      exact List.prefix_append _ _

theorem incoming_of_step (hstep : Step d tn s l t) {p : Nat × HttpTypes.Request Unit} (hp : p ∈ t.incoming) :
    p ∈ s.incoming ∨ ∃ endStream, t.toStreams = receive tn.h2 s.toStreams (.headers p.1 p.2 endStream) ∧
      s.lastId < p.1 ∧ t.recv p.1 = some ⟨[], endingOf endStream⟩ := by
  have hsame (hin : t.incoming = s.incoming) : p ∈ s.incoming ∨ ∃ endStream,
      t.toStreams = receive tn.h2 s.toStreams (.headers p.1 p.2 endStream) ∧ s.lastId < p.1 ∧
        t.recv p.1 = some ⟨[], endingOf endStream⟩ := .inl (hin ▸ hp)
  cases hstep with
  | deliver f fs hmoves hopen hin =>
      rcases receive_incoming tn.h2 s.toStreams f with hsame | ⟨id, req, endStream, rfl, hid, hnew, hlast, hrecv⟩
      · exact .inl (hsame ▸ hp)
      · rw [show _ = _ from hnew, List.mem_append, List.mem_singleton] at hp
        rcases hp with hp | rfl
        · exact .inl hp
        · exact .inr ⟨endStream, rfl, hid, hrecv⟩
  | called _ _ _ _ _ hin | refused _ _ _ _ _ hin | spawn _ _ _ _ hin =>
      exact .inl (by rw [hin]; exact List.mem_cons_of_mem _ hp)
  | ended j | gaveUp _ _ j | registered j | unasked j | unsent j => exact hsame (release_incoming _ j false)
  | answered j | completed j => exact hsame (release_incoming _ j true)
  | _ => exact .inl hp

structure History (tn : Tunnel) (ls : List Label) (s : State) : Prop where
  pending : Pending tn s
  frames : s.heard ++ s.inbound = edgeFrames ls
  heard : ∀ id req endStream, .headers id req endStream ∈ s.heard → id ≤ s.lastId
  waiting : ∀ id req, (id, req) ∈ s.incoming → Carries s id req []
  control : ∀ id received, s.phase = .registering id received →
    ∃ req, opening id s.heard = some req ∧ upgradeOf req = CONTROL_STREAM_VAL
  proxied : ∀ p, p ∈ s.tasks → upgradeOf p.2 ≠ CONTROL_STREAM_VAL
  working : ∀ id req, (id, req) ∈ s.tasks → Working tn ls s id req (s.stage id)
  answers : ∀ id, Answer tn ls id (framesOf s.toStreams id)

theorem Carries.opening {read : Bytes} (h : Carries s id req read) : opening id s.heard = some req := by
  obtain ⟨r, fs, body, hr, ⟨more, hmore⟩, hopen, hrest⟩ := h
  exact hmore ▸ opening_append hopen more

namespace History

variable {ls : List Label}

theorem start (tn : Tunnel) : History tn [] start where
  pending := pending_start
  frames := rfl
  heard _ _ _ h := absurd h List.not_mem_nil
  waiting _ _ h := absurd h List.not_mem_nil
  control _ _ h := absurd h Phase.noConfusion
  proxied _ h := absurd h List.not_mem_nil
  working _ _ h := absurd h List.not_mem_nil
  answers _ := .silent

theorem heard_prefix (h : History tn ls s) : s.heard <+: edgeFrames ls := h.frames ▸ List.prefix_append _ _

theorem heard_step (h : History tn ls s) (hstep : Step d tn s l t) (id : Nat) (req : HttpTypes.Request Unit)
    (endStream : Bool) (hf : .headers id req endStream ∈ t.heard) : id ≤ t.lastId := by
  have hlast := (owned_of_step hstep).1
  have hold (hf : .headers id req endStream ∈ s.heard) : id ≤ t.lastId :=
    Nat.le_trans (h.heard id req endStream hf) hlast
  have hsame (hheard : t.heard = s.heard) : id ≤ t.lastId := hold (hheard ▸ hf)
  cases hstep with
  | deliver f fs hmoves hopen hin =>
      rw [show _ = _ from receive_heard tn.h2 s.toStreams f] at hf
      rcases List.mem_append.mp hf with hf | hf
      · exact hold hf
      · exact (receive_lastId tn.h2 s.toStreams f).2 id req endStream (List.mem_singleton.mp hf).symm
  | ended j | gaveUp _ _ j | registered j | unasked j | unsent j => exact hsame (release_heard _ j false)
  | answered j | completed j => exact hsame (release_heard _ j true)
  | _ => exact hsame rfl

theorem waiting_step (h : History tn ls s) (hstep : Step d tn s l t) (id : Nat) (req : HttpTypes.Request Unit)
    (hm : (id, req) ∈ t.incoming) : Carries t id req [] := by
  rcases incoming_of_step hstep hm with hold | ⟨endStream, ht, hid, hrecv⟩
  · have hwaits := List.mem_map_of_mem (f := Prod.fst) hold
    rcases carries_of_step h.pending hstep (.inl hwaits) (h.waiting id req hold) with
      hcarries | ⟨_, htask⟩ | ⟨hnot, _⟩
    · exact hcarries
    · exact absurd hwaits (h.pending.fresh.owner (.inl htask)).2
    · exact absurd (List.mem_map_of_mem (f := Prod.fst) hm) hnot
  · have hnone := unopened fun request e hf => Nat.not_le.mpr hid (h.heard id request e hf)
    have hheard : t.heard = s.heard ++ [.headers id req endStream] := by
      rw [ht]
      exact receive_heard tn.h2 s.toStreams _
    refine ⟨_, t.heard, _, hrecv, List.prefix_refl _, ?_, ?_, rfl, .inr rfl, fun _ => rfl⟩
    · rw [hheard, opening, List.findSome?_append, ← opening, hnone.1]
      simp [opens?]
    · rw [hheard, received_concat, hnone.2]
      simp [receiveHalf]

theorem control_step (h : History tn ls s) (hstep : Step d tn s l t) (id : Nat) (received : Bytes)
    (hphase : t.phase = .registering id received) :
    ∃ req, opening id t.heard = some req ∧ upgradeOf req = CONTROL_STREAM_VAL := by
  obtain ⟨more, hmore⟩ := (heard_of_step hstep).1
  rw [← hmore]
  rcases registering_of_step hstep hphase with ⟨before, hbefore⟩ | ⟨req, tunnelId, hin, _, hupg, _⟩
  · obtain ⟨req, hopen, hupg⟩ := h.control id before hbefore
    exact ⟨req, opening_append hopen more, hupg⟩
  · have hwaits := h.waiting id req (by rw [hin]; exact List.mem_cons_self)
    exact ⟨req, opening_append hwaits.opening more, hupg⟩

theorem proxied_step (h : History tn ls s) (hstep : Step d tn s l t) (p : Nat × HttpTypes.Request Unit)
    (hp : p ∈ t.tasks) : upgradeOf p.2 ≠ CONTROL_STREAM_VAL :=
  (Pending.tasks_of_step hstep hp).elim (h.proxied p) And.right

theorem replied_notFound {rules : List IngressRule} {read : Bytes} (hlook : .look id rules ∈ ls)
    (hnone : selectRule tn.crates.caseTable rules req = none) (h : Carries s id req read) :
    Replied tn ls s.heard id req (replyFrames id notFound) := by
  obtain ⟨r, fs, body, hr, hfs, hopen, hbody, hrest⟩ := h
  let env : Env := ⟨fun _ => .error .io, fun _ => .error .io, fun _ _ => .error .io, .ok (), .ok ()⟩
  refine ⟨fs, body, rules, env, 0, replyToEdge (taking env) notFound, hfs, hopen, hbody, hlook, fun rule hrule => ?_,
    ?_, frames_replyToEdge env notFound id⟩
  · exact absurd (hnone.symm.trans hrule) (by simp)
  · rw [handleProxyStream, show selectRule tn.crates.caseTable rules (withBody req body) = none from hnone]

/-- The origin has been asked what `handle_proxy_stream` would have asked it. -/
theorem replied_exchange {rules : List IngressRule} {rule : IngressRule}
    {originReq : HttpTypes.Request Bytes} {fs : List InFrame} {body : RecvStream}
    (env : Env) (hlook : .look id rules ∈ ls) (hexchange : .exchange id env ∈ ls)
    (hrule : selectRule tn.crates.caseTable rules req = some rule) (hfs : fs <+: s.heard)
    (hopen : opening id fs = some req) (hbody : received id fs = some body) (hend : body.ending = .clean)
    (hreq : originRequest tn.crates req rule.service body.payload = .ok originReq) :
    Replied tn ls s.heard id req (replyFrames id (responseOf (dispatch tn.crates env rule originReq))) := by
  refine ⟨fs, body, rules, env, body.events.length + 1, proxyTo tn.crates (taking env) (withBody req body) rule
    body.payload, hfs, hopen, hbody, hlook, fun _ _ => hexchange, ?_, frames_proxyTo hreq id⟩
  rw [handleProxyStream, show selectRule tn.crates.caseTable rules (withBody req body) = some rule from hrule]
  have hdrain : drainBody (body.events.length + 1) (withBody req body).body = some body.payload := drainBody_clean hend
  simp only [hdrain]

theorem working_other (h : History tn ls s) (hstep : Step d tn s l t) (hm : (id, req) ∈ t.tasks)
    (hold : (id, req) ∈ s.tasks) (hl : l ≠ .drain id) : Working tn (ls ++ [l]) t id req (s.stage id) := by
  have hid := List.mem_map_of_mem (f := Prod.fst) hm
  refine (h.working id req hold).mono (fun k hk => List.mem_append_left _ hk) (heard_of_step hstep).1
    (fun read hread => ?_) fun body hbody => ?_
  · rcases carries_of_step h.pending hstep (.inr (List.mem_map_of_mem hold)) hread with hcarries | ⟨hl', _⟩ | ⟨_, hnot⟩
    · exact hcarries
    · exact absurd hl' hl
    · exact absurd hid hnot
  · obtain ⟨j, fs, hhands⟩ := hands_of_step hstep
    exact (hands_other hhands (Pending.sending_apart (h.pending.fresh.step hstep) hhands hbody hid)).1

theorem working_step (h : History tn ls s) (hstep : Step d tn s l t) (id : Nat) (req : HttpTypes.Request Unit)
    (hm : (id, req) ∈ t.tasks) : Working tn (ls ++ [l]) t id req (t.stage id) := by
  have hid := List.mem_map_of_mem (f := Prod.fst) hm
  by_cases hold : (id, req) ∈ s.tasks
  · have hwas := h.working id req hold
    have hother (hl : l ≠ .drain id) := h.working_other hstep hm hold hl
    have hreq {req' : HttpTypes.Request Unit} (htask : taskOf s id = some req') : req' = req :=
      h.pending.fresh.task_unique hold (task_mem htask)
    have hnew : l ∈ ls ++ [l] := List.mem_append_right _ List.mem_cons_self
    have hkept (hstage : t.stage id = s.stage id) (hl : l ≠ .drain id) : Working tn (ls ++ [l]) t id req (t.stage id) :=
      hstage ▸ hother hl
    cases hstep with
    | look j rules req' htask hstage =>
        by_cases hj : id = j
        · subst hj
          obtain rfl := hreq htask
          have hread : Carries s id req' [] := by
            rw [hstage] at hwas
            exact hwas
          rw [show State.stage _ id = _ from if_pos rfl]
          cases hrule : selectRule tn.crates.caseTable rules req' with
          | none => exact replied_notFound hnew hrule hread
          | some rule => exact ⟨⟨rules, hnew, hrule⟩, hread.keep rfl (.inl rfl)⟩
        · exact hkept (if_neg hj) Label.noConfusion
    | drained j req' rule buf chunk r r' htask hstage hrecv hpoll =>
        by_cases hj : id = j
        · subst hj
          rw [hstage] at hwas
          rw [show State.stage _ id = _ from if_pos rfl]
          obtain ⟨⟨rules, hlook, hrule⟩, hread⟩ := hwas
          exact ⟨⟨rules, List.mem_append_left _ hlook, hrule⟩, hread.polled hrecv hpoll rfl (if_pos rfl)⟩
        · exact hkept (if_neg hj) fun hl => hj (Label.drain.inj hl).symm
    | spun j req' rule buf r e htask hstage hrecv hpoll =>
        exact hwas.mono (fun k hk => List.mem_append_left _ hk) (List.prefix_refl _) (fun _ hread => hread)
          fun _ _ => List.prefix_refl _
    | asked j req' rule buf originReq htask hstage hbody horigin =>
        by_cases hj : id = j
        · subst hj
          obtain rfl := hreq htask
          rw [hstage] at hwas
          rw [show State.stage _ id = _ from if_pos rfl]
          obtain ⟨⟨rules, hlook, hrule⟩, hread⟩ := hwas
          obtain ⟨fs, body, hfs, hopen, hreceived, hend, rfl⟩ := hread.whole hbody
          exact ⟨⟨rules, List.mem_append_left _ hlook, hrule⟩, fs, body, hfs, hopen, hreceived, hend, horigin⟩
        · exact hkept (if_neg hj) fun hl => hj (Label.drain.inj hl).symm
    | unasked j req' rule buf e htask =>
        have hj : id ≠ j := fun hj => not_task_endTask s id false (hj ▸ hid)
        exact hkept (if_neg hj) fun hl => hj (Label.drain.inj hl).symm
    | exchange j env req' rule originReq htask hstage =>
        by_cases hj : id = j
        · subst hj
          obtain rfl := hreq htask
          rw [hstage] at hwas
          rw [show State.stage _ id = _ from if_pos rfl]
          obtain ⟨⟨rules, hlook, hrule⟩, fs, body, hfs, hopen, hbody, hend, horigin⟩ := hwas
          exact replied_exchange env (List.mem_append_left _ hlook) hnew hrule hfs hopen hbody hend horigin
        · exact hkept (if_neg hj) Label.noConfusion
    | headed j req' resp headers htask hstage hheaders hlive hbody =>
        by_cases hj : id = j
        · subst hj
          obtain rfl := hreq htask
          rw [hstage] at hwas
          rw [show State.stage _ id = _ from if_pos rfl]
          refine ⟨resp, headers, Replied.mono hwas (fun k hk => List.mem_append_left _ hk) (List.prefix_refl _),
            hheaders, hbody, rfl, ?_⟩
          have hnone := h.pending.silent id (List.mem_map_of_mem hold) fun b hb =>
            Stage.noConfusion (hstage.symm.trans hb)
          have hsent : framesOf (s.send [.headers id resp.status headers false]) id =
              framesOf s.toStreams id ++ [.headers id resp.status headers false] :=
            framesOf_send_own (by simp [OutFrame.id, OutFrame.isReset])
          rw [hnone, List.nil_append] at hsent
          exact ⟨[], (List.append_nil _).trans hsent⟩
        · exact hkept (if_neg hj) Label.noConfusion
    | unsent j l hl =>
        have hj : id ≠ j := fun hj => not_task_endTask s id false (hj ▸ hid)
        exact hkept (if_neg hj) (by rcases hl with rfl | rfl <;> exact Label.noConfusion)
    | answered j req' resp headers =>
        have hj : id ≠ j := by
          rintro rfl
          exact not_task_endTask _ id true hid
        exact hkept (if_neg hj) Label.noConfusion
    | completed j req' body =>
        have hj : id ≠ j := by
          rintro rfl
          exact not_task_endTask _ id true hid
        exact hkept (if_neg hj) Label.noConfusion
    | gaveUp l hl => exact hkept rfl (by rcases hl with rfl | rfl <;> exact Label.noConfusion)
    | _ => exact hkept rfl Label.noConfusion
  · have hin := ((Pending.tasks_of_step hstep hm).resolve_left hold).1
    have hwaits := List.mem_map_of_mem (f := Prod.fst) hin
    have hnew : id ∉ s.tasks.map Prod.fst := fun htask => (h.pending.fresh.owner (.inl htask)).2 hwaits
    rw [h.pending.idle_step hstep id (.inl hnew)]
    rcases carries_of_step h.pending hstep (.inl hwaits) (h.waiting id req hin) with hcarries | ⟨_, htask⟩ | ⟨_, hnot⟩
    · exact hcarries
    · exact absurd htask hnew
    · exact absurd hid hnot

theorem answer_step (h : History tn ls s) (hstep : Step d tn s l t) (id : Nat) :
    Answer tn (ls ++ [l]) id (framesOf t.toStreams id) := by
  obtain ⟨j, fs, hhands⟩ := hands_of_step hstep
  by_cases hother : fs ≠ [] → id ≠ j
  · exact (h.answers id).mono l (hands_other hhands hother).1
  · simp only [not_forall, not_not] at hother
    obtain ⟨hne, rfl⟩ := hother
    have hsent := (hhands.calm id).framesOf_first
    rw [framesOf_send_own hhands.handed.own] at hsent
    have hopening {req : HttpTypes.Request Unit} (ho : opening id s.heard = some req) :
        opening id (edgeFrames (ls ++ [l])) = some req := by
      obtain ⟨more, hmore⟩ := h.heard_prefix
      rw [edgeFrames_concat, ← hmore, List.append_assoc]
      exact opening_append ho _
    have hreplied {req : HttpTypes.Request Unit} {frames : List OutFrame} (hr : Replied tn ls s.heard id req frames) :
        Replied tn (ls ++ [l]) (edgeFrames (ls ++ [l])) id req frames := by
      refine hr.mono (fun k hk => List.mem_append_left _ hk) (h.heard_prefix.trans ?_)
      rw [edgeFrames_concat]
      exact List.prefix_append _ _
    have hanswering {req : HttpTypes.Request Unit} {resp : Response} (htask : taskOf s id = some req)
        (hstage : s.stage id = .answering resp) : framesOf s.toStreams id = [] ∧
          upgradeOf req ≠ CONTROL_STREAM_VAL ∧ Replied tn ls s.heard id req (replyFrames id resp) := by
      have hmem := task_mem htask
      have hwas := h.working id req hmem
      rw [hstage] at hwas
      exact ⟨h.pending.silent id (List.mem_map_of_mem hmem) fun b hb => Stage.noConfusion (hstage.symm.trans hb),
        h.proxied _ hmem, hwas⟩
    cases hhands.handed with
    | nothing => exact absurd rfl hne
    | called req tunnelId hin hupg huuid hphase =>
        have hmem : (id, req) ∈ s.incoming := by
          rw [hin]
          exact List.mem_cons_self
        rw [h.pending.fresh.unused id (List.mem_map_of_mem hmem), List.nil_append] at hsent
        exact .control req _ _ (hopening (h.waiting id req hmem).opening) hupg
          (.called tunnelId [] huuid fun f hf => absurd hf List.not_mem_nil) hsent
    | further before received more hbefore hphase =>
        obtain ⟨req, ho, hupg⟩ := h.control id before hbefore
        have hframes := h.pending.control id before hbefore (hhands.live hne)
        exact .control req _ _ (hopening ho) hupg (hframes.further more) hsent
    | headed req resp headers htask hstage hheaders hbody =>
        obtain ⟨hnone, hupg, hr⟩ := hanswering htask hstage
        rw [hnone, List.nil_append] at hsent
        refine .proxied req _ _ hupg (hreplied hr) (hsent.trans ?_)
        rw [replyFrames, hheaders]
        simp only [if_neg hbody]
        exact List.prefix_append [_] [_]
    | answered req resp headers htask hstage hheaders hbody =>
        obtain ⟨hnone, hupg, hr⟩ := hanswering htask hstage
        rw [hnone, List.nil_append] at hsent
        refine .proxied req _ _ hupg (hreplied hr) (hsent.trans ?_)
        rw [replyFrames, hheaders]
        simp only [if_pos hbody]
        exact List.prefix_refl _
    | completed req body htask hstage =>
        have hmem := task_mem htask
        have hwas := h.working id req hmem
        rw [hstage] at hwas
        obtain ⟨resp, headers, hr, hheaders, hbody, rfl, hframes⟩ := hwas
        obtain ⟨status, headers', hbegun⟩ := h.pending.begun id _ hstage (hhands.live hne)
        -- the head that has been sent is that of this response
        have hhead := hframes.eq_of_length (by rw [hbegun]; rfl)
        rw [hhead] at hsent
        refine .proxied req _ _ (h.proxied _ hmem) (hreplied hr) (hsent.trans ?_)
        rw [replyFrames, hheaders]
        simp only [if_neg hbody]
        exact List.prefix_refl _

theorem step (h : History tn ls s) (hstep : Step d tn s l t) : History tn (ls ++ [l]) t where
  pending := h.pending.step hstep
  frames := by rw [(heard_of_step hstep).2, h.frames, edgeFrames_concat]
  heard := h.heard_step hstep
  waiting := h.waiting_step hstep
  control := h.control_step hstep
  proxied := h.proxied_step hstep
  working := h.working_step hstep
  answers := h.answer_step hstep

end History

def Once (ls : List Label) (s : State) : Prop :=
  ∀ id, looked id ls ≤ 1 ∧
    (id ∈ s.incoming.map Prod.fst ∨ id ∈ s.tasks.map Prod.fst ∧ s.stage id = .arrived ∨ s.lastId < id →
      looked id ls = 0)

theorem looked_concat (id : Nat) (ls : List Label) (l : Label) :
    looked id (ls ++ [l]) = looked id ls + if looks id l then 1 else 0 := by
  rw [looked, List.countP_append, List.countP_singleton]
  rfl

theorem arrived_of_step (hstep : Step d tn s l t) (hid : id ∈ t.tasks.map Prod.fst) (h : t.stage id = .arrived) :
    s.stage id = .arrived ∧ looks id l = false := by
  have hset {u : State} {j : Nat} {stage : Stage} (hu : u.stage = s.stage) (hstage : stage ≠ .arrived)
      (h : (u.setStage j stage).stage id = .arrived) : s.stage id = .arrived ∧ id ≠ j := by
    by_cases hj : id = j
    · exact absurd ((if_pos hj).symm.trans h) hstage
    · exact ⟨hu ▸ (if_neg hj).symm.trans h, hj⟩
  have hend (u : State) (j : Nat) (finished : Bool) (hu : u.stage = s.stage)
      (hid : id ∈ (u.endTask j finished).tasks.map Prod.fst) (h : (u.endTask j finished).stage id = .arrived) :
      s.stage id = .arrived := by
    have hj : id ≠ j := by
      rintro rfl
      exact not_task_endTask u id finished hid
    exact hu ▸ (if_neg hj).symm.trans h
  cases hstep with
  | look j rules req =>
      have hchosen : chosen (selectRule tn.crates.caseTable rules req) ≠ .arrived := by
        cases selectRule tn.crates.caseTable rules req <;> exact Stage.noConfusion
      obtain ⟨hstage, hj⟩ := hset rfl hchosen h
      exact ⟨hstage, beq_false_of_ne (Ne.symm hj)⟩
  | drained | asked | exchange | headed => exact ⟨(hset rfl Stage.noConfusion h).1, rfl⟩
  | unasked j => exact ⟨hend s j false rfl hid h, rfl⟩
  | unsent j l hl => exact ⟨hend s j false rfl hid h, by rcases hl with rfl | rfl <;> rfl⟩
  | answered j => exact ⟨hend { s with toStreams := s.send _ } j true rfl hid h, rfl⟩
  | completed j => exact ⟨hend { s with toStreams := s.send _ } j true rfl hid h, rfl⟩
  | gaveUp l hl => exact ⟨h, by rcases hl with rfl | rfl <;> rfl⟩
  | _ => exact ⟨h, rfl⟩

theorem looks_arrived (hstep : Step d tn s l t) (h : looks id l = true) :
    id ∈ s.tasks.map Prod.fst ∧ s.stage id = .arrived ∧ t.incoming = s.incoming ∧ t.lastId = s.lastId := by
  cases hstep with
  | look j rules req htask hstage =>
      obtain rfl := beq_iff_eq.mp h
      exact ⟨List.mem_map_of_mem (task_mem htask), hstage, rfl, rfl⟩
  | gaveUp l hl | unsent _ l hl => rcases hl with rfl | rfl <;> exact absurd h Bool.false_ne_true
  | _ => exact absurd h Bool.false_ne_true

theorem Once.step {ls : List Label} (h : Once ls s) (hf : Fresh s) (hstep : Step d tn s l t) : Once (ls ++ [l]) t := by
  obtain ⟨hlast, hincoming, _⟩ := owned_of_step hstep
  intro id
  rw [looked_concat]
  by_cases hl : looks id l = true
  · obtain ⟨htask, hstage, hin, hsame⟩ := looks_arrived hstep hl
    rw [(h id).2 (.inr (.inl ⟨htask, hstage⟩)), if_pos hl]
    refine ⟨Nat.le_refl 1, fun hnew => ?_⟩
    exfalso
    rcases hnew with hnew | ⟨hid, harrived⟩ | hnew
    · exact (hf.owner (.inl htask)).2 (hin ▸ hnew)
    · exact Bool.false_ne_true ((arrived_of_step hstep hid harrived).2.symm.trans hl)
    · exact Nat.not_le.mpr (hsame ▸ hnew) (hf.bounded id (hf.owner (.inl htask)).1)
  · rw [if_neg hl, Nat.add_zero]
    refine ⟨(h id).1, fun hnew => (h id).2 ?_⟩
    have hwas {p : Nat × HttpTypes.Request Unit} (hp : p ∈ t.incoming) :
        p.1 ∈ s.incoming.map Prod.fst ∨ s.lastId < p.1 := (hincoming p hp).imp_left List.mem_map_of_mem
    rcases hnew with hnew | ⟨hid, harrived⟩ | hnew
    · obtain ⟨p, hp, rfl⟩ := List.mem_map.mp hnew
      exact (hwas hp).imp_right .inr
    · obtain ⟨p, hp, rfl⟩ := List.mem_map.mp hid
      rcases Pending.tasks_of_step hstep hp with hp | ⟨hp, _⟩
      · exact .inr (.inl ⟨List.mem_map_of_mem hp, (arrived_of_step hstep hid harrived).1⟩)
      · exact .inl (List.mem_map_of_mem hp)
    · exact .inr (.inr (Nat.lt_of_le_of_lt hlast hnew))

theorem run_answers {ls : List Label} (h : (connectAndServe d tn).exec start ls = some s) :
    History tn ls s ∧ Once ls s := by
  refine exec_record (I := fun s ls => History tn ls s ∧ Once ls s) h
    ⟨.start tn, fun _ => ⟨Nat.zero_le _, fun _ => rfl⟩⟩ ?_
  rintro u ks l v _ ⟨hhistory, honce⟩ hs
  have hstep := step_cases hs
  exact ⟨hhistory.step hstep, honce.step hhistory.pending.fresh hstep⟩

/-- However the streams of a connection are interleaved, no handler looks twice
for its rule, and what is sent on a stream, resets apart, is a first part of the
answer to the very request that opened it, with a body of what the edge has sent
on that stream alone. -/
theorem answers_own_request {ls : List Label} (h : (connectAndServe d tn).exec start ls = some s) (id : Nat) :
    looked id ls ≤ 1 ∧ Answer tn ls id (framesOf s.toStreams id) := by
  obtain ⟨hhistory, honce⟩ := run_answers h
  exact ⟨(honce id).1, hhistory.answers id⟩

theorem answers_own_request_twoUploads :
    ∃ s, (connectAndServe .accept tunnel).exec start twoUploads = some s ∧
      ∀ id, looked id twoUploads ≤ 1 ∧ Answer tunnel twoUploads id (framesOf s.toStreams id) := by
  obtain ⟨s, hs⟩ : ∃ s, (connectAndServe .accept tunnel).exec start twoUploads = some s := ⟨_, rfl⟩
  exact ⟨s, hs, answers_own_request hs⟩

end MiniCloudflared.OwnRequests
