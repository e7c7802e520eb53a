import MiniCloudflared.Http2
import MiniCloudflared.ProxyStream
import MiniCloudflared.Library.Transition

namespace MiniCloudflared.Connection

open Library Http1 HttpTypes Config ThirdParty Origin RequestBody ProxyStream Http2

def CONTROL_STREAM_VAL : Str := "control-stream".toList

/-- Who moves frames between the socket and the streams: the poll of `accept`,
as in the `h2` crate, or a task of its own. -/
inductive Driver
  | accept
  | independent

structure RegisterParams where
  accountTag : Str
  tunnelSecret : Bytes
  tunnelId : Bytes
  connIndex : Nat
  numPreviousAttempts : Nat
  clientId : Bytes
  features : List Str
  version : Str
  arch : Str

/-- The RPC crates with the generated code: the bytes of the bootstrap and the
call, and what the client makes of the bytes that it has read so far: what it
writes once it has read them, and the answer to the call when they contain it. -/
structure Rpc where
  messages : RegisterParams → Bytes
  further : Bytes → Bytes
  answer : Bytes → Option (Except Error Str)

structure Tunnel where
  creds : TokenCreds
  connectorId : Bytes
  osArch : Str
  crates : Crates
  rpc : Rpc
  h2 : H2

/-- Where `connect_and_serve` stands: in `accept`, in the handler of a control
stream before or after its registration, or at its end. -/
inductive Phase
  | accepting
  | registering (id : Nat) (received : Bytes)
  | registered (id : Nat) (location : Str)
  | returned (result : Except Error Unit)

/-- How far the handler of a stream has got: not yet to its rule, draining the
body, with a request for the origin, with a response for the edge, and with the
head of that response sent. -/
inductive Stage
  | arrived
  | draining (rule : IngressRule) (buf : Bytes)
  | asking (rule : IngressRule) (originReq : HttpTypes.Request Bytes)
  | answering (resp : Response)
  | sending (body : Bytes)

structure State extends Streams where
  phase : Phase
  inbound : List InFrame
  tasks : List (Nat × HttpTypes.Request Unit)
  stage : Nat → Stage

def start : State where
  phase := .accepting
  inbound := []
  heard := []
  closing := none
  incoming := []
  lastId := 0
  recv _ := none
  tasks := []
  stage _ := .arrived
  outbound := []
  wire := []

/-- The edge sends a frame; frames are taken off the socket and put on the
wire; the accept loop takes up a stream or ends; the RPC system of a control
stream reads, and its answer is taken; a spawned handler looks up its rule, polls
the body of its request, asks the origin, and sends a head and a body. -/
inductive Label
  | edge (f : InFrame)
  | deliver
  | flush
  | accept
  | finish
  | read
  | resolve
  | look (id : Nat) (rules : List IngressRule)
  | drain (id : Nat)
  | exchange (id : Nat) (env : Env)
  | head (id : Nat)
  | body (id : Nat)

def Driver.moves : Driver → Phase → Bool
  | .accept, .accepting => true
  | .accept, _ => false
  | .independent, .returned _ => false
  | .independent, _ => true

def State.leave (s : State) (result : Except Error Unit) : State :=
  { s with
    toStreams := s.failAll
    phase := .returned result }

def upgradeOf {β : Type} (req : HttpTypes.Request β) : Str :=
  toStr (((req.headers.get HDR_UPGRADE).bind HeaderValue.toStr).getD [])

def grpcHeaders : HeaderMap :=
  .ofList [(CONTENT_TYPE, ⟨ascii "application/grpc+proto", rfl⟩)]

def registerParams (tn : Tunnel) (tunnelId : Bytes) : RegisterParams where
  accountTag := tn.creds.a
  tunnelSecret :=
    match tn.creds.secretBytes tn.crates.base64 with
    | .ok bytes => bytes
    | .error _ => []
  tunnelId := tunnelId
  connIndex := 0
  numPreviousAttempts := 0
  clientId := tn.connectorId
  features := ["ha-origin".toList, "serialized-headers".toList]
  version := "2024.11.1".toList
  arch := tn.osArch

def callFrame (tn : Tunnel) (id : Nat) (tunnelId : Bytes) : OutFrame :=
  .data id (tn.rpc.messages (registerParams tn tunnelId)) false

/-- The handler of a control stream up to where it waits for the first time:
both the response and the call are queued by then. -/
def handleControlStream (tn : Tunnel) (s : State) (id : Nat) : State :=
  match s.resetBy id with
  | some e => s.leave (.error e)
  | none =>
      match tn.crates.uuidParse tn.creds.t with
      | .error e => State.leave { s with toStreams := s.send [.headers id OK grpcHeaders false] } (.error e)
      | .ok tunnelId =>
          { s with
            toStreams := s.send [.headers id OK grpcHeaders false, callFrame tn id tunnelId]
            phase := .registering id [] }

/-- A registration that fails is only warned of, and the accept loop goes on. -/
def State.giveUp (s : State) (id : Nat) : State :=
  { s with
    toStreams := s.release id false
    phase := .accepting }

/-- What the RPC system writes when it has read so much, if the stream takes it. -/
def furtherFrames (tn : Tunnel) (m : Streams) (id : Nat) (received : Bytes) : List OutFrame :=
  match m.resetBy id, tn.rpc.further received with
  | none, b :: bs => [.data id (b :: bs) false]
  | _, _ => []

/-- One read by the RPC system. An empty chunk is the end of its input, as
`H2Reader` hands on nothing for it. -/
def rpcRegister (tn : Tunnel) (s : State) (id : Nat) (received : Bytes) : Option State :=
  match s.recv id with
  | none => none
  | some r =>
      match r.pollData with
      | (.pending, _) => none
      | (.ready (some (.ok (b :: bs))), r) =>
          some { s with
            toStreams := (s.setRecv id r).send (furtherFrames tn s.toStreams id (received ++ b :: bs))
            phase := .registering id (received ++ b :: bs) }
      | (.ready (some (.ok [])), r) => some (State.giveUp { s with toStreams := s.setRecv id r } id)
      | (.ready _, _) => some (s.giveUp id)

/-- The answer to the call. Either way the RPC system and the halves of its stream
are dropped. -/
def resolveCall (tn : Tunnel) (s : State) (id : Nat) (received : Bytes) : Option State :=
  match tn.rpc.answer received with
  | none => none
  | some (.ok location) =>
      some { s with
        toStreams := s.release id false
        phase := .registered id location }
  | some (.error _) => some (s.giveUp id)

def replyFrame (id : Nat) : Event → Option OutFrame
  | .sendResponse status headers endOfStream => some (.headers id status headers endOfStream)
  | .sendData data endOfStream => some (.data id data endOfStream)
  | _ => none

def withBody (req : HttpTypes.Request Unit) (body : RecvStream) : HttpTypes.Request RecvStream :=
  ⟨req.method, req.uri, req.headers, body⟩

def closeResult : Closing → Except Error Unit
  | .ended => .ok ()
  | .goAway => .ok ()
  | .failed e => .error e

def taskOf (s : State) (id : Nat) : Option (HttpTypes.Request Unit) :=
  (s.tasks.find? (fun p => p.1 == id)).map Prod.snd

def State.setStage (s : State) (id : Nat) (stage : Stage) : State :=
  { s with stage := fun j => if j = id then stage else s.stage j }

def State.endTask (s : State) (id : Nat) (finished : Bool) : State :=
  { s with
    toStreams := s.release id finished
    tasks := s.tasks.filter fun p => p.1 != id
    stage := fun j => if j = id then .arrived else s.stage j }

def chosen : Option IngressRule → Stage
  | none => .answering notFound
  | some rule => .draining rule []

def responseOf (x : Io Response) : Response :=
  match x.result with
  | .ok resp => resp
  | .error _ => badGateway

/-- One poll of `drain_body`, and the request for the origin when the body is
there. An error is passed over and the stream polled again. -/
def drain (tn : Tunnel) (s : State) (id : Nat) (req : HttpTypes.Request Unit) (rule : IngressRule) (buf : Bytes)
    (body : RecvStream) : Option State :=
  match body.pollData with
  | (.pending, _) => none
  | (.ready (some (.ok chunk)), body) =>
      some (State.setStage { s with toStreams := s.setRecv id body } id (.draining rule (buf ++ chunk)))
  | (.ready (some (.error _)), _) => some s
  | (.ready none, _) =>
      match originRequest tn.crates req rule.service buf with
      | .error _ => some (s.endTask id false)
      | .ok originReq => some (s.setStage id (.asking rule originReq))

def sendHead (s : State) (id : Nat) (resp : Response) : State :=
  match edgeHeaders resp.headers, s.resetBy id with
  | .ok headers, none =>
      if resp.body = [] then
        State.endTask { s with toStreams := s.send [.headers id resp.status headers true] } id true
      else
        State.setStage { s with toStreams := s.send [.headers id resp.status headers false] } id (.sending resp.body)
  | _, _ => s.endTask id false

def sendBody (s : State) (id : Nat) (body : Bytes) : State :=
  match s.resetBy id with
  | none => State.endTask { s with toStreams := s.send [.data id body true] } id true
  | some _ => s.endTask id false

def step (d : Driver) (tn : Tunnel) (s : State) : Label → Option State
  | .edge f => some { s with inbound := s.inbound ++ [f] }
  | .deliver =>
      match d.moves s.phase, s.closing, s.inbound with
      | true, none, f :: fs =>
          some { s with
            toStreams := receive tn.h2 s.toStreams f
            inbound := fs }
      | _, _, _ => none
  | .flush =>
      match d.moves s.phase, s.outbound with
      | true, f :: fs =>
          some { s with
            outbound := fs
            wire := s.wire ++ [f] }
      | _, _ => none
  | .accept =>
      match s.phase, s.incoming with
      | .accepting, (id, req) :: rest =>
          if upgradeOf req = CONTROL_STREAM_VAL then
            some (handleControlStream tn { s with incoming := rest } id)
          else
            some { s with
              incoming := rest
              tasks := s.tasks ++ [(id, req)] }
      | _, _ => none
  | .finish =>
      match s.phase, s.closing with
      | .accepting, some c => some (s.leave (closeResult c))
      | _, _ => none
  | .read =>
      match s.phase with
      | .registering id received => rpcRegister tn s id received
      | _ => none
  | .resolve =>
      match s.phase with
      | .registering id received => resolveCall tn s id received
      | _ => none
  | .look id rules =>
      match taskOf s id, s.stage id with
      | some req, .arrived => some (s.setStage id (chosen (selectRule tn.crates.caseTable rules req)))
      | _, _ => none
  | .drain id =>
      match taskOf s id, s.stage id with
      | some req, .draining rule buf => drain tn s id req rule buf (s.bodyOf id)
      | _, _ => none
  | .exchange id env =>
      match taskOf s id, s.stage id with
      | some _, .asking rule originReq =>
          some (s.setStage id (.answering (responseOf (dispatch tn.crates env rule originReq))))
      | _, _ => none
  | .head id =>
      match taskOf s id, s.stage id with
      | some _, .answering resp => some (sendHead s id resp)
      | _, _ => none
  | .body id =>
      match taskOf s id, s.stage id with
      | some _, .sending body => some (sendBody s id body)
      | _, _ => none

def connectAndServe (d : Driver) (tn : Tunnel) : System State Label :=
  ⟨fun s => s = start, step d tn⟩

inductive Step (d : Driver) (tn : Tunnel) (s : State) : Label → State → Prop
  | edge (f : InFrame) : Step d tn s (.edge f) { s with inbound := s.inbound ++ [f] }
  | deliver (f : InFrame) (fs : List InFrame) (hmoves : d.moves s.phase = true)
      (hopen : s.closing = none) (hin : s.inbound = f :: fs) :
      Step d tn s .deliver { s with toStreams := receive tn.h2 s.toStreams f, inbound := fs }
  | flush (f : OutFrame) (fs : List OutFrame) (hmoves : d.moves s.phase = true)
      (hout : s.outbound = f :: fs) :
      Step d tn s .flush { s with outbound := fs, wire := s.wire ++ [f] }
  | called (id : Nat) (req : HttpTypes.Request Unit) (rest : List (Nat × HttpTypes.Request Unit))
      (tunnelId : Bytes) (hphase : s.phase = .accepting) (hin : s.incoming = (id, req) :: rest)
      (hupg : upgradeOf req = CONTROL_STREAM_VAL) (hlive : s.resetBy id = none)
      (huuid : tn.crates.uuidParse tn.creds.t = .ok tunnelId) :
      Step d tn s .accept { s with
        incoming := rest
        outbound := s.outbound ++ [.headers id OK grpcHeaders false, callFrame tn id tunnelId]
        phase := .registering id [] }
  | refused (id : Nat) (req : HttpTypes.Request Unit) (rest : List (Nat × HttpTypes.Request Unit)) (e : Error)
      (hphase : s.phase = .accepting) (hin : s.incoming = (id, req) :: rest)
      (hupg : upgradeOf req = CONTROL_STREAM_VAL)
      (hwhy : s.resetBy id = some e ∨ s.resetBy id = none ∧ tn.crates.uuidParse tn.creds.t = .error e) :
      Step d tn s .accept (State.leave { s with incoming := rest } (.error e))
  | spawn (id : Nat) (req : HttpTypes.Request Unit) (rest : List (Nat × HttpTypes.Request Unit))
      (hphase : s.phase = .accepting) (hin : s.incoming = (id, req) :: rest)
      (hupg : upgradeOf req ≠ CONTROL_STREAM_VAL) :
      Step d tn s .accept { s with incoming := rest, tasks := s.tasks ++ [(id, req)] }
  | finish (c : Closing) (hphase : s.phase = .accepting) (hclosing : s.closing = some c) :
      Step d tn s .finish (s.leave (closeResult c))
  | read (id : Nat) (received : Bytes) (r r' : RecvStream) (b : UInt8) (bs : Bytes)
      (hphase : s.phase = .registering id received) (hrecv : s.recv id = some r)
      (hpoll : r.pollData = (.ready (some (.ok (b :: bs))), r')) :
      Step d tn s .read { s with
        toStreams := (s.setRecv id r').send (furtherFrames tn s.toStreams id (received ++ b :: bs))
        phase := .registering id (received ++ b :: bs) }
  | ended (id : Nat) (received : Bytes) (r r' : RecvStream) (hphase : s.phase = .registering id received)
      (hrecv : s.recv id = some r) (hpoll : r.pollData = (.ready (some (.ok [])), r')) :
      Step d tn s .read (State.giveUp { s with toStreams := s.setRecv id r' } id)
  | gaveUp (l : Label) (hl : l = .read ∨ l = .resolve) (id : Nat) (received : Bytes)
      (hphase : s.phase = .registering id received) : Step d tn s l (s.giveUp id)
  | registered (id : Nat) (received : Bytes) (location : Str) (hphase : s.phase = .registering id received)
      (hanswer : tn.rpc.answer received = some (.ok location)) :
      Step d tn s .resolve { s with toStreams := s.release id false, phase := .registered id location }
  | look (id : Nat) (rules : List IngressRule) (req : HttpTypes.Request Unit) (htask : taskOf s id = some req)
      (hstage : s.stage id = .arrived) :
      Step d tn s (.look id rules) (s.setStage id (chosen (selectRule tn.crates.caseTable rules req)))
  | drained (id : Nat) (req : HttpTypes.Request Unit) (rule : IngressRule) (buf chunk : Bytes) (r r' : RecvStream)
      (htask : taskOf s id = some req) (hstage : s.stage id = .draining rule buf) (hrecv : s.recv id = some r)
      (hpoll : r.pollData = (.ready (some (.ok chunk)), r')) :
      Step d tn s (.drain id)
        (State.setStage { s with toStreams := s.setRecv id r' } id (.draining rule (buf ++ chunk)))
  | spun (id : Nat) (req : HttpTypes.Request Unit) (rule : IngressRule) (buf : Bytes) (r : RecvStream) (e : Error)
      (htask : taskOf s id = some req) (hstage : s.stage id = .draining rule buf) (hrecv : s.recv id = some r)
      (hpoll : r.pollData = (.ready (some (.error e)), r)) : Step d tn s (.drain id) s
  | asked (id : Nat) (req : HttpTypes.Request Unit) (rule : IngressRule) (buf : Bytes)
      (originReq : HttpTypes.Request Bytes) (htask : taskOf s id = some req)
      (hstage : s.stage id = .draining rule buf) (hbody : s.bodyOf id = ⟨[], .clean⟩)
      (hreq : originRequest tn.crates req rule.service buf = .ok originReq) :
      Step d tn s (.drain id) (s.setStage id (.asking rule originReq))
  | unasked (id : Nat) (req : HttpTypes.Request Unit) (rule : IngressRule) (buf : Bytes) (e : Error)
      (htask : taskOf s id = some req) (hstage : s.stage id = .draining rule buf)
      (hbody : s.bodyOf id = ⟨[], .clean⟩) (hreq : originRequest tn.crates req rule.service buf = .error e) :
      Step d tn s (.drain id) (s.endTask id false)
  | exchange (id : Nat) (env : Env) (req : HttpTypes.Request Unit) (rule : IngressRule)
      (originReq : HttpTypes.Request Bytes) (htask : taskOf s id = some req)
      (hstage : s.stage id = .asking rule originReq) :
      Step d tn s (.exchange id env)
        (s.setStage id (.answering (responseOf (dispatch tn.crates env rule originReq))))
  | unsent (id : Nat) (l : Label) (hl : l = .head id ∨ l = .body id) (req : HttpTypes.Request Unit)
      (htask : taskOf s id = some req)
      (hstage : (∃ resp, s.stage id = .answering resp) ∨ ∃ body, s.stage id = .sending body) :
      Step d tn s l (s.endTask id false)
  | headed (id : Nat) (req : HttpTypes.Request Unit) (resp : Response) (headers : HeaderMap)
      (htask : taskOf s id = some req) (hstage : s.stage id = .answering resp)
      (hheaders : edgeHeaders resp.headers = .ok headers) (hlive : s.resetBy id = none) (hbody : resp.body ≠ []) :
      Step d tn s (.head id) (State.setStage
        { s with toStreams := s.send [.headers id resp.status headers false] } id (.sending resp.body))
  | answered (id : Nat) (req : HttpTypes.Request Unit) (resp : Response) (headers : HeaderMap)
      (htask : taskOf s id = some req) (hstage : s.stage id = .answering resp)
      (hheaders : edgeHeaders resp.headers = .ok headers) (hlive : s.resetBy id = none) (hbody : resp.body = []) :
      Step d tn s (.head id) (State.endTask
        { s with toStreams := s.send [.headers id resp.status headers true] } id true)
  | completed (id : Nat) (req : HttpTypes.Request Unit) (body : Bytes) (htask : taskOf s id = some req)
      (hstage : s.stage id = .sending body) (hlive : s.resetBy id = none) :
      Step d tn s (.body id) (State.endTask { s with toStreams := s.send [.data id body true] } id true)

variable {d : Driver} {tn : Tunnel} {s t : State}

@[simp] theorem leave_phase (s : State) (result : Except Error Unit) : (s.leave result).phase = .returned result :=
  rfl

theorem bodyOf_poll {id : Nat} {x : Option (Except Error Bytes)} {r : RecvStream}
    (h : (s.bodyOf id).pollData = (.ready x, r)) :
    x = none ∧ s.bodyOf id = ⟨[], .clean⟩ ∨ ∃ r', s.recv id = some r' ∧ r'.pollData = (.ready x, r) := by
  rw [Streams.bodyOf] at h ⊢
  cases hr : s.recv id with
  | none =>
      rw [hr] at h
      exact .inl ⟨(Poll.ready.inj (congrArg Prod.fst h)).symm, rfl⟩
  | some r' =>
      rw [hr] at h
      exact .inr ⟨r', rfl, h⟩

theorem step_control {id : Nat} {req : HttpTypes.Request Unit} {rest : List (Nat × HttpTypes.Request Unit)}
    (hphase : s.phase = .accepting) (hin : s.incoming = (id, req) :: rest)
    (hupg : upgradeOf req = CONTROL_STREAM_VAL) :
    Step d tn s .accept (handleControlStream tn { s with incoming := rest } id) := by
  rw [handleControlStream]
  split
  next e hreset => exact .refused id req rest e hphase hin hupg (.inl hreset)
  next hlive =>
    split
    next e huuid => exact .refused id req rest e hphase hin hupg (.inr ⟨hlive, huuid⟩)
    next tunnelId huuid => exact .called id req rest tunnelId hphase hin hupg hlive huuid

theorem step_read {id : Nat} {received : Bytes} (hphase : s.phase = .registering id received)
    (h : rpcRegister tn s id received = some t) : Step d tn s .read t := by
  rw [rpcRegister] at h
  split at h
  next => exact absurd h (by simp)
  next r hrecv =>
    split at h
    next => exact absurd h (by simp)
    next b bs r' hpoll =>
      obtain rfl := Option.some.inj h
      exact .read id received r r' b bs hphase hrecv hpoll
    next r' hpoll =>
      obtain rfl := Option.some.inj h
      exact .ended id received r r' hphase hrecv hpoll
    next =>
      obtain rfl := Option.some.inj h
      exact .gaveUp .read (.inl rfl) id received hphase

theorem step_resolve {id : Nat} {received : Bytes} (hphase : s.phase = .registering id received)
    (h : resolveCall tn s id received = some t) : Step d tn s .resolve t := by
  rw [resolveCall] at h
  split at h
  next => exact absurd h (by simp)
  next location hanswer =>
    obtain rfl := Option.some.inj h
    exact .registered id received location hphase hanswer
  next =>
    obtain rfl := Option.some.inj h
    exact .gaveUp .resolve (.inr rfl) id received hphase

theorem step_drain {id : Nat} {req : HttpTypes.Request Unit} {rule : IngressRule} {buf : Bytes}
    (htask : taskOf s id = some req) (hstage : s.stage id = .draining rule buf)
    (h : drain tn s id req rule buf (s.bodyOf id) = some t) : Step d tn s (.drain id) t := by
  rw [drain] at h
  split at h
  next => exact absurd h (by simp)
  next chunk r' hpoll =>
    obtain rfl := Option.some.inj h
    rcases bodyOf_poll hpoll with ⟨hnone, _⟩ | ⟨r, hrecv, hpoll⟩
    · exact absurd hnone (by simp)
    · exact .drained id req rule buf chunk r r' htask hstage hrecv hpoll
  next e r' hpoll =>
    obtain rfl := Option.some.inj h
    rcases bodyOf_poll hpoll with ⟨hnone, _⟩ | ⟨r, hrecv, hpoll⟩
    · exact absurd hnone (by simp)
    · obtain rfl := pollData_error hpoll
      exact .spun id req rule buf r' e htask hstage hrecv hpoll
  next r' hpoll =>
    have hbody : s.bodyOf id = ⟨[], .clean⟩ := by
      rcases bodyOf_poll hpoll with ⟨_, hbody⟩ | ⟨r, hrecv, hpoll⟩
      · exact hbody
      · rw [Streams.bodyOf, hrecv]
        exact pollData_none hpoll
    split at h
    next e hreq =>
      obtain rfl := Option.some.inj h
      exact .unasked id req rule buf e htask hstage hbody hreq
    next originReq hreq =>
      obtain rfl := Option.some.inj h
      exact .asked id req rule buf originReq htask hstage hbody hreq

theorem step_head {id : Nat} {req : HttpTypes.Request Unit} {resp : Response} (htask : taskOf s id = some req)
    (hstage : s.stage id = .answering resp) : Step d tn s (.head id) (sendHead s id resp) := by
  rw [sendHead]
  split
  next headers hheaders hlive =>
    split
    next hbody => exact .answered id req resp headers htask hstage hheaders hlive hbody
    next hbody => exact .headed id req resp headers htask hstage hheaders hlive hbody
  next => exact .unsent id (.head id) (.inl rfl) req htask (.inl ⟨resp, hstage⟩)

theorem step_body {id : Nat} {req : HttpTypes.Request Unit} {body : Bytes} (htask : taskOf s id = some req)
    (hstage : s.stage id = .sending body) : Step d tn s (.body id) (sendBody s id body) := by
  rw [sendBody]
  split
  next hlive => exact .completed id req body htask hstage hlive
  next => exact .unsent id (.body id) (.inr rfl) req htask (.inr ⟨body, hstage⟩)

theorem look_some {id : Nat} {rules : List IngressRule} (h : step d tn s (.look id rules) = some t) :
    ∃ req, taskOf s id = some req ∧ s.stage id = .arrived ∧
      t = s.setStage id (chosen (selectRule tn.crates.caseTable rules req)) := by
  simp only [step] at h
  split at h
  next req htask hstage => exact ⟨req, htask, hstage, (Option.some.inj h).symm⟩
  next => exact absurd h (by simp)

theorem step_cases {l : Label} (h : step d tn s l = some t) : Step d tn s l t := by
  cases l with
  | edge f =>
      obtain rfl := Option.some.inj h
      exact .edge f
  | deliver =>
      simp only [step] at h
      split at h
      next f fs hmoves hopen hin =>
        obtain rfl := Option.some.inj h
        exact .deliver f fs hmoves hopen hin
      next => exact absurd h (by simp)
  | flush =>
      simp only [step] at h
      split at h
      next f fs hmoves hout =>
        obtain rfl := Option.some.inj h
        exact .flush f fs hmoves hout
      next => exact absurd h (by simp)
  | accept =>
      simp only [step] at h
      split at h
      next id req rest hphase hin =>
        split at h
        next hupg =>
          obtain rfl := Option.some.inj h
          exact step_control hphase hin hupg
        next hupg =>
          obtain rfl := Option.some.inj h
          exact .spawn id req rest hphase hin hupg
      next => exact absurd h (by simp)
  | finish =>
      simp only [step] at h
      split at h
      next c hphase hclosing =>
        obtain rfl := Option.some.inj h
        exact .finish c hphase hclosing
      next => exact absurd h (by simp)
  | read =>
      simp only [step] at h
      split at h
      next id received hphase => exact step_read hphase h
      next => exact absurd h (by simp)
  | resolve =>
      simp only [step] at h
      split at h
      next id received hphase => exact step_resolve hphase h
      next => exact absurd h (by simp)
  | look id rules =>
      obtain ⟨req, htask, hstage, rfl⟩ := look_some h
      exact .look id rules req htask hstage
  | drain id =>
      simp only [step] at h
      split at h
      next req rule buf htask hstage => exact step_drain htask hstage h
      next => exact absurd h (by simp)
  | exchange id env =>
      simp only [step] at h
      split at h
      next req rule originReq htask hstage =>
        obtain rfl := Option.some.inj h
        exact .exchange id env req rule originReq htask hstage
      next => exact absurd h (by simp)
  | head id =>
      simp only [step] at h
      split at h
      next req resp htask hstage =>
        obtain rfl := Option.some.inj h
        exact step_head htask hstage
      next => exact absurd h (by simp)
  | body id =>
      simp only [step] at h
      split at h
      next req body htask hstage =>
        obtain rfl := Option.some.inj h
        exact step_body htask hstage
      next => exact absurd h (by simp)

end MiniCloudflared.Connection
