import MiniCloudflared.ForwardedHead

namespace MiniCloudflared.Exchange

open Library Http1 HttpTypes Config ThirdParty Origin RequestBody ProxyStream ForwardedHead

variable {cr : Crates} {env : Env} {β : Type}

def writeOf : Event → Option Bytes
  | .write data => some data
  | _ => none

def connectOf : Event → Option (Transport × Bytes)
  | .connect transport addr => some (transport, addr)
  | _ => none

def dispatchOf : Event → Option (IngressRule × Request Bytes)
  | .dispatch rule req => some (rule, req)
  | _ => none

def responseOf : Event → Option StatusCode
  | .sendResponse status _ _ => some status
  | _ => none

def dataOf : Event → Option Bytes
  | .sendData data _ => some data
  | _ => none

def written (es : List Event) : Bytes := (es.filterMap writeOf).flatten

def toEdge : Event → Bool
  | .sendResponse .. => true
  | .sendData .. => true
  | _ => false

@[simp] theorem call_ok_bind {α γ : Type} (e : Event) (a : α) (f : α → Io γ) :
    call e (.ok a) >>= f = ⟨e :: (f a).events, (f a).result⟩ := Traced.bind_ok rfl

@[simp] theorem call_error_bind {α γ : Type} (e : Event) (err : Error) (f : α → Io γ) :
    (call e (.error err) : Io α) >>= f = ⟨[e], .error err⟩ := Traced.bind_error rfl

theorem handOver_toEdge {e : Event} (he : toEdge e = true) (r : Except Error Unit) :
    ∀ e', e' ∈ (handOver e r).events → toEdge e' = true := by
  intro e' h
  cases r with
  | ok u =>
      obtain rfl : e' = e := by simpa [handOver] using h
      exact he
  | error err => exact absurd h (by simp [handOver])

theorem replyToEdge_toEdge (env : Env) (resp : Response) :
    ∀ e, e ∈ (replyToEdge env resp).events → toEdge e = true := by
  intro e he
  rw [replyToEdge] at he
  rw [Traced.mem_bind_events] at he
  rcases he with he | ⟨headers, _, he⟩
  · exact absurd he (by simp)
  · rw [Traced.mem_bind_events] at he
    rcases he with he | ⟨_, _, he⟩
    · exact handOver_toEdge rfl _ e he
    · split at he
      next => exact handOver_toEdge rfl _ e he
      next => exact absurd he (by simp)

theorem filterMap_replyToEdge {γ : Type} {f : Event → Option γ}
    (hresp : ∀ status headers eos, f (.sendResponse status headers eos) = none)
    (hdata : ∀ data eos, f (.sendData data eos) = none) (env : Env) (resp : Response) :
    (replyToEdge env resp).events.filterMap f = [] := by
  apply List.filterMap_eq_nil_iff.mpr
  intro e he
  have hedge := replyToEdge_toEdge env resp e he
  cases e with
  | sendResponse status headers eos => exact hresp status headers eos
  | sendData data eos => exact hdata data eos
  | _ => exact nomatch hedge

theorem forwardHttp_error {url : Str} {err : Error} (h : cr.urlParse url = .error err)
    (req : Request Bytes) : forwardHttp cr env url req = ⟨[], .error err⟩ := by
  rw [forwardHttp, h]
  exact Traced.lift_error_bind _ _

def writes (env : Env) (raw body : Bytes) : List Event :=
  .write raw ::
    match env.writeAll raw with
    | .error _ => []
    | .ok () => if body = [] then [] else [.write body]

theorem forwardHttp_events {url : Str} {u : Url} (h : cr.urlParse url = .ok u)
    (req : Request Bytes) :
    (forwardHttp cr env url req).events = .connect .tcp (address u) ::
      match env.connect (address u) with
      | .error _ => []
      | .ok () => writes env (requestHead (address u) req) req.body := by
  rw [forwardHttp, h, Traced.lift_ok_bind]
  cases hc : env.connect (address u) with
  | error err => simp [hc]
  | ok _ =>
      cases hw : env.writeAll (requestHead (address u) req) with
      | error err => simp [writes, hc, hw]
      | ok _ =>
          by_cases hb : req.body = []
          · cases hr : env.readToEnd (address u) (requestHead (address u) req) <;>
              simp [writes, hc, hw, hb, hr]
          · cases hwb : env.writeAll req.body with
            | error err => simp [writes, hc, hw, hb]
            | ok _ =>
                cases hr : env.readToEnd (address u) (requestHead (address u) req ++ req.body) <;>
                  simp [writes, hc, hw, hb, hr]

theorem filterMap_writes {γ : Type} {f : Event → Option γ} (hwrite : ∀ data, f (.write data) = none)
    (env : Env) (raw body : Bytes) : (writes env raw body).filterMap f = [] := by
  cases hw : env.writeAll raw with
  | error err => simp [writes, hw, hwrite]
  | ok _ => by_cases hb : body = [] <;> simp [writes, hw, hb, hwrite]

/-- Apart from its writes, a forwarded request is seen as one connection. -/
theorem filterMap_forwardHttp {γ : Type} {f : Event → Option γ}
    (hwrite : ∀ data, f (.write data) = none) {url : Str} {u : Url} (h : cr.urlParse url = .ok u)
    (req : Request Bytes) :
    (forwardHttp cr env url req).events.filterMap f =
      [Event.connect .tcp (address u)].filterMap f := by
  rw [forwardHttp_events h]
  cases hc : env.connect (address u) with
  | error err => rfl
  | ok _ =>
      change List.filterMap f ([.connect .tcp (address u)] ++ writes env _ _) = _
      rw [List.filterMap_append, filterMap_writes hwrite, List.append_nil]

def isBuiltin (rule : IngressRule) : Bool :=
  rule.statusCode.isSome || rule.service == "hello_world".toList

theorem dispatch_builtin (cr : Crates) (env : Env) {rule : IngressRule} (h : isBuiltin rule = true)
    (req : Request Bytes) :
    ∃ resp, dispatch cr env rule req = pure resp := by
  rw [dispatch]
  cases hs : rule.statusCode with
  | some code => exact ⟨_, rfl⟩
  | none =>
      have hh : rule.service = "hello_world".toList := by simpa [isBuiltin, hs] using h
      exact ⟨helloWorldResponse, if_pos hh⟩

theorem dispatch_forward {rule : IngressRule} (h : isBuiltin rule = false) (req : Request Bytes) :
    dispatch cr env rule req = forwardHttp cr env rule.service req := by
  obtain ⟨hs, hh⟩ := Bool.or_eq_false_iff.mp h
  have hn : rule.statusCode = none := by simpa using hs
  rw [dispatch]
  rw [hn]
  exact if_neg (ne_of_beq_false hh)

theorem originRequest_ok {req : Request β} {service : Str} {body : Bytes} {o : Request Bytes}
    (h : originRequest cr req service body = .ok o) :
    ∃ base uri, cr.urlParse service = .ok base ∧
      cr.uriParse (origin base.scheme (hostOrLocal base) (portOrHttp base) ++ targetOf req.uri) =
        .ok uri ∧
      o = ⟨req.method, uri, copyHeaders req.headers, body⟩ := by
  rw [originRequest, rewriteUri] at h
  cases hb : cr.urlParse service with
  | error err =>
      rw [hb] at h
      exact nomatch h
  | ok base =>
      rw [hb] at h
      change (do
        let uri ← cr.uriParse (origin base.scheme (hostOrLocal base) (portOrHttp base) ++ targetOf req.uri)
        return _) = _ at h
      cases hu : cr.uriParse
          (origin base.scheme (hostOrLocal base) (portOrHttp base) ++ targetOf req.uri) with
      | error err =>
          rw [hu] at h
          exact nomatch h
      | ok uri =>
          rw [hu] at h
          exact ⟨base, uri, rfl, hu, (Except.ok.inj h).symm⟩

theorem proxyTo_error {req : Request β} {rule : IngressRule} {body : Bytes} {err : Error}
    (h : originRequest cr req rule.service body = .error err) :
    proxyTo cr env req rule body = ⟨[], .error err⟩ := by
  rw [proxyTo, h]
  exact Traced.lift_error_bind _ _

theorem proxyTo_ok (env : Env) {req : Request β} {rule : IngressRule} {body : Bytes} {o : Request Bytes}
    (h : originRequest cr req rule.service body = .ok o) :
    ∃ resp, ((dispatch cr env rule o).orElse badGateway).result = .ok resp ∧
      proxyTo cr env req rule body =
        ⟨.dispatch rule o :: ((dispatch cr env rule o).events ++ (replyToEdge env resp).events),
          (replyToEdge env resp).result⟩ := by
  obtain ⟨resp, hr⟩ := Traced.orElse_result (dispatch cr env rule o) badGateway
  refine ⟨resp, hr, ?_⟩
  rw [proxyTo, h, Traced.lift_ok_bind, Traced.emit_bind, Traced.bind_ok hr, Traced.orElse_events]

theorem handleProxyStream_some {rules : List IngressRule} {fuel : Nat} {req : Request RecvStream}
    {io : Io Unit} (h : handleProxyStream cr env rules fuel req = some io) :
    selectRule cr.caseTable rules req = none ∧ io = replyToEdge env notFound ∨
      ∃ rule, selectRule cr.caseTable rules req = some rule ∧ req.body.ending = .clean ∧
        io = proxyTo cr env req rule req.body.payload := by
  rw [handleProxyStream] at h
  split at h
  next hs => exact Or.inl ⟨hs, (Option.some.inj h).symm⟩
  next rule hs =>
    split at h
    next => exact absurd h (by simp)
    next body hb =>
      obtain ⟨hc, rfl⟩ := drainBody_some hb
      exact Or.inr ⟨rule, hs, hc, (Option.some.inj h).symm⟩

@[simp] theorem written_nil : written [] = [] := rfl

@[simp] theorem written_connect (transport : Transport) (addr : Bytes) (es : List Event) :
    written (.connect transport addr :: es) = written es := rfl

@[simp] theorem written_write (data : Bytes) (es : List Event) :
    written (.write data :: es) = data ++ written es := rfl

@[simp] theorem written_dispatch (rule : IngressRule) (req : Request Bytes) (es : List Event) :
    written (.dispatch rule req :: es) = written es := rfl

@[simp] theorem written_append (es fs : List Event) : written (es ++ fs) = written es ++ written fs := by
  simp [written]

def Accepts (env : Env) (es : List Event) : Prop :=
  ∀ data, Event.write data ∈ es → env.writeAll data = .ok ()

theorem written_replyToEdge (env : Env) (resp : Response) :
    written (replyToEdge env resp).events = [] := by
  rw [written, filterMap_replyToEdge (fun _ _ _ => rfl) (fun _ _ => rfl)]
  rfl

theorem written_forwardHttp {url : Str} {u : Url} (h : cr.urlParse url = .ok u) (req : Request Bytes)
    (hne : written (forwardHttp cr env url req).events ≠ []) :
    ∃ rest, written (forwardHttp cr env url req).events = requestHead (address u) req ++ rest ∧
      (Accepts env (forwardHttp cr env url req).events → rest = req.body) := by
  rw [forwardHttp_events h] at hne ⊢
  cases hc : env.connect (address u) with
  | error err => simp [hc] at hne
  | ok _ =>
      cases hw : env.writeAll (requestHead (address u) req) with
      | error err =>
          refine ⟨[], by simp [writes, hw], fun hall => ?_⟩
          have hok := hall (requestHead (address u) req) (by simp [writes])
          exact nomatch hok.symm.trans hw
      | ok _ =>
          refine ⟨req.body, ?_, fun _ => rfl⟩
          by_cases hb : req.body = [] <;> simp [writes, hw, hb]

/-- Whatever is written to an origin in the course of a request begins with
the head that belongs to the selected rule and to the rewritten request. -/
theorem written_handleProxyStream {rules : List IngressRule} {fuel : Nat} {req : Request RecvStream}
    {io : Io Unit} (h : handleProxyStream cr env rules fuel req = some io)
    (hne : written io.events ≠ []) :
    ∃ (rule : IngressRule) (base : Url) (uri : Uri) (rest : Bytes), cr.urlParse rule.service = .ok base ∧
      cr.uriParse (origin base.scheme (hostOrLocal base) (portOrHttp base) ++ targetOf req.uri) =
        .ok uri ∧
      written io.events = requestHead (address base)
        ⟨req.method, uri, copyHeaders req.headers, req.body.payload⟩ ++ rest ∧
      (Accepts env io.events → rest = req.body.payload) := by
  rcases handleProxyStream_some h with ⟨_, rfl⟩ | ⟨rule, _, _, rfl⟩
  · exact absurd (written_replyToEdge env notFound) hne
  · cases ho : originRequest cr req rule.service req.body.payload with
    | error err =>
        rw [proxyTo_error ho] at hne
        exact absurd rfl hne
    | ok o =>
        obtain ⟨resp, _, hp⟩ := proxyTo_ok env ho
        obtain ⟨base, uri, hb, hu, rfl⟩ := originRequest_ok ho
        have hwr : written (proxyTo cr env req rule req.body.payload).events =
            written (dispatch cr env rule
              ⟨req.method, uri, copyHeaders req.headers, req.body.payload⟩).events := by
          rw [hp, written_dispatch, written_append, written_replyToEdge, List.append_nil]
        have hacc : Accepts env (proxyTo cr env req rule req.body.payload).events →
            Accepts env (dispatch cr env rule
              ⟨req.method, uri, copyHeaders req.headers, req.body.payload⟩).events := by
          intro hall data hd
          refine hall data ?_
          rw [hp]
          exact List.mem_cons_of_mem _ (List.mem_append_left _ hd)
        rw [hwr] at hne ⊢
        cases hbuiltin : isBuiltin rule with
        | true =>
            obtain ⟨r, hr⟩ := dispatch_builtin cr env hbuiltin
              ⟨req.method, uri, copyHeaders req.headers, req.body.payload⟩
            rw [hr] at hne
            exact absurd rfl hne
        | false =>
            rw [dispatch_forward hbuiltin] at hne hacc ⊢
            obtain ⟨rest, hw, hrest⟩ := written_forwardHttp hb _ hne
            exact ⟨rule, base, uri, rest, hb, hu, hw, fun hall => hrest (hacc hall)⟩

end MiniCloudflared.Exchange
