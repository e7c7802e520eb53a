import MiniCloudflared.Exchange
import MiniCloudflared.StandIns

namespace MiniCloudflared.Destinations

open Library HttpTypes Config ThirdParty Ingress Origin RequestBody ProxyStream Exchange

variable {cr : Crates} {env : Env} {rules : List IngressRule} {fuel : Nat} {rule : IngressRule}
  {req : HttpTypes.Request RecvStream} {io : Io Unit}

def builtinResponse (cr : Crates) (rule : IngressRule) : Response :=
  match rule.statusCode with
  | some code =>
      let status := (StatusCode.fromU16 code).getD NOT_FOUND
      ⟨status, .empty, statusText cr status⟩
  | none => helloWorldResponse

structure Answered (resp : Response) (io : Io Unit) : Prop where
  offline : io.events.filterMap connectOf = []
  once : io.events.filterMap responseOf = [resp.status]
  body : (io.events.filterMap dataOf).flatten = resp.body

theorem urlScheme_http_status (n : Str) : urlScheme ("http_status:".toList ++ n) = none := by
  have htrim (s : Str) : ('h' :: s).dropWhile isUrlTrimmed = 'h' :: s := rfl
  have hscheme (s : Str) :
      ('h' :: 't' :: 't' :: 'p' :: '_' :: s).takeWhile isSchemeChar = ['h', 't', 't', 'p'] := rfl
  have htext : "http_status:".toList ++ n = 'h' :: 't' :: 't' :: 'p' :: '_' :: ("status:".toList ++ n) :=
    rfl
  have hskip : ('h' :: 't' :: 't' :: 'p' :: '_' :: ("status:".toList ++ n)).filter
      (fun c => !isUrlSkipped c) =
      'h' :: 't' :: 't' :: 'p' :: '_' :: ("status:".toList ++ n).filter (fun c => !isUrlSkipped c) := rfl
  rw [urlScheme, htext, htrim, hskip, hscheme]
  exact if_neg (fun h => absurd h.2 (by simp))

theorem urlScheme_builtin (h : isBuiltin rule = true) : urlScheme rule.service = none := by
  rw [isBuiltin, Bool.or_eq_true] at h
  rcases h with h | h
  · rw [IngressRule.statusCode] at h
    split at h
    next hp =>
      obtain ⟨n, hn⟩ := List.isPrefixOf_iff_prefix.mp hp
      rw [← hn]
      exact urlScheme_http_status n
    next => exact absurd h (by simp)
  · rw [beq_iff_eq.mp h]
    decide

theorem handleProxyStream_builtin (hscheme : RequiresScheme cr.urlParse)
    (hsel : selectRule cr.caseTable rules req = some rule) (hb : isBuiltin rule = true)
    (h : handleProxyStream cr env rules fuel req = some io) : io = ⟨[], .error .url⟩ := by
  have hurl := hscheme rule.service (urlScheme_builtin hb)
  rcases handleProxyStream_some h with ⟨hn, _⟩ | ⟨r, hr, _, rfl⟩
  · exact nomatch hsel.symm.trans hn
  · obtain rfl := Option.some.inj (hsel.symm.trans hr)
    apply proxyTo_error
    rw [originRequest, rewriteUri, hurl]
    rfl

theorem builtin_not_answered (hscheme : RequiresScheme cr.urlParse)
    (hsel : selectRule cr.caseTable rules req = some rule) (hb : isBuiltin rule = true) :
    ¬ ∃ fuel io, handleProxyStream cr env rules fuel req = some io ∧
      Answered (builtinResponse cr rule) io := by
  rintro ⟨fuel, io, h, hans⟩
  obtain rfl := handleProxyStream_builtin hscheme hsel hb h
  exact nomatch hans.once

def emptyPost : HttpTypes.Request RecvStream := StandIns.post .empty ⟨[], .clean⟩

theorem builtin_not_answered_fallback :
    ¬ ∃ fuel io, handleProxyStream StandIns.crates (StandIns.env []) [fallbackRule] fuel emptyPost =
        some io ∧ Answered (builtinResponse StandIns.crates fallbackRule) io :=
  builtin_not_answered StandIns.urlParse_requiresScheme (by decide +kernel) (by decide)

theorem fallback_unanswered :
    validateRules [fallbackRule] = .ok () ∧
    resolve asciiCase [fallbackRule] (hostOf emptyPost) (pathOf emptyPost) = some fallbackRule ∧
    fallbackRule.statusCode = some 404 ∧
    ∀ fuel io, handleProxyStream StandIns.crates (StandIns.env []) [fallbackRule] fuel emptyPost =
      some io → ¬ Answered (builtinResponse StandIns.crates fallbackRule) io := by
  refine ⟨rfl, by decide +kernel, by decide, ?_⟩
  intro fuel io h hans
  rcases handleProxyStream_some h with ⟨hn, _⟩ | ⟨r, hr, _, rfl⟩
  · exact absurd hn (by decide +kernel)
  · have hsel : selectRule StandIns.crates.caseTable [fallbackRule] emptyPost = some fallbackRule := by
      decide +kernel
    obtain rfl := Option.some.inj (hsel.symm.trans hr)
    exact nomatch hans.once

def connections (io : Io Unit) : List (Transport × Bytes) := io.events.filterMap connectOf

def transportOf (scheme : Bytes) : Transport :=
  if scheme = ascii "https" ∨ scheme = ascii "wss" then .tls else .tcp

def Failed (io : Io Unit) : Prop := io.events = [] ∧ ∃ err, io.result = .error err

/-- The request fails before any call is made, or it goes to the host and the
port that the service names, over the transport that it names. -/
def GoesWhereNamed (cr : Crates) (service : Str) (io : Io Unit) : Prop :=
  Failed io ∨ ∃ u host port, cr.urlParse service = .ok u ∧ u.host = some host ∧
    u.portOrKnownDefault = some port ∧
    connections io = [(transportOf u.scheme, host ++ ascii ":" ++ decimal port)]

/-- One plain connection is opened: to the host of the URL or else to
127.0.0.1, and to its port, the default port of its scheme or else port 80. -/
def ConnectsPlainly (cr : Crates) (service : Str) (io : Io Unit) : Prop :=
  ∃ u, cr.urlParse service = .ok u ∧
    connections io = [(.tcp, (u.host.getD (ascii "127.0.0.1")) ++ ascii ":" ++
      decimal ((u.port.or (Url.knownDefault u.scheme)).getD 80))]

theorem handled_connects (hsel : selectRule cr.caseTable rules req = some rule)
    (hb : isBuiltin rule = false) (h : handleProxyStream cr env rules fuel req = some io) :
    Failed io ∨ ConnectsPlainly cr rule.service io := by
  rcases handleProxyStream_some h with ⟨hn, _⟩ | ⟨r, hr, _, rfl⟩
  · exact nomatch hsel.symm.trans hn
  · obtain rfl := Option.some.inj (hsel.symm.trans hr)
    cases ho : originRequest cr req rule.service req.body.payload with
    | error err =>
        rw [proxyTo_error ho]
        exact Or.inl ⟨rfl, err, rfl⟩
    | ok o =>
        obtain ⟨resp, _, hp⟩ := proxyTo_ok env ho
        obtain ⟨u, uri, hu, _, _⟩ := originRequest_ok ho
        refine Or.inr ⟨u, hu, ?_⟩
        rw [hp, dispatch_forward hb, connections]
        change List.filterMap connectOf (_ ++ _) = _
        rw [List.filterMap_append, filterMap_forwardHttp (fun _ => rfl) hu,
          filterMap_replyToEdge (fun _ _ _ => rfl) (fun _ _ => rfl)]
        rfl

/-- A request for any other service whose body does not come to its end is
drained for ever and makes no call. Any other one fails at once or opens one
plain connection. -/
theorem connects_once (env : Env) (hsel : selectRule cr.caseTable rules req = some rule)
    (hb : isBuiltin rule = false) :
    (req.body.ending ≠ .clean ∧ ∀ fuel, handleProxyStream cr env rules fuel req = none) ∨
    (req.body.ending = .clean ∧ (∃ fuel io, handleProxyStream cr env rules fuel req = some io) ∧
      ∀ fuel io, handleProxyStream cr env rules fuel req = some io →
        Failed io ∨ ConnectsPlainly cr rule.service io) := by
  by_cases hc : req.body.ending = .clean
  · have hanswered : handleProxyStream cr env rules (req.body.events.length + 1) req =
        some (proxyTo cr env req rule req.body.payload) := by
      simp only [handleProxyStream, hsel, drainBody_clean hc]
    exact Or.inr ⟨hc, ⟨_, _, hanswered⟩, fun _ _ h => handled_connects hsel hb h⟩
  · refine Or.inl ⟨hc, fun fuel => ?_⟩
    have hdrain : drainBody fuel req.body = none := by
      by_contra hne
      obtain ⟨body, hbody⟩ := Option.ne_none_iff_exists'.mp hne
      exact hc (drainBody_some hbody).1
    simp only [handleProxyStream, hsel, hdrain]

theorem connects_once_local :
    ∃ fuel io, handleProxyStream StandIns.crates (StandIns.env []) [StandIns.localRule] fuel emptyPost = some io ∧
      (Failed io ∨ ConnectsPlainly StandIns.crates StandIns.localRule.service io) := by
  have hsel : selectRule StandIns.crates.caseTable [StandIns.localRule] emptyPost = some StandIns.localRule := by
    decide +kernel
  rcases connects_once (StandIns.env []) hsel (by decide) with ⟨hc, _⟩ | ⟨_, ⟨fuel, io, h⟩, hall⟩
  · exact absurd rfl hc
  · exact ⟨fuel, io, h, hall fuel io h⟩

def configPath : Path := ⟨"config.yaml".toList, some "yaml".toList⟩

def configText : Str := "ingress:\n  - service: localhost:8080\n".toList

def bareRule : IngressRule := ⟨[], [], "localhost:8080".toList⟩

def tlsRule : IngressRule := ⟨[], [], "https://localhost:8443".toList⟩

/-- A service without a scheme is accepted, and its requests go to port 80 of
the local host; requests for an `https` service go out in the clear. -/
theorem not_goesWhereNamed :
    loadFromFile StandIns.crates (fun _ => .ok configText) configPath = .ok [bareRule] ∧
    (∃ io, handleProxyStream StandIns.crates (StandIns.env []) [bareRule] 1 emptyPost = some io ∧
      connections io = [(.tcp, ascii "127.0.0.1:80")] ∧
      ¬ GoesWhereNamed StandIns.crates bareRule.service io) ∧
    (∃ io, handleProxyStream StandIns.crates (StandIns.env []) [tlsRule] 1 emptyPost = some io ∧
      connections io = [(.tcp, ascii "localhost:8443")] ∧
      ¬ GoesWhereNamed StandIns.crates tlsRule.service io) := by
  refine ⟨rfl, ⟨_, rfl, by decide +kernel, ?_⟩, _, rfl, by decide +kernel, ?_⟩
  · have hurl : StandIns.crates.urlParse bareRule.service =
        .ok ⟨ascii "localhost", none, none, rfl, rfl⟩ := rfl
    rintro (⟨hf, _⟩ | ⟨u, host, _, hu, hhost, _⟩)
    · exact nomatch hf
    · obtain rfl := Except.ok.inj (hurl.symm.trans hu)
      exact nomatch hhost
  · have hurl : StandIns.crates.urlParse tlsRule.service =
        .ok ⟨ascii "https", some (ascii "localhost"), some 8443, rfl, rfl⟩ := rfl
    rintro (⟨hf, _⟩ | ⟨u, host, _, hu, _, _, hc⟩)
    · exact nomatch hf
    · obtain rfl := Except.ok.inj (hurl.symm.trans hu)
      have htransport : Transport.tcp = transportOf (ascii "https") :=
        congrArg Prod.fst (List.cons.inj hc).1
      exact absurd htransport (by decide)

end MiniCloudflared.Destinations
