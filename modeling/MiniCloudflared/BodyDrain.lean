import MiniCloudflared.Exchange
import MiniCloudflared.StandIns

namespace MiniCloudflared.BodyDrain

open Library HttpTypes Config ThirdParty Origin RequestBody ProxyStream Exchange

/-- The draining of a stream comes to an end, and what is dispatched for a
request with that stream is all of a stream that ended cleanly. -/
structure Drained (s : RecvStream) : Prop where
  ends : ∃ fuel body, drainBody fuel s = some body
  whole : ∀ (cr : Crates) (env : Env) (rules : List IngressRule) (fuel : Nat)
    (req : HttpTypes.Request RecvStream) (io : Io Unit), req.body = s →
    handleProxyStream cr env rules fuel req = some io →
    ∀ p, p ∈ io.events.filterMap dispatchOf → s.ending = .clean ∧ p.2.body = s.payload

theorem dispatched_dispatch (cr : Crates) (env : Env) (rule : IngressRule)
    (o : HttpTypes.Request Bytes) : (dispatch cr env rule o).events.filterMap dispatchOf = [] := by
  cases hb : isBuiltin rule with
  | true =>
      obtain ⟨resp, hr⟩ := dispatch_builtin cr env hb o
      rw [hr]
      rfl
  | false =>
      rw [dispatch_forward hb]
      cases hu : cr.urlParse rule.service with
      | error err =>
          rw [forwardHttp_error hu]
          rfl
      | ok u => exact filterMap_forwardHttp (fun _ => rfl) hu o

theorem dispatched_whole {cr : Crates} {env : Env} {rules : List IngressRule} {fuel : Nat}
    {req : HttpTypes.Request RecvStream} {io : Io Unit}
    (h : handleProxyStream cr env rules fuel req = some io) :
    ∀ p, p ∈ io.events.filterMap dispatchOf →
      req.body.ending = .clean ∧ p.2.body = req.body.payload := by
  intro p hp
  rcases handleProxyStream_some h with ⟨_, rfl⟩ | ⟨rule, _, hc, rfl⟩
  · rw [filterMap_replyToEdge (fun _ _ _ => rfl) (fun _ _ => rfl)] at hp
    exact absurd hp List.not_mem_nil
  · cases ho : originRequest cr req rule.service req.body.payload with
    | error err =>
        rw [proxyTo_error ho] at hp
        exact absurd hp List.not_mem_nil
    | ok o =>
        obtain ⟨resp, _, hproxy⟩ := proxyTo_ok env ho
        obtain ⟨_, _, _, _, rfl⟩ := originRequest_ok ho
        rw [hproxy] at hp
        change p ∈ (rule, _) :: List.filterMap dispatchOf (_ ++ _) at hp
        rw [List.filterMap_append, dispatched_dispatch,
          filterMap_replyToEdge (fun _ _ _ => rfl) (fun _ _ => rfl)] at hp
        obtain rfl := List.mem_singleton.mp hp
        exact ⟨hc, rfl⟩

/-- A request body is drained exactly when its stream ends cleanly. -/
theorem drained_iff (s : RecvStream) : Drained s ↔ s.ending = .clean := by
  constructor
  · rintro ⟨⟨fuel, body, h⟩, _⟩
    exact (drainBody_some h).1
  · intro hc
    refine ⟨⟨s.events.length + 1, s.payload, drainBody_clean hc⟩, ?_⟩
    rintro cr env rules fuel req io rfl h
    exact dispatched_whole h

def resetStream : RecvStream := ⟨[.data (ascii "he")], .failed .h2⟩

theorem resetStream_not_drained :
    (∀ fuel, drainBody fuel resetStream = none) ∧ ¬ Drained resetStream := by
  have hloop (fuel : Nat) (buf : Bytes) : drainLoop fuel buf ⟨[], .failed .h2⟩ = none := by
    induction fuel with
    | zero => rfl
    | succ fuel ih => exact ih
  have hnone (fuel : Nat) : drainBody fuel resetStream = none := by
    cases fuel with
    | zero => rfl
    | succ fuel => exact hloop fuel (ascii "he")
  refine ⟨hnone, fun h => ?_⟩
  obtain ⟨fuel, body, hb⟩ := h.ends
  exact nomatch (hnone fuel).symm.trans hb

end MiniCloudflared.BodyDrain
