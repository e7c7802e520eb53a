import MiniCloudflared.Deadlock

namespace MiniCloudflared.TunnelSecret

open Library Http1 HttpTypes Config ThirdParty ProxyStream Http2 Connection Deadlock

variable {d : Driver} {tn : Tunnel} {s t : State}

def TakesControl (s : State) (l : Label) : Prop :=
  l = .accept ∧ s.phase = .accepting ∧ ∃ id req rest, s.incoming = (id, req) :: rest ∧
    upgradeOf req = CONTROL_STREAM_VAL ∧ s.resetBy id = none

def CallsRegister (tn : Tunnel) (s : State) (l : Label) (p : RegisterParams) : Prop :=
  StartsRegistration tn s l ∧
    ∃ tunnelId, tn.crates.uuidParse tn.creds.t = .ok tunnelId ∧ p = registerParams tn tunnelId

/-- Every registration passes the secret of the token, and a token without a
usable secret is reported instead. -/
structure RealSecretOnly (d : Driver) (tn : Tunnel) : Prop where
  passed : ∀ s l p, (connectAndServe d tn).Reachable System.anyStep s → CallsRegister tn s l p →
    ∃ bytes, tn.creds.secretBytes tn.crates.base64 = .ok bytes ∧ p.tunnelSecret = bytes ∧
      32 ≤ bytes.length
  refused : ∀ s l t e, (connectAndServe d tn).Reachable System.anyStep s → TakesControl s l →
    step d tn s l = some t → tn.creds.secretBytes tn.crates.base64 = .error e →
    t.phase = .returned (.error e)

structure OwnErrors (cr : Crates) : Prop where
  base64 : ∀ s e, cr.base64.urlSafeNoPad s = .error e → e = .base64
  uuid : ∀ s e, cr.uuidParse s = .error e → e = .uuid

/-- A call of `rpc_register` queues the message that the RPC system makes of
its parameters. -/
theorem call_queued {l : Label} {p : RegisterParams} (h : CallsRegister tn s l p) :
    ∃ t id, step d tn s l = some t ∧ Awaits t id ∧
      t.outbound = s.outbound ++ [.headers id OK grpcHeaders false, .data id (tn.rpc.messages p) false] := by
  obtain ⟨hstart, other, hother, rfl⟩ := h
  obtain ⟨t, id, req, rest, tunnelId, _, huuid, hstep, ha, rfl⟩ := step_of_starts hstart
  obtain rfl : tunnelId = other := Except.ok.inj (huuid.symm.trans hother)
  exact ⟨_, id, hstep, ha, rfl⟩

theorem secretBytes_error {b64 : Base64} {creds : TokenCreds} {e : Error}
    (hown : ∀ s e, b64.urlSafeNoPad s = .error e → e = .base64)
    (h : creds.secretBytes b64 = .error e) : e ≠ .uuid := by
  have hlength (bytes : Bytes)
      (h : (if bytes.length < 32 then .error (.msg "Tunnel secret too short") else .ok bytes :
        Except Error Bytes) = .error e) : e ≠ .uuid := by
    split at h
    next =>
      obtain rfl := Except.error.inj h
      exact Error.noConfusion
    next => exact nomatch h
  rw [secretBytes_eq] at h
  cases hstd : b64.standard creds.s with
  | ok bytes =>
      rw [hstd] at h
      exact hlength bytes h
  | error _ =>
      rw [hstd] at h
      cases hpad : b64.urlSafeNoPad creds.s with
      | ok bytes =>
          simp only [hpad] at h
          exact hlength bytes h
      | error e' =>
          simp only [hpad] at h
          obtain rfl := Except.error.inj h
          rw [hown _ _ hpad]
          exact Error.noConfusion

theorem ordinary_controlRequest : Ordinary controlRequest :=
  ⟨rfl, rfl, HDR_UPGRADE, ⟨ascii "control-stream", rfl⟩, rfl, by decide, by decide⟩

theorem reachable_control (d : Driver) (tn : Tunnel) :
    (connectAndServe d tn).Reachable System.anyStep (opened controlRequest) := by
  have hrun : (connectAndServe d tn).exec start [.edge (.headers 1 controlRequest false), .deliver] =
      some (opened controlRequest) := by
    have hverdict := tn.h2.first start.toStreams 1 controlRequest rfl (fun _ => rfl) (by decide) rfl
      ordinary_controlRequest
    have hreceive : receive tn.h2 start.toStreams (.headers 1 controlRequest false) =
        (opened controlRequest).toStreams := by
      change (judged _ _ (tn.h2.verdict _ _)).note _ = _
      rw [hverdict]
      rfl
    cases d <;> exact congrArg (fun m => some { opened controlRequest with toStreams := m }) hreceive
  exact .of_exec rfl hrun

theorem takesControl_opened : TakesControl (opened controlRequest) .accept :=
  ⟨rfl, rfl, 1, controlRequest, [], rfl, by decide, rfl⟩

theorem realSecretOnly_of_ok {bytes : Bytes}
    (h : tn.creds.secretBytes tn.crates.base64 = .ok bytes) : RealSecretOnly d tn where
  passed s l p _ hcall := by
    obtain ⟨_, tunnelId, _, rfl⟩ := hcall
    refine ⟨bytes, h, ?_, secretBytes_length h⟩
    rw [registerParams]
    simp only [h]
  refused _ _ _ _ _ _ _ he := nomatch h.symm.trans he

/-- The handler does not look at the error of a secret: it goes on with an
empty one, or reports the tunnel id. -/
theorem handleControlStream_phase (tn : Tunnel) {id : Nat} (hreset : s.resetBy id = none) :
    (handleControlStream tn s id).phase =
      match tn.crates.uuidParse tn.creds.t with
      | .error e => .returned (.error e)
      | .ok _ => .registering id [] := by
  simp only [handleControlStream, hreset]
  cases tn.crates.uuidParse tn.creds.t <;> rfl

/-- The secret that is passed is the real one, and a missing one is reported,
exactly for the tokens whose secret can be decoded and is long enough. -/
theorem realSecretOnly_iff (hown : OwnErrors tn.crates) :
    RealSecretOnly d tn ↔ ∃ bytes, tn.creds.secretBytes tn.crates.base64 = .ok bytes := by
  constructor
  · intro h
    cases hsecret : tn.creds.secretBytes tn.crates.base64 with
    | ok bytes => exact ⟨bytes, rfl⟩
    | error e =>
        have hphase := h.refused _ _ _ e (reachable_control d tn) takesControl_opened rfl hsecret
        change (handleControlStream tn { opened controlRequest with incoming := [] } 1).phase = _ at hphase
        rw [handleControlStream_phase tn rfl] at hphase
        cases huuid : tn.crates.uuidParse tn.creds.t with
        | ok tunnelId =>
            rw [huuid] at hphase
            exact nomatch hphase
        | error e' =>
            rw [huuid] at hphase
            obtain rfl : e' = e := Except.error.inj (Phase.returned.inj hphase)
            exact absurd (hown.uuid _ _ huuid) (secretBytes_error hown.base64 hsecret)
  · rintro ⟨bytes, h⟩
    exact realSecretOnly_of_ok h

theorem standIns_ownErrors : OwnErrors StandIns.crates where
  base64 _ _ h := (Except.error.inj h).symm
  uuid s e h := by
    change StandIns.uuidParse s = .error e at h
    rw [StandIns.uuidParse] at h
    split at h
    next => exact nomatch h
    next => exact (Except.error.inj h).symm

theorem realSecretOnly_iff_tunnel : RealSecretOnly .accept tunnel :=
  (realSecretOnly_iff standIns_ownErrors).mpr ⟨List.replicate 32 0, rfl⟩

def badJson : Bytes :=
  ascii ("\x7b\"a\":\"account\",\"s\":\"!\"," ++
    "\"t\":\"f174e90a-fafe-4643-bbbc-4a0ed4fc8415\"\x7d")

def badToken : Str :=
  ("eyJhIjoiYWNjb3VudCIsInMiOiIhIiwidCI6ImYxNzRlOTBh" ++
    "LWZhZmUtNDY0My1iYmJjLTRhMGVkNGZjODQxNSJ9").toList

def badCreds : TokenCreds := ⟨"account".toList, "!".toList, StandIns.uuidText⟩

def badBase64 : Base64 where
  standard s := if s = badToken then .ok badJson else .error .base64
  urlSafe _ := .error .base64
  urlSafeNoPad _ := .error .base64

def fromSlice (bytes : Bytes) : Except Error TokenCreds :=
  if bytes = badJson then .ok badCreds else .error .serde

def badTunnel : Tunnel :=
  { tunnel with creds := badCreds, crates := { StandIns.crates with base64 := badBase64 } }

/-- A token whose secret cannot be decoded is accepted, and the tunnel
registers with an empty secret. -/
theorem emptySecret_registered :
    TokenCreds.fromToken badBase64 fromSlice badToken = .ok badCreds ∧
    badCreds.secretBytes badBase64 = .error .base64 ∧
    (∃ p, CallsRegister badTunnel (opened controlRequest) .accept p ∧ p.tunnelSecret = []) ∧
    ¬ RealSecretOnly .accept badTunnel := by
  have hsecret : badCreds.secretBytes badBase64 = .error .base64 := by decide +kernel
  refine ⟨rfl, hsecret, ⟨_, ⟨?_, _, rfl, rfl⟩, ?_⟩, ?_⟩
  · exact ⟨rfl, rfl, 1, controlRequest, [], _, rfl, by decide, rfl, rfl⟩
  · simp only [registerParams]
    rw [show badTunnel.creds.secretBytes badTunnel.crates.base64 = _ from hsecret]
  · intro h
    have hphase := h.refused _ _ _ _ (reachable_control .accept badTunnel) takesControl_opened rfl hsecret
    exact nomatch hphase

end MiniCloudflared.TunnelSecret
