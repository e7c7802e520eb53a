import MiniCloudflared.StandIns
import MiniCloudflared.Library.CopyLoop
import MiniCloudflared.Library.Transition

namespace MiniCloudflared.LocalProxy

open Library CopyLoop HttpTypes ThirdParty Origin

inductive Phase
  | connecting
  | copying
  | returned (result : Except Error Unit)

inductive Way
  | up
  | down
  deriving DecidableEq

def Way.other : Way → Way
  | up => down
  | down => up

structure State where
  phase : Phase
  link : Way → Link UInt8

def State.setLink (s : State) (w : Way) (l : Link UInt8) : State :=
  { s with link := fun v => if v = w then l else s.link v }

inductive Label
  | connect (answer : Bytes → Except Error Unit)
  | move (w : Way) (m : Move)
  | finish (w : Way)
  | fail (w : Way)

def connectUpstream (cr : Crates) (target : Str) (answer : Bytes → Except Error Unit) : Except Error Unit := do
  let parsed ← cr.urlParse target
  answer (address parsed)

/-- The loops run while `proxy_conn` copies. The upstream sends nothing before
it is connected. -/
def mayMove (phase : Phase) (w : Way) (m : Move) : Bool :=
  match phase with
  | .connecting => !m.isLoop && w == .up
  | .copying => true
  | .returned _ => !m.isLoop

def step (cr : Crates) (target : Str) (s : State) : Label → Option State
  | .connect answer =>
      match s.phase with
      | .connecting =>
          match connectUpstream cr target answer with
          | .error e => some { s with phase := .returned (.error e) }
          | .ok () => some { s with phase := .copying }
      | _ => none
  | .move w m =>
      if mayMove s.phase w m then ((s.link w).move m).map (s.setLink w) else none
  | .finish w =>
      match s.phase with
      -- the first loop to end takes the other one with it, whatever that still holds
      | .copying => if (s.link w).finished then some { s with phase := .returned (.ok ()) } else none
      | _ => none
  | .fail _ =>
      match s.phase with
      | .copying => some { s with phase := .returned (.ok ()) }
      | _ => none

def accepted (client upstream : Bytes) : State where
  phase := .connecting
  link := fun w =>
    match w with
    | .up => .start client
    | .down => .start upstream

def proxyConn (cr : Crates) (target : Str) (client upstream : Bytes) : System State Label :=
  ⟨fun s => s = accepted client upstream, step cr target⟩

/-- When `proxy_conn` returns, either side has been sent all that the other one
sends before its end of stream. -/
def Delivered (client upstream : Bytes) (s : State) : Prop :=
  s.phase = .returned (.ok ()) → (s.link .up).written = client ∧ (s.link .down).written = upstream

def NoIoError (l : Label) : Prop := ∀ w, l ≠ .fail w

def LeavesNothing (s : State) (l : Label) : Prop := ∀ w, l = .finish w → (s.link w.other).left = []

variable {cr : Crates} {target : Str} {client upstream : Bytes} {s t : State} {l : Label}

inductive Step (cr : Crates) (target : Str) (s : State) : Label → State → Prop
  | refused {answer : Bytes → Except Error Unit} {e : Error} (hphase : s.phase = .connecting)
      (he : connectUpstream cr target answer = .error e) :
      Step cr target s (.connect answer) { s with phase := .returned (.error e) }
  | connected {answer : Bytes → Except Error Unit} (hphase : s.phase = .connecting)
      (he : connectUpstream cr target answer = .ok ()) :
      Step cr target s (.connect answer) { s with phase := .copying }
  | move {w : Way} {m : Move} {k : Link UInt8} (hmay : mayMove s.phase w m = true)
      (hk : (s.link w).move m = some k) : Step cr target s (.move w m) (s.setLink w k)
  | finish {w : Way} (hphase : s.phase = .copying) (hf : (s.link w).finished = true) :
      Step cr target s (.finish w) { s with phase := .returned (.ok ()) }
  | fail {w : Way} (hphase : s.phase = .copying) :
      Step cr target s (.fail w) { s with phase := .returned (.ok ()) }

theorem step_cases (h : step cr target s l = some t) : Step cr target s l t := by
  cases l with
  | connect answer =>
      simp only [step] at h
      split at h
      next hphase =>
        split at h
        next e he => exact (Option.some.inj h) ▸ .refused hphase he
        next he => exact (Option.some.inj h) ▸ .connected hphase he
      next => exact absurd h (by simp)
  | move w m =>
      simp only [step] at h
      split at h
      next hmay =>
        obtain ⟨k, hk, rfl⟩ := Option.map_eq_some_iff.mp h
        exact .move hmay hk
      next => exact absurd h (by simp)
  | finish w =>
      simp only [step] at h
      split at h
      next hphase =>
        split at h
        next hf => exact (Option.some.inj h) ▸ .finish hphase hf
        next => exact absurd h (by simp)
      next => exact absurd h (by simp)
  | fail w =>
      simp only [step] at h
      split at h
      next hphase => exact (Option.some.inj h) ▸ .fail hphase
      next => exact absurd h (by simp)

def script (client upstream : Bytes) : Way → Bytes
  | .up => client
  | .down => upstream

theorem delivered_def : Delivered client upstream s ↔
    (s.phase = .returned (.ok ()) → ∀ w, (s.link w).written = script client upstream w) := by
  constructor
  · intro h hphase w
    cases w with
    | up => exact (h hphase).1
    | down => exact (h hphase).2
  · exact fun h hphase => ⟨h hphase .up, h hphase .down⟩

def Sound (client upstream : Bytes) (s : State) : Prop := ∀ w, (s.link w).Holds (script client upstream w)

theorem sound_accepted : Sound client upstream (accepted client upstream) := by
  intro w
  cases w <;> exact Link.holds_start _

theorem Sound.step (h : Sound client upstream s) (hs : Step cr target s l t) : Sound client upstream t := by
  cases hs with
  | move hmay hk =>
      intro v
      simp only [State.setLink]
      split
      next hv => exact hv ▸ (h _).move hk
      next => exact h v
  | _ => exact h

theorem sound_of_reaches (h : (proxyConn cr target client upstream).Reaches System.anyStep s t)
    (hs : Sound client upstream s) : Sound client upstream t :=
  h.preserves (fun _ _ _ hu _ hstep => hu.step (step_cases hstep)) hs

theorem returned_step {r : Except Error Unit} (hphase : s.phase = .returned r) (hs : Step cr target s l t) :
    t.phase = s.phase ∧ ∀ w, (t.link w).written = (s.link w).written := by
  cases hs with
  | refused hc => exact absurd (hphase.symm.trans hc) (by simp)
  | connected hc => exact absurd (hphase.symm.trans hc) (by simp)
  | finish hc => exact absurd (hphase.symm.trans hc) (by simp)
  | fail hc => exact absurd (hphase.symm.trans hc) (by simp)
  | move hmay hk =>
      refine ⟨rfl, fun v => ?_⟩
      rw [hphase] at hmay
      simp only [State.setLink]
      split
      next hv => exact hv ▸ Link.written_of_sender (by simpa [mayMove] using hmay) hk
      next => rfl

theorem returned_of_reaches (h : (proxyConn cr target client upstream).Reaches System.anyStep s t)
    {r : Except Error Unit} (hphase : s.phase = .returned r) :
    t.phase = .returned r ∧ ∀ w, (t.link w).written = (s.link w).written := by
  refine h.preserves (I := fun u => u.phase = .returned r ∧ ∀ w, (u.link w).written = (s.link w).written)
    ?_ ⟨hphase, fun _ => rfl⟩
  intro u l v hu _ hstep
  obtain ⟨hp, hw⟩ := returned_step hu.1 (step_cases hstep)
  exact ⟨hp.trans hu.1, fun w => (hw w).trans (hu.2 w)⟩

theorem all_ways {P : Way → Prop} (w : Way) (h : P w) (ho : P w.other) : ∀ v, P v := by
  intro v
  cases w <;> cases v <;> assumption

theorem Delivered.step (hd : Delivered client upstream s) (hsound : Sound client upstream s)
    (hs : Step cr target s l t) (hok : NoIoError l) (hl : LeavesNothing s l) : Delivered client upstream t := by
  rw [delivered_def] at hd ⊢
  have hkept := fun hphase : s.phase = .returned (.ok ()) => (returned_step hphase hs).2
  cases hs with
  | refused => exact fun h => absurd h (by simp)
  | connected => exact fun h => absurd h (by simp)
  | move hmay hk => exact fun hphase v => (hkept hphase v).trans (hd hphase v)
  | @finish w hphase hf =>
      intro _ v
      have hown : (s.link w).written = script client upstream w :=
        (hsound w).written_iff.mpr ((hsound w).left_of_finished hf)
      have hother : (s.link w.other).written = script client upstream w.other :=
        (hsound w.other).written_iff.mpr (hl w rfl)
      exact all_ways (P := fun v => (s.link v).written = script client upstream v) w hown hother v
  | @fail w => exact absurd rfl (hok w)

/-- A loop that ends too early cuts the other direction off for good. -/
theorem not_delivered_of_cut {l : Label} {u v : State} (hsound : Sound client upstream u)
    (hl : ¬ LeavesNothing u l) (hs : Step cr target u l v)
    (hlater : (proxyConn cr target client upstream).Reaches System.anyStep v s) :
    ¬ Delivered client upstream s := by
  simp only [LeavesNothing, not_forall] at hl
  obtain ⟨w, rfl, hleft⟩ := hl
  intro hd
  cases hs with
  | finish hphase hf =>
      obtain ⟨hreturned, hwritten⟩ := returned_of_reaches hlater rfl
      have hother := (delivered_def.mp hd) hreturned w.other
      rw [hwritten w.other] at hother
      exact hleft ((hsound w.other).written_iff.mp hother)

/-- Over a run without an I/O error all is delivered exactly when no loop ends
while the other one has something left. -/
theorem delivered_iff {ls : List Label}
    (h : (proxyConn cr target client upstream).exec (accepted client upstream) ls = some s)
    (hok : ∀ l, l ∈ ls → NoIoError l) :
    Delivered client upstream s ↔
      (proxyConn cr target client upstream).Along LeavesNothing (accepted client upstream) ls := by
  constructor
  · intro hd
    by_contra halong
    obtain ⟨u, l, v, hreach, hl, hstep, hlater⟩ := System.exec_not_along halong h
    exact not_delivered_of_cut (sound_of_reaches hreach sound_accepted) hl (step_cases hstep) hlater hd
  · intro halong
    have hreach := System.Reaches.exec_along .refl (halong.and_forall hok) h
    have hkept := hreach.preserves (I := fun t => Sound client upstream t ∧ Delivered client upstream t)
      (fun t l u ht ha hs => ⟨ht.1.step (step_cases hs), ht.2.step ht.1 (step_cases hs) ha.2 ha.1⟩)
      ⟨sound_accepted, fun hphase => absurd hphase (by simp [accepted])⟩
    exact hkept.2

def request : List Label :=
  [.connect (fun _ => .ok ()), .move .up (.send 3), .move .up .close, .move .up (.read 3), .move .up (.write 3)]

def reply : List Label :=
  [.move .down (.send 2), .move .down .close, .move .down (.read 2), .move .down (.write 2)]

def localhost : Str := "http://localhost:3000".toList

def relayed (ls : List Label) : Option State :=
  (proxyConn StandIns.crates localhost (ascii "get") (ascii "ok")).exec
    (accepted (ascii "get") (ascii "ok")) ls

/-- When the reply has been relayed before either loop ends, nothing is lost. -/
theorem delivered_iff_reply :
    (proxyConn StandIns.crates localhost (ascii "get") (ascii "ok")).Along LeavesNothing
      (accepted (ascii "get") (ascii "ok")) (request ++ reply ++ [.finish .down]) := by
  have hdelivered (s : State) (h : relayed (request ++ reply ++ [.finish .down]) = some s) :
      Delivered (ascii "get") (ascii "ok") s := by
    obtain rfl := Option.some.inj h
    exact fun _ => ⟨rfl, rfl⟩
  obtain ⟨s, hs⟩ : ∃ s, relayed (request ++ reply ++ [.finish .down]) = some s := ⟨_, rfl⟩
  refine (delivered_iff hs ?_).mp (hdelivered s hs)
  simp [request, reply, NoIoError]

theorem halfClosed_not_delivered :
    relayed (request ++ [.finish .up] ++ reply) = none ∧
      ∃ s, relayed (request ++ [.finish .up]) = some s ∧ s.phase = .returned (.ok ()) ∧
        (s.link .up).written = ascii "get" ∧ (s.link .down).written = [] ∧
        ¬ Delivered (ascii "get") (ascii "ok") s := by
  refine ⟨rfl, _, rfl, rfl, rfl, rfl, fun h => ?_⟩
  exact absurd (h rfl).2 (by decide)

end MiniCloudflared.LocalProxy
