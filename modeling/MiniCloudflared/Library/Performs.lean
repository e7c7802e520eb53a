import MiniCloudflared.Library.Runs

namespace MiniCloudflared.Library.System

variable {σ ℓ μ α β : Type}

/-- The program takes just these steps, which are all allowed, and gives `a`,
where `view` is the part of the state that it sees. -/
def Performs (S : System σ ℓ) (allow : σ → ℓ → Prop) (view : σ → μ) (pre : σ → Prop) (ls : List ℓ)
    (m : StateT μ Option α) (a : α) (post : σ → Prop) : Prop :=
  ∀ s, pre s → ∃ t, S.exec s ls = some t ∧ S.Along allow s ls ∧ m (view s) = some (a, view t) ∧ post t

variable {S : System σ ℓ} {allow : σ → ℓ → Prop} {view : σ → μ} {pre : σ → Prop} {ls ks : List ℓ}

theorem performs_pure (a : α) : Performs S allow view pre [] (pure a) a pre :=
  fun s hpre => ⟨s, rfl, trivial, rfl, hpre⟩

theorem Performs.bind {m : StateT μ Option α} {f : α → StateT μ Option β} {a : α} {b : β} {mid post : σ → Prop}
    (h : Performs S allow view pre ls m a mid) (hf : Performs S allow view mid ks (f a) b post) :
    Performs S allow view pre (ls ++ ks) (m >>= f) b post := by
  intro s hpre
  obtain ⟨t, hls, hallow, hm, hmid⟩ := h s hpre
  obtain ⟨u, hks, hlater, hfa, hpost⟩ := hf t hmid
  refine ⟨u, ?_, hallow.append fun v hv => ?_, ?_, hpost⟩
  · rw [exec_append, hls, Option.bind_some, hks]
  · obtain rfl : t = v := Option.some.inj (hls.symm.trans hv)
    exact hlater
  · change (m (view s)).bind (fun r => f r.1 r.2) = _
    rw [hm]
    exact hfa

theorem performs_step {m : StateT μ Option α} {a : α} {post : σ → Prop} (l : ℓ)
    (h : ∀ s, pre s → allow s l ∧ ∃ t, S.step s l = some t ∧ m (view s) = some (a, view t) ∧ post t) :
    Performs S allow view pre [l] m a post := by
  intro s hpre
  obtain ⟨hallow, t, hstep, hm, hpost⟩ := h s hpre
  refine ⟨t, ?_, ⟨hallow, fun _ _ => trivial⟩, hm, hpost⟩
  rw [exec, hstep]
  rfl

end MiniCloudflared.Library.System
