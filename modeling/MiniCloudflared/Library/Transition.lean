import Mathlib.Logic.Basic

namespace MiniCloudflared.Library

variable {σ ℓ : Type}

/-- A transition system whose choices all stand in the labels, so that a run
can be replayed from the list of its labels. -/
structure System (σ ℓ : Type) where
  init : σ → Prop
  step : σ → ℓ → Option σ

namespace System

variable (S : System σ ℓ) {allow : σ → ℓ → Prop}

inductive Reaches (allow : σ → ℓ → Prop) (s : σ) : σ → Prop
  | refl : Reaches allow s s
  | tail {t u : σ} {l : ℓ} : Reaches allow s t → allow t l → S.step t l = some u → Reaches allow s u

def Reachable (allow : σ → ℓ → Prop) (s : σ) : Prop := ∃ s₀, S.init s₀ ∧ S.Reaches allow s₀ s

def anyStep : σ → ℓ → Prop := fun _ _ => True

def Blocked (own : ℓ → Prop) (s : σ) : Prop := ∀ l, own l → S.step s l = none

def exec : σ → List ℓ → Option σ
  | s, [] => some s
  | s, l :: ls => (S.step s l).bind (fun t => exec t ls)

def Along (allow : σ → ℓ → Prop) : σ → List ℓ → Prop
  | _, [] => True
  | s, l :: ls => allow s l ∧ ∀ t, S.step s l = some t → Along allow t ls

variable {S}

theorem Reaches.trans {s t u : σ} (hst : S.Reaches allow s t) (htu : S.Reaches allow t u) :
    S.Reaches allow s u := by
  induction htu with
  | refl => exact hst
  | tail _ ha hs ih => exact .tail ih ha hs

theorem Reaches.preserves {I : σ → Prop}
    (hstep : ∀ s l t, I s → allow s l → S.step s l = some t → I t) {s t : σ}
    (hst : S.Reaches allow s t) (hs : I s) : I t := by
  induction hst with
  | refl => exact hs
  | tail _ ha hu ih => exact hstep _ _ _ ih ha hu

/-- What holds at the start and is kept by every allowed step holds in every
state that a run of allowed steps reaches. -/
theorem Reachable.invariant {I : σ → Prop} (hinit : ∀ s, S.init s → I s)
    (hstep : ∀ s l t, I s → allow s l → S.step s l = some t → I t) {s : σ}
    (hs : S.Reachable allow s) : I s := by
  obtain ⟨s₀, h₀, hr⟩ := hs
  exact hr.preserves hstep (hinit s₀ h₀)

theorem Reachable.step {s t : σ} {l : ℓ} (hs : S.Reachable allow s) (ha : allow s l)
    (h : S.step s l = some t) : S.Reachable allow t := by
  obtain ⟨s₀, h₀, hr⟩ := hs
  exact ⟨s₀, h₀, .tail hr ha h⟩

theorem Reaches.exec {s t u : σ} {ls : List ℓ} (hst : S.Reaches anyStep s t)
    (h : S.exec t ls = some u) : S.Reaches anyStep s u := by
  induction ls generalizing t with
  | nil =>
      obtain rfl := Option.some.inj h
      exact hst
  | cons l ls ih =>
      obtain ⟨v, hv, h⟩ := Option.bind_eq_some_iff.mp h
      exact ih (.tail hst trivial hv) h

theorem Reaches.exec_along {s t u : σ} {ls : List ℓ} (hst : S.Reaches allow s t)
    (halong : S.Along allow t ls) (h : S.exec t ls = some u) : S.Reaches allow s u := by
  induction ls generalizing t with
  | nil =>
      obtain rfl := Option.some.inj h
      exact hst
  | cons l ls ih =>
      obtain ⟨v, hv, h⟩ := Option.bind_eq_some_iff.mp h
      exact ih (.tail hst halong.1 hv) (halong.2 v hv) h

/-- A run with a step that is not allowed has a first part of any steps, then
the step, and then the rest. -/
theorem exec_not_along {s u : σ} {ls : List ℓ} (halong : ¬ S.Along allow s ls)
    (h : S.exec s ls = some u) :
    ∃ t l v, S.Reaches anyStep s t ∧ ¬ allow t l ∧ S.step t l = some v ∧ S.Reaches anyStep v u := by
  induction ls generalizing s with
  | nil => exact absurd trivial halong
  | cons l ls ih =>
      obtain ⟨v, hv, h⟩ := Option.bind_eq_some_iff.mp h
      by_cases ha : allow s l
      · have hrest : ¬ S.Along allow v ls := by
          intro hal
          refine halong ⟨ha, fun t ht => ?_⟩
          obtain rfl : v = t := Option.some.inj (hv.symm.trans ht)
          exact hal
        obtain ⟨t, k, w, hreach, hk, hw, hlater⟩ := ih hrest h
        exact ⟨t, k, w, (Reaches.tail .refl trivial hv).trans hreach, hk, hw, hlater⟩
      · exact ⟨s, l, v, .refl, ha, hv, Reaches.exec .refl h⟩

theorem Along.and_forall {p : ℓ → Prop} {s : σ} {ls : List ℓ} (halong : S.Along allow s ls)
    (hp : ∀ l, l ∈ ls → p l) : S.Along (fun t l => allow t l ∧ p l) s ls := by
  induction ls generalizing s with
  | nil => exact trivial
  | cons l ls ih =>
      rw [List.forall_mem_cons] at hp
      exact ⟨⟨halong.1, hp.1⟩, fun t ht => ih (halong.2 t ht) hp.2⟩

theorem Reachable.of_exec {s₀ s : σ} (h₀ : S.init s₀) {ls : List ℓ} (h : S.exec s₀ ls = some s) :
    S.Reachable anyStep s := ⟨s₀, h₀, Reaches.exec .refl h⟩

end System

end MiniCloudflared.Library
