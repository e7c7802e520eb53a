import MiniCloudflared.Library.Transition

namespace MiniCloudflared.Library.System

variable {σ ℓ : Type} {S : System σ ℓ}

theorem exec_append (s : σ) (ls ks : List ℓ) : S.exec s (ls ++ ks) = (S.exec s ls).bind (S.exec · ks) := by
  induction ls generalizing s with
  | nil => rfl
  | cons l ls ih =>
      rw [List.cons_append, exec, exec, Option.bind_assoc]
      exact congrArg (Option.bind (S.step s l)) (funext ih)

theorem exec_concat {s t u : σ} {ls : List ℓ} {l : ℓ} (h : S.exec s ls = some t) (hl : S.step t l = some u) :
    S.exec s (ls ++ [l]) = some u := by
  rw [exec_append, h, Option.bind_some, exec, hl]
  rfl

theorem exec_take {s t : σ} {ls ks : List ℓ} (h : S.exec s (ls ++ ks) = some t) :
    ∃ u, S.exec s ls = some u ∧ S.exec u ks = some t :=
  Option.bind_eq_some_iff.mp (exec_append s ls ks ▸ h)

theorem Along.append {allow : σ → ℓ → Prop} {s : σ} {ls ks : List ℓ} (h : S.Along allow s ls)
    (hks : ∀ t, S.exec s ls = some t → S.Along allow t ks) : S.Along allow s (ls ++ ks) := by
  induction ls generalizing s with
  | nil => exact hks s rfl
  | cons l ls ih =>
      refine ⟨h.1, fun t ht => ih (h.2 t ht) fun u hu => hks u ?_⟩
      rw [exec, ht, Option.bind_some, hu]

theorem filterMap_concat {κ : Type} (f : ℓ → Option κ) (ls : List ℓ) (l : ℓ) :
    (ls ++ [l]).filterMap f = ls.filterMap f ++ (f l).toList := by
  rw [List.filterMap_append]
  cases h : f l with
  | none => rw [List.filterMap_cons_none h]; rfl
  | some k => rw [List.filterMap_cons_some h]; rfl

theorem filterMap_step {κ : Type} {f : ℓ → Option κ} {ls : List ℓ} {pre post : List κ} {k : κ}
    (h : ls.filterMap f = pre ++ k :: post) :
    ∃ before l after, ls = before ++ l :: after ∧ before.filterMap f = pre ∧ f l = some k := by
  obtain ⟨ls₁, ls₂, rfl, hpre, hpost⟩ := List.filterMap_eq_append_iff.mp h
  obtain ⟨idle, l, after, rfl, hidle, hl, _⟩ := List.filterMap_eq_cons_iff.mp hpost
  refine ⟨ls₁ ++ idle, l, after, (List.append_assoc _ _ _).symm, ?_, hl⟩
  rw [List.filterMap_append, hpre, List.filterMap_eq_nil_iff.mpr hidle, List.append_nil]

/-- What holds of a state and of the labels that led to it. -/
theorem exec_record {I : σ → List ℓ → Prop} {s t : σ} {ls : List ℓ} (h : S.exec s ls = some t) (hs : I s [])
    (hstep : ∀ u ks l v, S.exec s ks = some u → I u ks → S.step u l = some v → I v (ks ++ [l])) : I t ls := by
  suffices hrun : ∀ u ks, S.exec s ks = some u → I u ks → S.exec u ls = some t → I t (ks ++ ls) from
    hrun s [] rfl hs h
  clear h
  induction ls with
  | nil =>
      intro u ks _ hu ht
      obtain rfl := Option.some.inj ht
      rwa [List.append_nil]
  | cons l ls ih =>
      intro u ks hks hu ht
      obtain ⟨v, hv, ht⟩ := Option.bind_eq_some_iff.mp ht
      rw [List.append_cons]
      exact ih v (ks ++ [l]) (exec_concat hks hv) (hstep u ks l v hks hu hv) ht

end MiniCloudflared.Library.System
