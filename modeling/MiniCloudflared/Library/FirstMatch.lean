import Mathlib.Data.List.Basic

namespace MiniCloudflared.Library.FirstMatch

variable {α : Type}

/-- The answer of a first-match search: the element of least index that
satisfies the predicate, or nothing when no element does. -/
def IsFirst (p : α → Bool) (xs : List α) : Option α → Prop
  | some a => ∃ i, xs[i]? = some a ∧ p a = true ∧ ∀ (j : Nat) (b : α), j < i → xs[j]? = some b → p b = false
  | none => ∀ a, a ∈ xs → p a = false

def Guarded (p q : α → Bool) (xs : List α) : Prop :=
  ∀ (i : Nat) (a : α), xs[i]? = some a → q a = true → p a = false →
    ∃ (j : Nat) (b : α), j < i ∧ xs[j]? = some b ∧ p b = true

theorem isFirst_find? (p : α → Bool) (xs : List α) : IsFirst p xs (xs.find? p) := by
  cases h : xs.find? p with
  | none =>
      intro a ha
      simpa using List.find?_eq_none.mp h a ha
  | some a =>
      obtain ⟨hp, i, hi, ha, hlt⟩ := List.find?_eq_some_iff_getElem.mp h
      refine ⟨i, by rw [List.getElem?_eq_getElem hi, ha], hp, ?_⟩
      intro j b hj hb
      obtain ⟨hjl, rfl⟩ := List.getElem?_eq_some_iff.mp hb
      simpa using hlt j hj

theorem isFirst_unique (p : α → Bool) (xs : List α) {r s : Option α}
    (hr : IsFirst p xs r) (hs : IsFirst p xs s) : r = s := by
  cases r with
  | none =>
      cases s with
      | none => rfl
      | some b =>
          obtain ⟨i, hi, hb, _⟩ := hs
          exact nomatch hb.symm.trans (hr b (List.mem_of_getElem? hi))
  | some a =>
      obtain ⟨i, hi, ha, hmin⟩ := hr
      cases s with
      | none => exact nomatch ha.symm.trans (hs a (List.mem_of_getElem? hi))
      | some b =>
          obtain ⟨j, hj, hb, hmin'⟩ := hs
          rcases Nat.lt_trichotomy i j with h | h | h
          · exact nomatch ha.symm.trans (hmin' i a h hi)
          · subst h; rw [← hi, hj]
          · exact nomatch hb.symm.trans (hmin j b h hj)

theorem isFirst_iff (p : α → Bool) (xs : List α) (r : Option α) :
    IsFirst p xs r ↔ r = xs.find? p := by
  constructor
  · intro h
    exact isFirst_unique p xs h (isFirst_find? p xs)
  · rintro rfl
    exact isFirst_find? p xs

theorem guarded_cons_of_pos {p q : α → Bool} {a : α} (xs : List α) (ha : p a = true) :
    Guarded p q (a :: xs) := by
  intro i b hb _ hpb
  cases i with
  | zero =>
      obtain rfl : a = b := by simpa using hb
      exact nomatch ha.symm.trans hpb
  | succ i => exact ⟨0, a, Nat.succ_pos i, rfl, ha⟩

theorem guarded_cons_of_neg {p q : α → Bool} {a : α} (xs : List α) (hp : p a = false)
    (hq : q a = false) : Guarded p q (a :: xs) ↔ Guarded p q xs := by
  constructor
  · intro h i b hb hqb hpb
    obtain ⟨j, c, hj, hc, hpc⟩ := h (i + 1) b (by simpa using hb) hqb hpb
    cases j with
    | zero =>
        obtain rfl : a = c := by simpa using hc
        exact nomatch hpc.symm.trans hp
    | succ j => exact ⟨j, c, Nat.lt_of_succ_lt_succ hj, by simpa using hc, hpc⟩
  · intro h i b hb hqb hpb
    cases i with
    | zero =>
        obtain rfl : a = b := by simpa using hb
        exact nomatch hqb.symm.trans hq
    | succ i =>
        obtain ⟨j, c, hj, hc, hpc⟩ := h i b (by simpa using hb) hqb hpb
        exact ⟨j + 1, c, Nat.succ_lt_succ hj, by simpa using hc, hpc⟩

/-- Weakening the test of a first-match search changes its answer unless
every element let in by the weaker test alone is guarded. -/
theorem find?_eq_iff_guarded {p q : α → Bool} (hpq : ∀ a, p a = true → q a = true)
    (xs : List α) : xs.find? q = xs.find? p ↔ Guarded p q xs := by
  induction xs with
  | nil => simp [Guarded]
  | cons a xs ih =>
      cases hp : p a with
      | true =>
          simp only [List.find?_cons, hp, hpq a hp, true_iff]
          exact guarded_cons_of_pos xs hp
      | false =>
          cases hq : q a with
          | true =>
              simp only [List.find?_cons, hp, hq]
              constructor
              · intro h
                exact nomatch (List.find?_some h.symm).symm.trans hp
              · intro h
                obtain ⟨j, _, hj, _⟩ := h 0 a rfl hq hp
                exact absurd hj (Nat.not_lt_zero j)
          | false =>
              rw [guarded_cons_of_neg xs hp hq, ← ih]
              simp [hp, hq]

section Coverage

variable {β : Type} {M : α → β → Bool} {xs : List α} {i : Nat}

def Covers (M : α → β → Bool) (a a' : α) : Prop := ∀ b, M a' b = true → M a b = true

def FirstAt (M : α → β → Bool) (xs : List α) (i : Nat) (b : β) : Prop :=
  ∃ a, xs[i]? = some a ∧ M a b = true ∧ ∀ (j : Nat) (c : α), j < i → xs[j]? = some c → M c b = false

theorem FirstAt.find? {b : β} (h : FirstAt M xs i b) : ∃ a, xs[i]? = some a ∧ xs.find? (M · b) = some a := by
  obtain ⟨a, ha, hm, hmin⟩ := h
  refine ⟨a, ha, ((isFirst_iff (M · b) xs (some a)).mp ⟨i, ha, hm, hmin⟩).symm⟩

/-- An element is of no use if and only if a single one before it covers it,
provided that it accepts something that none but such an element would accept
in its place. -/
theorem never_first_iff {a : α} {g : β} (hi : xs[i]? = some a) (hg : M a g = true)
    (hgeneric : ∀ (j : Nat) (c : α), j < i → xs[j]? = some c → M c g = true → Covers M c a) :
    (∀ b, ¬ FirstAt M xs i b) ↔ ∃ (j : Nat) (c : α), j < i ∧ xs[j]? = some c ∧ Covers M c a := by
  constructor
  · intro hnever
    by_contra hnone
    refine hnever g ⟨a, hi, hg, fun j c hj hc => ?_⟩
    by_contra haccepts
    exact hnone ⟨j, c, hj, hc, hgeneric j c hj hc (by simpa using haccepts)⟩
  · rintro ⟨j, c, hj, hc, hcovers⟩ b ⟨a', ha', hm, hmin⟩
    obtain rfl := Option.some.inj (hi.symm.trans ha')
    exact absurd (hcovers b hm) (by rw [hmin j c hj hc]; exact Bool.false_ne_true)

theorem find?_eraseIdx {b : β} (h : ¬ FirstAt M xs i b) : (xs.eraseIdx i).find? (M · b) = xs.find? (M · b) := by
  induction xs generalizing i with
  | nil => rfl
  | cons a xs ih =>
      cases hm : M a b with
      | true =>
          cases i with
          | zero => exact absurd ⟨a, rfl, hm, fun _ _ hj => absurd hj (Nat.not_lt_zero _)⟩ h
          | succ i => rw [List.eraseIdx_cons_succ, List.find?_cons_of_pos (p := (M · b)) hm,
              List.find?_cons_of_pos (p := (M · b)) hm]
      | false =>
          have hneg : ¬ M a b = true := by
            rw [hm]
            exact Bool.false_ne_true
          cases i with
          | zero => rw [List.eraseIdx_cons_zero, List.find?_cons_of_neg (p := (M · b)) hneg]
          | succ i =>
              rw [List.eraseIdx_cons_succ, List.find?_cons_of_neg (p := (M · b)) hneg,
                List.find?_cons_of_neg (p := (M · b)) hneg]
              refine ih fun hfirst => h ?_
              obtain ⟨c, hc, hmc, hmin⟩ := hfirst
              refine ⟨c, hc, hmc, fun j c' hj hc' => ?_⟩
              cases j with
              | zero =>
                  obtain rfl : a = c' := by simpa using hc'
                  exact hm
              | succ j => exact hmin j c' (Nat.lt_of_succ_lt_succ hj) (by simpa using hc')

end Coverage

end MiniCloudflared.Library.FirstMatch
