import MiniCloudflared.Library.Bytes
import Mathlib.Data.Nat.ModEq

namespace MiniCloudflared.Library

theorem except_bind_ok {ε α β : Type} {x : Except ε α} {f : α → Except ε β} {b : β}
    (h : x >>= f = .ok b) : ∃ a, x = .ok a ∧ f a = .ok b := by
  cases x with
  | error e => exact nomatch h
  | ok a => exact ⟨a, rfl, h⟩

/-- How a computation ends that may also panic. -/
inductive Outcome (ε α : Type)
  | ok (a : α)
  | err (e : ε)
  | panic
  deriving DecidableEq

namespace Outcome

variable {ε α β : Type}

def bind : Outcome ε α → (α → Outcome ε β) → Outcome ε β
  | ok a, f => f a
  | err e, _ => err e
  | panic, _ => panic

instance : Monad (Outcome ε) where
  pure := ok
  bind := bind

def unwrapOr (default : α) : Outcome ε α → Outcome ε α
  | ok a => ok a
  | err _ => ok default
  | panic => panic

@[simp] theorem ok_bind (a : α) (f : α → Outcome ε β) : (ok a >>= f) = f a := rfl

@[simp] theorem panic_bind (f : α → Outcome ε β) : ((panic : Outcome ε α) >>= f) = panic := rfl

/-- The arithmetic of 64-bit numbers and the slices panic where they do not fit. -/
def add (a b : Nat) : Outcome ε Nat := if a + b < 2 ^ 64 then ok (a + b) else panic

def mul (a b : Nat) : Outcome ε Nat := if a * b < 2 ^ 64 then ok (a * b) else panic

def sliceFrom (bs : Bytes) (i : Nat) : Outcome ε Bytes := if i ≤ bs.length then ok (bs.drop i) else panic

def sliceRange (bs : Bytes) (i j : Nat) : Outcome ε Bytes :=
  if i ≤ j ∧ j ≤ bs.length then ok ((bs.drop i).take (j - i)) else panic

theorem add_ok {a b : Nat} (h : a + b < 2 ^ 64) : (add a b : Outcome ε Nat) = ok (a + b) := if_pos h

theorem mul_ok {a b : Nat} (h : a * b < 2 ^ 64) : (mul a b : Outcome ε Nat) = ok (a * b) := if_pos h

theorem mul_panic {a b : Nat} (h : 2 ^ 64 ≤ a * b) : (mul a b : Outcome ε Nat) = panic :=
  if_neg (Nat.not_lt.mpr h)

theorem sliceFrom_ok {bs : Bytes} {i : Nat} (h : i ≤ bs.length) :
    (sliceFrom bs i : Outcome ε Bytes) = ok (bs.drop i) := if_pos h

theorem sliceRange_ok {bs : Bytes} {i j : Nat} (h : i ≤ j ∧ j ≤ bs.length) :
    (sliceRange bs i j : Outcome ε Bytes) = ok ((bs.drop i).take (j - i)) := if_pos h

theorem sliceRange_panic {bs : Bytes} {i j : Nat} (h : bs.length < j) :
    (sliceRange bs i j : Outcome ε Bytes) = panic := if_neg fun hand => absurd hand.2 (Nat.not_le.mpr h)

end Outcome

end MiniCloudflared.Library
