import Mathlib.Data.List.Basic

namespace MiniCloudflared.Library.CopyLoop

variable {α : Type}

/-- One direction of a relay: what the sender has yet to send before its end of
stream, what is on the way to the loop, what the loop has read and not written
yet, and what it has written. -/
structure Link (α : Type) where
  toSend : List α
  ended : Bool
  queue : List α
  buffer : List α
  written : List α
  deriving DecidableEq

inductive Move
  | send (n : Nat)
  | close
  | read (n : Nat)
  | write (n : Nat)

def Move.isLoop : Move → Bool
  | .send _ => false
  | .close => false
  | .read _ => true
  | .write _ => true

namespace Link

def start (script : List α) : Link α := ⟨script, false, [], [], []⟩

def move (l : Link α) : Move → Option (Link α)
  | .send n =>
      if 0 < n ∧ n ≤ l.toSend.length then
        some { l with toSend := l.toSend.drop n, queue := l.queue ++ l.toSend.take n }
      else none
  | .close => if l.toSend.isEmpty ∧ l.ended = false then some { l with ended := true } else none
  | .read n =>
      if 0 < n ∧ n ≤ l.queue.length then
        some { l with queue := l.queue.drop n, buffer := l.buffer ++ l.queue.take n }
      else none
  | .write n =>
      if 0 < n ∧ n ≤ l.buffer.length then
        some { l with buffer := l.buffer.drop n, written := l.written ++ l.buffer.take n }
      else none

def finished (l : Link α) : Bool := l.ended && l.queue.isEmpty && l.buffer.isEmpty

def left (l : Link α) : List α := l.buffer ++ l.queue ++ l.toSend

structure Holds (script : List α) (l : Link α) : Prop where
  content : l.written ++ l.left = script
  closed : l.ended = true → l.toSend = []

inductive Moved (l : Link α) : Move → Link α → Prop
  | send {n : Nat} (h : 0 < n ∧ n ≤ l.toSend.length) :
      Moved l (.send n) { l with toSend := l.toSend.drop n, queue := l.queue ++ l.toSend.take n }
  | close (h : l.toSend = []) : Moved l .close { l with ended := true }
  | read {n : Nat} (h : 0 < n ∧ n ≤ l.queue.length) :
      Moved l (.read n) { l with queue := l.queue.drop n, buffer := l.buffer ++ l.queue.take n }
  | write {n : Nat} (h : 0 < n ∧ n ≤ l.buffer.length) :
      Moved l (.write n) { l with buffer := l.buffer.drop n, written := l.written ++ l.buffer.take n }

variable {script : List α} {l l' : Link α} {m : Move}

theorem moved (hm : l.move m = some l') : Moved l m l' := by
  cases m <;> rw [Link.move] at hm <;> split at hm
  case send.isTrue n h => exact (Option.some.inj hm) ▸ .send h
  case close.isTrue h => exact (Option.some.inj hm) ▸ .close (List.isEmpty_iff.mp h.1)
  case read.isTrue n h => exact (Option.some.inj hm) ▸ .read h
  case write.isTrue n h => exact (Option.some.inj hm) ▸ .write h
  all_goals exact absurd hm (by simp)

theorem holds_start (script : List α) : (start script).Holds script := ⟨rfl, fun h => absurd h (by simp [start])⟩

theorem Holds.move (h : l.Holds script) (hm : l.move m = some l') : l'.Holds script := by
  obtain ⟨rfl, hclosed⟩ := h
  cases moved hm with
  | send hn =>
      refine ⟨by simp [left], fun he => ?_⟩
      change l.toSend.drop _ = []
      rw [hclosed he, List.drop_nil]
  | close hnil => exact ⟨rfl, fun _ => hnil⟩
  | read hn => exact ⟨by simp [left], hclosed⟩
  | write hn => exact ⟨by simp [left, ← List.append_assoc (l.buffer.take _)], hclosed⟩

theorem Holds.left_of_finished (h : l.Holds script) (hf : l.finished = true) : l.left = [] := by
  rw [finished, Bool.and_eq_true, Bool.and_eq_true] at hf
  rw [left, h.closed hf.1.1, List.isEmpty_iff.mp hf.1.2, List.isEmpty_iff.mp hf.2]
  rfl

theorem Holds.written_iff (h : l.Holds script) : l.written = script ↔ l.left = [] := by
  rw [← h.content]
  exact List.self_eq_append_right

theorem written_of_sender (hs : m.isLoop = false) (hm : l.move m = some l') : l'.written = l.written := by
  cases moved hm with
  | send hn => rfl
  | close hnil => rfl
  | read hn => exact absurd hs (by simp [Move.isLoop])
  | write hn => exact absurd hs (by simp [Move.isLoop])

end Link

end MiniCloudflared.Library.CopyLoop
