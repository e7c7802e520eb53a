import Mathlib.Logic.Basic

namespace MiniCloudflared.Library

/-- A computation that may fail and that leaves a trace of the calls it made
on the world around it, up to and including the point of failure. -/
structure Traced (ε σ α : Type) where
  events : List σ
  result : Except ε α

namespace Traced

variable {ε σ α β : Type}

def bind (x : Traced ε σ α) (f : α → Traced ε σ β) : Traced ε σ β :=
  match x.result with
  | .ok a => ⟨x.events ++ (f a).events, (f a).result⟩
  | .error e => ⟨x.events, .error e⟩

instance : Monad (Traced ε σ) where
  pure a := ⟨[], .ok a⟩
  bind := bind

def emit (e : σ) : Traced ε σ Unit := ⟨[e], .ok ()⟩

def lift (r : Except ε α) : Traced ε σ α := ⟨[], r⟩

def orElse (x : Traced ε σ α) (a : α) : Traced ε σ α :=
  ⟨x.events, .ok (match x.result with | .ok b => b | .error _ => a)⟩

@[simp] theorem pure_events (a : α) : (pure a : Traced ε σ α).events = [] := rfl

@[simp] theorem pure_result (a : α) : (pure a : Traced ε σ α).result = .ok a := rfl

@[simp] theorem emit_events (e : σ) : (emit e : Traced ε σ Unit).events = [e] := rfl

@[simp] theorem emit_result (e : σ) : (emit e : Traced ε σ Unit).result = .ok () := rfl

@[simp] theorem lift_events (r : Except ε α) : (lift r : Traced ε σ α).events = [] := rfl

@[simp] theorem lift_result (r : Except ε α) : (lift r : Traced ε σ α).result = r := rfl

@[simp] theorem orElse_events (x : Traced ε σ α) (a : α) : (x.orElse a).events = x.events := rfl

theorem orElse_result (x : Traced ε σ α) (a : α) : ∃ b, (x.orElse a).result = .ok b := ⟨_, rfl⟩

theorem bind_ok {x : Traced ε σ α} {f : α → Traced ε σ β} {a : α} (h : x.result = .ok a) :
    x >>= f = ⟨x.events ++ (f a).events, (f a).result⟩ := by
  change bind x f = _
  simp only [bind, h]

theorem bind_error {x : Traced ε σ α} {f : α → Traced ε σ β} {e : ε} (h : x.result = .error e) :
    x >>= f = ⟨x.events, .error e⟩ := by
  change bind x f = _
  simp only [bind, h]

@[simp] theorem emit_bind (e : σ) (f : Unit → Traced ε σ β) :
    emit e >>= f = ⟨e :: (f ()).events, (f ()).result⟩ := bind_ok rfl

@[simp] theorem lift_ok_bind (a : α) (f : α → Traced ε σ β) : lift (.ok a) >>= f = f a := bind_ok rfl

@[simp] theorem lift_error_bind (e : ε) (f : α → Traced ε σ β) :
    (lift (.error e) : Traced ε σ α) >>= f = ⟨[], .error e⟩ := bind_error rfl

theorem mem_bind_events {x : Traced ε σ α} {f : α → Traced ε σ β} {e : σ} :
    e ∈ (x >>= f).events ↔ e ∈ x.events ∨ ∃ a, x.result = .ok a ∧ e ∈ (f a).events := by
  cases h : x.result with
  | ok a => simp [bind_ok h]
  | error err => simp [bind_error h]

end Traced

end MiniCloudflared.Library
