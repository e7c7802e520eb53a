import MiniCloudflared.Startup
import Mathlib.Algebra.Order.BigOperators.Group.List
import Mathlib.Algebra.Order.Group.Nat
import Mathlib.Data.List.Rotate

namespace MiniCloudflared.Rotation

open Library HttpTypes Connection Reconnect Startup

variable {d : Driver} {tn : Tunnel} {edge : Edge} {s t : Reconnect.State}

def tried (s : Reconnect.State) : List Str :=
  s.history.map Attempt.addr ++ (s.serving.map Reconnect.Serving.addr).toList

theorem tried_conclude (s : Reconnect.State) (addr : Str) (registered : Bool) (r : Except Error Unit) :
    tried (conclude s addr registered r) = s.history.map Attempt.addr ++ [addr] := by
  cases r <;> simp [tried, conclude]

theorem conclude_addrIdx (s : Reconnect.State) (addr : Str) (registered : Bool) (r : Except Error Unit) :
    (conclude s addr registered r).addrIdx = s.addrIdx := by
  cases r <;> rfl

structure Patient (s : Reconnect.State) : Prop where
  backoff : s.backoff ≤ 64
  slept : ∀ a, a ∈ s.history → a.slept ≤ 64

theorem Patient.conclude (h : Patient s) (addr : Str) (registered : Bool) (r : Except Error Unit) :
    Patient (conclude s addr registered r) := by
  have hadd {b : Nat} (hb : b ≤ 64) {a : Attempt} (ha : a.slept ≤ 64) :
      Patient { s with backoff := b, serving := none, history := s.history ++ [a] } := by
    refine ⟨hb, fun c hc => ?_⟩
    rcases List.mem_append.mp hc with hc | hc
    · exact h.slept c hc
    · rwa [List.mem_singleton.mp hc]
  cases r with
  | ok => exact hadd (by omega) (Nat.zero_le 64)
  | error e => exact hadd (Nat.min_le_right _ _) h.backoff

def turns (edge : Edge) (n : Nat) : List Str := (List.range n).map fun k => edge.addr (k % 2 ^ 64)

theorem turns_succ (edge : Edge) (n : Nat) : turns edge (n + 1) = turns edge n ++ [edge.addr (n % 2 ^ 64)] := by
  rw [turns, List.range_succ, List.map_append]
  rfl

structure InTurn (edge : Edge) (s : Reconnect.State) : Prop where
  tried : ∃ n, tried s = turns edge n ∧ s.addrIdx = n % 2 ^ 64
  patient : Patient s

theorem InTurn.step (h : InTurn edge s) {l : Reconnect.Label} (hstep : step d tn edge s l = some t) :
    InTurn edge t := by
  obtain ⟨n, hn, hidx⟩ := h.tried
  have hnext : (s.addrIdx + 1) % 2 ^ 64 = (n + 1) % 2 ^ 64 := by rw [hidx, Nat.mod_add_mod]
  cases l with
  | dial way =>
      simp only [Reconnect.step] at hstep
      split at hstep
      next => exact absurd hstep (by simp)
      next hserving =>
        have htried : s.history.map Attempt.addr = turns edge n := by
          rw [← hn, Rotation.tried, hserving, Option.map_none, Option.toList_none, List.append_nil]
        split at hstep
        next e _ =>
          obtain rfl := Option.some.inj hstep
          have hdialled : Patient { s with addrIdx := (s.addrIdx + 1) % 2 ^ 64 } :=
            ⟨h.patient.backoff, h.patient.slept⟩
          refine ⟨⟨n + 1, ?_, ?_⟩, hdialled.conclude _ _ _⟩
          · rw [tried_conclude, turns_succ, htried, hidx]
          · rw [conclude_addrIdx, hnext]
        next =>
          obtain rfl := Option.some.inj hstep
          refine ⟨⟨n + 1, ?_, hnext⟩, h.patient.backoff, h.patient.slept⟩
          rw [Rotation.tried, turns_succ, htried, hidx]
          rfl
  | serve l =>
      simp only [Reconnect.step] at hstep
      split at hstep
      next => exact absurd hstep (by simp)
      next a hserving =>
        have htried : s.history.map Attempt.addr ++ [a.addr] = turns edge n := by
          rw [← hn, Rotation.tried, hserving, Option.map_some, Option.toList_some]
        split at hstep
        next => exact absurd hstep (by simp)
        next =>
          split at hstep
          next r _ =>
            obtain rfl := Option.some.inj hstep
            refine ⟨⟨n, ?_, ?_⟩, h.patient.conclude _ _ _⟩
            · rw [tried_conclude, htried]
            · rw [conclude_addrIdx, hidx]
          next =>
            obtain rfl := Option.some.inj hstep
            exact ⟨⟨n, htried, hidx⟩, h.patient.backoff, h.patient.slept⟩

theorem inTurn_of_run {ls : List Reconnect.Label} (h : (runTunnel d tn edge).exec begun ls = some s) :
    InTurn edge s := by
  have hreach : (runTunnel d tn edge).Reaches System.anyStep begun s := .exec .refl h
  refine hreach.preserves (I := InTurn edge) (fun _ _ _ hi _ hstep => hi.step hstep) ⟨⟨0, rfl, rfl⟩, by decide,
    fun a ha => ?_⟩
  exact absurd ha List.not_mem_nil

theorem InTurn.addrs (h : InTurn edge s) : s.history.map Attempt.addr = turns edge s.history.length := by
  obtain ⟨n, hn, _⟩ := h.tried
  have hlen : s.history.length ≤ n := by
    have hlen := congrArg List.length hn
    rw [Rotation.tried, turns, List.length_append, List.length_map, List.length_map, List.length_range] at hlen
    omega
  calc s.history.map Attempt.addr
      = (Rotation.tried s).take s.history.length := (List.take_left' (List.length_map _)).symm
    _ = (turns edge n).take s.history.length := by rw [hn]
    _ = turns edge s.history.length := by rw [turns, ← List.map_take, List.take_range, Nat.min_eq_left hlen]; rfl

/-- As many attempts as there are addresses go once around, as long as the index
does not wrap. -/
theorem once_around (edge : Edge) {i m : Nat} (h : i + edge.addrs.length ≤ m)
    (hbound : i + edge.addrs.length ≤ 2 ^ 64) :
    (turns edge m |>.drop i |>.take edge.addrs.length) = edge.addrs.rotate i := by
  apply List.ext_getElem
  · simp only [turns, List.length_take, List.length_drop, List.length_map, List.length_range, List.length_rotate]
    omega
  · intro j hj₁ hj₂
    rw [List.length_rotate] at hj₂
    have hwrap : (i + j) % 2 ^ 64 = i + j := Nat.mod_eq_of_lt (by omega)
    simp only [turns, List.getElem_take, List.getElem_drop, List.getElem_map, List.getElem_range, hwrap,
      List.getElem_rotate, Edge.addr, List.get_eq_getElem, Nat.add_comm]

theorem Patient.sum_le (h : Patient s) (i n : Nat) :
    ((s.history.drop i |>.take n).map Attempt.slept).sum ≤ n * 64 := by
  have hle : ∀ k, k ∈ (s.history.drop i |>.take n).map Attempt.slept → k ≤ 64 := by
    intro k hk
    obtain ⟨a, ha, rfl⟩ := List.mem_map.mp hk
    exact h.slept a (List.mem_of_mem_drop (List.mem_of_mem_take ha))
  calc ((s.history.drop i |>.take n).map Attempt.slept).sum
      ≤ ((s.history.drop i |>.take n).map Attempt.slept).length * 64 := List.sum_le_card_nsmul _ 64 hle
    _ ≤ n * 64 := by
        refine Nat.mul_le_mul_right 64 ?_
        rw [List.length_map]
        exact List.length_take_le _ _

def edgeOf (display : SocketAddr → Str) (st : Started) : Edge where
  addrs := st.addrs.map display
  nonempty := by
    rw [List.length_map]
    exact st.nonempty

/-- Whatever the attempts come to, as many of them in a row as there are
addresses go to each address once, always in the same circular order, until the
index wraps at 2^64, and the pauses between them are at most 64 seconds each. -/
theorem round_robin {w : World} (hshuffle : ∀ addrs, (w.shuffle addrs).Perm addrs) {cfg : TunnelConfig}
    {st : Started} (hst : startTunnel w cfg = .ok st) (display : SocketAddr → Str) {ls : List Reconnect.Label}
    (h : (runTunnel d tn (edgeOf display st)).exec begun ls = some s) {i : Nat}
    (hi : i + st.addrs.length ≤ s.history.length) (hbound : i + st.addrs.length ≤ 2 ^ 64) :
    ((s.history.drop i |>.take st.addrs.length).map Attempt.addr) = (st.addrs.map display).rotate i ∧
    ((s.history.drop i |>.take st.addrs.length).map Attempt.addr).Perm ((edgeSource w).map display) ∧
    ((s.history.drop i |>.take st.addrs.length).map Attempt.slept).sum ≤ st.addrs.length * 64 := by
  have hturn := inTurn_of_run h
  have hlen : (edgeOf display st).addrs.length = st.addrs.length := List.length_map _
  have haround : ((s.history.drop i |>.take st.addrs.length).map Attempt.addr) = (st.addrs.map display).rotate i := by
    rw [List.map_take, List.map_drop, hturn.addrs, ← hlen]
    exact once_around (edgeOf display st) (by rw [hlen]; exact hi) (by rw [hlen]; exact hbound)
  refine ⟨haround, ?_, hturn.patient.sum_le i st.addrs.length⟩
  rw [haround]
  have hperm : st.addrs.Perm (edgeSource w) := by
    rw [((startTunnel_eq hshuffle cfg st).mp hst).addrs]
    exact hshuffle _
  exact (List.rotate_perm _ _).trans (hperm.map display)

def startedOffline : Started where
  creds := TunnelSecret.badCreds
  configPath := yamlPath "/root/.cloudflared/config.yaml".toList
  rules := HotReload.savedRules
  addrs := knownEdges.reverse
  nonempty := by decide

def display (addr : SocketAddr) : Str :=
  match addr.ip with
  | .v4 a b c d =>
      (".".intercalate ([a, b, c, d].map fun n => Nat.repr n.toNat) ++ ":" ++ Nat.repr addr.port).toList
  | .v6 _ => []

def unreachable : List Reconnect.Label := List.replicate 5 (.dial wayClosed)

theorem round_robin_unreachable :
    ∃ s, (runTunnel .accept Deadlock.tunnel (edgeOf display startedOffline)).exec begun unreachable = some s ∧
      (s.history.drop 1 |>.take 4).map Attempt.addr = (knownEdges.reverse.map display).rotate 1 := by
  obtain ⟨s, hs, hlen⟩ : ∃ s, (runTunnel .accept Deadlock.tunnel (edgeOf display startedOffline)).exec begun
      unreachable = some s ∧ s.history.length = 5 := ⟨_, rfl, rfl⟩
  have hstarted : startTunnel offline ⟨TunnelSecret.badToken, none⟩ = .ok startedOffline := rfl
  have h := round_robin (fun addrs => List.reverse_perm addrs) hstarted display hs (i := 1) (by rw [hlen]; decide)
    (by decide)
  exact ⟨s, hs, h.1⟩

end MiniCloudflared.Rotation
