import MiniCloudflared.Library.Bytes
import Mathlib.Data.Nat.ModEq
import Mathlib.Tactic.Ring

namespace MiniCloudflared.Library

/-- The bytes of a number, the lowest first. What does not fit is dropped. -/
def leBytes : Nat → Nat → Bytes
  | 0, _ => []
  | w + 1, n => UInt8.ofNat n :: leBytes w (n / 256)

def ofLeBytes : Bytes → Nat
  | [] => 0
  | b :: bs => b.toNat + 256 * ofLeBytes bs

@[simp] theorem length_leBytes (w n : Nat) : (leBytes w n).length = w := by
  induction w generalizing n with
  | zero => rfl
  | succ w ih => rw [leBytes, List.length_cons, ih]

theorem ofLeBytes_leBytes (w n : Nat) : ofLeBytes (leBytes w n) = n % 256 ^ w := by
  induction w generalizing n with
  | zero => rw [leBytes, ofLeBytes, Nat.pow_zero, Nat.mod_one]
  | succ w ih =>
      have hlow : (UInt8.ofNat n).toNat = n % 256 := UInt8.toNat_ofNat'
      rw [leBytes, ofLeBytes, ih, hlow, Nat.pow_succ', Nat.mod_mul]

theorem ofLeBytes_leBytes_of_lt {w n : Nat} (h : n < 256 ^ w) : ofLeBytes (leBytes w n) = n := by
  rw [ofLeBytes_leBytes, Nat.mod_eq_of_lt h]

theorem leBytes_ofLeBytes (bs : Bytes) : leBytes bs.length (ofLeBytes bs) = bs := by
  induction bs with
  | nil => rfl
  | cons b bs ih =>
      have hlow : UInt8.ofNat (b.toNat + 256 * ofLeBytes bs) = b := by
        apply UInt8.toNat_inj.mp
        rw [UInt8.toNat_ofNat']
        have := b.toNat_lt
        omega
      have hhigh : (b.toNat + 256 * ofLeBytes bs) / 256 = ofLeBytes bs := by
        have := b.toNat_lt
        omega
      rw [List.length_cons, leBytes, ofLeBytes, hlow, hhigh, ih]

theorem ofLeBytes_append (as bs : Bytes) : ofLeBytes (as ++ bs) = ofLeBytes as + 256 ^ as.length * ofLeBytes bs := by
  induction as with
  | nil => rw [List.nil_append, ofLeBytes, List.length_nil, Nat.pow_zero, Nat.one_mul, Nat.zero_add]
  | cons a as ih =>
      rw [List.cons_append, ofLeBytes, ofLeBytes, ih, List.length_cons, Nat.pow_succ']
      ring

theorem ofLeBytes_lt (bs : Bytes) : ofLeBytes bs < 256 ^ bs.length := by
  induction bs with
  | nil => simp [ofLeBytes]
  | cons b bs ih =>
      have hb := b.toNat_lt
      rw [ofLeBytes, List.length_cons, Nat.pow_succ]
      omega

def slice (bs : Bytes) (start n : Nat) : Bytes := (bs.drop start).take n

theorem slice_mid (pre mid post : Bytes) : slice (pre ++ mid ++ post) pre.length mid.length = mid := by
  rw [slice, List.append_assoc, List.drop_left, List.take_left]

theorem slice_append {pre mid post : Bytes} {start n : Nat} (h : start + n ≤ mid.length) :
    slice (pre ++ mid ++ post) (pre.length + start) n = slice mid start n := by
  rw [slice, List.append_assoc, List.drop_append, slice]
  have hpre : pre.drop (pre.length + start) = [] := List.drop_eq_nil_of_le (Nat.le_add_right _ _)
  rw [hpre, List.nil_append, Nat.add_sub_cancel_left, List.drop_append_of_le_length (by omega),
    List.take_append_of_le_length (by rw [List.length_drop]; omega)]

theorem slice_slice {bs : Bytes} {start n i m : Nat} (h : i + m ≤ n) :
    slice (slice bs start n) i m = slice bs (start + i) m := by
  rw [slice, slice, slice, List.drop_take, List.take_take, List.drop_drop, Nat.min_eq_left (by omega)]

def splice (bs : Bytes) (start : Nat) (data : Bytes) : Bytes :=
  bs.take start ++ data ++ bs.drop (start + data.length)

theorem length_splice {bs data : Bytes} {start : Nat} (h : start + data.length ≤ bs.length) :
    (splice bs start data).length = bs.length := by
  rw [splice, List.length_append, List.length_append, List.length_take, List.length_drop]
  omega

theorem splice_append {pre mid post data : Bytes} {start : Nat} (h : start + data.length ≤ mid.length) :
    splice (pre ++ mid ++ post) (pre.length + start) data = pre ++ splice mid start data ++ post := by
  rw [splice, splice, List.append_assoc pre mid post, List.take_append, List.drop_append]
  have hpre : pre.take (pre.length + start) = pre := List.take_of_length_le (Nat.le_add_right _ _)
  have hdrop : pre.drop (pre.length + start + data.length) = [] :=
    List.drop_eq_nil_of_le (by omega)
  rw [hpre, hdrop, List.nil_append, Nat.add_sub_cancel_left,
    show pre.length + start + data.length - pre.length = start + data.length by omega,
    List.take_append_of_le_length (by omega), List.drop_append_of_le_length h]
  simp only [List.append_assoc]

theorem slice_splice_same {bs data : Bytes} {start : Nat} (h : start ≤ bs.length) :
    slice (splice bs start data) start data.length = data := by
  have hlen : (bs.take start).length = start := by
    rw [List.length_take]
    omega
  have hmid := slice_mid (bs.take start) data (bs.drop (start + data.length))
  rwa [hlen] at hmid

theorem slice_splice_before {bs data : Bytes} {start i n : Nat} (h : start ≤ bs.length) (hi : i + n ≤ start) :
    slice (splice bs start data) i n = slice bs i n := by
  have hlen : (bs.take start).length = start := by
    rw [List.length_take]
    omega
  rw [slice, slice, splice, List.append_assoc, List.drop_append_of_le_length (by omega),
    List.take_append_of_le_length (by rw [List.length_drop]; omega), List.drop_take, List.take_take,
    Nat.min_eq_left (by omega)]

theorem getElem?_splice_outside {bs data : Bytes} {start k : Nat} (h : start + data.length ≤ bs.length)
    (hk : k < start ∨ start + data.length ≤ k) : (splice bs start data)[k]? = bs[k]? := by
  have htake : (bs.take start).length = start := by
    rw [List.length_take]
    omega
  have hlen : (bs.take start ++ data).length = start + data.length := by
    rw [List.length_append, htake]
  rw [splice]
  rcases hk with hk | hk
  · rw [List.getElem?_append_left (by omega), List.getElem?_append_left (by omega), List.getElem?_take_of_lt hk]
  · rw [List.getElem?_append_right (by omega), List.getElem?_drop, hlen, Nat.add_sub_cancel' hk]

end MiniCloudflared.Library
