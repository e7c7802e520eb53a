import MiniCloudflared.Library.Bytes
import Mathlib.Data.List.Nodup

namespace MiniCloudflared.Library.Base64

/-- The digits 0 to 63. The character that fills up is none of them. -/
structure Alphabet where
  digits : List Char
  length_eq : digits.length = 64
  nodup : digits.Nodup
  no_pad : '=' ∉ digits

def Alphabet.digit (al : Alphabet) (n : Nat) : Char := al.digits.getD n '='

def Alphabet.value (al : Alphabet) (c : Char) : Option Nat :=
  if c ∈ al.digits then some (al.digits.idxOf c) else none

def commonDigits : List Char := "ABCDEFGHIJKLMNOPQRSTUVWXYZabcdefghijklmnopqrstuvwxyz0123456789".toList

def standard : Alphabet := ⟨commonDigits ++ ['+', '/'], by decide +kernel, by decide +kernel, by decide +kernel⟩

def urlSafe : Alphabet := ⟨commonDigits ++ ['-', '_'], by decide +kernel, by decide +kernel, by decide +kernel⟩

/-- Three bytes are four digits. The bits that fill up the last digit are zero. -/
def sextets : Bytes → List Nat
  | [] => []
  | [x] => [x.toNat / 4, x.toNat % 4 * 16]
  | [x, y] => [x.toNat / 4, x.toNat % 4 * 16 + y.toNat / 16, y.toNat % 16 * 4]
  | x :: y :: z :: rest =>
      (x.toNat / 4) :: (x.toNat % 4 * 16 + y.toNat / 16) :: (y.toNat % 16 * 4 + z.toNat / 64) ::
        (z.toNat % 64) :: sextets rest

def ofSextets : List Nat → Option Bytes
  | [] => some []
  | [_] => none
  | [p, q] => if q % 16 = 0 then some [UInt8.ofNat (p * 4 + q / 16)] else none
  | [p, q, r] =>
      if r % 4 = 0 then some [UInt8.ofNat (p * 4 + q / 16), UInt8.ofNat (q % 16 * 16 + r / 4)] else none
  | p :: q :: r :: s :: rest =>
      (ofSextets rest).map fun bs =>
        UInt8.ofNat (p * 4 + q / 16) :: UInt8.ofNat (q % 16 * 16 + r / 4) :: UInt8.ofNat (r % 4 * 64 + s) :: bs

def padding (padded : Bool) (n : Nat) : List Char :=
  if padded then List.replicate ((4 - n % 4) % 4) '=' else []

def encode (al : Alphabet) (padded : Bool) (bs : Bytes) : List Char :=
  let ds := (sextets bs).map al.digit
  ds ++ padding padded ds.length

/-- Only canonical texts are decoded: exactly the padding that is due, or none
at all, and no bits that are lost. -/
def decode (al : Alphabet) (padded : Bool) (s : List Char) : Option Bytes :=
  let ds := s.takeWhile (· != '=')
  if s = ds ++ padding padded ds.length then (ds.mapM al.value).bind ofSextets else none

variable {al : Alphabet}

theorem Alphabet.digit_eq (al : Alphabet) {n : Nat} (h : n < 64) :
    ∃ hn : n < al.digits.length, al.digit n = al.digits.get ⟨n, hn⟩ := by
  have hn : n < al.digits.length := by
    rw [al.length_eq]
    exact h
  refine ⟨hn, ?_⟩
  rw [Alphabet.digit, List.getD_eq_getElem?_getD, List.getElem?_eq_getElem hn, Option.getD_some,
    List.get_eq_getElem]

theorem Alphabet.digit_mem (al : Alphabet) {n : Nat} (h : n < 64) : al.digit n ∈ al.digits := by
  obtain ⟨hn, he⟩ := al.digit_eq h
  rw [he]
  exact List.get_mem _ _

theorem Alphabet.value_digit (al : Alphabet) {n : Nat} (h : n < 64) : al.value (al.digit n) = some n := by
  obtain ⟨hn, he⟩ := al.digit_eq h
  rw [Alphabet.value, if_pos (al.digit_mem h), he, List.get_idxOf al.nodup]

theorem sextets_lt (bs : Bytes) : ∀ n, n ∈ sextets bs → n < 64 := by
  induction bs using sextets.induct with
  | case1 => exact fun n hn => absurd hn List.not_mem_nil
  | case2 x =>
      have hx := x.toNat_lt
      simp only [sextets, List.forall_mem_cons, List.not_mem_nil, false_implies, implies_true, and_true]
      omega
  | case3 x y =>
      have hx := x.toNat_lt
      have hy := y.toNat_lt
      simp only [sextets, List.forall_mem_cons, List.not_mem_nil, false_implies, implies_true, and_true]
      omega
  | case4 x y z rest ih =>
      have hx := x.toNat_lt
      have hy := y.toNat_lt
      have hz := z.toNat_lt
      simp only [sextets, List.forall_mem_cons]
      exact ⟨by omega, by omega, by omega, by omega, ih⟩

theorem byte_of_toNat {n : Nat} {b : UInt8} (h : n = b.toNat) : UInt8.ofNat n = b := by
  rw [h, UInt8.ofNat_toNat]

theorem ofSextets_sextets (bs : Bytes) : ofSextets (sextets bs) = some bs := by
  induction bs using sextets.induct with
  | case1 => rfl
  | case2 x =>
      have hx := x.toNat_lt
      rw [sextets, ofSextets, if_pos (by omega), byte_of_toNat (b := x) (by omega)]
  | case3 x y =>
      have hx := x.toNat_lt
      have hy := y.toNat_lt
      rw [sextets, ofSextets, if_pos (by omega), byte_of_toNat (b := x) (by omega),
        byte_of_toNat (b := y) (by omega)]
  | case4 x y z rest ih =>
      have hx := x.toNat_lt
      have hy := y.toNat_lt
      have hz := z.toNat_lt
      rw [sextets, ofSextets, ih, Option.map_some, byte_of_toNat (b := x) (by omega),
        byte_of_toNat (b := y) (by omega), byte_of_toNat (b := z) (by omega)]

theorem length_sextets (bs : Bytes) : (sextets bs).length % 4 = 0 ↔ bs.length % 3 = 0 := by
  induction bs using sextets.induct with
  | case1 => simp [sextets]
  | case2 x => simp [sextets]
  | case3 x y => simp [sextets]
  | case4 x y z rest ih =>
      rw [sextets]
      simp only [List.length_cons]
      omega

theorem digits_mem (al : Alphabet) (bs : Bytes) : ∀ c, c ∈ (sextets bs).map al.digit → c ∈ al.digits := by
  intro c hc
  obtain ⟨n, hn, rfl⟩ := List.mem_map.mp hc
  exact al.digit_mem (sextets_lt bs n hn)

theorem mem_padding {padded : Bool} {n : Nat} {c : Char} (h : c ∈ padding padded n) : c = '=' := by
  rw [padding] at h
  split at h
  next => exact List.eq_of_mem_replicate h
  next => exact absurd h List.not_mem_nil

theorem mem_encode {padded : Bool} {bs : Bytes} {c : Char} (h : c ∈ encode al padded bs) :
    c ∈ al.digits ∨ c = '=' := by
  rcases List.mem_append.mp h with h | h
  · exact .inl (digits_mem al bs c h)
  · exact .inr (mem_padding h)

theorem takeWhile_digits {ds pad : List Char} (hds : ∀ c, c ∈ ds → c ∈ al.digits)
    (hpad : ∀ c, c ∈ pad → c = '=') : (ds ++ pad).takeWhile (· != '=') = ds := by
  have hne : ∀ c, c ∈ ds → (c != '=') = true :=
    fun c hc => bne_iff_ne.mpr (fun he => al.no_pad (he ▸ hds c hc))
  rw [List.takeWhile_append_of_pos hne]
  cases pad with
  | nil => exact List.append_nil ds
  | cons c pad =>
      obtain rfl := hpad c List.mem_cons_self
      exact List.append_nil ds

theorem mapM_value_digit (al : Alphabet) {ns : List Nat} (h : ∀ n, n ∈ ns → n < 64) :
    (ns.map al.digit).mapM al.value = some ns := by
  induction ns with
  | nil => rfl
  | cons n ns ih =>
      rw [List.forall_mem_cons] at h
      rw [List.map_cons, List.mapM_cons, al.value_digit h.1, ih h.2]
      rfl

theorem mem_of_value {c : Char} {n : Nat} (h : al.value c = some n) : c ∈ al.digits := by
  rw [Alphabet.value] at h
  split at h
  next hc => exact hc
  next => exact absurd h (by simp)

theorem mem_of_mapM_value {ds : List Char} {ns : List Nat} (h : ds.mapM al.value = some ns) :
    ∀ c, c ∈ ds → c ∈ al.digits := by
  induction ds generalizing ns with
  | nil => exact fun c hc => absurd hc List.not_mem_nil
  | cons d ds ih =>
      rw [List.mapM_cons] at h
      obtain ⟨n, hn, h⟩ := Option.bind_eq_some_iff.mp h
      obtain ⟨ms, hms, _⟩ := Option.bind_eq_some_iff.mp h
      exact List.forall_mem_cons.mpr ⟨mem_of_value hn, ih hms⟩

/-- What is decoded of the digits of some bytes, whatever alphabet and padding
they are read with. -/
theorem decode_encode_as {padded padded' : Bool} {al' : Alphabet} (bs : Bytes) :
    decode al' padded' (encode al padded bs) =
      if padding padded (sextets bs).length = padding padded' (sextets bs).length then
        (((sextets bs).map al.digit).mapM al'.value).bind ofSextets
      else none := by
  have htake : (encode al padded bs).takeWhile (· != '=') = (sextets bs).map al.digit :=
    takeWhile_digits (digits_mem al bs) (fun c hc => mem_padding hc)
  rw [decode, htake, encode, List.length_map]
  simp only [List.append_cancel_left_eq]

theorem decode_encode (al : Alphabet) (padded : Bool) (bs : Bytes) :
    decode al padded (encode al padded bs) = some bs := by
  rw [decode_encode_as, if_pos rfl, mapM_value_digit al (sextets_lt bs), Option.bind_some,
    ofSextets_sextets]

/-- Two alphabets that give no digit different values decode a text to the
same bytes where they both decode it. -/
def Agree (al al' : Alphabet) : Prop :=
  ∀ c m n, al.value c = some m → al'.value c = some n → m = n

theorem mapM_value_agree {al' : Alphabet} (h : Agree al al') {ds : List Char} {ms ns : List Nat}
    (hm : ds.mapM al.value = some ms) (hn : ds.mapM al'.value = some ns) : ms = ns := by
  induction ds generalizing ms ns with
  | nil => exact Option.some.inj (hm.symm.trans hn)
  | cons d ds ih =>
      rw [List.mapM_cons] at hm hn
      obtain ⟨m, hdm, hm⟩ := Option.bind_eq_some_iff.mp hm
      obtain ⟨ms', hms, hm⟩ := Option.bind_eq_some_iff.mp hm
      obtain ⟨n, hdn, hn⟩ := Option.bind_eq_some_iff.mp hn
      obtain ⟨ns', hns, hn⟩ := Option.bind_eq_some_iff.mp hn
      obtain rfl := Option.some.inj hm
      obtain rfl := Option.some.inj hn
      rw [h d m n hdm hdn, ih hms hns]

theorem decode_some {padded : Bool} {s : List Char} {bs : Bytes} (h : decode al padded s = some bs) :
    ∃ ns, (s.takeWhile (· != '=')).mapM al.value = some ns ∧ ofSextets ns = some bs := by
  rw [decode] at h
  split at h
  next => exact Option.bind_eq_some_iff.mp h
  next => exact absurd h (by simp)

theorem decode_agree {al' : Alphabet} (hagree : Agree al al') {padded padded' : Bool} {s : List Char}
    {bs bs' : Bytes} (h : decode al padded s = some bs) (h' : decode al' padded' s = some bs') : bs = bs' := by
  obtain ⟨ms, hm, hbs⟩ := decode_some h
  obtain ⟨ns, hn, hbs'⟩ := decode_some h'
  obtain rfl := mapM_value_agree hagree hm hn
  exact Option.some.inj (hbs.symm.trans hbs')

theorem mapM_value_of_mem {ds : List Char} (h : ∀ c, c ∈ ds → c ∈ al.digits) :
    ∃ ns, ds.mapM al.value = some ns := by
  induction ds with
  | nil => exact ⟨[], rfl⟩
  | cons d ds ih =>
      rw [List.forall_mem_cons] at h
      obtain ⟨ns, hns⟩ := ih h.2
      refine ⟨al.digits.idxOf d :: ns, ?_⟩
      rw [List.mapM_cons, hns, Alphabet.value, if_pos h.1]
      rfl

/-- A text is read in another alphabet exactly when that has its digits and
its padding is the one that is asked for. -/
theorem decode_encode_iff {al' : Alphabet} (hagree : Agree al al') (padded padded' : Bool) (bs : Bytes) :
    decode al' padded' (encode al padded bs) = some bs ↔
      padding padded (sextets bs).length = padding padded' (sextets bs).length ∧
        ∀ c, c ∈ (sextets bs).map al.digit → c ∈ al'.digits := by
  rw [decode_encode_as]
  by_cases hpad : padding padded (sextets bs).length = padding padded' (sextets bs).length
  · rw [if_pos hpad, and_iff_right hpad]
    constructor
    · intro h
      obtain ⟨ns, hns, _⟩ := Option.bind_eq_some_iff.mp h
      exact mem_of_mapM_value hns
    · intro h
      obtain ⟨ns, hns⟩ := mapM_value_of_mem h
      obtain rfl := mapM_value_agree hagree (mapM_value_digit al (sextets_lt bs)) hns
      rw [hns, Option.bind_some, ofSextets_sextets]
  · rw [if_neg hpad]
    exact iff_of_false (by simp) (fun h => hpad h.1)

theorem padding_eq_iff (n : Nat) : padding true n = padding false n ↔ n % 4 = 0 := by
  rw [padding, padding, if_pos rfl, if_neg (by decide), List.replicate_eq_nil_iff]
  omega

theorem agree_self (al : Alphabet) : Agree al al := fun _ _ _ hm hn => Option.some.inj (hm.symm.trans hn)

theorem Agree.symm {al' : Alphabet} (h : Agree al al') : Agree al' al :=
  fun c m n hm hn => (h c n m hn hm).symm

theorem value_common {c : Char} {rest : List Char} (hd : al.digits = commonDigits ++ rest)
    (hc : c ∈ commonDigits) : al.value c = some (commonDigits.idxOf c) := by
  rw [Alphabet.value, hd, if_pos (List.mem_append_left rest hc), List.idxOf_append_of_mem hc]

theorem mem_common {c : Char} (h : c ∈ standard.digits) (h' : c ∈ urlSafe.digits) : c ∈ commonDigits := by
  rcases List.mem_append.mp h with h | h
  · exact h
  · rcases List.mem_append.mp h' with h' | h'
    · exact h'
    · simp only [List.mem_cons, List.not_mem_nil, or_false] at h h'
      rcases h with rfl | rfl
      · exact absurd h' (by decide)
      · exact absurd h' (by decide)

theorem agree_standard_urlSafe : Agree standard urlSafe := by
  intro c m n hm hn
  have hc := mem_common (mem_of_value hm) (mem_of_value hn)
  rw [value_common rfl hc] at hm hn
  exact Option.some.inj (hm.symm.trans hn)

end MiniCloudflared.Library.Base64
