import Mathlib.Data.List.Basic

namespace MiniCloudflared.Library

abbrev Bytes := List UInt8

def ascii (s : String) : Bytes := s.toList.map (fun c => c.toNat.toUInt8)

def crlf : Bytes := [13, 10]

def lowerByte (b : UInt8) : UInt8 := if 65 ≤ b && b ≤ 90 then b + 32 else b

def lower (s : Bytes) : Bytes := s.map lowerByte

def isDigit (b : UInt8) : Bool := 48 ≤ b && b ≤ 57

def digitValue (b : UInt8) : Nat := b.toNat - 48

def decimal (n : Nat) : Bytes := (Nat.toDigits 10 n).map (fun c => c.toNat.toUInt8)

def readDecimal (s : Bytes) : Option Nat :=
  if s ≠ [] ∧ s.all isDigit then some (s.foldl (fun n b => 10 * n + digitValue b) 0) else none

theorem forall_byte {p : UInt8 → Prop} (h : ∀ n, n < 256 → p (UInt8.ofNat n)) (b : UInt8) : p b := by
  have hb := h b.toNat b.toNat_lt
  rwa [UInt8.ofNat_toNat] at hb

@[simp] theorem lowerByte_idem (b : UInt8) : lowerByte (lowerByte b) = lowerByte b := by
  revert b
  apply forall_byte
  decide +kernel

@[simp] theorem lower_idem (s : Bytes) : lower (lower s) = lower s := by
  simp [lower]

theorem isDigit_char {c : Char} (h : c.isDigit = true) :
    isDigit c.toNat.toUInt8 = true ∧ digitValue c.toNat.toUInt8 = c.toNat - '0'.toNat := by
  have hc : 48 ≤ c.toNat ∧ c.toNat ≤ 57 := Char.isDigit_iff_toNat.mp h
  have hn : c.toNat.toUInt8.toNat = c.toNat := by
    rw [Nat.toUInt8, UInt8.toNat_ofNat']
    omega
  refine ⟨?_, ?_⟩
  · simp only [isDigit, Bool.and_eq_true, decide_eq_true_eq, UInt8.le_iff_toNat_le, hn]
    exact hc
  · simp only [digitValue, hn]
    rfl

theorem decimal_digits (n : Nat) : ∀ b, b ∈ decimal n → isDigit b = true := by
  intro b hb
  obtain ⟨c, hc, rfl⟩ := List.mem_map.mp hb
  exact (isDigit_char (Nat.isDigit_of_mem_toDigits (by decide) (by decide) hc)).1

theorem decimal_ne_nil (n : Nat) : decimal n ≠ [] := by
  rw [decimal, Nat.toDigits_eq_if (by decide)]
  split <;> simp

theorem foldl_digits (cs : List Char) (h : ∀ c, c ∈ cs → c.isDigit = true) (n : Nat) :
    (cs.map (fun c => c.toNat.toUInt8)).foldl (fun n b => 10 * n + digitValue b) n =
      Nat.ofDigitChars 10 cs n := by
  induction cs generalizing n with
  | nil => rfl
  | cons c cs ih =>
      rw [List.forall_mem_cons] at h
      rw [List.map_cons, List.foldl_cons, ih h.2, Nat.ofDigitChars_cons, (isDigit_char h.1).2]

theorem readDecimal_decimal (n : Nat) : readDecimal (decimal n) = some n := by
  have hall : (decimal n).all isDigit = true := List.all_eq_true.mpr (decimal_digits n)
  have hdig : ∀ c, c ∈ Nat.toDigits 10 n → c.isDigit = true :=
    fun c hc => Nat.isDigit_of_mem_toDigits (by decide) (by decide) hc
  simp only [readDecimal, ne_eq, decimal_ne_nil, not_false_eq_true, hall, and_self, if_true]
  rw [decimal, foldl_digits _ hdig, Nat.ofDigitChars_ten_toDigits]

theorem takeWhile_cut {c : UInt8} {a : Bytes} (rest : Bytes) (h : c ∉ a) :
    (a ++ c :: rest).takeWhile (· != c) = a := by
  have ha : ∀ b, b ∈ a → (b != c) = true := fun b hb => by
    simpa using fun e : b = c => h (e ▸ hb)
  rw [List.takeWhile_append_of_pos ha]
  simp

theorem dropWhile_cut {c : UInt8} {a : Bytes} (rest : Bytes) (h : c ∉ a) :
    (a ++ c :: rest).dropWhile (· != c) = c :: rest := by
  have ha : ∀ b, b ∈ a → (b != c) = true := fun b hb => by
    simpa using fun e : b = c => h (e ▸ hb)
  rw [List.dropWhile_append_of_pos ha]
  simp

theorem cut_unique {c : UInt8} {a b x y : Bytes} (ha : c ∉ a) (hb : c ∉ b)
    (h : a ++ c :: x = b ++ c :: y) : a = b ∧ x = y := by
  have hab : a = b := by rw [← takeWhile_cut x ha, h, takeWhile_cut y hb]
  subst hab
  exact ⟨rfl, by simpa using h⟩

/-- Read lines closed by CRLF up to and including the first empty one. The
first argument holds the bytes of the line being read. -/
def readLines (cur : Bytes) : Bytes → Option (List Bytes × Bytes)
  | b :: c :: rest =>
      if b = 13 ∧ c = 10 then
        if cur = [] then some ([], rest)
        else (readLines [] rest).map (fun p => (cur :: p.1, p.2))
      else readLines (cur ++ [b]) (c :: rest)
  | _ => none

def writeLines (ls : List Bytes) : Bytes := ls.flatMap (fun l => l ++ crlf) ++ crlf

theorem readLines_line (cur l rest : Bytes) (h : 13 ∉ l) (hne : cur ++ l ≠ []) :
    readLines cur (l ++ (crlf ++ rest)) =
      (readLines [] rest).map (fun p => ((cur ++ l) :: p.1, p.2)) := by
  induction l generalizing cur with
  | nil =>
      rw [List.append_nil] at hne
      simp [crlf, readLines, hne]
  | cons b l ih =>
      rw [List.mem_cons, not_or] at h
      have hb : ¬ b = 13 := fun e => h.1 e.symm
      have ih := ih (cur ++ [b]) h.2 (by simp)
      cases l with
      | nil => simp [crlf, readLines, hb]
      | cons c l => simpa [readLines, hb] using ih

theorem readLines_writeLines (ls : List Bytes) (h : ∀ l, l ∈ ls → l ≠ [] ∧ 13 ∉ l) (rest : Bytes) :
    readLines [] (writeLines ls ++ rest) = some (ls, rest) := by
  induction ls with
  | nil => rfl
  | cons l ls ih =>
      rw [List.forall_mem_cons] at h
      have hw : writeLines (l :: ls) ++ rest = l ++ (crlf ++ (writeLines ls ++ rest)) := by
        simp [writeLines]
      rw [hw, readLines_line [] l _ h.1.2 (by simpa using h.1.1), ih h.2]
      rfl

/-- Reading lines does not look past the empty line: the bytes up to there
give the same lines whatever follows them. -/
theorem readLines_head {cur s rest : Bytes} {ls : List Bytes}
    (h : readLines cur s = some (ls, rest)) :
    ∃ w, s = w ++ rest ∧ ∀ t, readLines cur (w ++ t) = some (ls, t) := by
  induction cur, s using readLines.induct generalizing ls rest with
  | case1 b c s hbc =>
      simp only [readLines, hbc, and_self, if_true, Option.some.injEq, Prod.mk.injEq] at h
      obtain ⟨rfl, rfl⟩ := h
      exact ⟨[b, c], rfl, fun t => by simp [readLines, hbc]⟩
  | case2 cur b c s hbc hcur ih =>
      simp only [readLines, hbc, hcur, and_self, if_true, if_false, Option.map_eq_some_iff,
        Prod.mk.injEq] at h
      obtain ⟨⟨ks, r⟩, hr, rfl, rfl⟩ := h
      obtain ⟨w, rfl, hw⟩ := ih hr
      exact ⟨b :: c :: w, rfl, fun t => by simp [readLines, hbc, hcur, hw t]⟩
  | case3 cur b c s hbc ih =>
      simp only [readLines, hbc, if_false] at h
      obtain ⟨w, hs, hw⟩ := ih h
      cases w with
      | nil => exact absurd (hw []) (by simp [readLines])
      | cons d w =>
          obtain ⟨rfl, rfl⟩ := List.cons.inj hs
          exact ⟨b :: c :: w, rfl, fun t => by simpa [readLines, hbc] using hw t⟩
  | case4 s cur hs =>
      rw [readLines] at h
      · exact absurd h (by simp)
      · exact hs

theorem readLines_sound {cur s rest : Bytes} {ls : List Bytes}
    (h : readLines cur s = some (ls, rest)) : cur ++ s = writeLines ls ++ rest := by
  induction cur, s using readLines.induct generalizing ls rest with
  | case1 b c s hbc =>
      simp only [readLines, hbc, and_self, if_true, Option.some.injEq, Prod.mk.injEq] at h
      obtain ⟨rfl, rfl⟩ := h
      simp [writeLines, crlf, hbc]
  | case2 cur b c s hbc hcur ih =>
      simp only [readLines, hbc, hcur, and_self, if_true, if_false, Option.map_eq_some_iff,
        Prod.mk.injEq] at h
      obtain ⟨⟨ks, r⟩, hr, rfl, rfl⟩ := h
      have hs : s = writeLines ks ++ r := ih hr
      simp [writeLines, crlf, hbc, hs]
  | case3 cur b c s hbc ih =>
      simp only [readLines, hbc, if_false] at h
      simpa using ih h
  | case4 s cur hs =>
      rw [readLines] at h
      · exact absurd h (by simp)
      · exact hs

def cutLine (cur : Bytes) : Bytes → Option (Bytes × Bytes)
  | b :: c :: rest =>
      if b = 13 ∧ c = 10 then some (cur, rest) else cutLine (cur ++ [b]) (c :: rest)
  | _ => none

theorem cutLine_sound {cur s l rest : Bytes} (h : cutLine cur s = some (l, rest)) :
    cur ++ s = l ++ (crlf ++ rest) := by
  induction cur, s using cutLine.induct with
  | case1 cur b c s hbc =>
      simp only [cutLine, hbc, and_self, if_true, Option.some.injEq, Prod.mk.injEq] at h
      obtain ⟨rfl, rfl⟩ := h
      simp [crlf, hbc]
  | case2 cur b c s hbc ih =>
      simp only [cutLine, hbc, if_false] at h
      simpa using ih h
  | case3 cur s hs =>
      rw [cutLine] at h
      · exact absurd h (by simp)
      · exact hs

theorem readLines_cut {s rest : Bytes} {ls : List Bytes} (h : readLines [] s = some (ls, rest))
    {k : Nat} (hk : k + rest.length < s.length) : readLines [] (s.take k) = none := by
  cases hc : readLines [] (s.take k) with
  | none => rfl
  | some p =>
      obtain ⟨w, hw, hread⟩ := readLines_head hc
      have ht := hread (p.2 ++ s.drop k)
      rw [← List.append_assoc, ← hw, List.take_append_drop, h] at ht
      have hr : rest = p.2 ++ s.drop k := congrArg Prod.snd (Option.some.inj ht)
      have hl := congrArg List.length hr
      rw [List.length_append, List.length_drop] at hl
      omega

end MiniCloudflared.Library
