import Mathlib.Data.List.Basic

namespace MiniCloudflared.Library.UriHost

def isHexDigit (c : Char) : Bool :=
  c.isDigit || ('a' ≤ c && c ≤ 'f') || ('A' ≤ c && c ≤ 'F')

def isRegNameChar (c : Char) : Bool :=
  c.isAlphanum || ['-', '.', '_', '~', '!', '$', '&', '\'', '(', ')', '*', '+', ',', ';', '='].contains c

def isRegName : List Char → Bool
  | [] => true
  | c :: s =>
      if c = '%' then
        match s with
        | x :: y :: t => isHexDigit x && isHexDigit y && isRegName t
        | _ => false
      else isRegNameChar c && isRegName s

def isDecOctet (s : List Char) : Bool :=
  s != [] && s.all Char.isDigit && (s.length == 1 || s.head? != some '0') &&
    decide (Nat.ofDigitChars 10 s 0 ≤ 255)

def IsIpv4 (s : List Char) : Prop :=
  ∃ a b c d, (∀ o, o ∈ [a, b, c, d] → isDecOctet o = true) ∧ s = a ++ '.' :: b ++ '.' :: c ++ '.' :: d

def isH16 (s : List Char) : Bool := s != [] && decide (s.length ≤ 4) && s.all isHexDigit

/-- So many pieces of 16 bits, separated by colons. At the end of an address
the last two may be written as an IPv4 address. -/
inductive Pieces (final : Bool) : Nat → List Char → Prop
  | last {s : List Char} (h : isH16 s = true) : Pieces final 1 s
  | ipv4 {s : List Char} (hf : final = true) (h : IsIpv4 s) : Pieces final 2 s
  | cons {n : Nat} {s t : List Char} (h : isH16 s = true) (ht : Pieces final n t) :
      Pieces final (n + 1) (s ++ ':' :: t)

inductive Side (final : Bool) : Nat → List Char → Prop
  | none : Side final 0 []
  | some {n : Nat} {s : List Char} (h : Pieces final n s) : Side final n s

/-- Eight pieces, or fewer with a double colon for the others. -/
inductive IsIpv6 : List Char → Prop
  | full {s : List Char} (h : Pieces true 8 s) : IsIpv6 s
  | elided {m n : Nat} {s t : List Char} (hs : Side false m s) (ht : Side true n t) (h : m + n ≤ 7) :
      IsIpv6 (s ++ ':' :: ':' :: t)

inductive IsHost : List Char → Prop
  | regName {s : List Char} (h : isRegName s = true) : IsHost s
  | ipv4 {s : List Char} (h : IsIpv4 s) : IsHost s
  | literal {s : List Char} (h : IsIpv6 s) : IsHost ('[' :: s ++ [']'])

structure Authority where
  host : List Char
  legal : IsHost host
  port : Option (List Char)
  digits : ∀ p, port = some p → p.all Char.isDigit = true

def Authority.portText (a : Authority) : List Char :=
  match a.port with
  | none => []
  | some p => ':' :: p

def Authority.text (a : Authority) : List Char := a.host ++ a.portText

def isNameChar (c : Char) : Bool := isRegNameChar c || c == '%'

theorem isUpper_iff {c : Char} : c.isUpper = true ↔ 65 ≤ c.toNat ∧ c.toNat ≤ 90 := decide_eq_true_iff

theorem isLower_iff {c : Char} : c.isLower = true ↔ 97 ≤ c.toNat ∧ c.toNat ≤ 122 :=
  Bool.and_eq_true_iff.trans (and_congr decide_eq_true_iff decide_eq_true_iff)

theorem isAlphanum_iff {c : Char} :
    c.isAlphanum = true ↔
      ((65 ≤ c.toNat ∧ c.toNat ≤ 90) ∨ (97 ≤ c.toNat ∧ c.toNat ≤ 122)) ∨ (48 ≤ c.toNat ∧ c.toNat ≤ 57) :=
  Bool.or_eq_true_iff.trans
    (or_congr (Bool.or_eq_true_iff.trans (or_congr isUpper_iff isLower_iff)) Char.isDigit_iff_toNat)

theorem isHexDigit_iff {c : Char} :
    isHexDigit c = true ↔
      ((48 ≤ c.toNat ∧ c.toNat ≤ 57) ∨ (97 ≤ c.toNat ∧ c.toNat ≤ 102)) ∨ (65 ≤ c.toNat ∧ c.toNat ≤ 70) := by
  rw [isHexDigit, Bool.or_eq_true, Bool.or_eq_true, Bool.and_eq_true, Bool.and_eq_true, Char.isDigit_iff_toNat]
  simp only [decide_eq_true_eq]
  exact Iff.rfl

theorem isNameChar_of_isHexDigit {c : Char} (h : isHexDigit c = true) : isNameChar c = true := by
  have hc : c.isAlphanum = true := by
    rw [isHexDigit_iff] at h
    rw [isAlphanum_iff]
    omega
  rw [isNameChar, isRegNameChar, hc]
  rfl

theorem isNameChar_of_isDigit {c : Char} (h : c.isDigit = true) : isNameChar c = true :=
  isNameChar_of_isHexDigit (by simp [isHexDigit, h])

theorem isNameChar_lt {c : Char} (h : isNameChar c = true) : c.toNat < 128 := by
  rw [isNameChar, isRegNameChar, Bool.or_eq_true, Bool.or_eq_true] at h
  rcases h with (h | h) | h
  · rw [isAlphanum_iff] at h
    omega
  · have hall : ['-', '.', '_', '~', '!', '$', '&', '\'', '(', ')', '*', '+', ',', ';', '='].all
        (fun c => decide (c.toNat < 128)) = true := by decide
    exact of_decide_eq_true (List.all_eq_true.mp hall c (List.contains_iff_mem.mp h))
  · obtain rfl := beq_iff_eq.mp h
    decide

theorem isRegName_chars {s : List Char} (h : isRegName s = true) : ∀ c, c ∈ s → isNameChar c = true := by
  induction s using isRegName.induct with
  | case1 => exact fun c hc => absurd hc List.not_mem_nil
  | case2 x y t ih =>
      simp only [isRegName, if_true, Bool.and_eq_true] at h
      simp only [List.forall_mem_cons]
      exact ⟨rfl, isNameChar_of_isHexDigit h.1.1, isNameChar_of_isHexDigit h.1.2, ih h.2⟩
  | case3 s hs =>
      rw [isRegName, if_pos rfl] at h
      · exact absurd h (by simp)
      · exact hs
  | case4 c s hc ih =>
      rw [isRegName.eq_def] at h
      dsimp only at h
      rw [if_neg hc, Bool.and_eq_true] at h
      simp only [List.forall_mem_cons]
      exact ⟨by simp [isNameChar, h.1], ih h.2⟩

theorem isIpv4_chars {s : List Char} (h : IsIpv4 s) : ∀ c, c ∈ s → isNameChar c = true := by
  obtain ⟨a, b, c, d, ho, rfl⟩ := h
  have hoctet (o : List Char) (hm : o ∈ [a, b, c, d]) (x : Char) (hx : x ∈ o) : isNameChar x = true := by
    have ho := ho o hm
    simp only [isDecOctet, Bool.and_eq_true] at ho
    exact isNameChar_of_isDigit (List.all_eq_true.mp ho.1.1.2 x hx)
  intro x hx
  simp only [List.mem_append, List.mem_cons] at hx
  rcases hx with ((hx | rfl | hx) | rfl | hx) | rfl | hx
  · exact hoctet a (by simp) x hx
  · rfl
  · exact hoctet b (by simp) x hx
  · rfl
  · exact hoctet c (by simp) x hx
  · rfl
  · exact hoctet d (by simp) x hx

theorem isH16_chars {s : List Char} (h : isH16 s = true) : ∀ c, c ∈ s → isHexDigit c = true := by
  rw [isH16, Bool.and_eq_true] at h
  exact List.all_eq_true.mp h.2

theorem Pieces.chars {final : Bool} {n : Nat} {s : List Char} (h : Pieces final n s) :
    ∀ c, c ∈ s → c = ':' ∨ isNameChar c = true := by
  induction h with
  | last h => exact fun c hc => .inr (isNameChar_of_isHexDigit (isH16_chars h c hc))
  | ipv4 _ h => exact fun c hc => .inr (isIpv4_chars h c hc)
  | cons h _ ih =>
      intro c hc
      rcases List.mem_append.mp hc with hc | hc
      · exact .inr (isNameChar_of_isHexDigit (isH16_chars h c hc))
      · exact (List.mem_cons.mp hc).elim .inl (ih c)

theorem Side.chars {final : Bool} {n : Nat} {s : List Char} (h : Side final n s) :
    ∀ c, c ∈ s → c = ':' ∨ isNameChar c = true := by
  cases h with
  | none => exact fun c hc => absurd hc List.not_mem_nil
  | some h => exact h.chars

theorem IsIpv6.chars {s : List Char} (h : IsIpv6 s) : ∀ c, c ∈ s → c = ':' ∨ isNameChar c = true := by
  cases h with
  | full h => exact h.chars
  | elided hs ht _ =>
      intro c hc
      simp only [List.mem_append, List.mem_cons] at hc
      rcases hc with hc | rfl | rfl | hc
      · exact hs.chars c hc
      · exact .inl rfl
      · exact .inl rfl
      · exact ht.chars c hc

theorem IsHost.cases_chars {s : List Char} (h : IsHost s) :
    (∀ c, c ∈ s → isNameChar c = true) ∨ ∃ a, IsIpv6 a ∧ s = '[' :: a ++ [']'] := by
  cases h with
  | regName h => exact .inl (isRegName_chars h)
  | ipv4 h => exact .inl (isIpv4_chars h)
  | literal h => exact .inr ⟨_, h, rfl⟩

theorem IsHost.lt {s : List Char} (h : IsHost s) : ∀ c, c ∈ s → c.toNat < 128 := by
  intro c hc
  rcases h.cases_chars with hs | ⟨a, ha, rfl⟩
  · exact isNameChar_lt (hs c hc)
  · simp only [List.cons_append, List.mem_cons, List.mem_append, List.not_mem_nil, or_false] at hc
    rcases hc with rfl | hc | rfl
    · decide
    · rcases ha.chars c hc with rfl | hc
      · decide
      · exact isNameChar_lt hc
    · decide

theorem IsIpv6.head {s : List Char} (h : IsIpv6 s) :
    ∃ g t, s = g ++ ':' :: t ∧ ∀ c, c ∈ g → isHexDigit c = true := by
  cases h with
  | full h =>
      cases h with
      | cons hs ht => exact ⟨_, _, rfl, isH16_chars hs⟩
  | elided hs ht h =>
      cases hs with
      | none => exact ⟨[], _, rfl, fun c hc => absurd hc List.not_mem_nil⟩
      | some hp =>
          cases hp with
          | last hs => exact ⟨_, _, rfl, isH16_chars hs⟩
          | ipv4 hf => exact absurd hf (by simp)
          | cons hs ht => exact ⟨_, _, by rw [List.append_assoc, List.cons_append], isH16_chars hs⟩

end MiniCloudflared.Library.UriHost
