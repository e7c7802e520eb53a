import MiniCloudflared.Config
import MiniCloudflared.Library.UriHost

namespace MiniCloudflared.HostMatching

open Library UriHost HttpTypes Config

/-- The hostnames of rules: a host as it stands, or the names below one. -/
inductive Pattern
  | exact (h : Str) (legal : IsHost h) (named : h ≠ []) (whole : ¬ ['*', '.'] <+: h)
  | wildcard (d : Str) (legal : isRegName d = true)

def Pattern.hostname : Pattern → Str
  | .exact h _ _ _ => h
  | .wildcard d _ => '*' :: '.' :: d

def foldCase (s : Str) : Str := s.map Char.toLower

def Pattern.Selects (host : Str) : Pattern → Prop
  | .exact h _ _ _ => foldCase host = foldCase h
  | .wildcard d _ => ∃ l, l ≠ [] ∧ foldCase host = l ++ '.' :: foldCase d

def Follows (t : CaseTable) (p : Pattern) (service : Str) (a : UriHost.Authority) (path : Str) : Prop :=
  IngressRule.matches t ⟨p.hostname, [], service⟩ a.text path = true ↔ p.Selects a.host

def IsLiteral (host : Str) : Prop := host.head? = some '['

/-- What keeps a pattern from a host that it is not matched with as it should:
the host is a literal of an IPv6 address, or nothing stands before the name. -/
def Pattern.Apart (host : Str) : Pattern → Prop
  | .exact h _ _ _ => ¬ (IsLiteral host ∧ foldCase host = foldCase h)
  | .wildcard d _ => foldCase host ≠ '.' :: foldCase d

theorem eq_of_toLower {c d : Char} (hd : d.isLower = false) (h : c.toLower = d) : c = d := by
  by_cases hc : 65 ≤ c.toNat ∧ c.toNat ≤ 90
  · have hlower : c.toLower.toNat = (c.toNat + 32) % 2 ^ 32 := congrArg Char.toNat (dif_pos hc)
    have hn := mt isLower_iff.mpr (Bool.eq_false_iff.mp hd)
    rw [← h, hlower] at hn
    omega
  · have hkept : c.toLower = c := dif_neg hc
    exact hkept.symm.trans h

theorem mem_of_foldCase {c : Char} {s : Str} (hc : c.isLower = false) (h : c ∈ foldCase s) : c ∈ s := by
  obtain ⟨x, hx, he⟩ := List.mem_map.mp h
  rwa [← eq_of_toLower hc he]

theorem notMem_of_names {c : Char} {s : Str} (hs : ∀ c, c ∈ s → isNameChar c = true)
    (hc : isNameChar c = false) : c ∉ s := fun h => absurd (hs c h) (by simp [hc])

theorem not_isLiteral {s : Str} (hs : ∀ c, c ∈ s → isNameChar c = true) : ¬ IsLiteral s :=
  fun h => notMem_of_names hs (by decide) (List.mem_of_head? h)

theorem takeWhile_portText (a : UriHost.Authority) : a.portText.takeWhile (· != ':') = [] := by
  rw [Authority.portText]
  split <;> rfl

theorem requestHost_name {a : UriHost.Authority} (hs : ∀ c, c ∈ a.host → isNameChar c = true) :
    requestHost a.text = a.host := by
  have hcolon : ∀ c, c ∈ a.host → (c != ':') = true :=
    fun c hc => bne_iff_ne.mpr (fun he => notMem_of_names hs (by decide) (he ▸ hc))
  rw [requestHost, Authority.text, List.takeWhile_append_of_pos hcolon, takeWhile_portText,
    List.append_nil]

theorem requestHost_literal {a : UriHost.Authority} {s : Str} (hs : IsIpv6 s)
    (ha : a.host = '[' :: s ++ [']']) :
    ∃ g, requestHost a.text = '[' :: g ∧ ∀ c, c ∈ g → isHexDigit c = true := by
  obtain ⟨g, t, rfl, hg⟩ := hs.head
  have hcolon : ∀ c, c ∈ '[' :: g → (c != ':') = true := by
    rw [List.forall_mem_cons]
    exact ⟨rfl, fun c hc => bne_iff_ne.mpr (fun he => absurd (hg c hc) (by rw [he]; decide))⟩
  have htext : a.text = ('[' :: g) ++ ':' :: (t ++ [']'] ++ a.portText) := by
    rw [Authority.text, ha]
    simp
  refine ⟨g, ?_, hg⟩
  rw [requestHost, htext, List.takeWhile_append_of_pos hcolon]
  simp

theorem Pattern.hostname_ne_nil (p : Pattern) : p.hostname ≠ [] := by
  cases p with
  | exact h legal named whole => exact named
  | wildcard d legal => exact List.cons_ne_nil _ _

theorem Pattern.hostname_lt (p : Pattern) : ∀ c, c ∈ p.hostname → c.toNat < 128 := by
  cases p with
  | exact h legal named whole => exact legal.lt
  | wildcard d legal =>
      rw [Pattern.hostname, List.forall_mem_cons, List.forall_mem_cons]
      exact ⟨by decide, by decide, fun c hc => isNameChar_lt (isRegName_chars legal c hc)⟩

theorem requestHost_lt (a : UriHost.Authority) : ∀ c, c ∈ requestHost a.text → c.toNat < 128 := by
  rcases a.legal.cases_chars with hs | ⟨s, hs, ha⟩
  · rw [requestHost_name hs]
    exact a.legal.lt
  · obtain ⟨g, hg, hhex⟩ := requestHost_literal hs ha
    rw [hg, List.forall_mem_cons]
    exact ⟨by decide, fun c hc => isNameChar_lt (isNameChar_of_isHexDigit (hhex c hc))⟩

theorem matches_pattern (t : CaseTable) (p : Pattern) (service : Str) (a : UriHost.Authority) (path : Str) :
    IngressRule.matches t ⟨p.hostname, [], service⟩ a.text path =
      hostOk (foldCase p.hostname) (foldCase (requestHost a.text)) := by
  rw [IngressRule.matches, if_neg p.hostname_ne_nil, toLowercase_ascii t p.hostname_lt,
    toLowercase_ascii t (requestHost_lt a)]
  change (if (!hostOk (foldCase p.hostname) (foldCase (requestHost a.text))) = true then false else true) = _
  cases hostOk (foldCase p.hostname) (foldCase (requestHost a.text)) <;> rfl

theorem prefix_of_foldCase {h : Str} (hp : ['*', '.'] <+: foldCase h) : ['*', '.'] <+: h := by
  obtain ⟨rest, hrest⟩ := hp
  match h, hrest with
  | x :: y :: s, hrest =>
      obtain ⟨hx, hy⟩ := List.cons.inj hrest
      obtain rfl := eq_of_toLower rfl hx.symm
      obtain rfl := eq_of_toLower rfl (List.cons.inj hy).1.symm
      exact ⟨s, rfl⟩
  | [x], hrest => exact absurd hrest (by simp [foldCase])
  | [], hrest => exact absurd hrest (by simp [foldCase])

theorem hostOk_exact {h q : Str} (hw : ¬ ['*', '.'] <+: h) :
    hostOk (foldCase h) q = true ↔ q = foldCase h := by
  rw [hostOk, if_neg (fun hp => hw (prefix_of_foldCase (List.isPrefixOf_iff_prefix.mp hp))), beq_iff_eq]
  exact eq_comm

theorem hostOk_wildcard (d q : Str) :
    hostOk (foldCase ('*' :: '.' :: d)) q = true ↔ '.' :: foldCase d <:+ q := by
  have hp : ['*', '.'].isPrefixOf (foldCase ('*' :: '.' :: d)) = true := rfl
  rw [hostOk, if_pos hp]
  exact List.isSuffixOf_iff_suffix

/-- A host that is no literal is what stands before the colon. -/
theorem follows_name {t : CaseTable} {p : Pattern} {service : Str} {a : UriHost.Authority} {path : Str}
    (hs : ∀ c, c ∈ a.host → isNameChar c = true) : Follows t p service a path ↔ p.Apart a.host := by
  rw [Follows, matches_pattern, requestHost_name hs]
  cases p with
  | exact h legal named whole =>
      exact iff_of_true (hostOk_exact whole) (fun hl => not_isLiteral hs hl.1)
  | wildcard d legal =>
      rw [Pattern.hostname, hostOk_wildcard, Pattern.Selects, Pattern.Apart]
      constructor
      · rintro hiff he
        obtain ⟨l, hl, hhost⟩ := hiff.mp ⟨[], he.symm⟩
        rw [he] at hhost
        exact hl (List.self_eq_append_left.mp hhost)
      · intro hne
        constructor
        · rintro ⟨l, hl⟩
          refine ⟨l, ?_, hl.symm⟩
          rintro rfl
          exact hne hl.symm
        · rintro ⟨l, _, hl⟩
          exact ⟨l, hl.symm⟩

theorem mem_foldCase {c : Char} {s : Str} (hc : c.toLower = c) (h : c ∈ s) : c ∈ foldCase s :=
  List.mem_map.mpr ⟨c, h, hc⟩

theorem ne_cut_literal {h g : Str} (legal : IsHost h) (hg : ∀ c, c ∈ g → isHexDigit c = true) :
    foldCase ('[' :: g) ≠ foldCase h := by
  intro he
  have hopen : '[' ∈ h := by
    apply mem_of_foldCase rfl
    rw [← he]
    exact List.mem_cons_self
  rcases legal.cases_chars with hs | ⟨s, _, rfl⟩
  · exact notMem_of_names hs (by decide) hopen
  · have hclose : ']' ∈ '[' :: g := by
      apply mem_of_foldCase rfl
      rw [he]
      exact mem_foldCase rfl (by simp)
    rcases List.mem_cons.mp hclose with h | h
    · exact absurd h (by decide)
    · exact absurd (hg _ h) (by decide)

theorem dot_notMem_literal {g : Str} (hg : ∀ c, c ∈ g → isHexDigit c = true) :
    '.' ∉ foldCase ('[' :: g) := by
  intro h
  rcases List.mem_cons.mp (mem_of_foldCase rfl h) with h | h
  · exact absurd h (by decide)
  · exact absurd (hg _ h) (by decide)

theorem literal_not_below {s l d : Str} (hd : isRegName d = true) :
    foldCase ('[' :: s ++ [']']) ≠ l ++ '.' :: foldCase d := by
  intro he
  have hlast : (l ++ '.' :: foldCase d).getLast? = some ']' := by
    rw [← he, foldCase, List.map_append]
    exact List.getLast?_concat
  rw [List.getLast?_append_cons] at hlast
  rcases List.mem_cons.mp (List.mem_of_getLast? hlast) with h | h
  · exact absurd h (by decide)
  · exact notMem_of_names (isRegName_chars hd) (by decide) (mem_of_foldCase rfl h)

theorem follows_literal {t : CaseTable} {p : Pattern} {service : Str} {a : UriHost.Authority} {path s : Str}
    (hs : IsIpv6 s) (ha : a.host = '[' :: s ++ [']']) : Follows t p service a path ↔ p.Apart a.host := by
  obtain ⟨g, hcut, hg⟩ := requestHost_literal hs ha
  rw [Follows, matches_pattern, hcut]
  cases p with
  | exact h legal named whole =>
      have hliteral : IsLiteral a.host := by
        rw [IsLiteral, ha]
        rfl
      have hno : ¬ hostOk (foldCase h) (foldCase ('[' :: g)) = true :=
        fun hm => ne_cut_literal legal hg ((hostOk_exact whole).mp hm)
      rw [Pattern.hostname, iff_false_left hno]
      exact not_congr (and_iff_right hliteral).symm
  | wildcard d legal =>
      have hno : ¬ hostOk (foldCase ('*' :: '.' :: d)) (foldCase ('[' :: g)) = true :=
        fun hm => dot_notMem_literal hg (((hostOk_wildcard d _).mp hm).subset List.mem_cons_self)
      rw [Pattern.hostname, iff_false_left hno, Pattern.Selects, Pattern.Apart, ha]
      refine iff_of_true ?_ (literal_not_below (l := []) legal)
      rintro ⟨l, _, hl⟩
      exact literal_not_below legal hl

/-- A rule without a path is matched as the syntax of hosts has it, but for
literals of IPv6 addresses, which are cut at their first colon, and for a host
that begins with the dot of a wildcard. -/
theorem follows_iff (t : CaseTable) (p : Pattern) (service : Str) (a : UriHost.Authority) (path : Str) :
    Follows t p service a path ↔ p.Apart a.host := by
  rcases a.legal.cases_chars with hs | ⟨s, hs, ha⟩
  · exact follows_name hs
  · exact follows_literal hs ha

theorem loopback_isIpv6 : IsIpv6 [':', ':', '1'] := .elided (s := []) .none (.some (.last rfl)) (by decide)

def loopback : Pattern :=
  .exact ['[', ':', ':', '1', ']'] (.literal loopback_isIpv6) (by decide) (by decide)

def loopbackOnPort : UriHost.Authority where
  host := ['[', ':', ':', '1', ']']
  legal := .literal loopback_isIpv6
  port := some ['8', '0', '8', '0']
  digits p hp := by
    obtain rfl := Option.some.inj hp
    rfl

def belowExample : Pattern := .wildcard "example.com".toList (by decide +kernel)

def dotExample : UriHost.Authority where
  host := ".example.com".toList
  legal := .regName (by decide +kernel)
  port := none
  digits p hp := absurd hp (by simp)

/-- A rule for [::1] does not match [::1]:8080, and one for the names below
example.com matches .example.com. -/
theorem loopback_not_followed :
    IngressRule.matches asciiCase ⟨loopback.hostname, [], []⟩ loopbackOnPort.text ['/'] = false ∧
      ¬ Follows asciiCase loopback [] loopbackOnPort ['/'] ∧
      IngressRule.matches asciiCase ⟨belowExample.hostname, [], []⟩ dotExample.text ['/'] = true ∧
      ¬ Follows asciiCase belowExample [] dotExample ['/'] := by
  have hliteral : IngressRule.matches asciiCase ⟨loopback.hostname, [], []⟩ loopbackOnPort.text ['/'] = false := by
    decide +kernel
  have hdot : IngressRule.matches asciiCase ⟨belowExample.hostname, [], []⟩ dotExample.text ['/'] = true := by
    decide +kernel
  refine ⟨hliteral, fun h => ?_, hdot, fun h => ?_⟩
  · exact absurd (hliteral.symm.trans (h.mpr rfl)) (by decide)
  · obtain ⟨l, hl, he⟩ := h.mp hdot
    have hhost : foldCase dotExample.host = '.' :: foldCase "example.com".toList := by
      decide +kernel
    rw [hhost] at he
    exact hl (List.self_eq_append_left.mp he)

end MiniCloudflared.HostMatching
