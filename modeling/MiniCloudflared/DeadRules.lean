import MiniCloudflared.HostMatching
import MiniCloudflared.Ingress
import Mathlib.Algebra.Order.BigOperators.Group.List
import Mathlib.Algebra.Order.Group.Nat

namespace MiniCloudflared.DeadRules

open Library FirstMatch HttpTypes Config Ingress HostMatching

/-- A hostname that a request can name: without a port, as the port of a
request is cut off. -/
structure Plain (rule : IngressRule) : Prop where
  ascii : ∀ c, c ∈ rule.hostname → c.toNat < 128
  portless : ':' ∉ rule.hostname

def isWildcard (h : Str) : Bool := ['*', '.'].isPrefixOf h

def hostCovers (h h' : Str) : Bool :=
  if isWildcard h' then isWildcard h && (h.drop 1).isSuffixOf (h'.drop 1) else hostOk h h'

def covers (rule rule' : IngressRule) : Bool :=
  if rule.hostname = [] then true
  else if rule'.hostname = [] then false
  else hostCovers (foldCase rule.hostname) (foldCase rule'.hostname) && rule.path.isPrefixOf rule'.path

def accepts (t : CaseTable) (rule : IngressRule) (target : Str × Str) : Bool := rule.matches t target.1 target.2

variable {t : CaseTable} {rule rule' : IngressRule}

theorem hostOk_wildcard_iff {h : Str} (hw : isWildcard h = true) (x : Str) :
    hostOk h x = true ↔ h.drop 1 <:+ x := by
  have hok : hostOk h x = (h.drop 1).isSuffixOf x := if_pos hw
  rw [hok]
  exact List.isSuffixOf_iff_suffix

theorem hostOk_exact_iff {h : Str} (hw : isWildcard h = false) (x : Str) : hostOk h x = true ↔ x = h := by
  have hok : hostOk h x = (h == x) := if_neg (Bool.eq_false_iff.mp hw)
  rw [hok, beq_iff_eq]
  exact eq_comm

theorem accepts_named (hplain : Plain rule) (hne : rule.hostname ≠ []) (host path : Str) :
    accepts t rule (host, path) = true ↔
      hostOk (foldCase rule.hostname) (toLowercase t (requestHost host)) = true ∧ rule.path <+: path := by
  have hempty : rule.path.isEmpty = true → rule.path.isPrefixOf path = true := by
    intro h
    rw [List.isEmpty_iff.mp h]
    exact List.isPrefixOf_nil_left
  rw [accepts, matches_eq, satisfies, toLowercase_ascii t hplain.ascii, ← foldCase]
  simp only [List.isEmpty_eq_false_iff.mpr hne, Bool.false_or, Bool.and_eq_true, Bool.or_eq_true,
    List.isPrefixOf_iff_prefix] at hempty ⊢
  exact and_congr_right fun _ => ⟨fun h => h.elim hempty id, Or.inr⟩

theorem hostCovers_sound {h h' x : Str} (hc : hostCovers h h' = true) (hx : hostOk h' x = true) :
    hostOk h x = true := by
  rw [hostCovers] at hc
  split at hc
  next hw =>
    obtain ⟨hw', hsuffix⟩ := Bool.and_eq_true_iff.mp hc
    rw [hostOk_wildcard_iff hw] at hx
    exact (hostOk_wildcard_iff hw' x).mpr ((List.isSuffixOf_iff_suffix.mp hsuffix).trans hx)
  next hw =>
    rw [(hostOk_exact_iff (by simpa using hw) x).mp hx]
    exact hc

theorem covers_sound (hplain : Plain rule) (hplain' : Plain rule') (h : covers rule rule' = true) :
    Covers (accepts t) rule rule' := by
  rintro ⟨host, path⟩ haccepts
  rw [covers] at h
  split at h
  next hnil => exact if_pos hnil
  next hne =>
    split at h
    next => exact absurd h Bool.false_ne_true
    next hne' =>
      obtain ⟨hhost, hpath⟩ := Bool.and_eq_true_iff.mp h
      obtain ⟨hok, hprefix⟩ := (accepts_named hplain' hne' host path).mp haccepts
      refine (accepts_named hplain hne host path).mpr ⟨hostCovers_sound hhost hok, ?_⟩
      exact (List.isPrefixOf_iff_prefix.mp hpath).trans hprefix

def filler (rules : List IngressRule) : Str := List.replicate ((rules.map fun r => r.hostname.length).sum + 1) 'a'

/-- A request for a rule that no other rule accepts by chance. -/
def generic (rules : List IngressRule) (rule : IngressRule) : Str × Str :=
  if isWildcard (foldCase rule.hostname) then (filler rules ++ rule.hostname.drop 1, rule.path)
  else (rule.hostname, rule.path)

theorem lowered_of_plain {host : Str} (hascii : ∀ c, c ∈ host → c.toNat < 128) (hport : ':' ∉ host) :
    toLowercase t (requestHost host) = foldCase host := by
  have hhost : requestHost host = host := by
    refine List.takeWhile_eq_self_iff.mpr fun c hc => ?_
    rw [bne_iff_ne]
    rintro rfl
    exact hport hc
  rw [hhost, toLowercase_ascii t hascii, foldCase]

theorem lowered_exact (hplain : Plain rule) : toLowercase t (requestHost rule.hostname) = foldCase rule.hostname :=
  lowered_of_plain hplain.ascii hplain.portless

theorem filler_mem {rules : List IngressRule} {c : Char} (hc : c ∈ filler rules) : c = 'a' :=
  List.eq_of_mem_replicate hc

theorem lowered_wildcard (hplain : Plain rule) (rules : List IngressRule) :
    toLowercase t (requestHost (filler rules ++ rule.hostname.drop 1)) =
      filler rules ++ (foldCase rule.hostname).drop 1 := by
  have hfold : foldCase (filler rules ++ rule.hostname.drop 1) = filler rules ++ (foldCase rule.hostname).drop 1 := by
    rw [foldCase, List.map_append, filler, List.map_replicate, foldCase, List.map_drop]
    rfl
  rw [← hfold]
  refine lowered_of_plain (fun c hc => ?_) (fun hc => ?_)
  · rcases List.mem_append.mp hc with hc | hc
    · rw [filler_mem hc]
      decide
    · exact hplain.ascii c (List.mem_of_mem_drop hc)
  · rcases List.mem_append.mp hc with hc | hc
    · exact absurd (filler_mem hc) (by decide)
    · exact hplain.portless (List.mem_of_mem_drop hc)

theorem generic_accepted (hplain : Plain rule) (rules : List IngressRule) :
    accepts t rule (generic rules rule) = true := by
  by_cases hne : rule.hostname = []
  · exact if_pos hne
  · rw [generic]
    split
    next hw =>
      rw [accepts_named hplain hne, lowered_wildcard hplain, hostOk_wildcard_iff hw]
      exact ⟨List.suffix_append _ _, List.prefix_rfl⟩
    next hw =>
      rw [accepts_named hplain hne, lowered_exact hplain, hostOk_exact_iff (by simpa using hw)]
      exact ⟨rfl, List.prefix_rfl⟩

theorem length_lt_filler {rules : List IngressRule} (h : rule ∈ rules) :
    rule.hostname.length < (filler rules).length := by
  rw [filler, List.length_replicate]
  exact Nat.lt_succ_of_le (List.le_sum_of_mem (List.mem_map_of_mem h))

theorem suffix_behind {s u : Str} (n : Nat) (h : '.' :: s <:+ List.replicate n 'a' ++ u) : '.' :: s <:+ u := by
  induction n with
  | zero => exact h
  | succ n ih =>
      rw [List.replicate_succ, List.cons_append, List.suffix_cons_iff] at h
      rcases h with h | h
      · exact absurd (List.cons.inj h).1 (by decide)
      · exact ih h

theorem drop_wildcard {h : Str} (hw : isWildcard h = true) : ∃ s, h.drop 1 = '.' :: s := by
  obtain ⟨s, rfl⟩ := List.isPrefixOf_iff_prefix.mp hw
  exact ⟨s, rfl⟩

theorem covers_of_generic {rules : List IngressRule} (hmem : rule ∈ rules) (hplain : Plain rule)
    (hplain' : Plain rule') (h : accepts t rule (generic rules rule') = true) : covers rule rule' = true := by
  rw [covers]
  split
  next => rfl
  next hne =>
    split
    next hnil =>
      have hempty : rule.hostname.isEmpty = true := by
        have hgeneric : generic rules rule' = ([], rule'.path) := by
          rw [generic, hnil]
          rfl
        rw [hgeneric, accepts, matches_nil] at h
        exact h
      exact absurd (List.isEmpty_iff.mp hempty) hne
    next =>
      rw [generic] at h
      split at h
      next hw =>
        rw [accepts_named hplain hne, lowered_wildcard hplain'] at h
        refine Bool.and_eq_true_iff.mpr ⟨?_, List.isPrefixOf_iff_prefix.mpr h.2⟩
        rw [hostCovers, if_pos hw]
        cases hw' : isWildcard (foldCase rule.hostname) with
        | true =>
            obtain ⟨s, hs⟩ := drop_wildcard hw'
            have hsuffix := (hostOk_wildcard_iff hw' _).mp h.1
            rw [hs] at hsuffix ⊢
            exact List.isSuffixOf_iff_suffix.mpr (suffix_behind _ hsuffix)
        | false =>
            have hlen := congrArg List.length ((hostOk_exact_iff hw' _).mp h.1)
            have hlt := length_lt_filler hmem
            have hfold : (foldCase rule.hostname).length = rule.hostname.length := List.length_map _
            rw [List.length_append, hfold] at hlen
            omega
      next hw =>
        rw [accepts_named hplain hne, lowered_exact hplain'] at h
        refine Bool.and_eq_true_iff.mpr ⟨?_, List.isPrefixOf_iff_prefix.mpr h.2⟩
        rw [hostCovers, if_neg hw]
        exact h.1

/-- No request comes to a rule if and only if a single rule before it covers
it, which can be told from the two rules. Such a rule can be left out. -/
theorem dead_iff_covered (t : CaseTable) {rules : List IngressRule} (hplain : ∀ r, r ∈ rules → Plain r) {i : Nat}
    (hi : rules[i]? = some rule) :
    ((∀ target, ¬ FirstAt (accepts t) rules i target) ↔
      ∃ (j : Nat) (q : IngressRule), j < i ∧ rules[j]? = some q ∧ covers q rule = true) ∧
    ((∀ target, ¬ FirstAt (accepts t) rules i target) →
      ∀ host path, resolve t (rules.eraseIdx i) host path = resolve t rules host path) ∧
    ∀ host path, FirstAt (accepts t) rules i (host, path) → resolve t rules host path = some rule := by
  have hrule := hplain rule (List.mem_of_getElem? hi)
  refine ⟨?_, fun hdead host path => find?_eraseIdx (hdead (host, path)), fun host path hfirst => ?_⟩
  · rw [never_first_iff hi (generic_accepted hrule rules) fun j q _ hq haccepts =>
      covers_sound (hplain q (List.mem_of_getElem? hq)) hrule
        (covers_of_generic (List.mem_of_getElem? hq) (hplain q (List.mem_of_getElem? hq)) hrule haccepts)]
    constructor
    · rintro ⟨j, q, hj, hq, hcovers⟩
      have hmem := List.mem_of_getElem? hq
      exact ⟨j, q, hj, hq, covers_of_generic hmem (hplain q hmem) hrule
        (hcovers _ (generic_accepted hrule rules))⟩
    · rintro ⟨j, q, hj, hq, hcovers⟩
      exact ⟨j, q, hj, hq, covers_sound (hplain q (List.mem_of_getElem? hq)) hrule hcovers⟩
  · obtain ⟨a, ha, hfind⟩ := hfirst.find?
    obtain rfl := Option.some.inj (hi.symm.trans ha)
    exact hfind

def wildcardRule : IngressRule := ⟨"*.Example.com".toList, "/api".toList, "http://localhost:3000".toList⟩

def shopRule : IngressRule := ⟨"shop.example.com".toList, "/api/v1".toList, "https://localhost:8443".toList⟩

def shopTable : List IngressRule := [wildcardRule, shopRule, fallbackRule]

theorem dead_iff_covered_shopRule :
    (∀ target, ¬ FirstAt (accepts asciiCase) shopTable 1 target) ∧
    ∀ host path, resolve asciiCase [wildcardRule, fallbackRule] host path = resolve asciiCase shopTable host path := by
  have hplain : ∀ r, r ∈ shopTable → Plain r := by
    have hascii {r : IngressRule} (h : (r.hostname.all fun c => c.toNat < 128 && c != ':') = true) : Plain r := by
      rw [List.all_eq_true] at h
      refine ⟨fun c hc => by simpa using (Bool.and_eq_true_iff.mp (h c hc)).1, fun hc => ?_⟩
      simpa using (Bool.and_eq_true_iff.mp (h _ hc)).2
    simp only [shopTable, List.forall_mem_cons]
    exact ⟨hascii (by decide +kernel), hascii (by decide +kernel), hascii rfl, fun _ hr => absurd hr List.not_mem_nil⟩
  have h := dead_iff_covered asciiCase hplain (i := 1) rfl
  have hdead := h.1.mpr ⟨0, wildcardRule, Nat.zero_lt_one, rfl, by decide +kernel⟩
  exact ⟨hdead, h.2.1 hdead⟩

end MiniCloudflared.DeadRules
