import MiniCloudflared.ThirdParty
import MiniCloudflared.Library.FirstMatch

namespace MiniCloudflared.Ingress

open Library FirstMatch HttpTypes Config ThirdParty

structure Path where
  display : Str
  extension : Option Str

def validateRules (rules : List IngressRule) : Except Error Unit :=
  match rules.getLast? with
  | none => .error (.msg "Config file has no ingress rules")
  | some last =>
      if last.hostname ≠ [] then
        .error (.msg ("Last ingress rule must be a catch-all (no hostname). " ++
          "Add:\n  - service: http_status:404"))
      else .ok ()

def withContext {α : Type} (text : Str) : Except Error α → Except Error α
  | .ok a => .ok a
  | .error e => .error (.context text e)

def loadFromFile (cr : Crates) (readToString : Path → Except Error Str) (path : Path) :
    Except Error (List IngressRule) := do
  let content ← withContext ("Cannot read config file: ".toList ++ path.display) (readToString path)
  let rules ←
    if path.extension = some "json".toList then
      withContext ("Invalid JSON in ".toList ++ path.display) (cr.json content)
    else withContext ("Invalid YAML in ".toList ++ path.display) (cr.yaml content)
  validateRules rules
  return rules

/-- First matching rule wins. -/
def resolve (t : CaseTable) (rules : List IngressRule) (host path : Str) : Option IngressRule :=
  rules.find? (fun r => r.matches t host path)

def satisfies (t : CaseTable) (host path : Str) (rule : IngressRule) : Bool :=
  (rule.hostname.isEmpty || hostOk (toLowercase t rule.hostname) (toLowercase t (requestHost host))) &&
    (rule.path.isEmpty || rule.path.isPrefixOf path)

theorem matches_eq (t : CaseTable) (host path : Str) (rule : IngressRule) :
    rule.matches t host path = (rule.hostname.isEmpty || satisfies t host path rule) := by
  rw [IngressRule.matches, satisfies]
  split
  next h => simp [h]
  next h =>
    cases hostOk (toLowercase t rule.hostname) (toLowercase t (requestHost host)) <;> simp [h]

theorem matches_of_satisfies {t : CaseTable} {host path : Str} (rule : IngressRule)
    (h : satisfies t host path rule = true) : rule.matches t host path = true := by
  rw [matches_eq, h, Bool.or_true]

theorem matches_not_satisfies (t : CaseTable) (host path : Str) (rule : IngressRule) :
    rule.matches t host path = true ∧ satisfies t host path rule = false ↔
      rule.hostname = [] ∧ rule.path ≠ [] ∧ rule.path.isPrefixOf path = false := by
  rw [matches_eq]
  cases hr : rule.hostname with
  | nil => simp [satisfies, hr]
  | cons c cs => simp

/-- The rule selected is the first one that satisfies both constraints exactly
when each hostless rule whose path constraint fails stands behind a rule that
satisfies both. -/
theorem resolve_isFirst_iff (t : CaseTable) (rules : List IngressRule) (host path : Str) :
    IsFirst (satisfies t host path) rules (resolve t rules host path) ↔
      ∀ (i : Nat) (r : IngressRule), rules[i]? = some r →
        r.hostname = [] → r.path ≠ [] → r.path.isPrefixOf path = false →
        ∃ (j : Nat) (q : IngressRule), j < i ∧ rules[j]? = some q ∧ satisfies t host path q = true := by
  rw [isFirst_iff, resolve, find?_eq_iff_guarded (fun r h => matches_of_satisfies r h)]
  constructor
  · intro h i r hr hhost hne hpre
    have hm := (matches_not_satisfies t host path r).mpr ⟨hhost, hne, hpre⟩
    exact h i r hr hm.1 hm.2
  · intro h i r hr hmatch hsat
    obtain ⟨hhost, hne, hpre⟩ := (matches_not_satisfies t host path r).mp ⟨hmatch, hsat⟩
    exact h i r hr hhost hne hpre

def apiRule : IngressRule := ⟨[], "/api".toList, "http://localhost:3000".toList⟩

def fallbackRule : IngressRule := ⟨[], [], "http_status:404".toList⟩

theorem resolve_ignores_path :
    ¬ IsFirst (satisfies asciiCase "a.com".toList "/other".toList) [apiRule, fallbackRule]
      (resolve asciiCase [apiRule, fallbackRule] "a.com".toList "/other".toList) := by
  rw [isFirst_iff]
  decide

end MiniCloudflared.Ingress
