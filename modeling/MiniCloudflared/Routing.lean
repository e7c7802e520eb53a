import MiniCloudflared.StandIns

namespace MiniCloudflared.Routing

open Library FirstMatch HttpTypes Config ThirdParty Ingress RequestBody ProxyStream StandIns

variable {β : Type}

theorem isVisibleAscii_of_isVisible {b : UInt8} (h : isVisible b = true) : isVisibleAscii b = true := by
  revert b
  apply forall_byte
  decide +kernel

def hostValue (a : Authority) : HeaderValue :=
  ⟨a.bytes, List.all_eq_true.mpr (fun b hb => isFieldByte_of_isVisible (a.visible b hb))⟩

theorem toStr_hostValue (a : Authority) : (hostValue a).toStr = some a.bytes :=
  if_pos (List.all_eq_true.mpr (fun b hb => isVisibleAscii_of_isVisible (a.visible b hb)))

/-- Two requests that differ in nothing but the place where they carry an
authority: the first in its URI, the second in a Host field. -/
structure Carriers (a : Authority) (r s : HttpTypes.Request β) : Prop where
  in_uri : r.uri.authority = some a
  no_host : r.headers.getAll HOST = []
  no_uri : s.uri.authority = none
  in_host : s.headers.getAll HOST = [hostValue a]
  same_method : s.method = r.method
  same_path : s.uri.pathAndQuery = r.uri.pathAndQuery
  same_fields : ∀ k, k ≠ HOST → s.headers.getAll k = r.headers.getAll k
  same_body : s.body = r.body

def SameRoute (t : CaseTable) (rules : List IngressRule) (a : Authority) (r s : HttpTypes.Request β) :
    Prop :=
  selectRule t rules r = resolve t rules (toStr a.bytes) (pathOf r) ∧
    selectRule t rules s = resolve t rules (toStr a.bytes) (pathOf r)

theorem selectRule_no_host (t : CaseTable) (rules : List IngressRule) {r : HttpTypes.Request β}
    (h : r.headers.getAll HOST = []) :
    selectRule t rules r = rules.find? (fun rule => rule.hostname.isEmpty) := by
  have hhost : hostOf r = [] := by
    rw [hostOf, MultiMap.get, h]
    rfl
  rw [selectRule, hhost, resolve]
  congr 1
  funext rule
  exact matches_nil t rule (pathOf r)

theorem selectRule_host (t : CaseTable) (rules : List IngressRule) {s : HttpTypes.Request β}
    {a : Authority} (h : s.headers.getAll HOST = [hostValue a]) :
    selectRule t rules s = resolve t rules (toStr a.bytes) (pathOf s) := by
  have hhost : hostOf s = toStr a.bytes := by
    rw [hostOf, MultiMap.get, h]
    change toStr ((hostValue a).toStr.getD []) = _
    rw [toStr_hostValue]
    rfl
  rw [selectRule, hhost]

theorem matches_of_hostless (t : CaseTable) (host path : Str) (rule : IngressRule)
    (h : rule.hostname.isEmpty = true) : rule.matches t host path = true := by
  rw [matches_eq, h, Bool.true_or]

/-- An authority leads to the same rule from either place exactly when each
rule for it that names a host stands behind a rule that names none. -/
theorem sameRoute_iff (t : CaseTable) (rules : List IngressRule) {a : Authority}
    {r s : HttpTypes.Request β} (h : Carriers a r s) :
    SameRoute t rules a r s ↔
      ∀ (i : Nat) (rule : IngressRule), rules[i]? = some rule →
        rule.matches t (toStr a.bytes) (pathOf r) = true → rule.hostname.isEmpty = false →
        ∃ (j : Nat) (q : IngressRule), j < i ∧ rules[j]? = some q ∧ q.hostname.isEmpty = true := by
  have hpath : pathOf s = pathOf r := by
    unfold pathOf Uri.path
    rw [h.same_path]
  have hs : selectRule t rules s = resolve t rules (toStr a.bytes) (pathOf r) := by
    rw [selectRule_host t rules h.in_host, hpath]
  have hguard := find?_eq_iff_guarded
    (matches_of_hostless t (toStr a.bytes) (pathOf r)) rules
  rw [SameRoute]
  rw [selectRule_no_host t rules h.no_host, eq_comm, resolve]
  exact (and_iff_left hs).trans hguard

def getRequest (authority : Option Authority) (headers : HeaderMap) : HttpTypes.Request RecvStream where
  method := GET
  uri := ⟨authority, some slash⟩
  headers := headers
  body := ⟨[], .clean⟩

theorem carriers_exampleCom :
    Carriers exampleCom (getRequest (some exampleCom) .empty)
      (getRequest none (.ofList [(HOST, hostValue exampleCom)])) where
  in_uri := rfl
  no_host := rfl
  no_uri := rfl
  in_host := rfl
  same_method := rfl
  same_path := rfl
  same_fields k hk := by
    have hne : HOST ≠ k := Ne.symm hk
    simp [getRequest, MultiMap.getAll_ofList, valuesAt_cons, hne]
  same_body := rfl

theorem sameRoute_iff_exampleCom :
    SameRoute asciiCase [fallbackRule] exampleCom (getRequest (some exampleCom) .empty)
      (getRequest none (.ofList [(HOST, hostValue exampleCom)])) := by
  refine (sameRoute_iff asciiCase [fallbackRule] carriers_exampleCom).mpr ?_
  intro i rule hi _ hne
  obtain rfl : fallbackRule = rule := by
    cases i with
    | zero => simpa using hi
    | succ i => simp at hi
  exact absurd hne (by decide)

def hostRule : IngressRule := ⟨"example.com".toList, [], "http://localhost:3000".toList⟩

theorem not_sameRoute :
    Carriers exampleCom (getRequest (some exampleCom) .empty)
      (getRequest none (.ofList [(HOST, hostValue exampleCom)])) ∧
    ¬ SameRoute asciiCase [hostRule, fallbackRule] exampleCom (getRequest (some exampleCom) .empty)
      (getRequest none (.ofList [(HOST, hostValue exampleCom)])) := by
  refine ⟨carriers_exampleCom, fun h => ?_⟩
  have hr : selectRule asciiCase [hostRule, fallbackRule] (getRequest (some exampleCom) .empty) =
      some fallbackRule := by
    decide +kernel
  have hs : resolve asciiCase [hostRule, fallbackRule] (toStr exampleCom.bytes)
      (pathOf (getRequest (some exampleCom) .empty)) = some hostRule := by
    decide +kernel
  have heq := h.1
  rw [hr, hs] at heq
  exact absurd heq (by decide)

end MiniCloudflared.Routing
