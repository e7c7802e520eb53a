import Mathlib.Data.List.Basic

namespace MiniCloudflared.Library

variable {κ ν : Type} [DecidableEq κ]

def valuesAt (k : κ) (ps : List (κ × ν)) : List ν :=
  ps.filterMap (fun p => if p.1 = k then some p.2 else none)

@[simp] theorem valuesAt_nil (k : κ) : valuesAt k ([] : List (κ × ν)) = [] := rfl

theorem valuesAt_cons (k : κ) (p : κ × ν) (ps : List (κ × ν)) :
    valuesAt k (p :: ps) = if p.1 = k then p.2 :: valuesAt k ps else valuesAt k ps := by
  by_cases h : p.1 = k <;> simp [valuesAt, h]

@[simp] theorem valuesAt_append (k : κ) (ps qs : List (κ × ν)) :
    valuesAt k (ps ++ qs) = valuesAt k ps ++ valuesAt k qs := by
  simp [valuesAt]

theorem mem_valuesAt {k : κ} {v : ν} {ps : List (κ × ν)} : v ∈ valuesAt k ps ↔ (k, v) ∈ ps := by
  induction ps with
  | nil => simp
  | cons p ps ih =>
      rcases p with ⟨j, w⟩
      by_cases h : j = k
      · subst h; simp [valuesAt_cons, ih]
      · simp [valuesAt_cons, h, ih, Ne.symm h]

theorem valuesAt_filter (k : κ) (keep : κ → Bool) (ps : List (κ × ν)) :
    valuesAt k (ps.filter (fun p => keep p.1)) = if keep k then valuesAt k ps else [] := by
  induction ps with
  | nil => simp
  | cons p ps ih =>
      by_cases h : p.1 = k
      · subst h; cases hk : keep p.1 <;> simp_all [valuesAt_cons]
      · cases hk : keep p.1 <;> simp_all [valuesAt_cons]

def lookup (k : κ) : List (κ × List ν) → List ν
  | [] => []
  | (j, vs) :: es => if j = k then vs else lookup k es

def update (f : List ν → List ν) (k : κ) : List (κ × List ν) → List (κ × List ν)
  | [] => [(k, f [])]
  | (j, vs) :: es => if j = k then (j, f vs) :: es else (j, vs) :: update f k es

theorem lookup_update (f : List ν → List ν) (k k' : κ) (es : List (κ × List ν)) :
    lookup k' (update f k es) = if k' = k then f (lookup k es) else lookup k' es := by
  induction es with
  | nil =>
      by_cases h : k = k'
      · subst h; simp [update, lookup]
      · simp [update, lookup, h, Ne.symm h]
  | cons e es ih =>
      rcases e with ⟨j, vs⟩
      by_cases hj : j = k
      · subst hj
        by_cases h : k' = j <;> simp [update, lookup, h, eq_comm]
      · by_cases h : j = k'
        · subst h; simp [update, lookup, hj]
        · simp [update, lookup, hj, h, ih]

theorem mem_keys_update {f : List ν → List ν} {k j : κ} {es : List (κ × List ν)}
    (h : j ∈ (update f k es).map Prod.fst) : j = k ∨ j ∈ es.map Prod.fst := by
  induction es with
  | nil => exact Or.inl (by simpa [update] using h)
  | cons e es ih =>
      rcases e with ⟨i, vs⟩
      by_cases hi : i = k
      · exact Or.inr (by simpa [update, hi] using h)
      · simp only [update, hi, if_false, List.map_cons, List.mem_cons] at h ⊢
        rcases h with h | h
        · exact Or.inr (Or.inl h)
        · exact (ih h).imp_right Or.inr

theorem nodup_update {f : List ν → List ν} {k : κ} {es : List (κ × List ν)}
    (h : (es.map Prod.fst).Nodup) : ((update f k es).map Prod.fst).Nodup := by
  induction es with
  | nil => simp [update]
  | cons e es ih =>
      rcases e with ⟨i, vs⟩
      rw [List.map_cons, List.nodup_cons] at h
      by_cases hi : i = k
      · simpa [update, hi] using h
      · simp only [update, hi, if_false, List.map_cons, List.nodup_cons]
        refine ⟨fun hm => ?_, ih h.2⟩
        rcases mem_keys_update hm with he | he
        · exact hi he
        · exact h.1 he

theorem nonempty_update {f : List ν → List ν} {k : κ} {es : List (κ × List ν)}
    (hf : ∀ vs, f vs ≠ []) (h : ∀ e, e ∈ es → e.2 ≠ []) :
    ∀ e, e ∈ update f k es → e.2 ≠ [] := by
  induction es with
  | nil => simpa [update] using hf []
  | cons e es ih =>
      rcases e with ⟨i, vs⟩
      rw [List.forall_mem_cons] at h
      by_cases hi : i = k
      · simpa [update, hi] using ⟨hf vs, fun a b hab => h.2 (a, b) hab⟩
      · simpa [update, hi] using ⟨h.1, fun a b hab => ih h.2 (a, b) hab⟩

/-- A multi-valued map that remembers the order in which its keys came and,
under each key, the order of the values. -/
@[ext] structure MultiMap (κ ν : Type) where
  entries : List (κ × List ν)
  nodup : (entries.map Prod.fst).Nodup
  nonempty : ∀ e, e ∈ entries → e.2 ≠ []

namespace MultiMap

def empty : MultiMap κ ν := ⟨[], List.nodup_nil, fun _ h => absurd h List.not_mem_nil⟩

def getAll (m : MultiMap κ ν) (k : κ) : List ν := lookup k m.entries

def get (m : MultiMap κ ν) (k : κ) : Option ν := (m.getAll k).head?

def iter (m : MultiMap κ ν) : List (κ × ν) :=
  m.entries.flatMap (fun e => e.2.map (fun v => (e.1, v)))

def insert (m : MultiMap κ ν) (k : κ) (v : ν) : MultiMap κ ν where
  entries := update (fun _ => [v]) k m.entries
  nodup := nodup_update m.nodup
  nonempty := nonempty_update (fun _ => List.cons_ne_nil v []) m.nonempty

def append (m : MultiMap κ ν) (k : κ) (v : ν) : MultiMap κ ν where
  entries := update (fun vs => vs ++ [v]) k m.entries
  nodup := nodup_update m.nodup
  nonempty := nonempty_update (by simp) m.nonempty

def ofList (ps : List (κ × ν)) : MultiMap κ ν := ps.foldl (fun m p => m.append p.1 p.2) empty

@[simp] theorem getAll_empty (k : κ) : (empty : MultiMap κ ν).getAll k = [] := rfl

omit [DecidableEq κ] in
@[simp] theorem iter_empty : (empty : MultiMap κ ν).iter = [] := rfl

theorem getAll_insert (m : MultiMap κ ν) (k k' : κ) (v : ν) :
    (m.insert k v).getAll k' = if k' = k then [v] else m.getAll k' :=
  lookup_update _ _ _ _

theorem getAll_append (m : MultiMap κ ν) (k k' : κ) (v : ν) :
    (m.append k v).getAll k' = if k' = k then m.getAll k ++ [v] else m.getAll k' :=
  lookup_update _ _ _ _

theorem valuesAt_entries (k : κ) (es : List (κ × List ν)) (h : (es.map Prod.fst).Nodup) :
    valuesAt k (es.flatMap (fun e => e.2.map (fun v => (e.1, v)))) = lookup k es := by
  have hsame (j : κ) (vs : List ν) :
      valuesAt k (vs.map (fun v => (j, v))) = if j = k then vs else [] := by
    by_cases hj : j = k <;> simp [valuesAt, List.filterMap_map, hj]
  induction es with
  | nil => rfl
  | cons e es ih =>
      rcases e with ⟨j, vs⟩
      rw [List.map_cons, List.nodup_cons] at h
      rw [List.flatMap_cons, valuesAt_append, hsame, ih h.2]
      by_cases hj : j = k
      · subst hj
        have hnone : lookup j es = [] := by
          rw [← ih h.2]
          apply List.eq_nil_iff_forall_not_mem.mpr
          intro v hv
          rw [mem_valuesAt, List.mem_flatMap] at hv
          obtain ⟨e, he, hm⟩ := hv
          obtain ⟨w, _, hw⟩ := List.mem_map.mp hm
          exact h.1 (List.mem_map.mpr ⟨e, he, (Prod.mk.inj hw).1⟩)
        simp [lookup, hnone]
      · simp [lookup, hj]

theorem valuesAt_iter (m : MultiMap κ ν) (k : κ) : valuesAt k m.iter = m.getAll k :=
  valuesAt_entries k m.entries m.nodup

theorem getAll_foldl_append (ps : List (κ × ν)) (m : MultiMap κ ν) (k : κ) :
    (ps.foldl (fun m p => m.append p.1 p.2) m).getAll k = m.getAll k ++ valuesAt k ps := by
  induction ps generalizing m with
  | nil => simp
  | cons p ps ih =>
      rw [List.foldl_cons, ih, getAll_append, valuesAt_cons]
      by_cases h : p.1 = k
      · subst h; simp
      · simp [h, Ne.symm h]

theorem getAll_ofList (ps : List (κ × ν)) (k : κ) : (ofList ps).getAll k = valuesAt k ps := by
  simp [ofList, getAll_foldl_append]

theorem getAll_foldl_insert (ps : List (κ × ν)) (m : MultiMap κ ν) (k : κ) :
    (ps.foldl (fun m p => m.insert p.1 p.2) m).getAll k =
      match (valuesAt k ps).getLast? with
      | none => m.getAll k
      | some v => [v] := by
  induction ps generalizing m with
  | nil => rfl
  | cons p ps ih =>
      rw [List.foldl_cons, ih, getAll_insert, valuesAt_cons]
      by_cases h : p.1 = k
      · subst h
        cases hl : (valuesAt p.1 ps).getLast? with
        | none => simp [List.getLast?_eq_none_iff.mp hl]
        | some v => simp [List.getLast?_cons, hl]
      · simp [h, Ne.symm h]

end MultiMap

end MiniCloudflared.Library
