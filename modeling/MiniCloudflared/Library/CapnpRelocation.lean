import MiniCloudflared.Library.CapnpReader

namespace MiniCloudflared.Library.Capnp

variable {ws : Segment} (pre post : Segment)

theorem getElem?_moved {i : Nat} {w : UInt64} (h : ws[i]? = some w) :
    (pre ++ ws ++ post)[pre.length + i]? = some w := StandsAt.get ⟨pre, post, rfl, rfl⟩ h

theorem target_moved {n i t : Nat} {w : UInt64} (h : target i w = some t) : target (n + i) w = some (n + t) := by
  rw [target] at h
  split at h
  next hpos =>
    apply target_of
    have := Option.some.inj h
    omega
  next => exact absurd h (by simp)

theorem slice_moved {t n : Nat} (h : 8 * t + n ≤ 8 * ws.length) :
    slice (segBytes (pre ++ ws ++ post)) (8 * (pre.length + t)) n = slice (segBytes ws) (8 * t) n := by
  have hpos : 8 * (pre.length + t) = (segBytes pre).length + 8 * t := by
    rw [length_segBytes]
    omega
  rw [segBytes_append, segBytes_append, hpos, slice_append (by rw [length_segBytes]; exact h)]

def StructRef.moved (s : StructRef ws) : StructRef (pre ++ ws ++ post) where
  start := pre.length + s.start
  dataWords := s.dataWords
  ptrCount := s.ptrCount
  inside := by
    have := s.inside
    simp only [List.length_append]
    omega

theorem readStruct_moved {i : Nat} {s : StructRef ws} (h : readStruct ws i = some s) :
    readStruct (pre ++ ws ++ post) (pre.length + i) = some (s.moved pre post) := by
  obtain ⟨start, dataWords, ptrCount, inside⟩ := s
  obtain ⟨w, hw, ⟨rfl, rfl, rfl, rfl⟩ | ⟨hnull, hkind, ht, rfl, rfl⟩⟩ := readStruct_inv h
  · obtain ⟨_, hread⟩ := readStruct_null (getElem?_moved pre post hw)
    exact hread
  · exact readStruct_of (getElem?_moved pre post hw) hnull hkind (target_moved ht)
      (StructRef.moved pre post ⟨start, _, _, inside⟩).inside

theorem readList_moved {elemSize width i t n : Nat} (h : readList ws elemSize width i = some (t, n)) :
    readList (pre ++ ws ++ post) elemSize width (pre.length + i) = some (pre.length + t, n) := by
  obtain ⟨w, hw, h⟩ := Option.bind_eq_some_iff.mp h
  rw [readList, getElem?_moved pre post hw, Option.bind_eq_bind, Option.bind_some]
  split at h
  next hnull =>
    obtain ⟨rfl, rfl⟩ := Prod.mk.inj (Option.some.inj h)
    rw [if_pos hnull]
  next hnull =>
    rw [if_neg hnull]
    split at h
    next hkind =>
      obtain ⟨t', ht, h⟩ := Option.bind_eq_some_iff.mp h
      rw [if_pos hkind, target_moved ht, Option.bind_eq_bind, Option.bind_some]
      split at h
      next hin =>
        obtain ⟨rfl, rfl⟩ := Prod.mk.inj (Option.some.inj h)
        rw [if_pos (by simp only [List.length_append]; omega)]
      next => exact absurd h (by simp)
    next => exact absurd h (by simp)

theorem readBytes_moved {i : Nat} {bs : Bytes} (h : readBytes ws i = some bs) :
    readBytes (pre ++ ws ++ post) (pre.length + i) = some bs := by
  obtain ⟨⟨t, n⟩, hlist, rfl⟩ := Option.map_eq_some_iff.mp h
  have hbound := readList_bound hlist
  rw [Nat.one_mul] at hbound
  rw [readBytes, readList_moved pre post hlist, Option.map_some, slice_moved pre post hbound]

theorem readText_moved {i : Nat} {bs : Bytes} (h : readText ws i = some bs) :
    readText (pre ++ ws ++ post) (pre.length + i) = some bs := by
  obtain ⟨w, hw, h⟩ := Option.bind_eq_some_iff.mp h
  obtain ⟨bytes, hbytes, h⟩ := Option.bind_eq_some_iff.mp h
  rw [readText, getElem?_moved pre post hw, Option.bind_eq_bind, Option.bind_some,
    readBytes_moved pre post hbytes, Option.bind_eq_bind, Option.bind_some, h]

theorem readPointers_moved {i : Nat} {places : List Nat} (h : readPointers ws i = some places) :
    readPointers (pre ++ ws ++ post) (pre.length + i) = some (places.map (pre.length + ·)) := by
  obtain ⟨⟨t, n⟩, hlist, rfl⟩ := Option.map_eq_some_iff.mp h
  rw [readPointers, readList_moved pre post hlist, Option.map_some, List.map_add_range']

theorem mapM_readText_moved {places : List Nat} {texts : List Bytes}
    (h : places.mapM (readText ws) = some texts) :
    (places.map (pre.length + ·)).mapM (readText (pre ++ ws ++ post)) = some texts := by
  induction places generalizing texts with
  | nil =>
      rw [List.mapM_nil] at h
      rw [List.map_nil, List.mapM_nil, h]
  | cons place places ih =>
      rw [List.mapM_cons] at h
      obtain ⟨text, htext, h⟩ := Option.bind_eq_some_iff.mp h
      obtain ⟨rest, hrest, h⟩ := Option.bind_eq_some_iff.mp h
      rw [List.map_cons, List.mapM_cons, readText_moved pre post htext, Option.bind_eq_bind, Option.bind_some,
        ih hrest, Option.bind_eq_bind, Option.bind_some, h]

theorem readTexts_moved {i : Nat} {texts : List Bytes} (h : readTexts ws i = some texts) :
    readTexts (pre ++ ws ++ post) (pre.length + i) = some texts := by
  obtain ⟨places, hplaces, h⟩ := Option.bind_eq_some_iff.mp h
  rw [readTexts, readPointers_moved pre post hplaces, Option.bind_eq_bind, Option.bind_some,
    mapM_readText_moved pre post h]

namespace StructRef

variable (s : StructRef ws)

theorem word_moved (k : Nat) : (s.moved pre post).word k = s.word k := by
  rw [word, word]
  by_cases hk : k < s.dataWords
  · have hin : s.start + k < ws.length := by
      have := s.inside
      omega
    have hword : ws[s.start + k]? = some ws[s.start + k] := List.getElem?_eq_getElem hin
    rw [if_pos hk, if_pos (show k < (s.moved pre post).dataWords from hk),
      show (s.moved pre post).start + k = pre.length + (s.start + k) from Nat.add_assoc _ _ _,
      List.getD_eq_getElem?_getD, List.getD_eq_getElem?_getD, getElem?_moved pre post hword, hword]
  · rw [if_neg hk, if_neg (show ¬ k < (s.moved pre post).dataWords from hk)]

theorem dataField_moved (byte width : Nat) : (s.moved pre post).dataField byte width = s.dataField byte width := by
  rw [dataField, dataField, word_moved]

theorem slot_moved (k : Nat) : (s.moved pre post).slot k = (s.slot k).map (pre.length + ·) := by
  rw [slot, slot]
  by_cases hk : k < s.ptrCount
  · rw [if_pos hk, if_pos (show k < (s.moved pre post).ptrCount from hk), Option.map_some]
    congr 1
    simp only [moved]
    omega
  · rw [if_neg hk, if_neg (show ¬ k < (s.moved pre post).ptrCount from hk), Option.map_none]

variable {s} {k : Nat}

theorem structField_moved {field : StructRef ws} (h : s.structField k = some field) :
    (s.moved pre post).structField k = some (field.moved pre post) := by
  rw [structField] at h ⊢
  rw [slot_moved]
  cases hslot : s.slot k with
  | none =>
      rw [hslot] at h
      obtain rfl := Option.some.inj h
      rfl
  | some i =>
      rw [hslot] at h
      exact readStruct_moved pre post h

theorem pointerField_moved {α : Type} {read : Segment → Nat → Option α} {default a : α}
    (hread : ∀ i, read ws i = some a → read (pre ++ ws ++ post) (pre.length + i) = some a)
    (h : s.pointerField read default k = some a) : (s.moved pre post).pointerField read default k = some a := by
  rw [pointerField] at h ⊢
  rw [slot_moved]
  cases hslot : s.slot k with
  | none =>
      rw [hslot] at h
      exact h
  | some i =>
      rw [hslot] at h
      exact hread i h

theorem bytesField_moved {bs : Bytes} (h : s.bytesField k = some bs) : (s.moved pre post).bytesField k = some bs :=
  pointerField_moved pre post (fun _ => readBytes_moved pre post) h

theorem textField_moved {bs : Bytes} (h : s.textField k = some bs) : (s.moved pre post).textField k = some bs :=
  pointerField_moved pre post (fun _ => readText_moved pre post) h

theorem textsField_moved {texts : List Bytes} (h : s.textsField k = some texts) :
    (s.moved pre post).textsField k = some texts :=
  pointerField_moved pre post (fun _ => readTexts_moved pre post) h

end StructRef

end MiniCloudflared.Library.Capnp
