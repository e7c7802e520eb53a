import MiniCloudflared.Library.LittleEndian

namespace MiniCloudflared.Library.Capnp

abbrev Segment := List UInt64

def wordBytes (w : UInt64) : Bytes := leBytes 8 w.toNat

def wordOf (bs : Bytes) : UInt64 := UInt64.ofNat (ofLeBytes bs)

def segBytes (seg : Segment) : Bytes := seg.flatMap wordBytes

/-- The whole words of a text. Bytes that do not fill a word are dropped. -/
def wordsOf : Bytes → Segment
  | b₀ :: b₁ :: b₂ :: b₃ :: b₄ :: b₅ :: b₆ :: b₇ :: rest =>
      wordOf [b₀, b₁, b₂, b₃, b₄, b₅, b₆, b₇] :: wordsOf rest
  | _ => []

@[simp] theorem length_wordBytes (w : UInt64) : (wordBytes w).length = 8 := length_leBytes 8 _

@[simp] theorem wordOf_wordBytes (w : UInt64) : wordOf (wordBytes w) = w := by
  rw [wordOf, wordBytes, ofLeBytes_leBytes_of_lt w.toNat_lt, UInt64.ofNat_toNat]

theorem wordBytes_wordOf {bs : Bytes} (h : bs.length = 8) : wordBytes (wordOf bs) = bs := by
  have hlt : ofLeBytes bs < 2 ^ 64 := by
    have := ofLeBytes_lt bs
    rwa [h] at this
  rw [wordBytes, wordOf, UInt64.toNat_ofNat', Nat.mod_eq_of_lt hlt, ← h, leBytes_ofLeBytes]

@[simp] theorem segBytes_append (as bs : Segment) : segBytes (as ++ bs) = segBytes as ++ segBytes bs :=
  List.flatMap_append

@[simp] theorem segBytes_cons (w : UInt64) (ws : Segment) : segBytes (w :: ws) = wordBytes w ++ segBytes ws :=
  rfl

@[simp] theorem length_segBytes (seg : Segment) : (segBytes seg).length = 8 * seg.length := by
  induction seg with
  | nil => rfl
  | cons w seg ih =>
      rw [segBytes_cons, List.length_append, length_wordBytes, ih, List.length_cons]
      omega

theorem eight_bytes {bs : Bytes} (h : bs.length = 8) :
    ∃ b₀ b₁ b₂ b₃ b₄ b₅ b₆ b₇, bs = [b₀, b₁, b₂, b₃, b₄, b₅, b₆, b₇] := by
  rcases bs with _ | ⟨b₀, _ | ⟨b₁, _ | ⟨b₂, _ | ⟨b₃, _ | ⟨b₄, _ | ⟨b₅, _ | ⟨b₆, _ | ⟨b₇, _ | ⟨b₈, bs⟩⟩⟩⟩⟩⟩⟩⟩⟩
  case cons.cons.cons.cons.cons.cons.cons.cons.nil => exact ⟨_, _, _, _, _, _, _, _, rfl⟩
  all_goals simp only [List.length_nil, List.length_cons] at h; omega

theorem wordsOf_append {bs : Bytes} (h : bs.length = 8) (rest : Bytes) :
    wordsOf (bs ++ rest) = wordOf bs :: wordsOf rest := by
  obtain ⟨b₀, b₁, b₂, b₃, b₄, b₅, b₆, b₇, rfl⟩ := eight_bytes h
  rfl

theorem wordsOf_short {bs : Bytes} (h : bs.length < 8) : wordsOf bs = [] := by
  rw [wordsOf]
  rintro b₀ b₁ b₂ b₃ b₄ b₅ b₆ b₇ rest rfl
  simp only [List.length_cons] at h
  omega

theorem wordsOf_segBytes (seg : Segment) {rest : Bytes} (h : rest.length < 8) :
    wordsOf (segBytes seg ++ rest) = seg := by
  induction seg with
  | nil => exact wordsOf_short h
  | cons w seg ih =>
      rw [segBytes_cons, List.append_assoc, wordsOf_append (length_wordBytes w), wordOf_wordBytes, ih]

theorem segBytes_wordsOf {n : Nat} {bs : Bytes} (h : bs.length = 8 * n) : segBytes (wordsOf bs) = bs := by
  induction n generalizing bs with
  | zero =>
      obtain rfl := List.eq_nil_of_length_eq_zero h
      rfl
  | succ n ih =>
      have hhead : (bs.take 8).length = 8 := by
        rw [List.length_take]
        omega
      have htail : (bs.drop 8).length = 8 * n := by
        rw [List.length_drop]
        omega
      rw [← List.take_append_drop 8 bs, wordsOf_append hhead, segBytes_cons, wordBytes_wordOf hhead,
        ih htail]

theorem length_wordsOf {n : Nat} {bs : Bytes} (h : bs.length = 8 * n) : (wordsOf bs).length = n := by
  have hl := congrArg List.length (segBytes_wordsOf h)
  rw [length_segBytes, h] at hl
  omega

theorem segBytes_singleton (w : UInt64) : segBytes [w] = wordBytes w := List.append_nil _

theorem length_segBytes_take {seg : Segment} {i : Nat} (hi : i ≤ seg.length) :
    (segBytes (seg.take i)).length = 8 * i := by
  rw [length_segBytes, List.length_take, Nat.min_eq_left hi]

theorem segBytes_cut {seg : Segment} {i : Nat} (hi : i < seg.length) :
    segBytes seg = segBytes (seg.take i) ++ wordBytes seg[i] ++ segBytes (seg.drop (i + 1)) := by
  have hsplit : seg = seg.take i ++ [seg[i]] ++ seg.drop (i + 1) := by
    rw [List.append_assoc, List.singleton_append, List.getElem_cons_drop, List.take_append_drop]
  conv => lhs; rw [hsplit, segBytes_append, segBytes_append, segBytes_singleton]

theorem slice_word {seg : Segment} {i : Nat} {w : UInt64} (h : seg[i]? = some w) :
    slice (segBytes seg) (8 * i) 8 = wordBytes w := by
  obtain ⟨hi, rfl⟩ := List.getElem?_eq_some_iff.mp h
  rw [segBytes_cut hi, ← length_segBytes_take (Nat.le_of_lt hi), ← length_wordBytes seg[i], slice_mid]

theorem getElem?_of_bytes {as bs : Segment} {i : Nat}
    (h : ∀ k, 8 * i ≤ k → k < 8 * i + 8 → (segBytes as)[k]? = (segBytes bs)[k]?) : as[i]? = bs[i]? := by
  have hslice : slice (segBytes as) (8 * i) 8 = slice (segBytes bs) (8 * i) 8 := by
    apply List.ext_getElem?
    intro j
    rw [slice, slice, List.getElem?_take, List.getElem?_take]
    split
    next hj => rw [List.getElem?_drop, List.getElem?_drop, h _ (by omega) (by omega)]
    next => rfl
  have hempty {seg : Segment} (hi : seg[i]? = none) : slice (segBytes seg) (8 * i) 8 = [] := by
    have hlen := List.getElem?_eq_none_iff.mp hi
    rw [slice, List.drop_of_length_le (by rw [length_segBytes]; omega), List.take_nil]
  have hword (w : UInt64) : wordBytes w ≠ [] := by
    intro he
    have hlen := length_wordBytes w
    rw [he] at hlen
    exact absurd hlen (by decide)
  cases ha : as[i]? with
  | none =>
      cases hb : bs[i]? with
      | none => rfl
      | some w =>
          rw [hempty ha, slice_word hb] at hslice
          exact absurd hslice.symm (hword w)
  | some v =>
      rw [slice_word ha] at hslice
      cases hb : bs[i]? with
      | none =>
          rw [hempty hb] at hslice
          exact absurd hslice (hword v)
      | some w =>
          rw [slice_word hb] at hslice
          rw [← wordOf_wordBytes v, hslice, wordOf_wordBytes]

theorem segBytes_replicate (n : Nat) : segBytes (List.replicate n 0) = List.replicate (8 * n) 0 := by
  induction n with
  | zero => rfl
  | succ n ih =>
      rw [List.replicate_succ, segBytes_cons, ih, Nat.mul_succ, Nat.add_comm, List.replicate_add]
      rfl

def padded (n : Nat) (bs : Bytes) : Segment := wordsOf (bs ++ List.replicate (8 * n - bs.length) 0)

theorem segBytes_padded {n : Nat} {bs : Bytes} (h : bs.length ≤ 8 * n) :
    segBytes (padded n bs) = bs ++ List.replicate (8 * n - bs.length) 0 := by
  apply segBytes_wordsOf (n := n)
  rw [List.length_append, List.length_replicate]
  omega

theorem length_padded {n : Nat} {bs : Bytes} (h : bs.length ≤ 8 * n) : (padded n bs).length = n := by
  apply length_wordsOf
  rw [List.length_append, List.length_replicate]
  omega

def patchWord (w : UInt64) (byte : Nat) (data : Bytes) : UInt64 := wordOf (splice (wordBytes w) byte data)

theorem wordBytes_patchWord {w : UInt64} {byte : Nat} {data : Bytes} (h : byte + data.length ≤ 8) :
    wordBytes (patchWord w byte data) = splice (wordBytes w) byte data :=
  wordBytes_wordOf (by rw [length_splice (by rw [length_wordBytes]; exact h), length_wordBytes])

/-- A number that is written into a word is read back. -/
theorem field_patchWord {w : UInt64} {byte width n : Nat} (h : byte + width ≤ 8) (hn : n < 256 ^ width) :
    ofLeBytes (slice (wordBytes (patchWord w byte (leBytes width n))) byte width) = n := by
  have hslice : slice (splice (wordBytes w) byte (leBytes width n)) byte (leBytes width n).length =
      leBytes width n := slice_splice_same (by rw [length_wordBytes]; omega)
  rw [length_leBytes] at hslice
  rw [wordBytes_patchWord (by rw [length_leBytes]; exact h), hslice, ofLeBytes_leBytes_of_lt hn]

theorem slice_patchWord_before {w : UInt64} {byte i n : Nat} {data : Bytes} (h : byte + data.length ≤ 8)
    (hi : i + n ≤ byte) : slice (wordBytes (patchWord w byte data)) i n = slice (wordBytes w) i n := by
  rw [wordBytes_patchWord h, slice_splice_before (by rw [length_wordBytes]; omega) hi]

theorem splice_word {seg : Segment} {i byte : Nat} {data : Bytes} (hi : i < seg.length)
    (h : byte + data.length ≤ 8) :
    wordsOf (splice (segBytes seg) (8 * i + byte) data) = seg.modify i (patchWord · byte data) := by
  rw [segBytes_cut hi, ← length_segBytes_take (Nat.le_of_lt hi),
    splice_append (by rw [length_wordBytes]; exact h), ← wordBytes_patchWord h, ← segBytes_singleton,
    ← segBytes_append, ← segBytes_append, ← List.append_nil (segBytes _), wordsOf_segBytes _ (by decide),
    List.modify_eq_take_cons_drop hi, List.append_assoc, List.singleton_append]

def overwrite (seg : Segment) (start : Nat) (data : Bytes) : Segment := wordsOf (splice (segBytes seg) start data)

theorem length_splice_segBytes {seg : Segment} {start : Nat} {data : Bytes}
    (h : start + data.length ≤ 8 * seg.length) :
    (splice (segBytes seg) start data).length = 8 * seg.length := by
  rw [length_splice (by rw [length_segBytes]; exact h), length_segBytes]

theorem segBytes_overwrite {seg : Segment} {start : Nat} {data : Bytes}
    (h : start + data.length ≤ 8 * seg.length) :
    segBytes (overwrite seg start data) = splice (segBytes seg) start data :=
  segBytes_wordsOf (length_splice_segBytes h)

theorem length_overwrite {seg : Segment} {start : Nat} {data : Bytes}
    (h : start + data.length ≤ 8 * seg.length) : (overwrite seg start data).length = seg.length :=
  length_wordsOf (length_splice_segBytes h)

theorem byte_overwrite {seg : Segment} {start k : Nat} {data : Bytes}
    (h : start + data.length ≤ 8 * seg.length) (hk : k < start ∨ start + data.length ≤ k) :
    (segBytes (overwrite seg start data))[k]? = (segBytes seg)[k]? := by
  rw [segBytes_overwrite h]
  apply getElem?_splice_outside _ hk
  rw [length_segBytes]
  exact h

theorem word_overwrite {seg : Segment} {start i : Nat} {data : Bytes}
    (h : start + data.length ≤ 8 * seg.length) (hi : 8 * i + 8 ≤ start ∨ start + data.length ≤ 8 * i) :
    (overwrite seg start data)[i]? = seg[i]? := by
  apply getElem?_of_bytes
  intro k hlow hhigh
  exact byte_overwrite h (by omega)

theorem overwrite_word {seg : Segment} {i : Nat} (v : UInt64) (hi : i < seg.length) :
    overwrite seg (8 * i) (wordBytes v) = seg.set i v := by
  have hall (w : UInt64) : patchWord w 0 (wordBytes v) = v := by
    rw [patchWord, splice, List.take_zero, List.nil_append, Nat.zero_add, length_wordBytes,
      List.drop_of_length_le (Nat.le_of_eq (length_wordBytes w)), List.append_nil, wordOf_wordBytes]
  rw [overwrite, ← Nat.add_zero (8 * i), splice_word hi (Nat.le_of_eq (length_wordBytes v)),
    List.modify_eq_set, hall]

theorem splice_fresh {seg : Segment} {n : Nat} {data : Bytes} (h : data.length ≤ 8 * n) :
    wordsOf (splice (segBytes (seg ++ List.replicate n 0)) (8 * seg.length) data) = seg ++ padded n data := by
  have hfresh : splice (List.replicate (8 * n) (0 : UInt8)) 0 data =
      data ++ List.replicate (8 * n - data.length) 0 := by
    rw [splice, List.take_zero, List.nil_append, Nat.zero_add, List.drop_replicate]
  have hpos : 8 * seg.length = (segBytes seg).length + 0 := by rw [length_segBytes, Nat.add_zero]
  have hsplit : segBytes (seg ++ List.replicate n 0) = segBytes seg ++ List.replicate (8 * n) 0 ++ [] := by
    rw [segBytes_append, segBytes_replicate, List.append_nil]
  rw [hsplit, hpos, splice_append (by rw [List.length_replicate]; omega), hfresh, ← segBytes_padded h,
    ← segBytes_append, wordsOf_segBytes _ (by decide)]

end MiniCloudflared.Library.Capnp
