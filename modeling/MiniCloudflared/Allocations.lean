import MiniCloudflared.CapnpRpc
import MiniCloudflared.Library.Transition

namespace MiniCloudflared.Allocations

open Library Capnp HttpTypes CapnpRpc

inductive Alloc
  | struct (dataWords ptrCount : Nat)
  | text (s : Str)
  | data (d : Bytes)
  | ptrList (count : Nat)
  | raw (words : Segment)

inductive Setter
  | u8 (word byte : Nat) (v : UInt8)
  | u16 (word byte : Nat) (v : UInt16)
  | u32 (word byte : Nat) (v : UInt32)
  | u64 (word byte : Nat) (v : UInt64)
  | structPtr (ptrBase slot targetWord : Nat) (dataWords ptrCount : UInt16)
  | dataPtr (ptrBase slot targetWord len : Nat)
  | textPtr (ptrBase slot targetWord charCount : Nat)
  | ptrListPtr (ptrBase slot targetWord count : Nat)
  | listTextEntry (listBase index targetWord charCount : Nat)

inductive Call
  | alloc (a : Alloc)
  | set (c : Setter)

namespace Alloc

def run : Alloc → SegBuilder Nat
  | struct dataWords ptrCount => do
      let a ← allocStruct dataWords ptrCount
      return a.dataW
  | text s => allocText s
  | data d => allocData d
  | ptrList count => allocPtrList count
  | raw words => allocRaw words

def size : Alloc → Nat
  | struct dataWords ptrCount => dataWords + ptrCount
  | text s => ((utf8 s).length + 1 + 7) / 8
  | data d => (d.length + 7) / 8
  | ptrList count => max count 1
  | raw words => words.length

/-- The bytes that the call itself writes, at the beginning of the object. -/
def filled : Alloc → Nat
  | struct _ _ => 0
  | text s => (utf8 s).length
  | data d => d.length
  | ptrList _ => 0
  | raw words => 8 * words.length

def content : Alloc → Segment
  | struct dataWords ptrCount => List.replicate (dataWords + ptrCount) 0
  | text s => textWords s
  | data d => dataWordsOf d
  | ptrList count => List.replicate (max count 1) 0
  | raw words => words

theorem run_eq (a : Alloc) (words : Segment) : a.run words = some (words.length, words ++ a.content) := by
  cases a with
  | struct dataWords ptrCount => rfl
  | text s => exact allocText_run words s
  | data d => exact allocData_run words d
  | ptrList count => rfl
  | raw raw => exact allocRaw_run words raw

theorem length_content (a : Alloc) : a.content.length = a.size := by
  cases a with
  | struct dataWords ptrCount => exact List.length_replicate
  | text s => exact length_padded (by omega)
  | data d => exact length_padded (by omega)
  | ptrList count => exact List.length_replicate
  | raw raw => rfl

theorem content_blank (a : Alloc) {k : Nat} (hfilled : a.filled ≤ k) (hk : k < 8 * a.size) :
    (segBytes a.content)[k]? = some 0 := by
  have hzeros {n : Nat} (h : k < 8 * n) : (segBytes (List.replicate n 0))[k]? = some 0 := by
    rw [segBytes_replicate]
    exact List.getElem?_replicate_of_lt h
  have hpadded {n : Nat} {bs : Bytes} (hfit : bs.length ≤ 8 * n) (hbs : bs.length ≤ k) (h : k < 8 * n) :
      (segBytes (padded n bs))[k]? = some 0 := by
    rw [segBytes_padded hfit, List.getElem?_append_right hbs]
    exact List.getElem?_replicate_of_lt (by omega)
  cases a with
  | struct dataWords ptrCount => exact hzeros hk
  | text s => exact hpadded (by omega) hfilled hk
  | data d => exact hpadded (by omega) hfilled hk
  | ptrList count => exact hzeros hk
  | raw raw => exact absurd hk (Nat.not_lt.mpr hfilled)

end Alloc

namespace Setter

def run : Setter → SegBuilder Unit
  | u8 word byte v => setU8 word byte v
  | u16 word byte v => setU16 word byte v
  | u32 word byte v => setU32 word byte v
  | u64 word byte v => setU64 word byte v
  | structPtr ptrBase slot targetWord dataWords ptrCount =>
      setStructPtr ptrBase slot targetWord dataWords ptrCount
  | dataPtr ptrBase slot targetWord len => setDataPtr ptrBase slot targetWord len
  | textPtr ptrBase slot targetWord charCount => setTextPtr ptrBase slot targetWord charCount
  | ptrListPtr ptrBase slot targetWord count => setPtrListPtr ptrBase slot targetWord count
  | listTextEntry listBase index targetWord charCount =>
      setListTextEntry listBase index targetWord charCount

/-- The first byte that is written. The byte that `set_u64` is given plays no part. -/
def start : Setter → Nat
  | u8 word byte _ => 8 * word + byte
  | u16 word byte _ => 8 * word + byte
  | u32 word byte _ => 8 * word + byte
  | u64 word _ _ => 8 * word
  | structPtr ptrBase slot _ _ _ => 8 * (ptrBase + slot)
  | dataPtr ptrBase slot _ _ => 8 * (ptrBase + slot)
  | textPtr ptrBase slot _ _ => 8 * (ptrBase + slot)
  | ptrListPtr ptrBase slot _ _ => 8 * (ptrBase + slot)
  | listTextEntry listBase index _ _ => 8 * (listBase + index)

def width : Setter → Nat
  | u8 _ _ _ => 1
  | u16 _ _ _ => 2
  | u32 _ _ _ => 4
  | _ => 8

def target : Setter → Option Nat
  | structPtr _ _ targetWord _ _ => some targetWord
  | dataPtr _ _ targetWord _ => some targetWord
  | textPtr _ _ targetWord _ => some targetWord
  | ptrListPtr _ _ targetWord _ => some targetWord
  | listTextEntry _ _ targetWord _ => some targetWord
  | _ => none

def touches (c : Setter) (i : Nat) : Bool := decide (8 * i < c.start + c.width ∧ c.start < 8 * i + 8)

def data : Setter → Bytes
  | u8 _ _ v => [v]
  | u16 _ _ v => leBytes 2 v.toNat
  | u32 _ _ v => leBytes 4 v.toNat
  | u64 _ _ v => wordBytes v
  | structPtr ptrBase slot targetWord dataWords ptrCount =>
      wordBytes (structPointerAt (ptrBase + slot) targetWord dataWords.toNat ptrCount.toNat)
  | dataPtr ptrBase slot targetWord len => wordBytes (listPointerAt (ptrBase + slot) targetWord BYTE len)
  | textPtr ptrBase slot targetWord charCount =>
      wordBytes (listPointerAt (ptrBase + slot) targetWord BYTE charCount)
  | ptrListPtr ptrBase slot targetWord count =>
      wordBytes (listPointerAt (ptrBase + slot) targetWord POINTER count)
  | listTextEntry listBase index targetWord charCount =>
      wordBytes (listPointerAt (listBase + index) targetWord BYTE charCount)

theorem length_data (c : Setter) : c.data.length = c.width := by
  cases c with
  | u8 word byte v => rfl
  | u16 word byte v => exact length_leBytes 2 _
  | u32 word byte v => exact length_leBytes 4 _
  | _ => exact length_wordBytes _

theorem run_eq (c : Setter) : c.run = copyFromSlice c.start c.data := by
  cases c with
  | u8 word byte v => rw [run, setU8, Nat.mul_comm]; rfl
  | u16 word byte v => rw [run, setU16, Nat.mul_comm]; rfl
  | u32 word byte v => rw [run, setU32, Nat.mul_comm]; rfl
  | u64 word byte v => rw [run, setU64_eq, setWord_eq]; rfl
  | structPtr ptrBase slot targetWord dataWords ptrCount => rw [run, setStructPtr_eq, setWord_eq]; rfl
  | dataPtr ptrBase slot targetWord len => rw [run, setDataPtr_eq, setWord_eq]; rfl
  | textPtr ptrBase slot targetWord charCount => rw [run, setTextPtr, setDataPtr_eq, setWord_eq]; rfl
  | ptrListPtr ptrBase slot targetWord count => rw [run, setPtrListPtr_eq, setWord_eq]; rfl
  | listTextEntry listBase index targetWord charCount =>
      rw [run, setListTextEntry, setTextPtr, setDataPtr_eq, setWord_eq]; rfl

theorem pointer_word {c : Setter} {t : Nat} (h : c.target = some t) :
    ∃ i w, c.start = 8 * i ∧ c.data = wordBytes w ∧
      (i < 2 ^ 29 → t < 2 ^ 29 → (i : Int) + 1 + offset w = t) := by
  have hstruct (i dataWords ptrCount : Nat) (hi : i < 2 ^ 29) (ht : t < 2 ^ 29) :
      (i : Int) + 1 + offset (structPointerAt i t dataWords ptrCount) = t := by
    rw [structPointerAt, offset_structPointer ⟨by omega, by omega⟩]
    omega
  have hlist (i elemSize count : Nat) (hi : i < 2 ^ 29) (ht : t < 2 ^ 29) :
      (i : Int) + 1 + offset (listPointerAt i t elemSize count) = t := by
    rw [listPointerAt, offset_listPointer ⟨by omega, by omega⟩]
    omega
  cases c with
  | structPtr ptrBase slot targetWord dataWords ptrCount =>
      obtain rfl := Option.some.inj h
      exact ⟨_, _, rfl, rfl, hstruct _ _ _⟩
  | dataPtr ptrBase slot targetWord len =>
      obtain rfl := Option.some.inj h
      exact ⟨_, _, rfl, rfl, hlist _ _ _⟩
  | textPtr ptrBase slot targetWord charCount =>
      obtain rfl := Option.some.inj h
      exact ⟨_, _, rfl, rfl, hlist _ _ _⟩
  | ptrListPtr ptrBase slot targetWord count =>
      obtain rfl := Option.some.inj h
      exact ⟨_, _, rfl, rfl, hlist _ _ _⟩
  | listTextEntry listBase index targetWord charCount =>
      obtain rfl := Option.some.inj h
      exact ⟨_, _, rfl, rfl, hlist _ _ _⟩
  | _ => exact absurd h (by simp [target])

theorem not_touches {c : Setter} {i : Nat} (h : ¬ c.touches i) :
    8 * i + 8 ≤ c.start ∨ c.start + c.data.length ≤ 8 * i := by
  rw [touches, decide_eq_true_eq] at h
  rw [length_data]
  omega

theorem pointer_written {words : Segment} {c : Setter} {i t : Nat}
    (hbound : c.start + c.width ≤ 8 * words.length) (hi : c.touches i) (ht : c.target = some t) :
    ∃ w, (overwrite words c.start c.data)[i]? = some w ∧
      (i < 2 ^ 29 → t < 2 ^ 29 → (i : Int) + 1 + offset w = t) := by
  obtain ⟨j, w, hstart, hdata, hoffset⟩ := pointer_word ht
  have hwidth : c.width = 8 := by rw [← length_data, hdata, length_wordBytes]
  obtain rfl : i = j := by
    rw [touches, decide_eq_true_eq] at hi
    omega
  have hlt : i < words.length := by omega
  refine ⟨w, ?_, hoffset⟩
  rw [hstart, hdata, overwrite_word w hlt, List.getElem?_set_self hlt]

end Setter

structure Object where
  start : Nat
  size : Nat

def Object.stop (o : Object) : Nat := o.start + o.size

def Object.Has (o : Object) (i : Nat) : Prop := o.start ≤ i ∧ i < o.stop

/-- The builder's words, with what the calls so far have done: the objects they
have allocated, the ranges of bytes they have written, and the targets of the
pointers that stand in the words. -/
structure State where
  words : Segment
  objects : List Object
  written : List (Nat × Nat)
  pointer : Nat → Option Nat

def step (s : State) : Call → Option State
  | .alloc a =>
      (a.run s.words).map fun r =>
        { s with
          words := r.2
          objects := s.objects ++ [⟨r.1, a.size⟩]
          written := s.written ++ [(8 * r.1, a.filled)] }
  | .set c =>
      (c.run s.words).map fun r =>
        { s with
          words := r.2
          written := s.written ++ [(c.start, c.width)]
          pointer := fun i => if c.touches i then c.target else s.pointer i }

def new : State := ⟨[], [], [], fun _ => none⟩

def building : System State Call := ⟨fun s => s = new, step⟩

/-- An allocation addresses the object it adds, and a setter one that has been
allocated earlier. -/
def Addresses (s : State) (o : Object) : Call → Prop
  | .alloc a => o = ⟨s.words.length, a.size⟩
  | .set c => o ∈ s.objects ∧ 8 * o.start ≤ c.start ∧ c.start + c.width ≤ 8 * o.stop

def Addressed (s : State) (c : Call) : Prop := ∃ o, Addresses s o c

def Written (s : State) (k : Nat) : Prop := ∃ r, r ∈ s.written ∧ r.1 ≤ k ∧ k < r.1 + r.2

/-- What holds of the words between any two calls. The offset of a pointer has
30 bits, which is enough where the segment and the target are below `2 ^ 29`. -/
structure Undisturbed (s : State) : Prop where
  disjoint : s.objects.Pairwise (fun a b => ∀ i, ¬ (a.Has i ∧ b.Has i))
  blank : ∀ k, k < 8 * s.words.length → ¬ Written s k → (segBytes s.words)[k]? = some 0
  resolves : s.words.length < 2 ^ 29 → ∀ i t, s.pointer i = some t → t < 2 ^ 29 →
    ∃ w, s.words[i]? = some w ∧ (i : Int) + 1 + offset w = t

/-- A call has its result, and only the object it addresses is changed. -/
def Frames (s : State) (c : Call) : Prop :=
  ∃ t, step s c = some t ∧ ∀ o, Addresses s o c → ∀ i, ¬ o.Has i → t.words[i]? = s.words[i]?

section

variable {s : State}

theorem step_alloc (s : State) (a : Alloc) :
    step s (.alloc a) = some
      { s with
        words := s.words ++ a.content
        objects := s.objects ++ [⟨s.words.length, a.size⟩]
        written := s.written ++ [(8 * s.words.length, a.filled)] } := by
  rw [step, Alloc.run_eq, Option.map_some]

theorem step_set {c : Setter} (h : c.start + c.width ≤ 8 * s.words.length) :
    step s (.set c) = some
      { s with
        words := overwrite s.words c.start c.data
        written := s.written ++ [(c.start, c.width)]
        pointer := fun i => if c.touches i then c.target else s.pointer i } := by
  rw [step, Setter.run_eq, copyFromSlice_eq (by rw [Setter.length_data]; exact h), Option.map_some]

theorem mem_written_concat (s : State) (r : Nat × Nat) (k : Nat) :
    (∃ q, q ∈ s.written ++ [r] ∧ q.1 ≤ k ∧ k < q.1 + q.2) ↔ Written s k ∨ (r.1 ≤ k ∧ k < r.1 + r.2) := by
  simp only [List.mem_append, List.mem_singleton, or_and_right, exists_or, exists_eq_left, Written]

/-- The invariant. The objects lie one behind the other, and every pointer
stands in its word. -/
structure Laid (s : State) : Prop where
  ordered : s.objects.Pairwise (fun a b => a.stop ≤ b.start)
  inside : ∀ o, o ∈ s.objects → o.stop ≤ s.words.length
  blank : ∀ k, k < 8 * s.words.length → ¬ Written s k → (segBytes s.words)[k]? = some 0
  pointed : ∀ i t, s.pointer i = some t →
    ∃ w, s.words[i]? = some w ∧ (i < 2 ^ 29 → t < 2 ^ 29 → (i : Int) + 1 + offset w = t)

theorem addressed_alloc (s : State) (a : Alloc) : Addressed s (.alloc a) := ⟨⟨s.words.length, a.size⟩, rfl⟩

theorem addressed_set {c : Setter} {o : Object} (ho : o ∈ s.objects) (hstart : 8 * o.start ≤ c.start)
    (hstop : c.start + c.width ≤ 8 * o.stop) : Addressed s (.set c) := ⟨o, ho, hstart, hstop⟩

theorem next {t : State} {c : Call} (h : building.Reachable Addressed s) (hc : Addressed s c)
    (hstep : step s c = some t) : building.Reachable Addressed t := h.step hc hstep

theorem laid_new : Laid new where
  ordered := List.Pairwise.nil
  inside := fun _ ho => absurd ho List.not_mem_nil
  blank := fun _ hk => absurd hk (Nat.not_lt_zero _)
  pointed := fun _ _ h => absurd h (by simp [new])

theorem Laid.bound (h : Laid s) {c : Setter} (hc : Addressed s (.set c)) :
    c.start + c.width ≤ 8 * s.words.length := by
  obtain ⟨o, ho, _, hstop⟩ := hc
  have hinside := h.inside o ho
  omega

theorem Laid.alloc {t : State} {a : Alloc} (h : Laid s) (hstep : step s (.alloc a) = some t) : Laid t := by
  rw [step_alloc] at hstep
  obtain rfl := Option.some.inj hstep
  have hlen : (s.words ++ a.content).length = s.words.length + a.size := by
    rw [List.length_append, Alloc.length_content]
  constructor
  case ordered =>
    refine List.pairwise_append.mpr ⟨h.ordered, List.pairwise_singleton _ _, ?_⟩
    intro o ho b hb
    obtain rfl := List.mem_singleton.mp hb
    exact h.inside o ho
  case inside =>
    intro o ho
    rw [hlen]
    rcases List.mem_append.mp ho with ho | ho
    · exact Nat.le_add_right_of_le (h.inside o ho)
    · obtain rfl := List.mem_singleton.mp ho
      exact Nat.le_refl _
  case blank =>
    intro k hk hw
    rw [hlen] at hk
    rw [Written, mem_written_concat, not_or] at hw
    rw [segBytes_append]
    by_cases hold : k < 8 * s.words.length
    · rw [List.getElem?_append_left (by rw [length_segBytes]; exact hold)]
      exact h.blank k hold hw.1
    · have hfilled := hw.2
      rw [List.getElem?_append_right (by rw [length_segBytes]; omega), length_segBytes]
      exact a.content_blank (by omega) (by omega)
  case pointed =>
    intro i t hp
    obtain ⟨w, hw, hoffset⟩ := h.pointed i t hp
    refine ⟨w, ?_, hoffset⟩
    rw [List.getElem?_append_left (List.getElem?_eq_some_iff.mp hw).1, hw]

theorem Laid.set {t : State} {c : Setter} (h : Laid s) (hc : Addressed s (.set c))
    (hstep : step s (.set c) = some t) : Laid t := by
  have hbound := h.bound hc
  have hdata : c.start + c.data.length ≤ 8 * s.words.length := by
    rw [c.length_data]
    exact hbound
  rw [step_set hbound] at hstep
  obtain rfl := Option.some.inj hstep
  constructor
  case ordered => exact h.ordered
  case inside =>
    intro o ho
    rw [length_overwrite hdata]
    exact h.inside o ho
  case blank =>
    intro k hk hw
    rw [length_overwrite hdata] at hk
    rw [Written, mem_written_concat, not_or] at hw
    have houtside := hw.2
    rw [byte_overwrite hdata (by rw [c.length_data]; omega)]
    exact h.blank k hk hw.1
  case pointed =>
    intro i t hp
    dsimp only at hp ⊢
    split at hp
    next hi => exact Setter.pointer_written hbound hi hp
    next hi =>
      rw [word_overwrite hdata (Setter.not_touches hi)]
      exact h.pointed i t hp

theorem laid_of_reachable (h : building.Reachable Addressed s) : Laid s := by
  refine System.Reachable.invariant (fun s hs => ?_) (fun s c t hlaid hc hstep => ?_) h
  · obtain rfl := hs
    exact laid_new
  · cases c with
    | alloc a => exact hlaid.alloc hstep
    | set c => exact hlaid.set hc hstep

theorem Laid.holds (h : Laid s) : Undisturbed s where
  disjoint := h.ordered.imp (fun hab i hi => by
    have hstop := hi.1.2
    have hstart := hi.2.1
    omega)
  blank := h.blank
  resolves := by
    intro hshort i t hp ht
    obtain ⟨w, hw, hoffset⟩ := h.pointed i t hp
    have hi := (List.getElem?_eq_some_iff.mp hw).1
    exact ⟨w, hw, hoffset (Nat.lt_trans hi hshort) ht⟩

theorem Laid.frames (h : Laid s) {c : Call} (hc : Addressed s c) : Frames s c := by
  cases c with
  | alloc a =>
      refine ⟨_, step_alloc s a, fun o ho i hi => ?_⟩
      obtain rfl := ho
      have hlen := Alloc.length_content a
      have hout : ¬ (s.words.length ≤ i ∧ i < s.words.length + a.size) := hi
      by_cases hold : i < s.words.length
      · exact List.getElem?_append_left hold
      · rw [List.getElem?_eq_none (by rw [List.length_append]; omega), List.getElem?_eq_none (by omega)]
  | set c =>
      have hbound := h.bound hc
      refine ⟨_, step_set hbound, fun o ho i hi => ?_⟩
      obtain ⟨_, hstart, hstop⟩ := ho
      apply word_overwrite (by rw [c.length_data]; exact hbound)
      apply Setter.not_touches
      intro htouches
      rw [Setter.touches, decide_eq_true_eq] at htouches
      exact hi ⟨by omega, by omega⟩

/-- After any calls, each of which addresses an object, the objects are apart,
what was not written is zero, and the pointers lead where they should. The next
call changes nothing but its own object. -/
theorem undisturbed (h : building.Reachable Addressed s) :
    Undisturbed s ∧ ∀ c, Addressed s c → Frames s c :=
  ⟨(laid_of_reachable h).holds, fun _ hc => (laid_of_reachable h).frames hc⟩

theorem undisturbed_text :
    ∃ s, building.exec new
        [.alloc (.struct 0 1), .alloc (.text ['a', 'b', 'c']), .set (.textPtr 0 0 1 4)] = some s ∧
      Undisturbed s ∧ ∀ c, Addressed s c → Frames s c := by
  have hnew : building.Reachable Addressed new := ⟨new, rfl, .refl⟩
  have hstruct := next hnew (addressed_alloc _ (.struct 0 1)) (step_alloc _ _)
  have htext := next hstruct (addressed_alloc _ (.text ['a', 'b', 'c'])) (step_alloc _ _)
  have hset := next htext (addressed_set (c := .textPtr 0 0 1 4) List.mem_cons_self (by decide) (by decide))
    (step_set (by decide +kernel))
  exact ⟨_, rfl, undisturbed hset⟩

end

end MiniCloudflared.Allocations
