import MiniCloudflared.Allocations
import MiniCloudflared.RegisterCall
import MiniCloudflared.Library.Performs

namespace MiniCloudflared.MessageLayout

open Library Capnp HttpTypes CapnpRpc Allocations RegisterCall
open Library.System

/-- The calls that `build_bootstrap_msg` makes of the builder, in their order. -/
def bootstrapCalls (questionId : UInt32) : List Call :=
  [.alloc (.struct 1 1), .alloc (.struct 1 1), .set (.u16 0 0 8), .set (.structPtr 1 0 2 1 1),
    .set (.u32 2 0 questionId)]

def entryCalls (listBase : Nat) : Nat → List (Nat × Str) → List Call
  | _, [] => []
  | i, (fw, f) :: rest =>
      .set (.listTextEntry listBase i fw ((utf8 f).length + 1)) :: entryCalls listBase (i + 1) rest

variable (p : RegisterConnection)

/-- Those of `encode_register_connection`: the four structs, then the texts and
the data, then the setters. -/
def registerConnectionCalls : List Call :=
  .alloc (.struct 1 3) :: .alloc (.struct 0 2) :: .alloc (.struct 1 2) :: .alloc (.struct 0 4) ::
  .alloc (.text p.accountTag) :: .alloc (.data p.tunnelSecret) :: .alloc (.data p.tunnelId.val) ::
  .alloc (.data p.clientId.val) :: .alloc (.text p.version) :: .alloc (.text p.arch) ::
  (p.features.map (fun f => .alloc (.text f)) ++
    .alloc (.ptrList p.features.length) ::
    .set (.u8 0 0 p.connIndex) :: .set (.structPtr 1 0 4 0 2) ::
    .set (.dataPtr 1 1 (tunnelIdW p) p.tunnelId.val.length) :: .set (.structPtr 1 2 6 1 2) ::
    .set (.textPtr 4 0 13 ((utf8 p.accountTag).length + 1)) ::
    .set (.dataPtr 4 1 (secretW p) p.tunnelSecret.length) ::
    .set (.structPtr 7 0 9 0 4) ::
    .set (.dataPtr 9 0 (clientIdW p) 16) :: .set (.ptrListPtr 9 1 (featListW p) p.features.length) ::
    .set (.textPtr 9 2 (versionW p) ((utf8 p.version).length + 1)) ::
    .set (.textPtr 9 3 (archW p) ((utf8 p.arch).length + 1)) ::
    entryCalls (featListW p) 0 ((textPlaces (featuresW p) p.features).zip p.features))

/-- Those of `build_call_msg`, with the words of the parameters in the middle. -/
def callMsgCalls (questionId : UInt32) (params : Segment) : List Call :=
  let targetW := 10 + params.length
  [.alloc (.struct 1 1), .alloc (.struct 3 3), .alloc (.struct 0 2), .alloc (.raw params),
    .set (.u16 0 0 2), .set (.structPtr 1 0 2 3 3),
    .set (.u32 2 0 questionId), .set (.u16 2 4 METHOD_REGISTER), .set (.u64 3 0 REGISTRATION_SERVER_ID),
    .alloc (.struct 1 1), .set (.u16 targetW 0 1),
    .alloc (.struct 1 1), .set (.u32 (targetW + 2) 0 0), .set (.structPtr (targetW + 1) 0 (targetW + 2) 1 1),
    .set (.u16 targetW 0 0), .set (.u32 targetW 4 0),
    .set (.structPtr 5 0 targetW 1 1), .set (.structPtr 5 1 8 0 2), .set (.structPtr 8 0 10 1 3)]

/-- The words that the target of a pointer takes by what the setter is given. -/
def extent : Setter → Nat
  | .structPtr _ _ _ dataWords ptrCount => dataWords.toNat + ptrCount.toNat
  | .dataPtr _ _ _ len => (len + 7) / 8
  | .textPtr _ _ _ charCount => (charCount + 7) / 8
  | .ptrListPtr _ _ _ count => count
  | .listTextEntry _ _ _ charCount => (charCount + 7) / 8
  | _ => 0

/-- A call that stays within an object, and whose pointer leads to the start of
one with the words that it takes. -/
def Aimed (s : Allocations.State) (c : Call) : Prop :=
  Addressed s c ∧ ∀ setter t, c = .set setter → setter.target = some t →
    ∃ o, o ∈ s.objects ∧ o.start = t ∧ extent setter ≤ o.size

structure At (os : List Allocations.Object) (len : Nat) (s : Allocations.State) : Prop where
  laid : Laid s
  objects : s.objects = os
  length : s.words.length = len

/-- From these objects the program makes the calls, and there are those. -/
abbrev Builds (os : List Allocations.Object) (len : Nat) (calls : List Call) {α : Type} (m : SegBuilder α) (a : α)
    (os' : List Allocations.Object) (len' : Nat) : Prop :=
  Performs building Aimed Allocations.State.words (At os len) calls m a (At os' len')

variable {os os' : List Allocations.Object} {len len' : Nat} {calls : List Call}

theorem aimed_alloc (s : Allocations.State) (a : Alloc) : Aimed s (.alloc a) :=
  ⟨addressed_alloc s a, fun _ _ h => absurd h (by simp)⟩

theorem At.alloc {s : Allocations.State} (h : At os len s) (a : Alloc) :
    ∃ t, building.step s (.alloc a) = some t ∧ t.words = s.words ++ a.content ∧
      At (os ++ [⟨len, a.size⟩]) (len + a.content.length) t := by
  refine ⟨_, step_alloc s a, rfl, h.laid.alloc (step_alloc s a), ?_, ?_⟩
  · rw [← h.objects, ← h.length]
  · rw [← h.length]
    exact List.length_append

theorem builds_alloc (a : Alloc) :
    Builds os len [.alloc a] a.run len (os ++ [⟨len, a.size⟩]) (len + a.content.length) := by
  refine performs_step (Call.alloc a) fun s hs => ⟨aimed_alloc s a, ?_⟩
  obtain ⟨t, hstep, hwords, ht⟩ := hs.alloc a
  refine ⟨t, hstep, ?_, ht⟩
  rw [a.run_eq, hwords, hs.length]

theorem builds_struct (dataWords ptrCount : Nat) :
    Builds os len [.alloc (.struct dataWords ptrCount)] (allocStruct dataWords ptrCount) ⟨len, len + dataWords⟩
      (os ++ [⟨len, dataWords + ptrCount⟩]) (len + (dataWords + ptrCount)) := by
  refine performs_step (Call.alloc (.struct dataWords ptrCount)) fun s hs => ⟨aimed_alloc s _, ?_⟩
  obtain ⟨t, hstep, hwords, ht⟩ := hs.alloc (.struct dataWords ptrCount)
  rw [Alloc.length_content] at ht
  refine ⟨t, hstep, ?_, ht⟩
  rw [allocStruct_run, hwords, hs.length]
  rfl

theorem builds_set (c : Setter) {o : Allocations.Object} (ho : o ∈ os) (hstart : 8 * o.start ≤ c.start)
    (hstop : c.start + c.width ≤ 8 * o.stop)
    (htarget : ∀ t, c.target = some t → ∃ o, o ∈ os ∧ o.start = t ∧ extent c ≤ o.size) :
    Builds os len [.set c] c.run () os len := by
  refine performs_step (Call.set c) fun s hs => ?_
  have haddressed : Addressed s (.set c) := addressed_set (by rwa [hs.objects]) hstart hstop
  have hbound := hs.laid.bound haddressed
  have hdata : c.start + c.data.length ≤ 8 * s.words.length := by rwa [Setter.length_data]
  refine ⟨⟨haddressed, ?_⟩, _, step_set hbound, ?_, hs.laid.set haddressed (step_set hbound), hs.objects, ?_⟩
  · rintro setter t hc ht
    obtain rfl := Call.set.inj hc
    rw [hs.objects]
    exact htarget t ht
  · rw [Setter.run_eq, copyFromSlice_eq hdata]
  · dsimp only
    rw [length_overwrite hdata, hs.length]

section Steps

variable {β : Type} {b : β} {w n : Nat}

theorem alloc_bind {a : Alloc} {f : Nat → SegBuilder β} (hw : len = w)
    (hf : Builds (os ++ [⟨w, a.size⟩]) (w + a.content.length) calls (f w) b os' len') :
    Builds os len (.alloc a :: calls) (a.run >>= f) b os' len' := by
  subst hw
  exact (builds_alloc a).bind hf

theorem struct_bind {dataWords ptrCount : Nat} {f : StructAlloc → SegBuilder β} (hw : len = w)
    (hf : Builds (os ++ [⟨w, dataWords + ptrCount⟩]) (w + (dataWords + ptrCount)) calls
      (f ⟨w, w + dataWords⟩) b os' len') :
    Builds os len (.alloc (.struct dataWords ptrCount) :: calls) (allocStruct dataWords ptrCount >>= f) b os' len' := by
  subst hw
  exact (builds_struct dataWords ptrCount).bind hf

variable {c : Setter} {f : Unit → SegBuilder β}

theorem data_bind {i k : Nat} (hnone : c.target = none) (hwidth : c.width = k) (hstart : c.start = i)
    (ho : ⟨w, n⟩ ∈ os) (hlow : 8 * w ≤ i) (hhigh : i + k ≤ 8 * (w + n))
    (hf : Builds os len calls (f ()) b os' len') :
    Builds os len (.set c :: calls) (c.run >>= f) b os' len' := by
  subst hwidth hstart
  exact (builds_set c ho hlow hhigh fun t ht => absurd ht (by simp [hnone])).bind hf

theorem pointer_bind {i x y : Nat} (htarget : c.target = some x) (hwidth : c.width = 8) (hstart : c.start = 8 * i)
    (hextent : extent c ≤ y) (ho : ⟨w, n⟩ ∈ os) (hx : ⟨x, y⟩ ∈ os) (hlow : w ≤ i) (hhigh : i < w + n)
    (hf : Builds os len calls (f ()) b os' len') :
    Builds os len (.set c :: calls) (c.run >>= f) b os' len' := by
  have haimed : ∀ t, c.target = some t → ∃ o, o ∈ os ∧ o.start = t ∧ extent c ≤ o.size :=
    fun t ht => ⟨_, hx, Option.some.inj (htarget.symm.trans ht), hextent⟩
  have hlow' : 8 * w ≤ c.start := by omega
  have hhigh' : c.start + c.width ≤ 8 * (w + n) := by omega
  exact (builds_set c ho hlow' hhigh' haimed).bind hf

end Steps

def textObjects : Nat → List Str → List Allocations.Object
  | _, [] => []
  | i, f :: fs => ⟨i, (Alloc.text f).size⟩ :: textObjects (i + (textWords f).length) fs

theorem mem_textObjects {fs : List Str} {i fw : Nat} {f : Str} (h : (fw, f) ∈ (textPlaces i fs).zip fs) :
    ⟨fw, (Alloc.text f).size⟩ ∈ textObjects i fs := by
  induction fs generalizing i with
  | nil => exact absurd h List.not_mem_nil
  | cons g gs ih =>
      rw [textPlaces, List.zip_cons_cons, List.mem_cons] at h
      rcases h with h | h
      · obtain ⟨rfl, rfl⟩ := Prod.mk.inj h
        exact List.mem_cons_self
      · exact List.mem_cons_of_mem _ (ih h)

theorem builds_texts (fs : List Str) :
    Builds os len (fs.map fun f => .alloc (.text f)) (allocTexts fs) (textPlaces len fs)
      (os ++ textObjects len fs) (len + (fs.flatMap textWords).length) := by
  induction fs generalizing os len with
  | nil =>
      rw [textObjects, List.append_nil]
      exact performs_pure _
  | cons f fs ih =>
      have hrest : Builds (os ++ [⟨len, (Alloc.text f).size⟩]) (len + (textWords f).length) _
          (allocTexts fs >>= fun ws => pure (len :: ws)) _ _ _ := ih.bind (performs_pure _)
      rw [List.append_nil, List.append_assoc, Nat.add_assoc, ← List.length_append] at hrest
      exact alloc_bind rfl hrest

theorem builds_entries {listBase n : Nat} (ho : ⟨listBase, n⟩ ∈ os) (entries : List (Nat × Str)) {i : Nat}
    (hroom : i + entries.length ≤ n) (htexts : ∀ fw f, (fw, f) ∈ entries → ⟨fw, (Alloc.text f).size⟩ ∈ os) :
    Builds os len (entryCalls listBase i entries) (setListTextEntries listBase i entries) () os len := by
  induction entries generalizing i with
  | nil => exact performs_pure ()
  | cons e entries ih =>
      obtain ⟨fw, f⟩ := e
      rw [List.length_cons] at hroom
      have hrest := @ih (i + 1) (by omega) fun _ _ h => htexts _ _ (List.mem_cons_of_mem _ h)
      exact pointer_bind rfl rfl rfl (Nat.le_refl _) ho (htexts fw f List.mem_cons_self) (Nat.le_add_right _ _)
        (by omega) hrest

theorem builds_bootstrap (questionId : UInt32) :
    Builds [] 0 (bootstrapCalls questionId) (bootstrapWords questionId) ⟨0, 1⟩ [⟨0, 2⟩, ⟨2, 2⟩] 4 := by
  refine struct_bind rfl (struct_bind (w := 2) rfl ?_)
  refine data_bind (w := 0) (n := 2) (i := 0) (k := 2) rfl rfl rfl (by simp) (by omega) (by omega) ?_
  refine pointer_bind (w := 0) (n := 2) (i := 1) (y := 2) rfl rfl rfl (Nat.le_refl _) (by simp) (by simp) (by omega)
    (by omega) ?_
  refine data_bind (w := 2) (n := 2) (i := 16) (k := 4) rfl rfl rfl (by simp) (by omega) (by omega) ?_
  exact performs_pure _

def registerConnectionObjects (p : RegisterConnection) : List Allocations.Object :=
  [⟨0, 4⟩, ⟨4, 2⟩, ⟨6, 3⟩, ⟨9, 4⟩, ⟨13, (Alloc.text p.accountTag).size⟩,
    ⟨secretW p, (Alloc.data p.tunnelSecret).size⟩, ⟨tunnelIdW p, (Alloc.data p.tunnelId.val).size⟩,
    ⟨clientIdW p, (Alloc.data p.clientId.val).size⟩, ⟨versionW p, (Alloc.text p.version).size⟩,
    ⟨archW p, (Alloc.text p.arch).size⟩] ++
  textObjects (featuresW p) p.features ++ [⟨featListW p, max p.features.length 1⟩]

theorem builds_registerConnection (p : RegisterConnection) :
    Builds [] 0 (registerConnectionCalls p) (registerConnectionWords p) ⟨0, 1⟩ (registerConnectionObjects p)
      (featListW p + (Alloc.ptrList p.features.length).content.length) := by
  refine struct_bind rfl (struct_bind (w := 4) rfl (struct_bind (w := 6) rfl (struct_bind (w := 9) rfl ?_)))
  refine alloc_bind (a := .text p.accountTag) (w := 13) rfl ?_
  refine alloc_bind (a := .data p.tunnelSecret) (w := secretW p) rfl ?_
  refine alloc_bind (a := .data p.tunnelId.val) (w := tunnelIdW p) rfl ?_
  refine alloc_bind (a := .data p.clientId.val) (w := clientIdW p) rfl ?_
  refine alloc_bind (a := .text p.version) (w := versionW p) rfl ?_
  refine alloc_bind (a := .text p.arch) (w := archW p) rfl ?_
  refine (builds_texts p.features).bind ?_
  refine alloc_bind (a := .ptrList p.features.length) (w := featListW p) rfl ?_
  -- everything is allocated, and the setters follow
  change Builds (registerConnectionObjects p) _ _ _ _ _ _
  have hparams : ⟨0, 4⟩ ∈ registerConnectionObjects p := by simp [registerConnectionObjects]
  have hauth : ⟨4, 2⟩ ∈ registerConnectionObjects p := by simp [registerConnectionObjects]
  have hoptions : ⟨6, 3⟩ ∈ registerConnectionObjects p := by simp [registerConnectionObjects]
  have hclient : ⟨9, 4⟩ ∈ registerConnectionObjects p := by simp [registerConnectionObjects]
  have haccountTag : ⟨13, (Alloc.text p.accountTag).size⟩ ∈ registerConnectionObjects p := by
    simp [registerConnectionObjects]
  have hsecret : ⟨secretW p, (Alloc.data p.tunnelSecret).size⟩ ∈ registerConnectionObjects p := by
    simp [registerConnectionObjects]
  have htunnelId : ⟨tunnelIdW p, (Alloc.data p.tunnelId.val).size⟩ ∈ registerConnectionObjects p := by
    simp [registerConnectionObjects]
  have hclientId : ⟨clientIdW p, (Alloc.data p.clientId.val).size⟩ ∈ registerConnectionObjects p := by
    simp [registerConnectionObjects]
  have hversion : ⟨versionW p, (Alloc.text p.version).size⟩ ∈ registerConnectionObjects p := by
    simp [registerConnectionObjects]
  have harch : ⟨archW p, (Alloc.text p.arch).size⟩ ∈ registerConnectionObjects p := by
    simp [registerConnectionObjects]
  have hfeatList : ⟨featListW p, max p.features.length 1⟩ ∈ registerConnectionObjects p := by
    simp [registerConnectionObjects]
  have huuid : (16 + 7) / 8 ≤ (Alloc.data p.clientId.val).size := by
    rw [Alloc.size, p.clientId.property]
  refine data_bind (w := 0) (n := 4) (i := 0) (k := 1) rfl rfl rfl hparams (by omega) (by omega) ?_
  refine pointer_bind (i := 1) rfl rfl rfl (Nat.le_refl _) hparams hauth (by omega) (by omega) ?_
  refine pointer_bind (i := 2) rfl rfl rfl (Nat.le_refl _) hparams htunnelId (by omega) (by omega) ?_
  refine pointer_bind (i := 3) rfl rfl rfl (Nat.le_refl _) hparams hoptions (by omega) (by omega) ?_
  refine pointer_bind (i := 4) rfl rfl rfl (Nat.le_refl _) hauth haccountTag (by omega) (by omega) ?_
  refine pointer_bind (i := 5) rfl rfl rfl (Nat.le_refl _) hauth hsecret (by omega) (by omega) ?_
  refine pointer_bind (i := 7) rfl rfl rfl (Nat.le_refl _) hoptions hclient (by omega) (by omega) ?_
  refine pointer_bind (i := 9) rfl rfl rfl huuid hclient hclientId (by omega) (by omega) ?_
  refine pointer_bind (i := 10) rfl rfl rfl (Nat.le_max_left _ _) hclient hfeatList (by omega) (by omega) ?_
  refine pointer_bind (i := 11) rfl rfl rfl (Nat.le_refl _) hclient hversion (by omega) (by omega) ?_
  refine pointer_bind (i := 12) rfl rfl rfl (Nat.le_refl _) hclient harch (by omega) (by omega) ?_
  have hroom : 0 + ((textPlaces (featuresW p) p.features).zip p.features).length ≤ max p.features.length 1 := by
    rw [List.length_zip]
    omega
  have htexts : ∀ fw f, (fw, f) ∈ (textPlaces (featuresW p) p.features).zip p.features →
      ⟨fw, (Alloc.text f).size⟩ ∈ registerConnectionObjects p :=
    fun _ _ h => List.mem_append_left _ (List.mem_append_right _ (mem_textObjects h))
  rw [← List.append_nil (entryCalls _ _ _)]
  exact (builds_entries hfeatList _ hroom htexts).bind (performs_pure _)

def callObjects (n : Nat) : List Allocations.Object :=
  [⟨0, 2⟩, ⟨2, 6⟩, ⟨8, 2⟩, ⟨10, n⟩, ⟨10 + n, 2⟩, ⟨10 + n + 2, 2⟩]

theorem builds_callMsg (questionId : UInt32) {framed : Bytes} {params : Segment}
    (h : stripFraming framed = some params) (hparams : 4 ≤ params.length) :
    Builds [] 0 (callMsgCalls questionId params) (callWords questionId framed) ⟨0, 1⟩ (callObjects params.length)
      (10 + params.length + 2 + 2) := by
  have hstrip : (fun words => (stripFraming framed).map (·, words) : SegBuilder Segment) =
      (pure params : SegBuilder Segment) := by
    rw [h]
    rfl
  rw [callWords, hstrip, pure_bind]
  refine struct_bind rfl (struct_bind (w := 2) rfl (struct_bind (w := 8) rfl ?_))
  refine alloc_bind (a := .raw params) (w := 10) rfl ?_
  refine data_bind (w := 0) (n := 2) (i := 0) (k := 2) rfl rfl rfl (by simp) (by omega) (by omega) ?_
  refine pointer_bind (w := 0) (n := 2) (i := 1) (y := 6) rfl rfl rfl (Nat.le_refl _) (by simp) (by simp) (by omega)
    (by omega) ?_
  refine data_bind (w := 2) (n := 6) (i := 16) (k := 4) rfl rfl rfl (by simp) (by omega) (by omega) ?_
  refine data_bind (w := 2) (n := 6) (i := 20) (k := 2) rfl rfl rfl (by simp) (by omega) (by omega) ?_
  refine data_bind (w := 2) (n := 6) (i := 24) (k := 8) rfl rfl rfl (by simp) (by omega) (by omega) ?_
  refine struct_bind (w := 10 + params.length) rfl ?_
  refine data_bind (w := 10 + params.length) (n := 2) (i := 8 * (10 + params.length)) (k := 2) rfl rfl rfl (by simp)
    (by omega) (by omega) ?_
  refine struct_bind (w := 10 + params.length + 2) rfl ?_
  -- the target is written behind the parameters
  change Builds (callObjects params.length) _ _ _ _ _ _
  have hcall : ⟨2, 6⟩ ∈ callObjects params.length := by simp [callObjects]
  have hpayload : ⟨8, 2⟩ ∈ callObjects params.length := by simp [callObjects]
  have hinner : ⟨10, params.length⟩ ∈ callObjects params.length := by simp [callObjects]
  have htarget : ⟨10 + params.length, 2⟩ ∈ callObjects params.length := by simp [callObjects]
  have hanswer : ⟨10 + params.length + 2, 2⟩ ∈ callObjects params.length := by simp [callObjects]
  refine data_bind (i := 8 * (10 + params.length + 2)) (k := 4) rfl rfl rfl hanswer (by omega) (by omega) ?_
  refine pointer_bind (i := 10 + params.length + 1) rfl rfl rfl (Nat.le_refl 2) htarget hanswer (by omega) (by omega) ?_
  refine data_bind (i := 8 * (10 + params.length)) (k := 2) rfl rfl rfl htarget (by omega) (by omega) ?_
  refine data_bind (i := 8 * (10 + params.length) + 4) (k := 4) rfl rfl rfl htarget (by omega) (by omega) ?_
  refine pointer_bind (i := 5) rfl rfl rfl (Nat.le_refl 2) hcall htarget (by omega) (by omega) ?_
  refine pointer_bind (i := 6) rfl rfl rfl (Nat.le_refl _) hcall hpayload (by omega) (by omega) ?_
  refine pointer_bind (i := 8) rfl rfl rfl hparams hpayload hinner (by omega) (by omega) ?_
  exact performs_pure _

theorem reachable_of_made {s : Allocations.State} {calls : List Call} (h : building.exec new calls = some s)
    (haimed : building.Along Aimed new calls) : building.Reachable Aimed s :=
  ⟨new, rfl, Reaches.exec_along .refl haimed h⟩

theorem pointers_of_aimed {s : Allocations.State} (h : building.Reachable Aimed s) :
    ∀ i t, s.pointer i = some t → ∃ o, o ∈ s.objects ∧ o.start = t := by
  refine h.invariant (I := fun s => ∀ i t, s.pointer i = some t → ∃ o, o ∈ s.objects ∧ o.start = t) ?_ ?_
  · rintro _ rfl i t h
    exact absurd h (by simp [new])
  · intro s c u hs hc hstep i t hp
    cases c with
    | alloc a =>
        rw [show building.step s (.alloc a) = _ from step_alloc s a] at hstep
        obtain rfl := Option.some.inj hstep
        obtain ⟨o, ho, rfl⟩ := hs i t hp
        exact ⟨o, List.mem_append_left _ ho, rfl⟩
    | set c =>
        obtain ⟨r, _, rfl⟩ := Option.map_eq_some_iff.mp hstep
        dsimp only at hp ⊢
        split at hp
        next =>
          obtain ⟨o, ho, hstart, _⟩ := hc.2 c t rfl hp
          exact ⟨o, ho, hstart⟩
        next => exact hs i t hp

/-- The calls lay out the words that the program builds, with its root struct
of this size in front. The root pointer is not among them, which `finish` adds.
An offset has 30 bits, which is enough below `2 ^ 29` words. -/
structure LaidOut (m : SegBuilder StructAlloc) (calls : List Call) (size : Nat) (s : Allocations.State) : Prop where
  made : building.exec new calls = some s
  aimed : building.Along Aimed new calls
  built : m [] = some (⟨0, 1⟩, s.words)
  root : ⟨0, size⟩ ∈ s.objects
  disjoint : s.objects.Pairwise (fun a b => ∀ i, ¬ (a.Has i ∧ b.Has i))
  blank : ∀ k, k < 8 * s.words.length → ¬ Written s k → (segBytes s.words)[k]? = some 0
  pointers : s.words.length < 2 ^ 29 → ∀ i t, s.pointer i = some t →
    ∃ w o, s.words[i]? = some w ∧ (i : Int) + 1 + offset w = t ∧ o ∈ s.objects ∧ o.start = t

theorem Builds.laidOut {m : SegBuilder StructAlloc} {calls : List Call} {os : List Allocations.Object} {len size : Nat}
    (h : Builds [] 0 calls m ⟨0, 1⟩ os len) (hroot : ⟨0, size⟩ ∈ os) :
    ∃ s, LaidOut m calls size s ∧ s.objects = os := by
  obtain ⟨s, hmade, haimed, hbuilt, hs⟩ := h new ⟨laid_new, rfl, rfl⟩
  have hundisturbed := hs.laid.holds
  refine ⟨s, ⟨hmade, haimed, hbuilt, by rwa [hs.objects], hundisturbed.disjoint, hundisturbed.blank, ?_⟩, hs.objects⟩
  intro hshort i t hp
  obtain ⟨o, ho, hstart⟩ := pointers_of_aimed (reachable_of_made hmade haimed) i t hp
  have hinside := hs.laid.inside o ho
  have ht : t < 2 ^ 29 := by
    rw [← hstart]
    exact Nat.lt_of_le_of_lt (Nat.le_trans (Nat.le_add_right _ _) hinside) hshort
  obtain ⟨w, hw, hoffset⟩ := hundisturbed.resolves hshort i t hp ht
  exact ⟨w, o, hw, hoffset, ho, hstart⟩

theorem callSegment_params (questionId : UInt32) {params : Segment} {i : Nat} {w : UInt64} (h : params[i]? = some w) :
    (callSegment questionId params)[10 + i]? = some w := by
  have hhead : (callHead questionId params.length).length = 10 := rfl
  rw [callSegment, List.append_assoc, List.getElem?_append_right (by omega), hhead, Nat.add_sub_cancel_left,
    List.getElem?_append_left (List.getElem?_eq_some_iff.mp h).1, h]

/-- The three messages are laid out by the calls that the code makes. The call
takes in the words of the request as one object, and in there the pointers of
the request lead to its objects as before. -/
theorem messages_laid_out (questionId : UInt32) (p : RegisterConnection) :
    (∃ s, LaidOut (bootstrapWords questionId) (bootstrapCalls questionId) 2 s) ∧
    ∃ request framed call, LaidOut (registerConnectionWords p) (registerConnectionCalls p) 4 request ∧
      encodeRegisterConnection p = some framed ∧
      LaidOut (callWords questionId framed) (callMsgCalls questionId request.words) 2 call ∧
      ⟨10, request.words.length⟩ ∈ call.objects ∧
      (call.words.length < 2 ^ 29 → ∀ i t, request.pointer i = some t →
        ∃ w o, call.words[10 + i]? = some w ∧ ((10 + i : Nat) : Int) + 1 + offset w = (10 + t : Nat) ∧
          o ∈ request.objects ∧ o.start = t) := by
  obtain ⟨bootstrap, hbootstrap, _⟩ := (builds_bootstrap questionId).laidOut List.mem_cons_self
  obtain ⟨request, hrequest, _⟩ := (builds_registerConnection p).laidOut List.mem_cons_self
  have hwords : request.words = paramsWords p :=
    (Prod.mk.inj (Option.some.inj (hrequest.built.symm.trans (registerConnectionWords_run p)))).2
  have hstrip := stripFraming_finish (paramsWords p) 0 1 3
  have hlength : 4 ≤ (paramsWords p).length := by
    have hbound := (@partsAt_paramsWords p).accountTag.bound
    omega
  obtain ⟨call, hcall, hobjects⟩ := (builds_callMsg questionId hstrip hlength).laidOut List.mem_cons_self
  have hsegment : call.words = callSegment questionId (paramsWords p) :=
    (Prod.mk.inj (Option.some.inj (hcall.built.symm.trans (callWords_run questionId hstrip)))).2
  refine ⟨⟨bootstrap, hbootstrap⟩, request, _, call, hrequest, encodeRegisterConnection_eq p, ?_, ?_, ?_⟩
  · rw [hwords]
    exact hcall
  · rw [hobjects, hwords]
    simp [callObjects]
  · intro hshort i t hp
    have hshorter : request.words.length < 2 ^ 29 := by
      rw [hsegment, callSegment, List.length_append, List.length_append] at hshort
      rw [hwords]
      omega
    obtain ⟨w, o, hw, hoffset, ho, hstart⟩ := hrequest.pointers hshorter i t hp
    rw [hwords] at hw
    refine ⟨w, o, ?_, by omega, ho, hstart⟩
    rw [hsegment]
    exact callSegment_params questionId hw

end MiniCloudflared.MessageLayout
