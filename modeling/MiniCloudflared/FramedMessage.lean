import MiniCloudflared.RegisterCall

namespace MiniCloudflared.FramedMessage

open Library Capnp HttpTypes CapnpRpc SchemaReaders RegisterCall

/-- The message has one segment of the announced size, and its root pointer leads
to the first struct, the one behind the pointer, in which `reads` holds. -/
def ReadFromRoot (framed : Bytes) (reads : (seg : Segment) → StructRef seg → Prop) : Prop :=
  ∃ seg root, singleSegment framed = some seg ∧ readStruct seg 0 = some root ∧ root.start = 1 ∧ reads seg root

def BootstrapFramed (questionId : UInt32) : Prop :=
  ∃ framed, buildBootstrapMsg questionId = some framed ∧
    ReadFromRoot framed fun _ root => readBootstrap root = some questionId

def RegisterFramed (p : RegisterConnection) : Prop :=
  ∃ framed, encodeRegisterConnection p = some framed ∧
    ReadFromRoot framed fun _ root => readParams root = some p

def CallFramed (questionId : UInt32) (p : RegisterConnection) : Prop :=
  ∃ params framed, encodeRegisterConnection p = some params ∧ buildCallMsg questionId params = some framed ∧
    ReadFromRoot framed fun _ root => ∃ call, readCall root = some call ∧ call.questionId = questionId ∧
      call.methodId = METHOD_REGISTER ∧ call.interfaceId = REGISTRATION_SERVER_ID ∧ call.params = p

variable {words : Segment} {dataWords ptrCount : UInt16}

theorem singleSegment_finish (hlen : 1 + words.length < 2 ^ 32) :
    singleSegment (finish words 0 dataWords ptrCount) =
      some (structPointer (-1) dataWords.toNat ptrCount.toNat :: words) := by
  rw [finish_eq, singleSegment_frame, Nat.mod_mod, Nat.mod_eq_of_lt hlen, List.length_cons, Nat.add_comm 1,
    if_pos rfl]
  rfl

theorem segment_of_finish {seg : Segment} (h : singleSegment (finish words 0 dataWords ptrCount) = some seg) :
    seg = structPointer (-1) dataWords.toNat ptrCount.toNat :: words := by
  rw [finish_eq, singleSegment_frame] at h
  split at h
  next => exact (Option.some.inj h).symm
  next => exact absurd h (by simp)

/-- With an offset of −1 the root pointer leads to itself. -/
theorem root_of_finish {seg : Segment} {root : StructRef seg}
    (h : singleSegment (finish words 0 dataWords ptrCount) = some seg) (hroot : readStruct seg 0 = some root) :
    root.start = 0 := by
  obtain rfl := segment_of_finish h
  obtain ⟨w, hw, ⟨rfl, hstart, _⟩ | ⟨_, _, htarget, _⟩⟩ := readStruct_inv hroot
  · exact hstart
  · obtain rfl := Option.some.inj hw
    have hself : target 0 (structPointer (-1) dataWords.toNat ptrCount.toNat) = some 0 := by
      obtain ⟨_, hoffset, _⟩ := structPointer_fields (o := -1) ⟨by omega, by omega⟩ dataWords.toNat_lt ptrCount.toNat_lt
      exact target_of hoffset
    rw [hself] at htarget
    exact (Option.some.inj htarget).symm

theorem not_readFromRoot (reads : (seg : Segment) → StructRef seg → Prop) :
    ¬ ReadFromRoot (finish words 0 dataWords ptrCount) reads := by
  rintro ⟨seg, root, hseg, hroot, hstart, _⟩
  rw [root_of_finish hseg hroot] at hstart
  exact absurd hstart (by decide)

theorem bootstrapWords_run (questionId : UInt32) :
    bootstrapWords questionId [] =
      some (⟨0, 1⟩, [patchWord 0 0 (leBytes 2 8), structPointerAt 1 2 1 1,
        patchWord 0 0 (leBytes 4 questionId.toNat), 0]) := by
  rw [bootstrapWords, bind_run (allocStruct_run _ _ _), bind_run (allocStruct_run _ _ _)]
  simp only [List.length_append, List.length_replicate, List.length_nil, Nat.zero_add, Nat.reduceAdd]
  rw [setU16, bind_run (copyFromSlice_run (by simp) (by simp)), bind_run (setStructPtr_run _ _ _ (by simp)), setU32,
    bind_run (copyFromSlice_run (by simp) (by simp))]
  rfl

theorem not_bootstrapFramed (questionId : UInt32) : ¬ BootstrapFramed questionId := by
  rintro ⟨framed, hframed, hread⟩
  rw [buildBootstrapMsg, bootstrapWords_run] at hframed
  obtain rfl := Option.some.inj hframed
  exact not_readFromRoot _ hread

theorem not_registerFramed (p : RegisterConnection) : ¬ RegisterFramed p := by
  rintro ⟨framed, hframed, hread⟩
  rw [encodeRegisterConnection_eq] at hframed
  obtain rfl := Option.some.inj hframed
  exact not_readFromRoot _ hread

theorem not_callFramed (questionId : UInt32) (p : RegisterConnection) : ¬ CallFramed questionId p := by
  rintro ⟨params, framed, hparams, hframed, hread⟩
  rw [encodeRegisterConnection_eq] at hparams
  obtain rfl := Option.some.inj hparams
  rw [buildCallMsg, callWords_run questionId (stripFraming_finish (paramsWords p) 0 1 3)] at hframed
  obtain rfl := Option.some.inj hframed
  exact not_readFromRoot _ hread

/-- None of the three messages can be read from its root. -/
theorem not_framed (questionId : UInt32) (p : RegisterConnection) :
    ¬ BootstrapFramed questionId ∧ ¬ RegisterFramed p ∧ ¬ CallFramed questionId p :=
  ⟨not_bootstrapFramed questionId, not_registerFramed p, not_callFramed questionId p⟩

/-- The bootstrap message for question 0: its frame is right, and its root
pointer leads to the pointer itself. -/
theorem bootstrap_misread : ∃ framed seg root, buildBootstrapMsg 0 = some framed ∧
    singleSegment framed = some seg ∧ readStruct seg 0 = some root ∧ root.start = 0 ∧
    readBootstrap root = none ∧ ¬ BootstrapFramed 0 := by
  have hbuild : buildBootstrapMsg 0 = some (finish [patchWord 0 0 (leBytes 2 8), structPointerAt 1 2 1 1,
      patchWord 0 0 (leBytes 4 (0 : UInt32).toNat), 0] 0 1 1) := by
    rw [buildBootstrapMsg, bootstrapWords_run]
    rfl
  refine ⟨_, _, ⟨0, 1, 1, by decide⟩, hbuild, singleSegment_finish (by decide), ?_, rfl, ?_, ?_⟩
  · decide +kernel
  · decide +kernel
  · rintro ⟨framed, hframed, hread⟩
    rw [hbuild] at hframed
    obtain rfl := Option.some.inj hframed
    exact not_readFromRoot _ hread

end MiniCloudflared.FramedMessage
