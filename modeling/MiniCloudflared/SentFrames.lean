import MiniCloudflared.Http2

namespace MiniCloudflared.SentFrames

open Library HttpTypes RequestBody Http2

def sent (m : Streams) : List OutFrame := m.wire ++ m.outbound

def allOf (m : Streams) (id : Nat) : List OutFrame := (sent m).filter fun f => f.id == id

def answers (fs : List OutFrame) : List OutFrame := fs.filter fun f => !f.isReset

/-- What has been sent on a stream apart from RST_STREAM. -/
def framesOf (m : Streams) (id : Nat) : List OutFrame := answers (allOf m id)

/-- Nothing is handed over on the stream. What is queued for it may be lost, and
it may be reset, but then it takes nothing any more. -/
structure Calm (m m' : Streams) (id : Nat) : Prop where
  kept : ∃ fs rs, allOf m' id = fs ++ rs ∧ fs <+: allOf m id ∧ ∀ f, f ∈ rs → f = .reset id
  live : m'.resetBy id = none → allOf m' id = allOf m id ∧ (m.resetBy id = none ∨ m.lastId < id)

variable {h2 : H2} {m m' : Streams} {f : InFrame} {id j : Nat} {r : RecvStream} {fs : List OutFrame}

theorem resetBy_eq_none : m.resetBy id = none ↔ ∃ r, m.recv id = some r ∧ ∀ e, r.ending ≠ .failed e := by
  rw [Streams.resetBy]
  cases m.recv id with
  | none => simp
  | some r =>
      rcases r with ⟨es, ending⟩
      cases ending <;> simp

theorem resetBy_fail (h : m'.recv id = (m.recv id).map RecvStream.fail) : m'.resetBy id ≠ none := by
  rw [Streams.resetBy, h]
  cases m.recv id <;> simp [RecvStream.fail]

theorem resetBy_setRecv {r' : RecvStream} (hr : m.recv id = some r) (hend : r'.ending = r.ending) (j : Nat) :
    (m.setRecv id r').resetBy j = m.resetBy j := by
  by_cases hj : j = id
  · subst hj
    rcases r with ⟨es, ending⟩
    rcases r' with ⟨es', ending'⟩
    obtain rfl : ending' = ending := hend
    rw [Streams.resetBy, Streams.resetBy, hr]
    simp only [Streams.setRecv, if_true]
    cases ending' <;> rfl
  · rw [Streams.resetBy, Streams.resetBy, Streams.setRecv]
    simp only [if_neg hj]

theorem allOf_send (m : Streams) (fs : List OutFrame) (id : Nat) :
    allOf (m.send fs) id = allOf m id ++ fs.filter fun f => f.id == id := by
  rw [allOf, sent, Streams.send, ← List.append_assoc, List.filter_append]
  rfl

theorem allOf_send_own (hfs : ∀ f, f ∈ fs → f.id = id) : allOf (m.send fs) id = allOf m id ++ fs := by
  rw [allOf_send, List.filter_eq_self.mpr]
  exact fun f hf => beq_iff_eq.mpr (hfs f hf)

theorem allOf_send_other (hfs : ∀ f, f ∈ fs → f.id = id) (hj : j ≠ id) : allOf (m.send fs) j = allOf m j := by
  rw [allOf_send, List.filter_eq_nil_iff.mpr, List.append_nil]
  intro f hf
  rw [hfs f hf, beq_iff_eq]
  exact Ne.symm hj

theorem allOf_failStream_own (m : Streams) (id : Nat) : allOf (m.failStream id) id <+: allOf m id := by
  have hnone : (m.outbound.filter fun f => f.id != id).filter (fun f => f.id == id) = [] := by
    rw [List.filter_filter, List.filter_eq_nil_iff]
    simp
  rw [allOf, allOf, sent, sent, List.filter_append, List.filter_append, Streams.failStream, hnone, List.append_nil]
  exact List.prefix_append _ _

theorem allOf_failStream_other (m : Streams) (hj : j ≠ id) : allOf (m.failStream id) j = allOf m j := by
  have hkept : (m.outbound.filter fun f => f.id != id).filter (fun f => f.id == j) =
      m.outbound.filter fun f => f.id == j := by
    rw [List.filter_filter]
    refine List.filter_congr fun f _ => ?_
    by_cases hf : f.id = j
    · rw [hf]
      simp [hj]
    · simp [hf]
  rw [allOf, allOf, sent, sent, List.filter_append, List.filter_append, Streams.failStream, hkept]

theorem allOf_failAll (m : Streams) (id : Nat) : allOf m.failAll id <+: allOf m id := by
  rw [allOf, allOf, sent, sent, List.filter_append, List.filter_append]
  exact List.prefix_append_of_prefix (List.append_nil _ ▸ List.prefix_refl _)

/-- Only a stream that has been heard of is reset. -/
theorem receive_sent (h2 : H2) (f : InFrame) (h : allOf m id = []) : allOf (receive h2 m f) id = [] ∨ f.id = id ∧
    (m.recv id = none → id ≤ m.lastId ∨ ∃ req endStream, f = .headers id req endStream) := by
  obtain ⟨m', hm, he⟩ := receive_cases h2 m f
  rw [he]
  change allOf m' id = [] ∨ _
  cases hm with
  | failed gs hgs hnot =>
      by_cases hf : f.id = id
      · subst hf
        exact .inr ⟨rfl, hnot⟩
      · refine .inl ?_
        rw [allOf_send_other (fun g hg => by rw [hgs g hg]; rfl) (Ne.symm hf), allOf_failStream_other m (Ne.symm hf), h]
  | closed c => exact .inl (List.prefix_nil.mp (h ▸ allOf_failAll m id))
  | _ => exact .inl h

namespace Calm

theorem same (hall : allOf m' id = allOf m id)
    (hlive : m'.resetBy id = none → m.resetBy id = none ∨ m.lastId < id) : Calm m m' id where
  kept := ⟨allOf m id, [], by rw [hall, List.append_nil], List.prefix_refl _, fun _ hf => absurd hf List.not_mem_nil⟩
  live h := ⟨hall, hlive h⟩

theorem cut (hdead : m'.resetBy id ≠ none) {rs : List OutFrame} (hall : allOf m' id = fs ++ rs)
    (hfs : fs <+: allOf m id) (hrs : ∀ f, f ∈ rs → f = .reset id) : Calm m m' id where
  kept := ⟨fs, rs, hall, hfs, hrs⟩
  live h := absurd h hdead

theorem congr {n : Streams} (h : Calm m m' id) (hall : allOf n id = allOf m id) (hreset : n.resetBy id = m.resetBy id)
    (hlast : n.lastId = m.lastId) : Calm n m' id where
  kept := by
    rw [hall]
    exact h.kept
  live := by
    rw [hall, hreset, hlast]
    exact h.live

theorem failAll (m : Streams) (id : Nat) : Calm m m.failAll id :=
  cut (resetBy_fail rfl) (List.append_nil _).symm (allOf_failAll m id) fun _ hf => absurd hf List.not_mem_nil

theorem setRecv (hr : (∀ e, r.ending ≠ .failed e) → m.resetBy id = none) (j : Nat) : Calm m (m.setRecv id r) j := by
  refine same rfl fun hlive => ?_
  obtain ⟨r', hr', hend⟩ := resetBy_eq_none.mp hlive
  by_cases hj : j = id
  · subst hj
    obtain rfl := Option.some.inj ((if_pos rfl).symm.trans hr')
    exact .inl (hr hend)
  · exact .inl (resetBy_eq_none.mpr ⟨r', (if_neg hj).symm.trans hr', hend⟩)

theorem reset (m : Streams) (id : Nat) (es : List RecvEvent) (j : Nat) :
    Calm m ((m.setRecv id ⟨es, .failed .h2⟩).send [.reset id]) j := by
  have hreset : ∀ f, f ∈ [OutFrame.reset id] → f.id = id := by
    intro f hf
    obtain rfl := List.mem_singleton.mp hf
    rfl
  by_cases hj : j = id
  · subst hj
    refine cut ?_ (allOf_send_own hreset) (List.prefix_refl _) fun f hf => List.mem_singleton.mp hf
    intro hlive
    obtain ⟨r', hr', hend⟩ := resetBy_eq_none.mp hlive
    obtain rfl := Option.some.inj ((if_pos rfl).symm.trans hr')
    exact hend .h2 rfl
  · refine same (allOf_send_other hreset hj) fun hlive => .inl ?_
    obtain ⟨r', hr', hend⟩ := resetBy_eq_none.mp hlive
    exact resetBy_eq_none.mpr ⟨r', (if_neg hj).symm.trans hr', hend⟩

theorem release (m : Streams) (id : Nat) (finished : Bool) (j : Nat) : Calm m (m.release id finished) j := by
  rw [Streams.release]
  split
  next es _ => exact reset m id es j
  next es _ =>
    cases finished with
    | true => exact same rfl .inl
    | false => exact reset m id es j
  next => exact same rfl .inl

theorem received (h : Received m f m') (id : Nat) : Calm m m' id := by
  cases h with
  | opened j req endStream hf hj =>
      by_cases hid : id = j
      · exact same rfl fun _ => .inr (hid ▸ hj)
      · refine same rfl fun hlive => .inl ?_
        obtain ⟨r, hr, hend⟩ := resetBy_eq_none.mp hlive
        exact resetBy_eq_none.mpr ⟨r, (if_neg hid).symm.trans hr, hend⟩
  | heard r hr =>
      refine setRecv (fun hend => resetBy_eq_none.mpr ⟨r, hr, fun e he => ?_⟩) id
      rcases r with ⟨es, ending⟩
      obtain rfl : ending = .failed e := he
      obtain ⟨e', hheard⟩ := hear_failed f.id es e f
      exact hend e' (congrArg RecvStream.ending hheard)
  | nothing => exact same rfl .inl
  | failed gs hgs =>
      by_cases hid : id = f.id
      · subst hid
        refine cut (resetBy_fail (m := m) (if_pos rfl)) (allOf_send_own fun g hg => ?_)
          (allOf_failStream_own m f.id) hgs
        rw [hgs g hg]
        rfl
      · refine same ?_ fun hlive => .inl ?_
        · rw [allOf_send_other (fun g hg => ?_) hid, allOf_failStream_other m hid]
          rw [hgs g hg]
          rfl
        · obtain ⟨r, hr, hend⟩ := resetBy_eq_none.mp hlive
          exact resetBy_eq_none.mpr ⟨r, (if_neg hid).symm.trans hr, hend⟩
  | closed c =>
      exact cut (resetBy_fail rfl) (List.append_nil _).symm (allOf_failAll m id) fun _ hf => absurd hf List.not_mem_nil

theorem receive (h2 : H2) (m : Streams) (f : InFrame) (id : Nat) : Calm m (receive h2 m f) id := by
  obtain ⟨m', h, he⟩ := receive_cases h2 m f
  have hcalm := received h id
  rw [he]
  exact ⟨hcalm.kept, hcalm.live⟩

theorem framesOf_first (h : Calm m m' id) : framesOf m' id <+: framesOf m id := by
  obtain ⟨fs, rs, hall, hfs, hrs⟩ := h.kept
  have hnone : answers rs = [] := by
    rw [answers, List.filter_eq_nil_iff]
    intro f hf
    rw [hrs f hf]
    exact Bool.false_ne_true
  rw [framesOf, framesOf, hall, answers, List.filter_append, ← answers, ← answers, hnone, List.append_nil]
  exact hfs.filter _

theorem framesOf_live (h : Calm m m' id) (hlive : m'.resetBy id = none) : framesOf m' id = framesOf m id :=
  congrArg answers (h.live hlive).1

end Calm

/-- What holds of the streams between any two steps. A stream that takes frames
has not been reset. -/
structure Coherent (m : Streams) : Prop where
  recv : ∀ id, m.recv id ≠ none → id ≤ m.lastId
  sent : ∀ id, allOf m id ≠ [] → id ≤ m.lastId
  unreset : ∀ id, m.resetBy id = none → ∀ f, f ∈ allOf m id → f.isReset = false

namespace Coherent

theorem unreset_calm (h : Coherent m) (hcalm : Calm m m' id) (hlive : m'.resetBy id = none) :
    ∀ f, f ∈ allOf m' id → f.isReset = false := by
  obtain ⟨hall, hopen⟩ := hcalm.live hlive
  intro f hf
  rw [hall] at hf
  rcases hopen with hopen | hnew
  · exact h.unreset id hopen f hf
  · exact absurd (h.sent id (List.ne_nil_of_mem hf)) (Nat.not_le.mpr hnew)

theorem calm (h : Coherent m) (hcalm : ∀ id, Calm m m' id) (hlast : m'.lastId = m.lastId)
    (hrecv : ∀ id, m'.recv id ≠ none → m.recv id ≠ none)
    (hsent : ∀ id, allOf m' id ≠ [] → allOf m id ≠ [] ∨ m.recv id ≠ none) : Coherent m' where
  recv id hid := hlast ▸ h.recv id (hrecv id hid)
  sent id hid := hlast ▸ (hsent id hid).elim (h.sent id) (h.recv id)
  unreset id := h.unreset_calm (hcalm id)

theorem live_le (h : Coherent m) (hlive : m.resetBy id = none) : id ≤ m.lastId := by
  obtain ⟨r, hr, _⟩ := resetBy_eq_none.mp hlive
  exact h.recv id (by rw [hr]; exact Option.some_ne_none r)

theorem failAll (h : Coherent m) : Coherent m.failAll := by
  refine h.calm (Calm.failAll m) rfl (fun id hid hr => hid ?_) (fun id hid => .inl ?_)
  · exact congrArg (Option.map RecvStream.fail) hr
  · exact fun hnil => hid (List.prefix_nil.mp (hnil ▸ allOf_failAll m id))

theorem setRecv (h : Coherent m) (hr : m.recv id ≠ none)
    (hend : (∀ e, r.ending ≠ .failed e) → m.resetBy id = none) : Coherent (m.setRecv id r) := by
  refine h.calm (Calm.setRecv hend) rfl (fun j hj => ?_) (fun j hj => .inl hj)
  by_cases he : j = id
  · exact he ▸ hr
  · intro hnone
    exact hj ((if_neg he).trans hnone)

theorem reset (h : Coherent m) (hr : m.recv id ≠ none) (es : List RecvEvent) :
    Coherent ((m.setRecv id ⟨es, .failed .h2⟩).send [.reset id]) := by
  refine h.calm (Calm.reset m id es) rfl (fun j hj => ?_) (fun j hj => ?_)
  · by_cases he : j = id
    · exact he ▸ hr
    · intro hnone
      exact hj ((if_neg he).trans hnone)
  · by_cases he : j = id
    · exact .inr (he ▸ hr)
    · refine .inl fun hnil => hj ?_
      rw [allOf_send_other (fun f hf => List.mem_singleton.mp hf ▸ rfl) he]
      exact hnil

theorem release (h : Coherent m) (id : Nat) (finished : Bool) : Coherent (m.release id finished) := by
  rw [Streams.release]
  split
  next es hr => exact h.reset (by rw [hr]; exact Option.some_ne_none _) es
  next es hr =>
    cases finished with
    | true => exact h
    | false => exact h.reset (by rw [hr]; exact Option.some_ne_none _) es
  next => exact h

theorem send (h : Coherent m) (hlive : m.resetBy id = none) (hfs : ∀ f, f ∈ fs → f.id = id ∧ f.isReset = false) :
    Coherent (m.send fs) where
  recv := h.recv
  sent j hj := by
    by_cases he : j = id
    · exact he ▸ h.live_le hlive
    · rw [allOf_send_other (fun f hf => (hfs f hf).1) he] at hj
      exact h.sent j hj
  unreset j hj f hf := by
    rw [allOf_send, List.mem_append] at hf
    rcases hf with hf | hf
    · exact h.unreset j hj f hf
    · exact (hfs f (List.mem_of_mem_filter hf)).2

theorem send_one (h : Coherent m) (f : OutFrame) (hlive : m.resetBy f.id = none) (hf : f.isReset = false) :
    Coherent (m.send [f]) := by
  refine h.send hlive fun g hg => ?_
  obtain rfl := List.mem_singleton.mp hg
  exact ⟨rfl, hf⟩

theorem receive (h : Coherent m) (h2 : H2) (f : InFrame) : Coherent (receive h2 m f) := by
  obtain ⟨hle, hnew⟩ := receive_lastId h2 m f
  refine ⟨fun id hid => ?_, fun id hid => ?_, fun id => h.unreset_calm (Calm.receive h2 m f id)⟩
  · by_cases hr : m.recv id = none
    · rcases receive_none h2 f hr with hnone | ⟨req, endStream, hf, _⟩
      · exact absurd hnone hid
      · exact hnew id req endStream hf
    · exact Nat.le_trans (h.recv id hr) hle
  · by_cases hold : allOf m id = []
    · rcases receive_sent h2 f hold with hnone | ⟨rfl, hwas⟩
      · exact absurd hnone hid
      · by_cases hr : m.recv f.id = none
        · rcases hwas hr with hid | ⟨req, endStream, hf⟩
          · exact Nat.le_trans hid hle
          · exact hnew f.id req endStream hf
        · exact Nat.le_trans (h.recv f.id hr) hle
    · exact Nat.le_trans (h.sent id hold) hle

end Coherent

end MiniCloudflared.SentFrames
