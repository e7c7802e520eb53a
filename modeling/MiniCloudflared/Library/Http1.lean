import MiniCloudflared.Library.Bytes
import MiniCloudflared.Library.MultiMap
import Mathlib.Data.List.DropRight

namespace MiniCloudflared.Library.Http1

def isAlpha (b : UInt8) : Bool := (65 ≤ b && b ≤ 90) || (97 ≤ b && b ≤ 122)

def isHex (b : UInt8) : Bool := isDigit b || (65 ≤ b && b ≤ 70) || (97 ≤ b && b ≤ 102)

def hexValue (b : UInt8) : Nat :=
  if isDigit b then digitValue b else if b ≤ 70 then b.toNat - 55 else b.toNat - 87

def isTchar (b : UInt8) : Bool :=
  isDigit b || isAlpha b ||
    [33, 35, 36, 37, 38, 39, 42, 43, 45, 46, 94, 95, 96, 124, 126].contains b

def isFieldByte (b : UInt8) : Bool := b == 9 || (32 ≤ b && b != 127)

def isOws (b : UInt8) : Bool := b == 32 || b == 9

def trimOws (s : Bytes) : Bytes := (s.dropWhile isOws).rdropWhile isOws

/-- The characters of a path or a query that stand for themselves, with the
slash and the question mark. -/
def isTargetByte (b : UInt8) : Bool :=
  isDigit b || isAlpha b ||
    [33, 36, 38, 39, 40, 41, 42, 43, 44, 45, 46, 47, 58, 59, 61, 63, 64, 95, 126].contains b

def isTargetTail : Bytes → Bool
  | [] => true
  | b :: s =>
      if b = 37 then
        match s with
        | x :: y :: t => isHex x && isHex y && isTargetTail t
        | _ => false
      else isTargetByte b && isTargetTail s

def isOriginForm (t : Bytes) : Bool := t.head? == some 47 && isTargetTail t

abbrev Field := Bytes × Bytes

def readField (l : Bytes) : Option Field :=
  match l.dropWhile (· != 58) with
  | [] => none
  | _ :: v =>
      let name := l.takeWhile (· != 58)
      if name ≠ [] ∧ name.all isTchar ∧ v.all isFieldByte then some (name, trimOws v) else none

def fieldLine (name value : Bytes) : Bytes := name ++ ascii ": " ++ value

structure LegalField (f : Field) : Prop where
  ne_nil : f.1 ≠ []
  tchars : ∀ b, b ∈ f.1 → isTchar b = true
  bytes : ∀ b, b ∈ f.2 → isFieldByte b = true

theorem readField_fieldLine {name value : Bytes} (h : LegalField (name, value)) :
    readField (fieldLine name value) = some (name, trimOws value) := by
  obtain ⟨hne, hname, hvalue⟩ := h
  have hcolon : 58 ∉ name := fun h => absurd (hname 58 h) (by decide)
  have hline : fieldLine name value = name ++ 58 :: 32 :: value := by simp [fieldLine, ascii]
  have hspace : (32 :: value).all isFieldByte = true := by
    rw [List.all_cons, List.all_eq_true.mpr hvalue]
    rfl
  have htrim : trimOws (32 :: value) = trimOws value := rfl
  simp only [readField, hline, takeWhile_cut _ hcolon, dropWhile_cut _ hcolon, hspace, htrim,
    List.all_eq_true.mpr hname]
  simp [hne]

theorem readField_fieldLine_name {name value : Bytes} (hcolon : 58 ∉ name) {f : Field}
    (h : readField (fieldLine name value) = some f) : f.1 = name := by
  have hline : fieldLine name value = name ++ 58 :: 32 :: value := by simp [fieldLine, ascii]
  simp only [readField, hline, takeWhile_cut _ hcolon, dropWhile_cut _ hcolon] at h
  split at h
  next =>
    obtain rfl := Option.some.inj h
    rfl
  next => exact absurd h (by simp)

def readFields (ls : List Bytes) : Option (List Field) := ls.mapM readField

theorem readFields_fieldLines (fs : List Field) (h : ∀ f, f ∈ fs → LegalField f) :
    readFields (fs.map (fun f => fieldLine f.1 f.2)) = some (fs.map (fun f => (f.1, trimOws f.2))) := by
  induction fs with
  | nil => rfl
  | cons f fs ih =>
      rw [List.forall_mem_cons] at h
      have hf := readField_fieldLine h.1
      have ih := ih h.2
      simp only [readFields] at ih
      simp [readFields, hf, ih]

theorem readFields_fieldLines_names {fs gs : List Field} (hcolon : ∀ f, f ∈ fs → 58 ∉ f.1)
    (h : readFields (fs.map (fun f => fieldLine f.1 f.2)) = some gs) : gs.map Prod.fst = fs.map Prod.fst := by
  rw [readFields] at h
  induction fs generalizing gs with
  | nil =>
      obtain rfl : [] = gs := by simpa using h
      rfl
  | cons f fs ih =>
      rw [List.forall_mem_cons] at hcolon
      rw [List.map_cons, List.mapM_cons] at h
      obtain ⟨g, hg, h⟩ := Option.bind_eq_some_iff.mp h
      obtain ⟨gs', hgs, h⟩ := Option.bind_eq_some_iff.mp h
      obtain rfl := Option.some.inj h
      rw [List.map_cons, List.map_cons, readField_fieldLine_name hcolon.1 hg, ih hcolon.2 hgs]

def fieldValues (name : Bytes) (fs : List Field) : List Bytes :=
  valuesAt name (fs.map (fun f => (lower f.1, f.2)))

inductive Declared
  | absent
  | malformed
  | length (n : Nat)
  deriving DecidableEq

def declared : List Bytes → Declared
  | [] => .absent
  | v :: vs =>
      match readDecimal v with
      | none => .malformed
      | some n => if vs.all (fun w => readDecimal w == some n) then .length n else .malformed

def contentLength (fs : List Field) : Declared := declared (fieldValues (ascii "content-length") fs)

def codings (fs : List Field) : List Bytes :=
  (fieldValues (ascii "transfer-encoding") fs).flatMap fun v =>
    (v.splitOn 44).map (fun c => lower (trimOws c))

def isChunked (fs : List Field) : Bool := (codings fs).getLast? == some (ascii "chunked")

def readChunkSize (l : Bytes) : Option Nat :=
  let size := l.takeWhile isHex
  let extension := l.dropWhile isHex
  if size ≠ [] ∧ extension.all isFieldByte ∧
      (extension = [] ∨ (extension.dropWhile isOws).head? = some 59) then
    some (size.foldl (fun n b => 16 * n + hexValue b) 0)
  else none

/-- Chunks, the last chunk and the trailer section. The fuel bounds the number
of chunks. -/
def readChunks : Nat → Bytes → Option (Bytes × Bytes)
  | 0, _ => none
  | fuel + 1, s =>
      match cutLine [] s with
      | none => none
      | some (l, s) =>
          match readChunkSize l with
          | none => none
          | some 0 =>
              match readLines [] s with
              | none => none
              | some (ls, rest) => if (readFields ls).isSome then some ([], rest) else none
          | some n =>
              if n ≤ s.length ∧ (s.drop n).take 2 = crlf then
                (readChunks fuel ((s.drop n).drop 2)).map (fun p => (s.take n ++ p.1, p.2))
              else none

def readChunked (s : Bytes) : Option (Bytes × Bytes) := readChunks s.length s

/-- Chunked coding is never free: what is decoded and what is left over are
together shorter than what was read. -/
theorem readChunks_length {fuel : Nat} {s body rest : Bytes}
    (h : readChunks fuel s = some (body, rest)) : body.length + rest.length < s.length := by
  induction fuel generalizing s body rest with
  | zero => simp [readChunks] at h
  | succ fuel ih =>
      rw [readChunks] at h
      split at h
      next => simp at h
      next l t hl =>
        have ht : t.length + 2 ≤ s.length := by
          have hs := congrArg List.length (cutLine_sound hl)
          simp only [crlf, List.nil_append, List.length_append, List.length_cons,
            List.length_nil] at hs
          omega
        split at h
        next => simp at h
        next =>
          split at h
          next => simp at h
          next ls r hr =>
            split at h
            next =>
              simp only [Option.some.injEq, Prod.mk.injEq] at h
              obtain ⟨rfl, rfl⟩ := h
              have hw := congrArg List.length (readLines_sound hr)
              simp only [List.nil_append, List.length_append, List.length_nil] at hw ⊢
              omega
            next => simp at h
        next n _ =>
          split at h
          next hn =>
            simp only [Option.map_eq_some_iff, Prod.mk.injEq] at h
            obtain ⟨⟨b, r⟩, hr, rfl, rfl⟩ := h
            have hi := ih hr
            simp only [List.length_drop, List.length_append, List.length_take] at hi ⊢
            omega
          next => simp at h

inductive Framing
  | empty
  | chunked
  | length (n : Nat)
  | close
  deriving DecidableEq

structure Head where
  code : Nat
  fields : List Field
  deriving DecidableEq

def readStatusLine (l : Bytes) : Option Nat :=
  if l.take 9 = ascii "HTTP/1.1 " then
    match l.drop 9 with
    | a :: b :: c :: d :: reason =>
        if isDigit a && isDigit b && isDigit c && d == 32 && reason.all isFieldByte then
          some (100 * digitValue a + 10 * digitValue b + digitValue c)
        else none
    | _ => none
  else none

def readHead (s : Bytes) : Option (Head × Bytes) :=
  match readLines [] s with
  | some (l :: ls, rest) =>
      match readStatusLine l, readFields ls with
      | some code, some fs => some (⟨code, fs⟩, rest)
      | _, _ => none
  | _ => none

def framing (h : Head) : Option Framing :=
  if h.code = 204 ∨ h.code = 304 then some .empty
  else if codings h.fields ≠ [] then some (if isChunked h.fields then .chunked else .close)
  else
    match contentLength h.fields with
    | .absent => some .close
    | .malformed => none
    | .length n => some (.length n)

/-- The payload of a response whose head is followed by exactly these bytes,
when they are its complete body. -/
def payload (h : Head) (rest : Bytes) : Option Bytes :=
  match framing h with
  | none => none
  | some .empty => if rest = [] then some [] else none
  | some .chunked =>
      match readChunked rest with
      | some (body, []) => some body
      | _ => none
  | some (.length n) => if rest.length = n then some rest else none
  | some .close => some rest

theorem readHead_lines {s rest : Bytes} {h : Head} (hh : readHead s = some (h, rest)) :
    ∃ ls, readLines [] s = some (ls, rest) := by
  rw [readHead] at hh
  split at hh
  next l ls r hr =>
    split at hh
    next =>
      simp only [Option.some.injEq, Prod.mk.injEq] at hh
      exact ⟨l :: ls, by rw [hr, hh.2]⟩
    next => simp at hh
  next => simp at hh

theorem readHead_sound {s rest : Bytes} {h : Head} (hh : readHead s = some (h, rest)) :
    rest.length < s.length ∧ s.drop (s.length - rest.length) = rest := by
  obtain ⟨ls, hl⟩ := readHead_lines hh
  have hs : s = writeLines ls ++ rest := readLines_sound hl
  have hw : 2 ≤ (writeLines ls).length := by simp [writeLines, crlf]
  have hn : s.length - rest.length = (writeLines ls).length := by
    rw [hs, List.length_append]
    omega
  refine ⟨?_, ?_⟩
  · rw [hs, List.length_append]
    omega
  · rw [hn, hs, List.drop_left]

theorem readHead_cut {s rest : Bytes} {h : Head} (hh : readHead s = some (h, rest)) {k : Nat}
    (hk : k < s.length - rest.length) : readHead (s.take k) = none := by
  obtain ⟨ls, hl⟩ := readHead_lines hh
  rw [readHead, readLines_cut hl (by omega)]

theorem readHead_head {s rest : Bytes} {h : Head} (hh : readHead s = some (h, rest)) :
    ∃ w, s = w ++ rest ∧ ∀ t, readHead (w ++ t) = some (h, t) := by
  obtain ⟨ls, hl⟩ := readHead_lines hh
  obtain ⟨w, rfl, hw⟩ := readLines_head hl
  refine ⟨w, rfl, fun t => ?_⟩
  rw [readHead] at hh ⊢
  rw [hl] at hh
  rw [hw]
  cases ls with
  | nil => exact nomatch hh
  | cons l ls =>
      cases hs : readStatusLine l with
      | none => simp [hs] at hh
      | some code =>
          cases hf : readFields ls with
          | none => simp [hs, hf] at hh
          | some fs =>
              simp only [hs, hf, Option.some.injEq, Prod.mk.injEq] at hh ⊢
              exact ⟨hh.1, trivial⟩

theorem readHead_take {s rest : Bytes} {h : Head} (hh : readHead s = some (h, rest)) {k : Nat}
    (hk : s.length - rest.length ≤ k) :
    readHead (s.take k) = some (h, rest.take (k - (s.length - rest.length))) := by
  obtain ⟨w, rfl, hw⟩ := readHead_head hh
  have hlen : (w ++ rest).length - rest.length = w.length := by simp
  rw [hlen] at hk ⊢
  rw [List.take_append, List.take_of_length_le hk, hw]

theorem readHead_append {s rest : Bytes} {h : Head} (hh : readHead s = some (h, rest)) (t : Bytes) :
    readHead (s ++ t) = some (h, rest ++ t) := by
  obtain ⟨w, rfl, hw⟩ := readHead_head hh
  rw [List.append_assoc, hw]

theorem mem_trimOws {b : UInt8} {s : Bytes} (h : b ∈ trimOws s) : b ∈ s :=
  (List.dropWhile_suffix _).subset ((List.rdropWhile_prefix _ _).subset h)

theorem readField_sound {l : Bytes} {f : Field} (h : readField l = some f) : LegalField f := by
  rw [readField] at h
  split at h
  next => exact nomatch h
  next v _ =>
    dsimp only at h
    split at h
    next hv =>
      obtain rfl := Option.some.inj h
      exact ⟨hv.1, List.all_eq_true.mp hv.2.1,
        fun b hb => List.all_eq_true.mp hv.2.2 b (mem_trimOws hb)⟩
    next => exact nomatch h

theorem readFields_sound {ls : List Bytes} {fs : List Field} (h : readFields ls = some fs) :
    ∀ f, f ∈ fs → LegalField f := by
  rw [readFields] at h
  induction ls generalizing fs with
  | nil =>
      obtain rfl : [] = fs := by simpa using h
      exact fun f hf => absurd hf List.not_mem_nil
  | cons l ls ih =>
      rw [List.mapM_cons] at h
      obtain ⟨f, hf, h⟩ := Option.bind_eq_some_iff.mp h
      obtain ⟨gs, hgs, h⟩ := Option.bind_eq_some_iff.mp h
      obtain rfl := Option.some.inj h
      exact List.forall_mem_cons.mpr ⟨readField_sound hf, ih hgs⟩

theorem digitValue_le {b : UInt8} (h : isDigit b = true) : digitValue b ≤ 9 := by
  rw [isDigit, Bool.and_eq_true, decide_eq_true_eq, decide_eq_true_eq, UInt8.le_iff_toNat_le,
    UInt8.le_iff_toNat_le] at h
  have h9 : b.toNat ≤ 57 := h.2
  rw [digitValue]
  omega

theorem readStatusLine_lt {l : Bytes} {code : Nat} (h : readStatusLine l = some code) :
    code < 1000 := by
  rw [readStatusLine] at h
  split at h
  next =>
    split at h
    next a b c d reason _ =>
      split at h
      next hd =>
        simp only [Bool.and_eq_true] at hd
        have ha := digitValue_le hd.1.1.1.1
        have hb := digitValue_le hd.1.1.1.2
        have hc := digitValue_le hd.1.1.2
        have hcode := Option.some.inj h
        omega
      next => exact nomatch h
    next => exact nomatch h
  next => exact nomatch h

theorem readHead_parts {s rest : Bytes} {h : Head} (hh : readHead s = some (h, rest)) :
    h.code < 1000 ∧ ∀ f, f ∈ h.fields → LegalField f := by
  rw [readHead] at hh
  split at hh
  next l ls r _ =>
    split at hh
    next code fs hc hf =>
      obtain ⟨rfl, _⟩ := Prod.mk.inj (Option.some.inj hh)
      exact ⟨readStatusLine_lt hc, readFields_sound hf⟩
    next => exact nomatch hh
  next => exact nomatch hh

structure Request where
  method : Bytes
  target : Bytes
  fields : List Field
  body : Bytes
  deriving DecidableEq

def readRequestLine (l : Bytes) : Option (Bytes × Bytes) :=
  let method := l.takeWhile (· != 32)
  let rest := (l.dropWhile (· != 32)).drop 1
  let target := rest.takeWhile (· != 32)
  if method ≠ [] ∧ method.all isTchar ∧ isOriginForm target ∧
      rest.dropWhile (· != 32) = ascii " HTTP/1.1" then some (method, target)
  else none

def requestLine (method target : Bytes) : Bytes :=
  method ++ ascii " " ++ target ++ ascii " HTTP/1.1"

theorem readRequestLine_requestLine {method target : Bytes} (hne : method ≠ [])
    (hmethod : ∀ b, b ∈ method → isTchar b = true) (htarget : 32 ∉ target) :
    readRequestLine (requestLine method target) =
      if isOriginForm target then some (method, target) else none := by
  have hm : 32 ∉ method := fun h => absurd (hmethod 32 h) (by decide)
  have hline : requestLine method target =
      method ++ 32 :: (target ++ 32 :: ascii "HTTP/1.1") := by simp [requestLine, ascii]
  have hversion : (32 :: ascii "HTTP/1.1" = ascii " HTTP/1.1") := rfl
  simp only [readRequestLine, hline, takeWhile_cut _ hm, dropWhile_cut _ hm, List.drop_one,
    List.tail_cons, takeWhile_cut _ htarget, dropWhile_cut _ htarget,
    List.all_eq_true.mpr hmethod]
  simp [hne, hversion]

def readRequestBody (fs : List Field) (rest : Bytes) : Option (Bytes × Bytes) :=
  if codings fs ≠ [] then if isChunked fs then readChunked rest else none
  else
    match contentLength fs with
    | .absent => some ([], rest)
    | .malformed => none
    | .length n => if n ≤ rest.length then some (rest.take n, rest.drop n) else none

def readRequest (s : Bytes) : Option (Request × Bytes) :=
  match readLines [] s with
  | some (l :: ls, rest) =>
      match readRequestLine l, readFields ls with
      | some (method, target), some fs =>
          (readRequestBody fs rest).map (fun p => (⟨method, target, fs, p.1⟩, p.2))
      | _, _ => none
  | _ => none

end MiniCloudflared.Library.Http1
