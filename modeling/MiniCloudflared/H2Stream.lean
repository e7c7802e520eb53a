import MiniCloudflared.RequestBody
import Mathlib.Algebra.Ring.Nat

namespace MiniCloudflared.H2Stream

open Library HttpTypes RequestBody

abbrev PollData (ρ : Type) := ρ → Poll (Option (Except Error Bytes)) × ρ

inductive RecvCall
  | pollData (answer : Poll (Option (Except Error Bytes)))
  | releaseCapacity (n : Nat)

structure H2Reader (ρ : Type) where
  recv : ρ
  buf : Bytes

def H2Reader.new {ρ : Type} (recv : ρ) : H2Reader ρ := ⟨recv, []⟩

structure ReadResult (ρ : Type) where
  poll : Poll (Except Error Nat)
  out : Bytes
  reader : H2Reader ρ
  calls : List RecvCall

variable {ρ : Type}

def copyFromSlice (out data : Bytes) : Bytes := data ++ out.drop data.length

def pollRead (pollData : PollData ρ) (self : H2Reader ρ) (out : Bytes) : ReadResult ρ :=
  if self.buf ≠ [] then
    let n := min out.length self.buf.length
    ⟨.ready (.ok n), copyFromSlice out (self.buf.take n), ⟨self.recv, self.buf.drop n⟩, []⟩
  else
    match pollData self.recv with
    | (.pending, recv) => ⟨.pending, out, ⟨recv, self.buf⟩, [.pollData .pending]⟩
    | (.ready none, recv) => ⟨.ready (.ok 0), out, ⟨recv, self.buf⟩, [.pollData (.ready none)]⟩
    | (.ready (some (.error e)), recv) =>
        ⟨.ready (.error .io), out, ⟨recv, self.buf⟩, [.pollData (.ready (some (.error e)))]⟩
    | (.ready (some (.ok data)), recv) =>
        let n := min out.length data.length
        ⟨.ready (.ok n), copyFromSlice out (data.take n),
          ⟨recv, if n < data.length then self.buf ++ data.drop n else self.buf⟩,
          [.pollData (.ready (some (.ok data))), .releaseCapacity data.length]⟩

/-- What the caller takes for read: the first bytes of its buffer, as many as
the count says. -/
def ReadResult.bytes (r : ReadResult ρ) : Bytes :=
  match r.poll with
  | .ready (.ok n) => r.out.take n
  | _ => []

def chunkTaken : RecvCall → Bytes
  | .pollData (.ready (some (.ok data))) => data
  | _ => []

def capacityReleased : RecvCall → Nat
  | .releaseCapacity n => n
  | _ => 0

theorem pollRead_conserves (pollData : PollData ρ) (self : H2Reader ρ) (out : Bytes) :
    (pollRead pollData self out).bytes ++ (pollRead pollData self out).reader.buf =
      self.buf ++ (pollRead pollData self out).calls.flatMap chunkTaken := by
  rw [pollRead]
  split
  next => simp [ReadResult.bytes, copyFromSlice]
  next hbuf =>
    have hnil : self.buf = [] := not_not.mp hbuf
    split
    next => simp [ReadResult.bytes, chunkTaken]
    next => simp [ReadResult.bytes, chunkTaken]
    next => simp [ReadResult.bytes, chunkTaken]
    next data recv _ =>
      dsimp only
      split
      next => simp [ReadResult.bytes, copyFromSlice, chunkTaken, hnil]
      next hn =>
        have hall : min out.length data.length = data.length := by omega
        simp [ReadResult.bytes, copyFromSlice, chunkTaken, hnil, hall]

theorem pollRead_releases (pollData : PollData ρ) (self : H2Reader ρ) (out : Bytes) :
    ((pollRead pollData self out).calls.map capacityReleased).sum =
      ((pollRead pollData self out).calls.flatMap chunkTaken).length := by
  rw [pollRead]
  split
  next => rfl
  next => split <;> simp [capacityReleased, chunkTaken]

structure Reading (ρ : Type) where
  reader : H2Reader ρ
  returned : Bytes
  calls : List RecvCall

def Reading.read (pollData : PollData ρ) (s : Reading ρ) (out : Bytes) : Reading ρ :=
  let r := pollRead pollData s.reader out
  ⟨r.reader, s.returned ++ r.bytes, s.calls ++ r.calls⟩

def readings (pollData : PollData ρ) (recv : ρ) (outs : List Bytes) : Reading ρ :=
  outs.foldl (Reading.read pollData) ⟨.new recv, [], []⟩

def Reading.taken (s : Reading ρ) : Bytes := s.calls.flatMap chunkTaken

def Reading.released (s : Reading ρ) : Nat := (s.calls.map capacityReleased).sum

structure Conserved (s : Reading ρ) : Prop where
  bytes : s.returned ++ s.reader.buf = s.taken
  capacity : s.released = s.taken.length

theorem Conserved.read {s : Reading ρ} (h : Conserved s) (pollData : PollData ρ) (out : Bytes) :
    Conserved (s.read pollData out) := by
  constructor
  · calc s.returned ++ (pollRead pollData s.reader out).bytes ++ (pollRead pollData s.reader out).reader.buf
        = s.returned ++ s.reader.buf ++ (pollRead pollData s.reader out).calls.flatMap chunkTaken := by
          rw [List.append_assoc, pollRead_conserves, List.append_assoc]
      _ = s.taken ++ (pollRead pollData s.reader out).calls.flatMap chunkTaken := by rw [h.bytes]
      _ = (s.read pollData out).taken := by simp [Reading.read, Reading.taken]
  · have hc : s.released = s.taken.length := h.capacity
    simp only [Reading.released, Reading.taken] at hc
    simp only [Reading.read, Reading.released, Reading.taken, List.map_append, List.sum_append,
      List.flatMap_append, List.length_append, hc, pollRead_releases]

/-- Whatever the stream delivers and whatever buffers the reader is polled
with, no byte is lost, doubled or moved. -/
theorem readings_conserved (pollData : PollData ρ) (recv : ρ) (outs : List Bytes) :
    Conserved (readings pollData recv outs) := by
  have hrun (s : Reading ρ) (hs : Conserved s) : Conserved (outs.foldl (Reading.read pollData) s) := by
    induction outs generalizing s with
    | nil => exact hs
    | cons out outs ih => exact ih _ (hs.read pollData out)
  exact hrun _ ⟨rfl, rfl⟩

end MiniCloudflared.H2Stream
