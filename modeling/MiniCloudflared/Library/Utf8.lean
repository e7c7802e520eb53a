import MiniCloudflared.Library.Bytes

namespace MiniCloudflared.Library

def utf8 (s : List Char) : Bytes := s.flatMap String.utf8EncodeChar

def decodeChar (bs : Bytes) : Option Char := bs.toByteArray.utf8DecodeChar? 0

/-- The second byte of a character is restricted further by some first bytes. -/
def secondByte (b c : UInt8) : Bool :=
  (if b = 0xe0 then 0xa0 else if b = 0xf0 then 0x90 else 0x80) ≤ c &&
    c ≤ (if b = 0xed then 0x9f else if b = 0xf4 then 0x8f else 0xbf)

/-- How many bytes at the head of a text, which do not make a character, are
replaced as one: those with which a character could still begin. -/
def illFormed (b : UInt8) (bs : Bytes) : Nat :=
  if 0xe0 ≤ b ∧ b ≤ 0xf4 then
    match bs with
    | c :: rest =>
        if secondByte b c then
          match rest with
          | d :: _ => if 0xf0 ≤ b ∧ 0x80 ≤ d ∧ d ≤ 0xbf then 3 else 2
          | [] => 2
        else 1
    | [] => 1
  else 1

/-- The number counts the bytes that belong to the character before. -/
def fromUtf8At : Nat → Bytes → Option (List Char)
  | _, [] => some []
  | k + 1, _ :: bs => fromUtf8At k bs
  | 0, b :: bs =>
      match decodeChar (b :: bs) with
      | some c => (fromUtf8At (c.utf8Size - 1) bs).map (c :: ·)
      | none => none

def fromUtf8 (bs : Bytes) : Option (List Char) := fromUtf8At 0 bs

def fromUtf8LossyAt : Nat → Bytes → List Char
  | _, [] => []
  | k + 1, _ :: bs => fromUtf8LossyAt k bs
  | 0, b :: bs =>
      match decodeChar (b :: bs) with
      | some c => c :: fromUtf8LossyAt (c.utf8Size - 1) bs
      | none => Char.ofNat 0xfffd :: fromUtf8LossyAt (illFormed b bs - 1) bs

def fromUtf8Lossy (bs : Bytes) : List Char := fromUtf8LossyAt 0 bs

theorem decodeChar_encode (c : Char) (bs : Bytes) : decodeChar (String.utf8EncodeChar c ++ bs) = some c := by
  rw [decodeChar, List.toByteArray_append]
  exact ByteArray.utf8DecodeChar?_utf8EncodeChar_append

theorem fromUtf8At_skip (skipped bs : Bytes) : fromUtf8At skipped.length (skipped ++ bs) = fromUtf8 bs := by
  induction skipped with
  | nil => rfl
  | cons b skipped ih => exact ih

theorem fromUtf8_utf8 (s : List Char) : fromUtf8 (utf8 s) = some s := by
  induction s with
  | nil => rfl
  | cons c s ih =>
      have hsize : (String.utf8EncodeChar c).length = c.utf8Size := String.length_utf8EncodeChar c
      have hdecode := decodeChar_encode c (utf8 s)
      change fromUtf8At 0 (String.utf8EncodeChar c ++ utf8 s) = _
      cases hbytes : String.utf8EncodeChar c with
      | nil =>
          have hpos := c.utf8Size_pos
          rw [hbytes, List.length_nil] at hsize
          omega
      | cons b rest =>
          rw [hbytes, List.length_cons] at hsize
          rw [hbytes, List.cons_append] at hdecode
          rw [List.cons_append, fromUtf8At, hdecode]
          simp only
          rw [show c.utf8Size - 1 = rest.length by omega, fromUtf8At_skip, ih, Option.map_some]

end MiniCloudflared.Library
