/-
  File:      OnymSdk/Lib/Utf8Lossy.lean
  Subject:   Lossy UTF-8 decoding: every byte string reads as a text, its
             invalid parts as U+FFFD.

  Decoders agree on what is valid and differ in how many bytes one U+FFFD stands for.

  * `Policy` -- which second and third bytes a decoder still takes with a lead byte;
  * `maximal`, `surrogates` -- the maximal invalid subparts, and the same with an encoded
    surrogate taken as one part;
  * `invalidLen`, `lossy` -- the decoder (a skip counter makes it structural);
  * `lossy_utf8Bytes` -- under every policy, a text's own UTF-8 reads as the text.
-/
import Mathlib.Tactic.Common

namespace Utf8Lossy

/-- The character a byte string starts with, if it starts with a valid one. -/
def decodeHead (bs : List UInt8) : Option Char := bs.toByteArray.utf8DecodeChar? 0

/-- A continuation byte. -/
def isCont (b : UInt8) : Bool := b &&& 0xC0 == 0x80

/-- May `c` follow the lead byte `b` of a three- or four-byte character? -/
def secondOk (b c : UInt8) : Bool :=
  (b == 0xE0 && 0xA0 ≤ c && c ≤ 0xBF) || (0xE1 ≤ b && b ≤ 0xEC && isCont c) ||
  (b == 0xED && 0x80 ≤ c && c ≤ 0x9F) || (0xEE ≤ b && b ≤ 0xEF && isCont c) ||
  (b == 0xF0 && 0x90 ≤ c && c ≤ 0xBF) || (0xF1 ≤ b && b ≤ 0xF3 && isCont c) ||
  (b == 0xF4 && 0x80 ≤ c && c ≤ 0x8F)

/-- Where an invalid part goes on: `second b c`, when `c` is taken with the lead byte `b`;
    `third b`, when after those a continuation byte is taken as well. -/
structure Policy where
  second : UInt8 → UInt8 → Bool
  third : UInt8 → Bool

/-- As long as a valid character could still come of it. -/
def maximal : Policy where
  second := secondOk
  third b := 0xF0 ≤ b

/-- The same, and an encoded surrogate (`ED`, then `A0` to `BF`) is a part of its own. -/
def surrogates : Policy where
  second b c := secondOk b c || (b == 0xED && isCont c)
  third b := 0xF0 ≤ b || b == 0xED

/-- The length of the invalid part a byte string starts with. -/
def invalidLen (p : Policy) : List UInt8 → Nat
  | b :: c :: d :: _ => if p.second b c then (if p.third b && isCont d then 3 else 2) else 1
  | [b, c] => if p.second b c then 2 else 1
  | _ => 1

/-- The decoder; the number counts the bytes still to skip. -/
def lossyAux (p : Policy) : Nat → List UInt8 → List Char
  | _, [] => []
  | k + 1, _ :: bs => lossyAux p k bs
  | 0, b :: bs =>
    match decodeHead (b :: bs) with
    | some c => c :: lossyAux p (c.utf8Size - 1) bs
    | none => Char.ofNat 0xFFFD :: lossyAux p (invalidLen p (b :: bs) - 1) bs

/-- The text a byte string reads as. -/
def lossy (p : Policy) (bs : List UInt8) : String := String.ofList (lossyAux p 0 bs)

/-- The UTF-8 of a text. -/
def utf8Bytes (s : String) : List UInt8 := s.toList.flatMap String.utf8EncodeChar

variable (p : Policy)

theorem lossyAux_skip (pre bs : List UInt8) :
    lossyAux p pre.length (pre ++ bs) = lossyAux p 0 bs := by
  induction pre with
  | nil => rfl
  | cons b pre ih => exact ih

theorem decodeHead_encode (c : Char) (bs : List UInt8) :
    decodeHead (String.utf8EncodeChar c ++ bs) = some c := by
  rw [decodeHead, List.toByteArray_append]
  exact ByteArray.utf8DecodeChar?_utf8EncodeChar_append

/-- One encoded character decodes to itself and leaves the rest. -/
theorem lossyAux_encode (c : Char) (bs : List UInt8) :
    lossyAux p 0 (String.utf8EncodeChar c ++ bs) = c :: lossyAux p 0 bs := by
  have hlen : (String.utf8EncodeChar c).length = c.utf8Size := String.length_utf8EncodeChar c
  have hpos := c.utf8Size_pos
  have hdec := decodeHead_encode c bs
  match he : String.utf8EncodeChar c with
  | [] => rw [he] at hlen; simp at hlen; omega
  | b :: tl =>
    rw [he] at hdec hlen
    have htl : c.utf8Size - 1 = tl.length := by simp at hlen; omega
    rw [List.cons_append] at hdec ⊢
    simp only [lossyAux, hdec, htl, lossyAux_skip]

/-- **A text's own UTF-8 reads back as the text.** -/
theorem lossy_utf8Bytes (s : String) : lossy p (utf8Bytes s) = s := by
  have h : ∀ cs : List Char, lossyAux p 0 (cs.flatMap String.utf8EncodeChar) = cs := by
    intro cs
    induction cs with
    | nil => rfl
    | cons c cs ih => rw [List.flatMap_cons, lossyAux_encode, ih]
  rw [lossy, utf8Bytes, h, String.ofList_toList]

-- An encoded surrogate, then a cut-off character: the policies differ on the first only.
example : (lossy maximal [0xED, 0xA0, 0x80, 0xF0, 0x9F]).length = 4 := by decide
example : (lossy surrogates [0xED, 0xA0, 0x80, 0xF0, 0x9F]).length = 2 := by decide

end Utf8Lossy
