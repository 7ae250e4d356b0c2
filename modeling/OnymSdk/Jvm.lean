/-
  File:      OnymSdk/Jvm.lean
  Subject:   The JVM values the bridge and the Kotlin wrappers exchange.

  * `JByteArray` -- a JVM `byte[]`: signed bytes, at most `2^31 - 1` of them.
  * `Throwable` -- what a Kotlin call can end in instead of a value.
  * `require`, `copyOfRange`, `JByteArray.get` -- the standard-library calls of
    the decoder, with the exceptions their documentation names.
-/
import Mathlib.Algebra.Group.Int.Defs
import Mathlib.Algebra.Group.Nat.Defs
import Mathlib.Data.List.Basic
import Mathlib.Tactic.Common

namespace OnymSdk

/-! ## 1. Byte arrays -/

/-- A JVM `byte[]`. Its length is a Kotlin `Int`, so it stays below `2 ^ 31`. -/
@[ext] structure JByteArray where
  bytes : List Int8
  size_lt : bytes.length < 2 ^ 31
  deriving DecidableEq

/-- Bytes as the JVM holds them. -/
def signed (bs : List UInt8) : List Int8 := bs.map UInt8.toInt8

/-- Bytes as Rust and C hold them. -/
def unsigned (bs : List Int8) : List UInt8 := bs.map Int8.toUInt8

@[simp] theorem length_signed (bs : List UInt8) : (signed bs).length = bs.length := by
  simp [signed]

@[simp] theorem length_unsigned (bs : List Int8) : (unsigned bs).length = bs.length := by
  simp [unsigned]

@[simp] theorem unsigned_signed (bs : List UInt8) : unsigned (signed bs) = bs := by
  simp [unsigned, signed, Function.comp_def]

@[simp] theorem signed_unsigned (bs : List Int8) : signed (unsigned bs) = bs := by
  simp [unsigned, signed, Function.comp_def]

/-- Reading JVM bytes as unsigned loses nothing. -/
theorem unsigned_inj {bs cs : List Int8} (h : unsigned bs = unsigned cs) : bs = cs := by
  rw [← signed_unsigned bs, h, signed_unsigned]

namespace JByteArray

/-- The array holding the given unsigned bytes. -/
def ofUnsigned (bs : List UInt8) (h : bs.length < 2 ^ 31) : JByteArray :=
  ⟨signed bs, by simpa using h⟩

/-- The array's contents, unsigned. -/
def contents (c : JByteArray) : List UInt8 := unsigned c.bytes

/-- Kotlin's `size`. -/
def size (c : JByteArray) : Int32 := Int32.ofNat c.bytes.length

@[simp] theorem contents_ofUnsigned (bs : List UInt8) (h : bs.length < 2 ^ 31) :
    (ofUnsigned bs h).contents = bs := by
  simp [contents, ofUnsigned]

@[simp] theorem length_contents (c : JByteArray) : c.contents.length = c.bytes.length := by
  simp [contents]

theorem contents_inj {c d : JByteArray} (h : c.contents = d.contents) : c = d :=
  JByteArray.ext (unsigned_inj h)

theorem toInt_size (c : JByteArray) : c.size.toInt = c.bytes.length :=
  Int32.toInt_ofNat_of_lt c.size_lt

theorem le_size_iff (c : JByteArray) {i : Int32} : i ≤ c.size ↔ i.toInt ≤ c.bytes.length := by
  rw [Int32.le_iff_toInt_le, c.toInt_size]

theorem size_lt_iff (c : JByteArray) {i : Int32} : c.size < i ↔ c.bytes.length < i.toInt := by
  rw [Int32.lt_iff_toInt_lt, c.toInt_size]

end JByteArray

/-- A reference to a `byte[]` as JNI passes it: possibly null. -/
abbrev JRef := Option JByteArray

/-! ## 2. Exceptions -/

/-- A Java exception or error. The ones no code here names are `other`. -/
inductive Throwable where
  | OnymException (message : String)
  | IllegalArgumentException (message : String)
  | IndexOutOfBoundsException (message : String)
  | NullPointerException
  | UnsatisfiedLinkError (message : String)
  | IOException (message : String)
  | other (className : String)
  deriving DecidableEq, Repr

/-! ## 3. The standard library of the decoder -/

/-- Kotlin's `require`. -/
def require (value : Bool) (lazyMessage : String) : Except Throwable Unit :=
  if value then .ok () else .error (.IllegalArgumentException lazyMessage)

/-- Kotlin's `concat[i]`. -/
def JByteArray.get (c : JByteArray) (i : Nat) : Except Throwable Int8 :=
  match c.bytes[i]? with
  | some b => .ok b
  | none => .error (.IndexOutOfBoundsException s!"Index {i} out of bounds")

/-- `ByteArray.copyOfRange` as documented: an end past the array is
    `IndexOutOfBoundsException`, a start past the end is
    `IllegalArgumentException`. -/
def copyOfRange (c : JByteArray) (fromIndex toIndex : Int32) : Except Throwable JByteArray :=
  if fromIndex < 0 ∨ c.size < toIndex then
    .error (.IndexOutOfBoundsException s!"toIndex ({toIndex}) is out of bounds")
  else if toIndex < fromIndex then
    .error (.IllegalArgumentException s!"{fromIndex} > {toIndex}")
  else
    .ok ⟨(c.bytes.drop fromIndex.toInt.toNat).take (toIndex.toInt - fromIndex.toInt).toNat, by
      have h := c.size_lt
      simp only [List.length_take, List.length_drop]
      omega⟩

theorem JByteArray.not_outOfBounds (c : JByteArray) {i j : Int32} (hi : 0 ≤ i.toInt)
    (hj : j.toInt ≤ c.bytes.length) : ¬ (i < 0 ∨ c.size < j) := by
  rw [Int32.lt_iff_toInt_lt, c.size_lt_iff, Int32.toInt_zero]
  omega

/-- Within bounds `copyOfRange` is the slice. -/
theorem copyOfRange_ok (c : JByteArray) {i j : Int32} (hi : 0 ≤ i.toInt)
    (hij : i.toInt ≤ j.toInt) (hj : j.toInt ≤ c.bytes.length) :
    ∃ r, copyOfRange c i j = .ok r ∧
      r.bytes = (c.bytes.drop i.toInt.toNat).take (j.toInt - i.toInt).toNat := by
  have h1 := c.not_outOfBounds hi hj
  have h2 : ¬ j < i := by
    rw [Int32.lt_iff_toInt_lt]
    omega
  refine ⟨_, by rw [copyOfRange, if_neg h1, if_neg h2], rfl⟩

/-- An end inside the array but before the start is refused, with both bounds in the message. -/
theorem copyOfRange_descending (c : JByteArray) {i j : Int32} (hi : 0 ≤ i.toInt)
    (hj : j.toInt ≤ c.bytes.length) (hji : j.toInt < i.toInt) :
    copyOfRange c i j = .error (.IllegalArgumentException s!"{i} > {j}") := by
  have h1 := c.not_outOfBounds hi hj
  have h2 : j < i := Int32.lt_iff_toInt_lt.mpr hji
  rw [copyOfRange, if_neg h1, if_pos h2]

/-- An end inside the array but before the start is `IllegalArgumentException`. -/
theorem copyOfRange_reversed (c : JByteArray) {i j : Int32} (hi : 0 ≤ i.toInt)
    (hj : j.toInt ≤ c.bytes.length) (hji : j.toInt < i.toInt) :
    ∃ m, copyOfRange c i j = .error (.IllegalArgumentException m) :=
  ⟨_, copyOfRange_descending c hi hj hji⟩

end OnymSdk
