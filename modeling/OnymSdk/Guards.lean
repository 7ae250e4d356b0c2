/-
  File:      OnymSdk/Guards.lean
  Subject:   THE GUARDS OF THE DECODER in wrapping 32-bit arithmetic.

  * `splitGuards` -- `splitTwoBuffers` up to its slices: the two `require` checks and
    the length between them; `splitTwoBuffersWith_guards` -- the rest is the slices;
  * `GuardsSuffice` -- what the checks are for: the bounds that reach the slices are
    in order as exact integers, and a header with no such bounds is stopped by the
    check, with its message;
  * `guardsSuffice_iff` -- **when they suffice**: exactly if the header stays below
    `2 ^ 31 - 4`; `guards_pass_wrapped` -- two headers that pass them and should not;
  * `splitTwoBuffers_jdk17`, `splitTwoBuffers_jdk17_window` -- what is left to
    `Arrays.copyOfRange`: outside four headers it refuses the bounds as documented, at
    those four it first allocates as many bytes as the header promises.
-/
import OnymSdk.Wire

namespace OnymSdk

/-! ## 1. The guards -/

/-- `aLen`, as the decoder computes it. -/
def lengthField (concat : JByteArray) : Except Throwable Int32 := do
  return (((← concat.get 0).toInt32 &&& 0xFF) <<< 24) |||
    (((← concat.get 1).toInt32 &&& 0xFF) <<< 16) |||
    (((← concat.get 2).toInt32 &&& 0xFF) <<< 8) |||
    ((← concat.get 3).toInt32 &&& 0xFF)

/-- The decoder up to its slices. -/
def splitGuards (concat : JByteArray) : Except Throwable Int32 := do
  require (concat.size ≥ 4) s!"two-buffer concat too short: {concat.size} bytes"
  let aLen ← lengthField concat
  require (4 + aLen ≤ concat.size)
    s!"two-buffer concat truncated: aLen={aLen}, total={concat.size}"
  return aLen

/-- The decoder is its guards and its two slices. -/
theorem splitTwoBuffersWith_guards
    (slice : JByteArray → Int32 → Int32 → Except Throwable JByteArray) (c : JByteArray) :
    splitTwoBuffersWith slice c = (do
      let aLen ← splitGuards c
      let a ← slice c 4 (4 + aLen)
      let b ← slice c (4 + aLen) c.size
      return (a, b)) := by
  simp only [splitTwoBuffersWith, splitGuards, lengthField, bind_assoc, pure_bind]

theorem lengthField_eq {c : JByteArray} {b₀ b₁ b₂ b₃ : Int8} {rest : List Int8}
    (hc : c.bytes = b₀ :: b₁ :: b₂ :: b₃ :: rest) :
    lengthField c = .ok (aLenOf b₀ b₁ b₂ b₃) := by
  simp [lengthField, JByteArray.get, hc, aLenOf]
  rfl

/-- An array the guards refuse is refused whatever the slices do. -/
theorem splitTwoBuffersWith_refused
    {slice : JByteArray → Int32 → Int32 → Except Throwable JByteArray} {c : JByteArray}
    {e : Throwable} (h : splitGuards c = .error e) : splitTwoBuffersWith slice c = .error e := by
  rw [splitTwoBuffersWith_guards, h]
  rfl

/-- Past the guards the decoder is its two slices. -/
theorem splitTwoBuffersWith_passed
    {slice : JByteArray → Int32 → Int32 → Except Throwable JByteArray} {c : JByteArray}
    {aLen : Int32} (h : splitGuards c = .ok aLen) :
    splitTwoBuffersWith slice c = (do
      let a ← slice c 4 (4 + aLen)
      let b ← slice c (4 + aLen) c.size
      return (a, b)) := by
  rw [splitTwoBuffersWith_guards, h]
  rfl

/-- An array with a header has a length field. -/
theorem exists_lengthField {c : JByteArray} (h : 4 ≤ c.bytes.length) :
    ∃ aLen, lengthField c = .ok aLen := by
  obtain ⟨b₀, b₁, b₂, b₃, rest, hc⟩ := exists_header c h
  exact ⟨_, lengthField_eq hc⟩

/-- Only an array with a header has a length field. -/
theorem length_of_lengthField {c : JByteArray} {aLen : Int32} (h : lengthField c = .ok aLen) :
    4 ≤ c.bytes.length := by
  by_contra hlt
  have h3 : c.get 3 = .error (.IndexOutOfBoundsException s!"Index {3} out of bounds") := by
    rw [JByteArray.get, List.getElem?_eq_none (by omega)]
  unfold lengthField at h
  cases h0 : c.get 0 <;> cases h1 : c.get 1 <;> cases h2 : c.get 2 <;>
    rw [h0, h1, h2, h3] at h <;> cases h

theorem splitGuards_short {c : JByteArray} (h : c.bytes.length < 4) :
    ∃ e, splitGuards c = .error e := by
  unfold splitGuards
  rw [decide_size, decide_eq_false (by omega)]
  exact ⟨_, rfl⟩

/-- **The length field is the header as a signed number**, and the sum leaves the signed range
    four headers before the field itself does. -/
theorem lengthField_toInt {c : JByteArray} {aLen : Int32} (h : lengthField c = .ok aLen) :
    headerOf c < 2 ^ 32 ∧
      aLen.toInt = (if headerOf c < 2 ^ 31 then (headerOf c : Int) else headerOf c - 2 ^ 32) ∧
      (4 + aLen).toInt =
        if headerOf c < 2 ^ 31 - 4 then (4 + headerOf c : Int) else 4 + headerOf c - 2 ^ 32 := by
  obtain ⟨b₀, b₁, b₂, b₃, rest, hc⟩ := exists_header c (length_of_lengthField h)
  rw [lengthField_eq hc] at h
  cases h
  have hlt := headerOf_lt hc
  refine ⟨hlt, ?_, four_add_toInt hc⟩
  rw [aLenOf_toInt, ← headerOf_eq hc]
  split
  · exact Int.bmod_eq_of_le (by omega) (by omega)
  · exact bmod_of_past (by omega) (by omega)

/-- The message of the second check. -/
def truncatedMessage (aLen : Int32) (concat : JByteArray) : String :=
  s!"two-buffer concat truncated: aLen={aLen}, total={concat.size}"

/-- With a header the guards are the second check. -/
theorem splitGuards_eq {c : JByteArray} {aLen : Int32} (h : lengthField c = .ok aLen) :
    splitGuards c =
      if (4 + aLen).toInt ≤ c.bytes.length then .ok aLen
      else .error (.IllegalArgumentException (truncatedMessage aLen c)) := by
  have h4 := length_of_lengthField h
  unfold splitGuards
  rw [decide_size, decide_eq_true h4, h]
  by_cases hle : (4 + aLen).toInt ≤ c.bytes.length
  · rw [if_pos hle]
    show (require (decide (4 + aLen ≤ c.size)) _ >>= fun _ => _) = _
    rw [decide_eq_true (c.le_size_iff.mpr hle)]
    rfl
  · rw [if_neg hle]
    show (require (decide (4 + aLen ≤ c.size)) _ >>= fun _ => _) = _
    rw [decide_eq_false (fun hx => hle (c.le_size_iff.mp hx))]
    rfl

/-- What passes the guards is the length field, and its sum is at most the size. -/
theorem splitGuards_ok_iff {c : JByteArray} {aLen : Int32} :
    splitGuards c = .ok aLen ↔ lengthField c = .ok aLen ∧ (4 + aLen).toInt ≤ c.bytes.length := by
  constructor
  · intro h
    by_cases h4 : 4 ≤ c.bytes.length
    · obtain ⟨aLen', hf⟩ := exists_lengthField h4
      rw [splitGuards_eq hf] at h
      by_cases hle : (4 + aLen').toInt ≤ c.bytes.length
      · rw [if_pos hle] at h
        cases h
        exact ⟨hf, hle⟩
      · rw [if_neg hle] at h
        cases h
    · obtain ⟨e, he⟩ := splitGuards_short (Nat.lt_of_not_le h4)
      rw [he] at h
      cases h
  · intro h
    obtain ⟨hf, hle⟩ := h
    rw [splitGuards_eq hf, if_pos hle]

/-! ## 2. What the guards are for -/

/-- The new length `Arrays.copyOfRange` computes, in Int arithmetic. -/
def newLength (fromIndex toIndex : Int32) : Int32 := toIndex - fromIndex

/-- Bounds a slice can take: non-negative, ascending, inside the array, and a new length the
    array holds. -/
structure InBounds (c : JByteArray) (fromIndex toIndex : Int32) : Prop where
  nonneg : 0 ≤ fromIndex.toInt
  ascending : fromIndex.toInt ≤ toIndex.toInt
  inRange : toIndex.toInt ≤ c.bytes.length
  asked : 0 ≤ (newLength fromIndex toIndex).toInt
  held : (newLength fromIndex toIndex).toInt ≤ c.bytes.length

/-- A decoded length no array can have: negative, or too large for `4 + aLen`. -/
def Malformed (aLen : Int32) : Prop := aLen.toInt < 0 ∨ 2 ^ 31 ≤ 4 + aLen.toInt

/-- **The guards suffice for an array.** What passes them has `4 ≤ 4 + aLen ≤ size` in exact
    integers, both slices get bounds they can take and together ask for no more bytes than
    there are; and a malformed length is stopped by the second check with its message,
    whatever the slices would do. -/
structure GuardsSuffice (c : JByteArray) : Prop where
  exact : ∀ aLen, splitGuards c = .ok aLen → 4 ≤ 4 + aLen.toInt ∧ 4 + aLen.toInt ≤ c.bytes.length
  first : ∀ aLen, splitGuards c = .ok aLen → InBounds c 4 (4 + aLen)
  second : ∀ aLen, splitGuards c = .ok aLen → InBounds c (4 + aLen) c.size
  total : ∀ aLen, splitGuards c = .ok aLen →
    (newLength 4 (4 + aLen)).toInt + (newLength (4 + aLen) c.size).toInt ≤ c.bytes.length
  diagnosed : ∀ aLen, lengthField c = .ok aLen → Malformed aLen → ∀ slice,
    splitTwoBuffersWith slice c = .error (.IllegalArgumentException (truncatedMessage aLen c))

/-- A new length is the exact difference of the bounds as long as that fits an Int. -/
theorem newLength_toInt {i j : Int32} (lo : -2 ^ 31 ≤ j.toInt - i.toInt)
    (hi : j.toInt - i.toInt < 2 ^ 31) : (newLength i j).toInt = j.toInt - i.toInt := by
  rw [newLength, Int32.toInt_sub]
  exact Int.bmod_eq_of_le (by omega) (by omega)

/-- The first slice asks for the decoded length, wrapped sum or not. -/
theorem newLength_first (aLen : Int32) : newLength 4 (4 + aLen) = aLen := by
  rw [newLength, Int32.add_comm, Int32.add_sub_cancel]

/-- Ascending bounds inside the array are bounds a slice can take. -/
theorem inBounds_of {c : JByteArray} {i j : Int32} (hi : 0 ≤ i.toInt) (hij : i.toInt ≤ j.toInt)
    (hj : j.toInt ≤ c.bytes.length) : InBounds c i j := by
  have hsize := c.size_lt
  have hlen := newLength_toInt (i := i) (j := j) (by omega) (by omega)
  refine ⟨hi, hij, hj, ?_, ?_⟩
  · rw [hlen]
    omega
  · rw [hlen]
    omega

/-- Inside the signed range the sum is exact. -/
theorem four_add_exact (aLen : Int32) (lo : 0 ≤ aLen.toInt) (hi : 4 + aLen.toInt < 2 ^ 31) :
    (4 + aLen).toInt = 4 + aLen.toInt := by
  have hfour : (4 : Int32).toInt = 4 := rfl
  rw [Int32.toInt_add, hfour]
  exact Int.bmod_eq_of_le (by omega) (by omega)

/-- **The exact inequality is all the slices need.** -/
theorem guardsSuffice_of_exact {c : JByteArray}
    (hexact : ∀ aLen, splitGuards c = .ok aLen →
      4 ≤ 4 + aLen.toInt ∧ 4 + aLen.toInt ≤ c.bytes.length)
    (hformed : ∀ aLen, lengthField c = .ok aLen → ¬ Malformed aLen) : GuardsSuffice c := by
  have hsize := c.size_lt
  have hnat := c.toInt_size
  have hfour : (4 : Int32).toInt = 4 := rfl
  refine ⟨hexact, ?_, ?_, ?_, ?_⟩
  · intro aLen h
    obtain ⟨hlo, hhi⟩ := hexact aLen h
    have hsum := four_add_exact aLen (by omega) (by omega)
    exact inBounds_of (by omega) (by omega) (by omega)
  · intro aLen h
    obtain ⟨hlo, hhi⟩ := hexact aLen h
    have hsum := four_add_exact aLen (by omega) (by omega)
    exact inBounds_of (by omega) (by omega) (by omega)
  · intro aLen h
    obtain ⟨hlo, hhi⟩ := hexact aLen h
    have hsum := four_add_exact aLen (by omega) (by omega)
    rw [newLength_first, newLength_toInt (by omega) (by omega)]
    omega
  · intro aLen hf hm
    exact absurd hm (hformed aLen hf)

/-! ## 3. When they suffice

  The window: the four headers from `2 ^ 31 - 4` up to `2 ^ 31`, whose sum with 4 wraps. -/

/-- Fewer than four bytes make no header of the window. -/
theorem length_of_headerOf {c : JByteArray} (h : 2 ^ 31 - 4 ≤ headerOf c) :
    4 ≤ c.bytes.length := by
  by_contra hn
  have hlt := BigEndian.ofBytes_lt (c.contents.take 4)
  have hpow : 256 ^ (c.contents.take 4).length ≤ 256 ^ 3 := by
    apply Nat.pow_le_pow_right (by omega)
    rw [List.length_take, c.length_contents]
    omega
  unfold headerOf at h
  omega

/-- From the window on, every header passes the guards: the sum they see is at most 3. -/
theorem passes_above {c : JByteArray} {aLen : Int32} (hh : 2 ^ 31 - 4 ≤ headerOf c)
    (hf : lengthField c = .ok aLen) : splitGuards c = .ok aLen := by
  have h4 := length_of_lengthField hf
  obtain ⟨hlt, -, hsum⟩ := lengthField_toInt hf
  rw [if_neg (by omega)] at hsum
  exact splitGuards_ok_iff.mpr ⟨hf, by omega⟩

/-- An array without a header is stopped by the first check. -/
theorem guardsSuffice_short {c : JByteArray} (h : c.bytes.length < 4) : GuardsSuffice c := by
  apply guardsSuffice_of_exact
  · intro aLen hok
    obtain ⟨e, he⟩ := splitGuards_short h
    rw [he] at hok
    cases hok
  · intro aLen hf
    have h4 := length_of_lengthField hf
    omega

/-- Below the window what passes is the header itself, and no header is malformed. -/
theorem guardsSuffice_below {c : JByteArray} (hh : headerOf c < 2 ^ 31 - 4) : GuardsSuffice c := by
  apply guardsSuffice_of_exact
  · intro aLen h
    obtain ⟨hf, hle⟩ := splitGuards_ok_iff.mp h
    obtain ⟨-, hlen, hsum⟩ := lengthField_toInt hf
    rw [if_pos (by omega)] at hlen
    rw [if_pos hh] at hsum
    constructor <;> omega
  · intro aLen hf hm
    obtain ⟨-, hlen, -⟩ := lengthField_toInt hf
    rw [if_pos (by omega)] at hlen
    unfold Malformed at hm
    omega

/-- **The guards suffice for every array of the format.** -/
theorem guardsSuffice_of_wellFormed {c : JByteArray} (h : WellFormed c) : GuardsSuffice c := by
  have hsize := c.size_lt
  obtain ⟨h4, hh⟩ := h
  apply guardsSuffice_below
  omega

/-- **The guards suffice exactly below the window.** -/
theorem guardsSuffice_iff (c : JByteArray) :
    GuardsSuffice c ↔ c.bytes.length < 4 ∨ headerOf c < 2 ^ 31 - 4 := by
  constructor
  · intro hg
    by_contra hn
    have hsize := c.size_lt
    obtain ⟨aLen, hf⟩ := exists_lengthField (c := c) (by omega)
    obtain ⟨h1, h2⟩ := hg.exact aLen (passes_above (by omega) hf)
    obtain ⟨hlt, hlen, -⟩ := lengthField_toInt hf
    by_cases hneg : headerOf c < 2 ^ 31
    · -- the sum wraps: in exact integers it is past every size
      rw [if_pos hneg] at hlen
      omega
    · rw [if_neg hneg] at hlen
      omega
  · intro h
    rcases h with hshort | hh
    · exact guardsSuffice_short hshort
    · exact guardsSuffice_below hh

/-- A header whose sum with 4 wraps. -/
def wrappedHeader : JByteArray := .ofUnsigned [0x7F, 0xFF, 0xFF, 0xFC] (by decide)

/-- A header with the sign bit set. -/
def negativeHeader : JByteArray := .ofUnsigned [0xFF, 0xFF, 0xFF, 0xFF] (by decide)

/-- Both pass the guards; the first slice of `wrappedHeader` runs from 4 to `-2 ^ 31` and asks for
    2147483644 bytes of an array of four. -/
theorem guards_pass_wrapped :
    splitGuards wrappedHeader = .ok 2147483644 ∧ (4 + 2147483644 : Int32).toInt = -2 ^ 31 ∧
      (newLength 4 (4 + 2147483644)).toInt = 2147483644 ∧ wrappedHeader.bytes.length = 4 ∧
      ¬ GuardsSuffice wrappedHeader ∧
      splitGuards negativeHeader = .ok (-1) ∧ ¬ GuardsSuffice negativeHeader := by
  have hw : splitGuards wrappedHeader = .ok 2147483644 := by rfl
  have hn : splitGuards negativeHeader = .ok (-1) := by rfl
  refine ⟨hw, by decide, by decide, by decide, ?_, hn, ?_⟩
  · intro h
    exact absurd (h.exact _ hw).2 (by decide)
  · intro h
    exact absurd (h.exact _ hn).1 (by decide)

/-! ## 4. The decoder over JDK 17 -/

/-- A zeroed array of `len` bytes after `System.arraycopy` into its front. -/
def arraycopy (bytes : List Int8) (srcPos len : Nat) : List Int8 :=
  (bytes.drop srcPos).take len ++ List.replicate (len - (bytes.length - srcPos)) 0

@[simp] theorem length_arraycopy (bytes : List Int8) (srcPos len : Nat) :
    (arraycopy bytes srcPos len).length = len := by
  simp only [arraycopy, List.length_append, List.length_take, List.length_drop,
    List.length_replicate]
  omega

/-- Where the source holds enough bytes, none of the zeroes is left. -/
theorem arraycopy_of_le {bytes : List Int8} {srcPos len : Nat} (h : len ≤ bytes.length - srcPos) :
    arraycopy bytes srcPos len = (bytes.drop srcPos).take len := by
  rw [arraycopy, Nat.sub_eq_zero_of_le h, List.replicate_zero, List.append_nil]

/-- `copyOfRange` as JDK 17 runs it: Kotlin's check of the end, then `Arrays.copyOfRange`.
    `newArray` decides how an allocation ends. -/
def copyOfRange17 (newArray : Int32 → Except Throwable Unit) (c : JByteArray)
    (fromIndex toIndex : Int32) : Except Throwable JByteArray :=
  if c.size < toIndex then
    .error (.IndexOutOfBoundsException s!"toIndex ({toIndex}) is greater than size ({c.size}).")
  else if newLength fromIndex toIndex < 0 then
    .error (.IllegalArgumentException s!"{fromIndex} > {toIndex}")
  else do
    newArray (newLength fromIndex toIndex)
    if fromIndex < 0 ∨ c.size - fromIndex < 0 then
      .error (.other "java.lang.ArrayIndexOutOfBoundsException")
    else
      .ok ⟨arraycopy c.bytes fromIndex.toInt.toNat (newLength fromIndex toIndex).toInt.toNat, by
        have h := (newLength fromIndex toIndex).toInt_lt
        rw [length_arraycopy]
        omega⟩

/-- Arrays of up to so many bytes can be allocated. -/
def Allocates (newArray : Int32 → Except Throwable Unit) (size : Nat) : Prop :=
  ∀ n : Int32, 0 ≤ n.toInt → n.toInt ≤ size → newArray n = .ok ()

/-- The subtraction inside `Arrays.copyOfRange` does not wrap for a start inside the array. -/
theorem size_sub_toInt {c : JByteArray} {i : Int32} (hi : 0 ≤ i.toInt) :
    (c.size - i).toInt = c.bytes.length - i.toInt := by
  have hsize := c.size_lt
  have hlt := i.toInt_lt
  have hnat := c.toInt_size
  rw [Int32.toInt_sub, hnat]
  exact Int.bmod_eq_of_le (by omega) (by omega)

theorem error_bind {α β : Type} (e : Throwable) (f : α → Except Throwable β) :
    (Except.error e >>= f) = .error e := rfl

section Jdk

variable (newArray : Int32 → Except Throwable Unit) {c : JByteArray} {i j : Int32}

/-- A negative new length is refused before anything is allocated. -/
theorem copyOfRange17_neg (hj : j.toInt ≤ c.bytes.length) (hneg : (newLength i j).toInt < 0) :
    copyOfRange17 newArray c i j = .error (.IllegalArgumentException s!"{i} > {j}") := by
  have h1 : ¬ c.size < j := by
    rw [c.size_lt_iff]
    omega
  have h2 : newLength i j < 0 := Int32.lt_iff_toInt_lt.mpr hneg
  rw [copyOfRange17, if_neg h1, if_pos h2]

/-- From a start inside the array, a new length that is not negative is what gets allocated,
    also where the end lies before the start. -/
theorem copyOfRange17_asks (hi : 0 ≤ i.toInt) (hic : i.toInt ≤ c.bytes.length)
    (hj : j.toInt ≤ c.bytes.length) (hask : 0 ≤ (newLength i j).toInt) :
    ∃ r, copyOfRange17 newArray c i j = (do newArray (newLength i j); return r) ∧
      r.bytes = arraycopy c.bytes i.toInt.toNat (newLength i j).toInt.toNat := by
  have h1 : ¬ c.size < j := by
    rw [c.size_lt_iff]
    omega
  have h2 : ¬ newLength i j < 0 := by
    rw [Int32.lt_iff_toInt_lt, Int32.toInt_zero]
    omega
  have h3 : ¬ (i < 0 ∨ c.size - i < 0) := by
    rw [Int32.lt_iff_toInt_lt, Int32.lt_iff_toInt_lt, size_sub_toInt hi, Int32.toInt_zero]
    omega
  refine ⟨⟨arraycopy c.bytes i.toInt.toNat (newLength i j).toInt.toNat, ?_⟩, ?_, rfl⟩
  · have h := (newLength i j).toInt_lt
    rw [length_arraycopy]
    omega
  · rw [copyOfRange17, if_neg h1, if_neg h2, if_neg h3]
    rfl

/-- **In bounds, JDK 17 copies what is documented**, once the allocation succeeds. -/
theorem copyOfRange17_inBounds (hb : InBounds c i j) (hnew : newArray (newLength i j) = .ok ()) :
    copyOfRange17 newArray c i j = copyOfRange c i j := by
  have hsize := c.size_lt
  obtain ⟨hi, hij, hj, hasked, hheld⟩ := hb
  have hlen := newLength_toInt (i := i) (j := j) (by omega) (by omega)
  obtain ⟨r, hr, hbytes⟩ := copyOfRange_ok c hi hij hj
  obtain ⟨r', hr', hbytes'⟩ := copyOfRange17_asks newArray hi (by omega) hj hasked
  have hsame : r' = r := by
    apply JByteArray.ext
    rw [hbytes, hbytes', arraycopy_of_le (by omega), hlen]
  rw [hr, hr', hnew, hsame]
  rfl

/-- **Outside the window the documented decoder is the one that runs**, as long as arrays no
    longer than the input can be allocated. -/
theorem splitTwoBuffers_jdk17 (hout : headerOf c < 2 ^ 31 - 4 ∨ 2 ^ 31 ≤ headerOf c)
    (hnew : Allocates newArray c.bytes.length) :
    splitTwoBuffersWith (copyOfRange17 newArray) c = splitTwoBuffers c := by
  cases hg : splitGuards c with
  | error e => rw [splitTwoBuffers, splitTwoBuffersWith_refused hg, splitTwoBuffersWith_refused hg]
  | ok aLen =>
    rw [splitTwoBuffers, splitTwoBuffersWith_passed hg, splitTwoBuffersWith_passed hg]
    rcases hout with hbelow | habove
    · -- both slices are in bounds
      have hs := guardsSuffice_below hbelow
      have hfirst := hs.first aLen hg
      have hsecond := hs.second aLen hg
      rw [copyOfRange17_inBounds newArray hfirst (hnew _ hfirst.asked hfirst.held),
        copyOfRange17_inBounds newArray hsecond (hnew _ hsecond.asked hsecond.held)]
    · -- the length is negative, and the first slice refuses it either way
      obtain ⟨hf, hle⟩ := splitGuards_ok_iff.mp hg
      obtain ⟨hlt, hlen, hsum⟩ := lengthField_toInt hf
      rw [if_neg (by omega)] at hlen hsum
      have hfour : (4 : Int32).toInt = 4 := rfl
      rw [copyOfRange17_neg newArray hle (by rw [newLength_first]; omega),
        copyOfRange_descending c (by omega) hle (by omega), error_bind, error_bind]

/-- **Inside the window the decoder asks for as many bytes as the header promises**, whatever the
    array's size, and throws: what the allocation throws, or the second slice's refusal. -/
theorem splitTwoBuffers_jdk17_window (hlo : 2 ^ 31 - 4 ≤ headerOf c) (hhi : headerOf c < 2 ^ 31) :
    ∃ aLen : Int32, aLen.toInt = headerOf c ∧
      splitTwoBuffersWith (copyOfRange17 newArray) c =
        (do newArray aLen
            throw (.IllegalArgumentException s!"{4 + aLen} > {c.size}")) := by
  have hsize := c.size_lt
  have hfour : (4 : Int32).toInt = 4 := rfl
  obtain ⟨aLen, hf⟩ := exists_lengthField (length_of_headerOf (c := c) (by omega))
  have h4 := length_of_lengthField hf
  obtain ⟨hlt, hlen, hsum⟩ := lengthField_toInt hf
  rw [if_pos hhi] at hlen
  rw [if_neg (by omega)] at hsum
  have hneg : (newLength (4 + aLen) c.size).toInt < 0 := by
    rw [newLength, Int32.toInt_sub, hsum, c.toInt_size, bmod_of_past (by omega) (by omega)]
    omega
  obtain ⟨r, hr, -⟩ := copyOfRange17_asks newArray (c := c) (i := 4) (j := 4 + aLen)
    (by omega) (by omega) (by omega) (by rw [newLength_first]; omega)
  refine ⟨aLen, hlen, ?_⟩
  rw [splitTwoBuffersWith_passed (passes_above hlo hf), hr,
    copyOfRange17_neg newArray (by rw [c.toInt_size]) hneg, newLength_first]
  cases newArray aLen with
  | error e => rfl
  | ok u => rfl

/-- **Decoding inverts encoding over JDK 17 too.** -/
theorem splitTwoBuffers_jdk17_encodeTwo {a b : List UInt8} (h : c.contents = encodeTwo a b)
    (hnew : Allocates newArray c.bytes.length) :
    ∃ x y, splitTwoBuffersWith (copyOfRange17 newArray) c = .ok (x, y) ∧
      x.contents = a ∧ y.contents = b := by
  have hsize := c.size_lt
  obtain ⟨h4, hh⟩ := (wellFormed_encodeTwo h).1
  rw [splitTwoBuffers_jdk17 newArray (Or.inl (by omega)) hnew]
  exact splitTwoBuffers_encodeTwo h

/-- **The decoder over JDK 17, on every array**: as long as arrays no longer than the input can
    be allocated, it is the documented one, but for the headers within four of `2^31`. There it
    first asks for as many bytes as the header says, and then throws. -/
theorem decoder_jdk17 (c : JByteArray)
    (hnew : Allocates newArray c.bytes.length) :
    splitTwoBuffersWith (copyOfRange17 newArray) c =
      if 2 ^ 31 - 4 ≤ headerOf c ∧ headerOf c < 2 ^ 31 then do
        newArray (Int32.ofInt (headerOf c))
        throw (.IllegalArgumentException s!"{4 + Int32.ofInt (headerOf c)} > {c.size}")
      else splitTwoBuffers c := by
  by_cases hwin : 2 ^ 31 - 4 ≤ headerOf c ∧ headerOf c < 2 ^ 31
  · obtain ⟨aLen, hlen, hsplit⟩ := splitTwoBuffers_jdk17_window newArray hwin.1 hwin.2
    have haLen : Int32.ofInt (headerOf c) = aLen := by
      rw [← hlen, Int32.ofInt_toInt]
    rw [if_pos hwin, hsplit, haLen]
  · rw [if_neg hwin]
    exact splitTwoBuffers_jdk17 newArray (by omega) hnew

end Jdk

/-- A heap with room for sixteen megabytes. -/
def smallHeap (n : Int32) : Except Throwable Unit :=
  if n.toInt < 0 then .error (.other "java.lang.NegativeArraySizeException")
  else if 2 ^ 24 < n.toInt then .error (.other "java.lang.OutOfMemoryError")
  else .ok ()

theorem smallHeap_allocates {size : Nat} (h : size ≤ 2 ^ 24) : Allocates smallHeap size := by
  intro n h0 hn
  rw [smallHeap, if_neg (by omega), if_neg (by omega)]

/-- There the header `2^31 - 4` on four bytes ends with the heap exhausted. -/
theorem decoder_jdk17_wrapped :
    splitTwoBuffersWith (copyOfRange17 smallHeap) wrappedHeader =
      .error (.other "java.lang.OutOfMemoryError") := by
  rw [decoder_jdk17 smallHeap wrappedHeader (smallHeap_allocates (by decide))]
  rfl

end OnymSdk
