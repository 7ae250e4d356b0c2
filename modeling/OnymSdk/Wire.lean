/-
  File:      OnymSdk/Wire.lean
  Subject:   THE TWO-BUFFER WIRE FORMAT and its Kotlin decoder.

  The prove exports return two buffers as one `byte[]`:
  `[u32 BE = a.length] ++ a ++ b`. Here:

  * `encodeTwo` -- the format itself;
  * `splitTwoBuffers` -- the decoder of `OnymJni.kt`, in 32-bit signed Int
    arithmetic on sign-extended bytes;
  * `aLenOf_toInt` -- the header the decoder rebuilds is the big-endian value of
    the first four bytes, read as a signed 32-bit number;
  * `splitTwoBuffers_ok`, `splitTwoBuffers_bad` -- what the decoder does inside
    and outside the format, over all headers and all array lengths: the three
    regions of the header space (`4 + aLen` exact, wrapping, negative) are
    split once, in `splitTwoBuffers_bad`;
  * `splitTwoBuffers_spec` -- **the decoder accepts exactly the image of the
    format and inverts it**.
-/
import OnymSdk.Jvm
import OnymSdk.Lib.BigEndian

namespace OnymSdk

/-! ## 1. The format -/

/-- The wire format of two buffers. -/
def encodeTwo (a b : List UInt8) : List UInt8 := BigEndian.toBytes 4 a.length ++ a ++ b

@[simp] theorem length_encodeTwo (a b : List UInt8) :
    (encodeTwo a b).length = 4 + a.length + b.length := by
  simp [encodeTwo, Nat.add_assoc]

/-- The header of an array: the big-endian value of its first four bytes. -/
def headerOf (c : JByteArray) : Nat := BigEndian.ofBytes (c.contents.take 4)

/-- The array is the encoding of some pair of buffers: the header is there and
    promises no more bytes than follow it. -/
def WellFormed (c : JByteArray) : Prop := 4 ≤ c.bytes.length ∧ headerOf c ≤ c.bytes.length - 4

instance (c : JByteArray) : Decidable (WellFormed c) := by unfold WellFormed; infer_instance

/-! ## 2. The decoder -/

/-- `splitTwoBuffers`, over the slice function it is linked with. -/
def splitTwoBuffersWith (slice : JByteArray → Int32 → Int32 → Except Throwable JByteArray)
    (concat : JByteArray) : Except Throwable (JByteArray × JByteArray) := do
  require (concat.size ≥ 4) s!"two-buffer concat too short: {concat.size} bytes"
  let aLen := (((← concat.get 0).toInt32 &&& 0xFF) <<< 24) |||
              (((← concat.get 1).toInt32 &&& 0xFF) <<< 16) |||
              (((← concat.get 2).toInt32 &&& 0xFF) <<< 8) |||
              ((← concat.get 3).toInt32 &&& 0xFF)
  require (4 + aLen ≤ concat.size)
    s!"two-buffer concat truncated: aLen={aLen}, total={concat.size}"
  let a ← slice concat 4 (4 + aLen)
  let b ← slice concat (4 + aLen) concat.size
  return (a, b)

/-- **The decoder**, with `copyOfRange` as documented. -/
def splitTwoBuffers (concat : JByteArray) : Except Throwable (JByteArray × JByteArray) :=
  splitTwoBuffersWith copyOfRange concat

/-! ## 3. The header -/

/-- The Int the decoder rebuilds from four signed bytes. -/
def aLenOf (b₀ b₁ b₂ b₃ : Int8) : Int32 :=
  ((b₀.toInt32 &&& 0xFF) <<< 24) ||| ((b₁.toInt32 &&& 0xFF) <<< 16) |||
    ((b₂.toInt32 &&& 0xFF) <<< 8) ||| (b₃.toInt32 &&& 0xFF)

/-- Masking a sign-extended byte with `0xFF` leaves the unsigned byte. -/
theorem mask_toNat (b : Int8) : (b.toInt32 &&& 0xFF).toBitVec.toNat = b.toUInt8.toNat := by
  have h : ∀ x : BitVec 8, (x.signExtend 32 &&& 255#32).toNat = x.toNat := by decide
  exact h b.toBitVec

theorem shl_24 (x : Int32) : (x <<< 24).toBitVec = x.toBitVec <<< 24 := rfl

theorem shl_16 (x : Int32) : (x <<< 16).toBitVec = x.toBitVec <<< 16 := rfl

theorem shl_8 (x : Int32) : (x <<< 8).toBitVec = x.toBitVec <<< 8 := rfl

/-- The header's bits are the big-endian value of the four bytes. -/
theorem aLenOf_toNat (b₀ b₁ b₂ b₃ : Int8) :
    (aLenOf b₀ b₁ b₂ b₃).toBitVec.toNat =
      BigEndian.ofBytes [b₀.toUInt8, b₁.toUInt8, b₂.toUInt8, b₃.toUInt8] := by
  have h0 := b₀.toUInt8.toNat_lt
  have h1 := b₁.toUInt8.toNat_lt
  have h2 := b₂.toUInt8.toNat_lt
  rw [aLenOf, Int32.toBitVec_or, Int32.toBitVec_or, Int32.toBitVec_or, shl_24, shl_16, shl_8,
    BitVec.toNat_or, BitVec.toNat_or, BitVec.toNat_or, BitVec.toNat_shiftLeft,
    BitVec.toNat_shiftLeft, BitVec.toNat_shiftLeft, mask_toNat, mask_toNat, mask_toNat,
    mask_toNat, Nat.shiftLeft_eq, Nat.shiftLeft_eq, Nat.shiftLeft_eq, Nat.mod_eq_of_lt (by omega),
    Nat.mod_eq_of_lt (by omega), Nat.mod_eq_of_lt (by omega)]
  exact BigEndian.ofBytes_quad_or _ _ _ _

/-- **The decoded length is the header as a signed 32-bit number.** -/
theorem aLenOf_toInt (b₀ b₁ b₂ b₃ : Int8) :
    (aLenOf b₀ b₁ b₂ b₃).toInt =
      (BigEndian.ofBytes [b₀.toUInt8, b₁.toUInt8, b₂.toUInt8, b₃.toUInt8] : Int).bmod (2 ^ 32) := by
  rw [← aLenOf_toNat]
  exact BitVec.toInt_eq_toNat_bmod _

/-- One turn past the signed range is taken off once. -/
theorem bmod_of_past {x : Int} (lo : 2 ^ 31 ≤ x) (hi : x < 2 ^ 32 + 2 ^ 31) :
    x.bmod (2 ^ 32) = x - 2 ^ 32 := by
  rw [← Int.sub_bmod_right]
  exact Int.bmod_eq_of_le (by omega) (by omega)

/-! ## 4. The decoder over all headers -/

/-- An array of at least four bytes, with its header taken apart. -/
theorem exists_header (c : JByteArray) (h : 4 ≤ c.bytes.length) :
    ∃ b₀ b₁ b₂ b₃ rest, c.bytes = b₀ :: b₁ :: b₂ :: b₃ :: rest := by
  match hc : c.bytes with
  | b₀ :: b₁ :: b₂ :: b₃ :: rest => exact ⟨b₀, b₁, b₂, b₃, rest, rfl⟩
  | [] | [_] | [_, _] | [_, _, _] => simp [hc] at h

section Header

variable {c : JByteArray} {b₀ b₁ b₂ b₃ : Int8} {rest : List Int8}

theorem headerOf_eq (hc : c.bytes = b₀ :: b₁ :: b₂ :: b₃ :: rest) :
    headerOf c = BigEndian.ofBytes [b₀.toUInt8, b₁.toUInt8, b₂.toUInt8, b₃.toUInt8] := by
  simp [headerOf, JByteArray.contents, unsigned, hc]

theorem headerOf_lt (hc : c.bytes = b₀ :: b₁ :: b₂ :: b₃ :: rest) : headerOf c < 2 ^ 32 := by
  have h := BigEndian.ofBytes_lt [b₀.toUInt8, b₁.toUInt8, b₂.toUInt8, b₃.toUInt8]
  rw [← headerOf_eq hc] at h
  simpa using h

/-- The first check reads the length of the array. -/
theorem decide_size (c : JByteArray) : decide (c.size ≥ 4) = decide (4 ≤ c.bytes.length) := by
  rw [decide_eq_decide, ge_iff_le, c.le_size_iff]
  show (4 : Int) ≤ _ ↔ _
  omega

/-- Past the size check, the decoder is its second check and its two slices. -/
theorem splitTwoBuffersWith_eq
    (slice : JByteArray → Int32 → Int32 → Except Throwable JByteArray)
    (hc : c.bytes = b₀ :: b₁ :: b₂ :: b₃ :: rest) :
    splitTwoBuffersWith slice c = (do
      let aLen := aLenOf b₀ b₁ b₂ b₃
      require (4 + aLen ≤ c.size)
        s!"two-buffer concat truncated: aLen={aLen}, total={c.size}"
      let a ← slice c 4 (4 + aLen)
      let b ← slice c (4 + aLen) c.size
      return (a, b)) := by
  have h4 : decide (c.size ≥ 4) = true := by
    rw [decide_size, decide_eq_true_iff, hc]
    simp only [List.length_cons]
    omega
  have h0 : c.get 0 = .ok b₀ := by simp [JByteArray.get, hc]
  have h1 : c.get 1 = .ok b₁ := by simp [JByteArray.get, hc]
  have h2 : c.get 2 = .ok b₂ := by simp [JByteArray.get, hc]
  have h3 : c.get 3 = .ok b₃ := by simp [JByteArray.get, hc]
  unfold splitTwoBuffersWith
  rw [h4, h0, h1, h2, h3]
  rfl

/-- The sum in the second check, as an exact integer of each region. -/
theorem four_add_toInt (hc : c.bytes = b₀ :: b₁ :: b₂ :: b₃ :: rest) :
    (4 + aLenOf b₀ b₁ b₂ b₃).toInt =
      if headerOf c < 2 ^ 31 - 4 then (4 + headerOf c : Int) else 4 + headerOf c - 2 ^ 32 := by
  have hlt := headerOf_lt hc
  rw [Int32.toInt_add, aLenOf_toInt, ← headerOf_eq hc]
  show ((4 : Int) + _).bmod _ = _
  rw [Int.add_bmod_bmod]
  split
  · exact Int.bmod_eq_of_le (by omega) (by omega)
  · exact bmod_of_past (by omega) (by omega)

end Header

/-- **Inside the format** the decoder returns the two buffers. -/
theorem splitTwoBuffers_ok (c : JByteArray) (h : WellFormed c) :
    ∃ a b, splitTwoBuffers c = .ok (a, b) ∧ a.bytes = (c.bytes.drop 4).take (headerOf c) ∧
      b.bytes = c.bytes.drop (4 + headerOf c) := by
  obtain ⟨h4, hh⟩ := h
  obtain ⟨b₀, b₁, b₂, b₃, rest, hc⟩ := exists_header c h4
  have hsize := c.size_lt
  have hsum : (4 + aLenOf b₀ b₁ b₂ b₃).toInt = 4 + headerOf c := by
    rw [four_add_toInt hc, if_pos (by omega)]
  have hfour : (4 : Int32).toInt = 4 := rfl
  have hreq : decide (4 + aLenOf b₀ b₁ b₂ b₃ ≤ c.size) = true := by
    rw [decide_eq_true_iff, c.le_size_iff, hsum]
    omega
  obtain ⟨a, ha, hab⟩ := copyOfRange_ok c (i := 4) (j := 4 + aLenOf b₀ b₁ b₂ b₃)
    (by omega) (by omega) (by omega)
  obtain ⟨b, hb, hbb⟩ := copyOfRange_ok c (i := 4 + aLenOf b₀ b₁ b₂ b₃) (j := c.size)
    (by omega) (by rw [c.toInt_size]; omega) (by rw [c.toInt_size])
  refine ⟨a, b, ?_, ?_, ?_⟩
  · rw [splitTwoBuffers, splitTwoBuffersWith_eq _ hc]
    simp only [hreq, ha, hb]
    rfl
  · rw [hab, hsum, hfour]
    congr 1
    omega
  · rw [hbb, hsum, c.toInt_size, List.take_of_length_le]
    · congr 1
    · rw [List.length_drop]
      omega

/-- **Outside the format** the decoder throws `IllegalArgumentException`. -/
theorem splitTwoBuffers_bad (c : JByteArray) (h : ¬ WellFormed c) :
    ∃ m, splitTwoBuffers c = .error (.IllegalArgumentException m) := by
  by_cases h4 : 4 ≤ c.bytes.length
  · obtain ⟨b₀, b₁, b₂, b₃, rest, hc⟩ := exists_header c h4
    have hsize := c.size_lt
    have hlt := headerOf_lt hc
    have hh : c.bytes.length - 4 < headerOf c := by
      unfold WellFormed at h
      omega
    have hsum := four_add_toInt hc
    have hfour : (4 : Int32).toInt = 4 := rfl
    rw [splitTwoBuffers, splitTwoBuffersWith_eq _ hc]
    by_cases hreg : headerOf c < 2 ^ 31 - 4
    · -- the sum is exact, so the second check sees the missing bytes
      rw [if_pos hreg] at hsum
      have hreq : decide (4 + aLenOf b₀ b₁ b₂ b₃ ≤ c.size) = false := by
        rw [decide_eq_false_iff_not, c.le_size_iff, hsum]
        omega
      exact ⟨_, by simp only [hreq]; rfl⟩
    · -- wrapped or negative: the check passes and the first slice ends before it starts
      rw [if_neg hreg] at hsum
      have hreq : decide (4 + aLenOf b₀ b₁ b₂ b₃ ≤ c.size) = true := by
        rw [decide_eq_true_iff, c.le_size_iff, hsum]
        omega
      obtain ⟨m, hm⟩ := copyOfRange_reversed c (i := 4) (j := 4 + aLenOf b₀ b₁ b₂ b₃)
        (by omega) (by omega) (by omega)
      exact ⟨m, by simp only [hreq, hm]; rfl⟩
  · refine ⟨s!"two-buffer concat too short: {c.size} bytes", ?_⟩
    unfold splitTwoBuffers splitTwoBuffersWith
    rw [decide_size, decide_eq_false h4]
    rfl

/-- What a decoded pair encodes back to. -/
theorem encodeTwo_of_split {c a b : JByteArray} (h : splitTwoBuffers c = .ok (a, b)) :
    a.bytes.length = headerOf c ∧ encodeTwo a.contents b.contents = c.contents := by
  by_cases hw : WellFormed c
  · obtain ⟨a', b', he, ha, hb⟩ := splitTwoBuffers_ok c hw
    rw [h] at he
    cases he
    obtain ⟨h4, hh⟩ := hw
    have hlen : a.bytes.length = headerOf c := by
      rw [ha, List.length_take, List.length_drop]
      omega
    refine ⟨hlen, ?_⟩
    have h4l : (c.contents.take 4).length = 4 := by
      rw [List.length_take, c.length_contents]
      omega
    have hhead : BigEndian.toBytes 4 (headerOf c) = c.contents.take 4 := by
      have e := BigEndian.toBytes_ofBytes (c.contents.take 4)
      rwa [h4l] at e
    have hac : a.contents = (c.contents.drop 4).take (headerOf c) := by
      simp [JByteArray.contents, unsigned, ha, List.map_take, List.map_drop]
    have hbc : b.contents = (c.contents.drop 4).drop (headerOf c) := by
      simp [JByteArray.contents, unsigned, hb, List.map_drop]
    rw [encodeTwo, a.length_contents, hlen, hhead, hac, hbc, List.append_assoc,
      List.take_append_drop, List.take_append_drop]
  · obtain ⟨m, hm⟩ := splitTwoBuffers_bad c hw
    rw [hm] at h
    cases h

/-- **The decoder accepts exactly the image of the format and inverts it.** -/
theorem splitTwoBuffers_spec (c : JByteArray) :
    ((∃ r, splitTwoBuffers c = .ok r) ↔
      4 ≤ c.bytes.length ∧ headerOf c ≤ c.bytes.length - 4) ∧
    (∀ a b, splitTwoBuffers c = .ok (a, b) →
      a.bytes.length = headerOf c ∧
        BigEndian.toBytes 4 a.bytes.length ++ a.contents ++ b.contents = c.contents) ∧
    (∀ c' r, splitTwoBuffers c = .ok r → splitTwoBuffers c' = .ok r → c = c') ∧
    (¬ (4 ≤ c.bytes.length ∧ headerOf c ≤ c.bytes.length - 4) →
      ∃ m, splitTwoBuffers c = .error (.IllegalArgumentException m)) ∧
    (2 ^ 31 - 4 ≤ headerOf c →
      ∃ m, splitTwoBuffers c = .error (.IllegalArgumentException m)) := by
  have hsize := c.size_lt
  refine ⟨⟨?_, ?_⟩, ?_, ?_, splitTwoBuffers_bad c, ?_⟩
  · intro hx
    obtain ⟨r, hr⟩ := hx
    by_contra hw
    obtain ⟨m, hm⟩ := splitTwoBuffers_bad c hw
    rw [hm] at hr
    cases hr
  · intro hw
    obtain ⟨a, b, h, -⟩ := splitTwoBuffers_ok c hw
    exact ⟨(a, b), h⟩
  · intro a b h
    obtain ⟨h1, h2⟩ := encodeTwo_of_split h
    rw [encodeTwo, a.length_contents] at h2
    exact ⟨h1, h2⟩
  · intro c' r h h'
    obtain ⟨a, b⟩ := r
    have e1 := (encodeTwo_of_split h).2
    have e2 := (encodeTwo_of_split h').2
    exact JByteArray.contents_inj (e1.symm.trans e2)
  · intro hh
    apply splitTwoBuffers_bad c
    intro hx
    obtain ⟨h4, hle⟩ := hx
    omega

/-- An array holding an encoded pair is well formed, and its header is the first length. -/
theorem wellFormed_encodeTwo {a b : List UInt8} {c : JByteArray}
    (h : c.contents = encodeTwo a b) : WellFormed c ∧ headerOf c = a.length := by
  have hsize := c.size_lt
  have hlen : c.bytes.length = 4 + a.length + b.length := by
    rw [← c.length_contents, h, length_encodeTwo]
  have hhead : headerOf c = a.length := by
    rw [headerOf, h, encodeTwo, List.append_assoc, List.take_left' (by simp),
      BigEndian.ofBytes_toBytes_of_lt (by omega)]
  exact ⟨⟨by omega, by omega⟩, hhead⟩

/-- **Decoding inverts encoding**: an array holding an encoded pair splits into that pair. -/
theorem splitTwoBuffers_encodeTwo {a b : List UInt8} {c : JByteArray}
    (h : c.contents = encodeTwo a b) :
    ∃ x y, splitTwoBuffers c = .ok (x, y) ∧ x.contents = a ∧ y.contents = b := by
  obtain ⟨hw, hhead⟩ := wellFormed_encodeTwo h
  obtain ⟨x, y, hs, _, _⟩ := splitTwoBuffers_ok c hw
  obtain ⟨hx, he⟩ := encodeTwo_of_split hs
  have hxl : x.contents.length = a.length := by rw [x.length_contents, hx, hhead]
  rw [h, encodeTwo, encodeTwo, List.append_assoc, List.append_assoc] at he
  have e := List.append_inj_right he (by simp)
  obtain ⟨ea, eb⟩ := List.append_inj e hxl
  exact ⟨x, y, hs, ea, eb⟩

end OnymSdk
