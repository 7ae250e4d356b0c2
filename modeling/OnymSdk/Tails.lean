/-
  File:      OnymSdk/Tails.lean
  Subject:   What the reads and the tail of an export do, one lemma each.

  * `readsState_*` -- reading the arrays makes no C call and touches no C memory; it
    leaves an exception pending only if a conversion raised one;
  * `Settles` -- a computation hands back everything the C side handed out in
    it: what it adds to the ledger operations is a closed block;
  * `callTail_handOuts`, `callVerify_handOuts` -- what the C side hands out in a tail is
    what its answer says;
  * `callTail_spec` -- the tail of a `byte[]` export, over every outcome of the
    C function and of the JVM; `callVerify_spec` -- that of
    `nostrVerifyEventSignature`. Both say everything the tail does.
-/
import OnymSdk.Exports

namespace OnymSdk

variable {t : Target}

/-! ## 1. Reading the arrays -/

section Reads

variable (env : Env t)

theorem readsState_cons (r : JRef) (rs : List JRef) (s : BridgeState t) :
    readsState env (r :: rs) s = readsState env rs (jbytearrayToVec r env s).2 := rfl

/-- Reads make no C call and touch no C memory. -/
@[simp] theorem readsState_frame (rs : List JRef) (s : BridgeState t) :
    (readsState env rs s).calls = s.calls ∧ (readsState env rs s).ops = s.ops ∧
      (readsState env rs s).next = s.next := by
  induction rs generalizing s with
  | nil => exact ⟨rfl, rfl, rfl⟩
  | cons r rs ih =>
    have h := ih (jbytearrayToVec r env s).2
    rw [jbytearrayToVec_snd] at h
    rw [readsState_cons, jbytearrayToVec_snd]
    exact h

variable {env}

/-- A read that raises nothing leaves the pending exception alone. -/
theorem jbytearrayToVec_quiet (hq : env.QuietReads) (r : JRef) (s : BridgeState t) :
    (jbytearrayToVec r env s).2.pending = s.pending := by
  rw [jbytearrayToVec_snd]
  dsimp only
  split
  · rename_i hk
    exact absurd hk (hq _ _)
  · rfl

theorem readsState_quiet (hq : env.QuietReads) (rs : List JRef) (s : BridgeState t) :
    (readsState env rs s).pending = s.pending := by
  induction rs generalizing s with
  | nil => rfl
  | cons r rs ih => rw [readsState_cons, ih, jbytearrayToVec_quiet hq]

/-- Reads never clear a pending exception. -/
theorem readsState_pending (rs : List JRef) {s : BridgeState t} (hs : s.pending ≠ none) :
    (readsState env rs s).pending ≠ none := by
  induction rs generalizing s with
  | nil => exact hs
  | cons r rs ih =>
    rw [readsState_cons]
    apply ih
    rw [jbytearrayToVec_snd]
    dsimp only
    split
    · exact Option.some_ne_none _
    · exact hs

/-- A conversion that raises leaves an exception pending after all the reads. -/
theorem readsState_raised {rs : List JRef} {s : BridgeState t} {j : Nat} {a : JByteArray}
    {e : Throwable} (hj : rs[j]? = some (some a))
    (he : env.convert (s.conversions + j) = .error (some e)) :
    (readsState env rs s).pending ≠ none := by
  induction rs generalizing s j with
  | nil => cases hj
  | cons r rs ih =>
    rw [readsState_cons]
    cases j with
    | zero =>
      obtain rfl : r = some a := by simpa using hj
      rw [Nat.add_zero] at he
      apply readsState_pending
      rw [jbytearrayToVec_snd, he]
      exact Option.some_ne_none _
    | succ j =>
      apply ih (j := j) (by simpa using hj)
      rw [jbytearrayToVec_conversions, Nat.add_right_comm]
      exact he

end Reads

/-! ## 2. Settling the ledger -/

/-- Everything handed out between two states was freed again between them. -/
def Settles (s s' : BridgeState t) : Prop :=
  ∃ block, s'.ops = s.ops ++ block ∧ Ledger.Closed s.next s'.next block

theorem settles_of_eq {s s' : BridgeState t} (ho : s'.ops = s.ops) (hn : s'.next = s.next) :
    Settles s s' :=
  ⟨[], by simp [ho], by rw [hn]; exact Ledger.closed_nil _⟩

theorem Settles.trans {s₁ s₂ s₃ : BridgeState t} (h1 : Settles s₁ s₂) (h2 : Settles s₂ s₃) :
    Settles s₁ s₃ := by
  obtain ⟨p, ep, hp⟩ := h1
  obtain ⟨q, eq, hq⟩ := h2
  exact ⟨p ++ q, by rw [eq, ep, List.append_assoc], Ledger.closed_append hp hq⟩

/-- The block a bracket of `m` allocations of one kind appends. -/
theorem settles_bracket {s s' : BridgeState t} (k : Kind) (m : Nat) (rs : List Nat)
    (hrs : ∀ i ∈ rs, s.next ≤ i ∧ i < s.next + m) (hn : s'.next = s.next + m)
    (ho : s'.ops = s.ops ++
      (Ledger.handOutAll k s.next m ++ (rs.map .read ++ Ledger.freeAll k s.next m))) :
    Settles s s' :=
  ⟨_, ho, by rw [hn]; exact Ledger.closed_bracket k s.next m rs hrs⟩

/-! ## 3. Throwing and allocating -/

/-- The message `throw_ffi_error` throws. -/
def errorText : Option (List UInt8) → String
  | none => "FFI returned false but populated no error message"
  | some bytes => Utf8Lossy.lossy Utf8Lossy.maximal bytes

/-- Throwing makes no C call and touches no C memory. -/
@[simp] theorem throwNew_frame (m : String) (env : Env t) (s : BridgeState t) :
    (throwNew m env s).2.calls = s.calls ∧ (throwNew m env s).2.ops = s.ops ∧
      (throwNew m env s).2.next = s.next := by
  unfold throwNew raise
  split
  · exact ⟨rfl, rfl, rfl⟩
  · split <;> exact ⟨rfl, rfl, rfl⟩

/-- Allocating the result makes no C call and touches no C memory. -/
@[simp] theorem byteArrayFromSlice_frame (bs : List UInt8) (env : Env t) (s : BridgeState t) :
    (byteArrayFromSlice bs env s).2.calls = s.calls ∧
      (byteArrayFromSlice bs env s).2.ops = s.ops ∧
      (byteArrayFromSlice bs env s).2.next = s.next := by
  unfold byteArrayFromSlice raise
  split
  · exact ⟨rfl, rfl, rfl⟩
  · split <;> exact ⟨rfl, rfl, rfl⟩

/-- The pending exception after a throw. -/
theorem throwNew_pending (m : String) (env : Env t) (s : BridgeState t) :
    (throwNew m env s).2.pending =
      match env.throwNew m with
      | .ok () => some (.OnymException m)
      | .error p => p.or s.pending := by
  cases h : env.throwNew m with
  | ok u => simp [throwNew, h, ONYM_EXCEPTION]
  | error p => cases p <;> simp [throwNew, h, raise]

/-- What allocating the result returns and leaves pending. -/
theorem byteArrayFromSlice_eq (bs : List UInt8) (env : Env t) (s : BridgeState t) :
    (byteArrayFromSlice bs env s).1 =
        (match env.newByteArray bs.length with
          | .ok h => some (.ofUnsigned bs h.down)
          | .error _ => none) ∧
      (byteArrayFromSlice bs env s).2.pending =
        match env.newByteArray bs.length with
        | .ok _ => s.pending
        | .error p => p.or s.pending := by
  cases h : env.newByteArray bs.length with
  | ok u => simp [byteArrayFromSlice, h]
  | error p => cases p <;> simp [byteArrayFromSlice, h, raise]

/-! ## 4. The tail of a `byte[]` export -/

/-- The state once the C function is entered. -/
def entered (c : FfiCall t) (s : BridgeState t) : BridgeState t :=
  { s with calls := s.calls ++ [c] }

/-- How many allocations an out buffer is. -/
def OutBuf.count : OutBuf → Nat
  | .null _ => 0
  | .owned _ => 1

/-- The handle an out buffer is read under, if it is read: empty ones are not. -/
def OutBuf.reads (n : Nat) : OutBuf → List Nat
  | .null _ => []
  | .owned [] => []
  | .owned (_ :: _) => [n]

/-- The state after a bracket of `m` allocations of kind `k` with the reads `rs`. -/
def bracketed (k : Kind) (m : Nat) (rs : List Nat) (s : BridgeState t) : BridgeState t :=
  { s with
    next := s.next + m
    ops := s.ops ++
      (Ledger.handOutAll k s.next m ++ (rs.map .read ++ Ledger.freeAll k s.next m)) }

/-- The state after an error string was handed out, read and freed. -/
def stringState : Option (List UInt8) → BridgeState t → BridgeState t
  | none, s => s
  | some _, s => bracketed .string 1 [s.next] s

/-- **The error branch**: whatever the error pointer, it throws the error text. -/
theorem throwFfiError_handOutString (err : Option (List UInt8)) (env : Env t)
    (s : BridgeState t) :
    throwFfiError (handOutString err env s).1 env (handOutString err env s).2 =
      throwNew (errorText err) env (stringState err s) := by
  cases err with
  | none => rfl
  | some bytes =>
    simp [throwFfiError, handOutString, handOut, log, onymStringFree, errorText, stringState,
      bracketed, Ledger.handOutAll, Ledger.freeAll]

/-- **The success branch with one out buffer** returns its bytes. -/
theorem bufferToJbytearray_handOutBuffer (out : OutBuf) (env : Env t) (s : BridgeState t) :
    bufferToJbytearray (handOutBuffer out env s).1 env (handOutBuffer out env s).2 =
      byteArrayFromSlice out.contents env
        (bracketed .buffer out.count (out.reads s.next) s) := by
  cases out with
  | null len =>
    simp [bufferToJbytearray, handOutBuffer, sliceOf, onymByteBufferFree, OutBuf.contents,
      OutBuf.count, OutBuf.reads, bracketed, Ledger.handOutAll, Ledger.freeAll]
  | owned bytes =>
    cases bytes with
    | nil =>
      simp [bufferToJbytearray, handOutBuffer, handOut, log, sliceOf, onymByteBufferFree,
        OutBuf.contents, OutBuf.count, OutBuf.reads, bracketed, Ledger.handOutAll,
        Ledger.freeAll]
    | cons b bs =>
      simp [bufferToJbytearray, handOutBuffer, handOut, log, sliceOf, Slice.read,
        onymByteBufferFree, OutBuf.contents, OutBuf.count, OutBuf.reads, bracketed,
        Ledger.handOutAll, Ledger.freeAll]

/-- The header's cast to `u32` does not show in its four bytes. -/
theorem toBytes_four_mod (n : Nat) :
    BigEndian.toBytes 4 (n % 4294967296) = BigEndian.toBytes 4 n :=
  BigEndian.toBytes_mod 4 n

/-- **The success branch with two out buffers** returns their encoding. -/
theorem twoBuffersToConcat_handOutBuffer (a b : OutBuf) (env : Env t) (s : BridgeState t) :
    twoBuffersToConcat (handOutBuffer a env s).1
        (handOutBuffer b env (handOutBuffer a env s).2).1 env
        (handOutBuffer b env (handOutBuffer a env s).2).2 =
      byteArrayFromSlice (encodeTwo a.contents b.contents) env
        (bracketed .buffer (a.count + b.count)
          (a.reads s.next ++ b.reads (s.next + a.count)) s) := by
  have hr : ∀ n, List.range' n 2 = [n, n + 1] := fun _ => rfl
  have hn : ∀ n : Nat, n + 1 + 1 = n + 2 := fun _ => rfl
  rcases a with _ | ⟨_ | ⟨x, xs⟩⟩ <;> rcases b with _ | ⟨_ | ⟨y, ys⟩⟩ <;>
    simp [twoBuffersToConcat, handOutBuffer, handOut, log, sliceOf, Slice.read, Slice.len,
      onymByteBufferFree, OutBuf.contents, OutBuf.count, OutBuf.reads, bracketed,
      Ledger.handOutAll, Ledger.freeAll, encodeTwo, hr, hn, toBytes_four_mod]

/-- `callOneOut`, by the outcome of the C function. -/
theorem callOneOut_eq (c : FfiCall t) (env : Env t) (s : BridgeState t) :
    callOneOut c env s =
      match env.oneOut c with
      | .success out =>
          byteArrayFromSlice out.contents env
            (bracketed .buffer out.count (out.reads s.next) (entered c s))
      | .failure err => (none, (throwNew (errorText err) env (stringState err (entered c s))).2) := by
  cases h : env.oneOut c with
  | success out =>
    simp only [callOneOut, ffiOneOut, bridge_bind, enter, answer, h, bridge_pure]
    exact bufferToJbytearray_handOutBuffer out env (entered c s)
  | failure err =>
    simp only [callOneOut, ffiOneOut, bridge_bind, enter, answer, h, bridge_pure]
    exact congrArg (fun r => ((none : JRef), r.2)) (throwFfiError_handOutString err env (entered c s))

/-- `callTwoOut`, by the outcome of the C function. -/
theorem callTwoOut_eq (c : FfiCall t) (env : Env t) (s : BridgeState t) :
    callTwoOut c env s =
      match env.twoOut c with
      | .success (a, b) =>
          byteArrayFromSlice (encodeTwo a.contents b.contents) env
            (bracketed .buffer (a.count + b.count)
              (a.reads s.next ++ b.reads (s.next + a.count)) (entered c s))
      | .failure err => (none, (throwNew (errorText err) env (stringState err (entered c s))).2) := by
  cases h : env.twoOut c with
  | success out =>
    simp only [callTwoOut, ffiTwoOut, bridge_bind, enter, answer, h, bridge_pure]
    exact twoBuffersToConcat_handOutBuffer out.1 out.2 env (entered c s)
  | failure err =>
    simp only [callTwoOut, ffiTwoOut, bridge_bind, enter, answer, h, bridge_pure]
    exact congrArg (fun r => ((none : JRef), r.2)) (throwFfiError_handOutString err env (entered c s))

/-! ## 5. What a tail is handed out -/

/-- What a C function hands out with its answer: its out buffers, or its error string. -/
def Outcome.handedOut {α : Type} (buffers : α → Nat) : Outcome α → List Kind
  | .success out => List.replicate (buffers out) .buffer
  | .failure none => []
  | .failure (some _) => [.string]

theorem handOuts_bracketed (k : Kind) (m : Nat) (rs : List Nat) (s : BridgeState t) :
    Ledger.handOuts (bracketed k m rs s).ops = Ledger.handOuts s.ops ++ List.replicate m k := by
  rw [bracketed, Ledger.handOuts_append, Ledger.handOuts_bracket]

theorem handOuts_stringState {α : Type} (buffers : α → Nat) (err : Option (List UInt8))
    (s : BridgeState t) :
    Ledger.handOuts (stringState err s).ops =
      Ledger.handOuts s.ops ++ (Outcome.failure err : Outcome α).handedOut buffers := by
  cases err with
  | none => exact (List.append_nil _).symm
  | some bytes => exact handOuts_bracketed .string 1 [s.next] s

/-- In the tail of a `byte[]` export the C side hands out what its answer says. -/
theorem callTail_handOuts (c : FfiCall t) (env : Env t) (s : BridgeState t) :
    Ledger.handOuts (callTail c env s).2.ops = Ledger.handOuts s.ops ++
      if c.isProve then (env.twoOut c).handedOut fun out => out.1.count + out.2.count
      else (env.oneOut c).handedOut OutBuf.count := by
  cases hc : c.isProve with
  | false =>
    rw [callTail_one hc, callOneOut_eq, if_neg Bool.false_ne_true]
    cases env.oneOut c with
    | success out =>
      rw [(byteArrayFromSlice_frame ..).2.1, handOuts_bracketed]
      rfl
    | failure err => rw [(throwNew_frame ..).2.1, handOuts_stringState]; rfl
  | true =>
    rw [callTail_two hc, callTwoOut_eq, if_pos rfl]
    cases env.twoOut c with
    | success out =>
      rw [(byteArrayFromSlice_frame ..).2.1, handOuts_bracketed]
      rfl
    | failure err => rw [(throwNew_frame ..).2.1, handOuts_stringState]; rfl

/-- In the tail of `nostrVerifyEventSignature` it hands out its error string. -/
theorem callVerify_handOuts (c : FfiCall t) (env : Env t) (s : BridgeState t) :
    Ledger.handOuts (callVerify c env s).2.ops =
      Ledger.handOuts s.ops ++ (env.verify c).handedOut fun _ => 0 := by
  match h : env.verify c with
  | .success _ | .failure none | .failure (some _) =>
    simp [callVerify, ffiVerify, enter, answer, h, handOutString, handOut, onymStringFree, log,
      Outcome.handedOut, Ledger.handOuts]

/-! ## 6. One lemma for each tail -/

/-- What a C call answers a `byte[]` export: the bytes of its out buffer, or the
    encoding of its two. -/
def Env.output (env : Env t) (c : FfiCall t) : Outcome (List UInt8) :=
  if c.isProve then (env.twoOut c).map fun out => encodeTwo out.1.contents out.2.contents
  else (env.oneOut c).map OutBuf.contents

theorem OutBuf.mem_reads {o : OutBuf} {n i : Nat} (h : i ∈ o.reads n) : i = n ∧ o.count = 1 := by
  match o, h with
  | .owned (_ :: _), h => exact ⟨by simpa [OutBuf.reads] using h, rfl⟩

/-- A bracket over a state whose ledger is that of `s` settles. -/
theorem settles_bracketed (c : FfiCall t) (s : BridgeState t) (k : Kind) (m : Nat) {rs : List Nat}
    (hrs : ∀ i ∈ rs, s.next ≤ i ∧ i < s.next + m) :
    Settles s (bracketed k m rs (entered c s)) :=
  settles_bracket k m rs hrs rfl rfl

theorem settles_stringState (c : FfiCall t) (s : BridgeState t) (err : Option (List UInt8)) :
    Settles s (stringState err (entered c s)) := by
  cases err with
  | none => exact settles_of_eq rfl rfl
  | some bytes =>
    refine settles_bracketed c s .string 1 fun i hi => ?_
    obtain rfl : i = s.next := by simpa [entered] using hi
    omega

theorem stringState_frame (err : Option (List UInt8)) (s : BridgeState t) :
    (stringState err s).calls = s.calls ∧ (stringState err s).pending = s.pending := by
  cases err <;> exact ⟨rfl, rfl⟩

/-- **The tail of a `byte[]` export**: one C call whose allocations are all settled,
    then the result array, or the exception, and nothing else. -/
theorem callTail_spec (c : FfiCall t) (env : Env t) (s : BridgeState t) :
    ∃ s₁ : BridgeState t, Settles s s₁ ∧ s₁.calls = s.calls ++ [c] ∧ s₁.pending = s.pending ∧
      callTail c env s =
        match env.output c with
        | .success bytes => byteArrayFromSlice bytes env s₁
        | .failure err => (none, (throwNew (errorText err) env s₁).2) := by
  have hfail : ∀ err, (stringState err (entered c s)).calls = s.calls ++ [c] ∧
      (stringState err (entered c s)).pending = s.pending := fun err =>
    stringState_frame err (entered c s)
  cases hc : c.isProve with
  | false =>
    rw [callTail_one hc, callOneOut_eq, Env.output, if_neg (by simp [hc])]
    cases env.oneOut c with
    | success out =>
      refine ⟨_, settles_bracketed c s .buffer out.count fun i hi => ?_, rfl, rfl, rfl⟩
      obtain ⟨rfl, h⟩ := OutBuf.mem_reads hi
      omega
    | failure err =>
      exact ⟨_, settles_stringState c s err, (hfail err).1, (hfail err).2, rfl⟩
  | true =>
    rw [callTail_two hc, callTwoOut_eq, Env.output, if_pos hc]
    cases env.twoOut c with
    | success out =>
      obtain ⟨a, b⟩ := out
      refine ⟨_, settles_bracketed c s .buffer (a.count + b.count) fun i hi => ?_, rfl, rfl, rfl⟩
      rcases List.mem_append.mp hi with hi | hi
      · obtain ⟨rfl, h⟩ := OutBuf.mem_reads hi
        omega
      · obtain ⟨rfl, h⟩ := OutBuf.mem_reads hi
        omega
    | failure err =>
      exact ⟨_, settles_stringState c s err, (hfail err).1, (hfail err).2, rfl⟩

/-- The tail makes its C call and no other. -/
theorem callTail_calls (c : FfiCall t) (env : Env t) (s : BridgeState t) :
    (callTail c env s).2.calls = s.calls ++ [c] := by
  obtain ⟨s₁, -, hc, -, he⟩ := callTail_spec c env s
  rw [he]
  cases env.output c with
  | success bytes => rw [(byteArrayFromSlice_frame bytes env s₁).1, hc]
  | failure err => rw [(throwNew_frame (errorText err) env s₁).1, hc]

/-- **The tail of `nostrVerifyEventSignature`**: one C call whose error string is
    settled; nothing is thrown. -/
theorem callVerify_spec (c : FfiCall t) (env : Env t) (s : BridgeState t) :
    Settles s (callVerify c env s).2 ∧ (callVerify c env s).2.calls = s.calls ++ [c] ∧
      (callVerify c env s).2.pending = s.pending ∧
      (callVerify c env s).1 =
        match env.verify c with
        | .success () => true
        | .failure _ => false := by
  cases h : env.verify c with
  | success u =>
    have e : callVerify c env s = (true, entered c s) := by
      simp [callVerify, ffiVerify, enter, answer, h, entered]
    rw [e]
    exact ⟨settles_of_eq rfl rfl, rfl, rfl, rfl⟩
  | failure err =>
    cases err with
    | none =>
      have e : callVerify c env s = (false, entered c s) := by
        simp [callVerify, ffiVerify, enter, answer, h, entered, handOutString]
      rw [e]
      exact ⟨settles_of_eq rfl rfl, rfl, rfl, rfl⟩
    | some bytes =>
      have e : callVerify c env s = (false, bracketed .string 1 [] (entered c s)) := by
        simp [callVerify, ffiVerify, enter, answer, h, entered, handOutString, handOut,
          onymStringFree, log, bracketed, Ledger.handOutAll, Ledger.freeAll]
      rw [e]
      exact ⟨settles_bracketed c s .string 1 fun i hi => absurd hi List.not_mem_nil, rfl, rfl, rfl⟩

end OnymSdk
