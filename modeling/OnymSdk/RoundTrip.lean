/-
  File:      OnymSdk/RoundTrip.lean
  Subject:   THE ROUND TRIP of two buffers from Rust to Kotlin.

  * `concatOf_roundTrip` -- what `two_buffers_to_concat` builds is accepted by
    `splitTwoBuffers` and decodes to the two buffers;
  * `Places` -- a prove wrapper puts the first output of its C call in one field
    of its record and the second in the other, and returns whenever the call
    succeeds and the array can be allocated;
  * `proveWrapper_places` -- every wrapper over an export with two out buffers
    does; `twoBuffers_roundTrip` -- **the five prove wrappers do**.
-/
import OnymSdk.Marshalling

namespace OnymSdk

variable {t : Target}

/-! ## 1. Encoder and decoder -/

/-- Two buffers as the C side hands them out, concatenated. -/
def concatOf (a b : OutBuf) : Bridge t JRef := do
  let bufA ← handOutBuffer a
  let bufB ← handOutBuffer b
  twoBuffersToConcat bufA bufB

/-- **What Rust encodes, Kotlin decodes**, over all contents and lengths. -/
theorem concatOf_roundTrip {a b : OutBuf} {env : Env t}
    {h : PLift (4 + a.contents.length + b.contents.length < 2 ^ 31)}
    (halloc : env.newByteArray (4 + a.contents.length + b.contents.length) = .ok h)
    (s : BridgeState t) :
    ∃ c x y, (concatOf a b env s).1 = some c ∧ splitTwoBuffers c = .ok (x, y) ∧
      x.contents = a.contents ∧ y.contents = b.contents := by
  have hlen : (encodeTwo a.contents b.contents).length < 2 ^ 31 := by
    rw [length_encodeTwo]
    exact h.down
  have hr : (concatOf a b env s).1 = some (.ofUnsigned (encodeTwo a.contents b.contents) hlen) := by
    simp only [concatOf, bridge_bind, twoBuffersToConcat_handOutBuffer, (byteArrayFromSlice_eq ..).1]
    split
    · rfl
    · rename_i hp
      rw [length_encodeTwo, halloc] at hp
      cases hp
  obtain ⟨x, y, hs, hx, hy⟩ := splitTwoBuffers_encodeTwo (JByteArray.contents_ofUnsigned _ hlen)
  exact ⟨_, x, y, hr, hs, hx, hy⟩

/-! ## 2. The prove wrappers -/

/-- The wrapper `w` makes one C call; a record it returns holds the call's two outputs,
    the first one in `first`; and it returns one whenever no read raises, the call
    succeeds and its concatenation can be allocated. -/
def Places {β : Type} (w : Kotlin t β) (first second : β → JByteArray) (env : Env t)
    (s : BridgeState t) : Prop :=
  ∃ c : FfiCall t, (w env s).2.calls = s.calls ++ [c] ∧
    (∀ r, (w env s).1 = .ok r → ∃ a b, env.twoOut c = .success (a, b) ∧
      (first r).contents = a.contents ∧ (second r).contents = b.contents) ∧
    ∀ a b h, env.QuietReads → env.twoOut c = .success (a, b) →
      env.newByteArray (4 + a.contents.length + b.contents.length) = .ok h →
      ∃ r, (w env s).1 = .ok r

theorem output_prove {env : Env t} {c : FfiCall t} (hc : c.isProve = true) :
    env.output c = (env.twoOut c).map fun out => encodeTwo out.1.contents out.2.contents := by
  rw [Env.output, if_pos hc]

/-- What a prove export returns without an exception is null, or the encoding of the two
    outputs of its C call. -/
theorem onReturn_callTwoOut {env : Env t} {c : FfiCall t} (hc : c.isProve = true)
    {s : BridgeState t} {r : JRef} (h : onReturn (callTwoOut c env s) = .ok r) :
    r = none ∨ ∃ a b arr, env.twoOut c = .success (a, b) ∧ r = some arr ∧
      arr.contents = encodeTwo a.contents b.contents := by
  have hr : r = (callTwoOut c env s).1 := by
    unfold onReturn at h
    split at h
    · cases h
    · cases h
      rfl
  obtain ⟨s₁, -, -, -, he⟩ := callTail_spec c env s
  rw [hr, ← callTail_two hc, he, output_prove hc]
  cases hout : env.twoOut c with
  | failure err => exact Or.inl rfl
  | success out =>
    simp only [Outcome.map, (byteArrayFromSlice_eq ..).1]
    split
    · exact Or.inr ⟨out.1, out.2, _, rfl, rfl, JByteArray.contents_ofUnsigned ..⟩
    · exact Or.inl rfl

/-- A successful call whose concatenation can be allocated returns the encoding. -/
theorem callTwoOut_success {env : Env t} {c : FfiCall t} (hc : c.isProve = true)
    {s : BridgeState t} (hs : s.pending = none) {a b : OutBuf}
    (hout : env.twoOut c = .success (a, b))
    {h : PLift (4 + a.contents.length + b.contents.length < 2 ^ 31)}
    (halloc : env.newByteArray (4 + a.contents.length + b.contents.length) = .ok h) :
    ∃ arr, onReturn (callTwoOut c env s) = .ok (some arr) ∧
      arr.contents = encodeTwo a.contents b.contents := by
  obtain ⟨s₁, -, -, hp, he⟩ := callTail_spec c env s
  have hlen : (encodeTwo a.contents b.contents).length = 4 + a.contents.length + b.contents.length :=
    length_encodeTwo _ _
  rw [output_prove hc, hout] at he
  obtain ⟨hr, hpend⟩ := byteArrayFromSlice_eq (encodeTwo a.contents b.contents) env s₁
  cases hn : env.newByteArray (encodeTwo a.contents b.contents).length with
  | error p =>
    rw [hlen, halloc] at hn
    cases hn
  | ok h' =>
    simp only [hn] at hr hpend
    refine ⟨_, ?_, JByteArray.contents_ofUnsigned _ h'.down⟩
    rw [← callTail_two hc, he]
    simp only [Outcome.map, onReturn, hpend, hp, hs, hr]

theorem buildRecord_ok {β : Type} (record : JByteArray → JByteArray → β) {arr : JByteArray}
    {a b : List UInt8} (h : arr.contents = encodeTwo a b) :
    ∃ x y, buildRecord record (some arr) = .ok (record x y) ∧ x.contents = a ∧ y.contents = b := by
  obtain ⟨x, y, hs, hx, hy⟩ := splitTwoBuffers_encodeTwo h
  refine ⟨x, y, ?_, hx, hy⟩
  simp only [buildRecord, OnymJni.splitTwoBuffers, checkNotNull, bind, Except.bind, hs]
  rfl

/-- **Every prove wrapper places its two outputs.** -/
theorem proveWrapper_places {β : Type} {m : Bridge t JRef} {record : JByteArray → JByteArray → β}
    {first second : β → JByteArray} (hfirst : ∀ x y, first (record x y) = x)
    (hsecond : ∀ x y, second (record x y) = y) {env : Env t} {s s' : BridgeState t}
    {c : FfiCall t} (hc : c.isProve = true) (h : m env s.atEntry = callTwoOut c env s')
    (hcalls : s'.calls = s.calls) (hquiet : env.QuietReads → s'.pending = none) :
    Places (proveWrapper (external m) record) first second env s := by
  refine ⟨c, ?_, fun r hr => ?_, fun a b halloc hq hout hn => ?_⟩
  · rw [proveWrapper_eq, h, ← callTail_two hc, callTail_calls, hcalls]
  · rw [proveWrapper_eq, h] at hr
    cases hret : onReturn (callTwoOut c env s') with
    | error e =>
      rw [hret] at hr
      cases hr
    | ok ref =>
      rw [hret] at hr
      rcases onReturn_callTwoOut hc hret with rfl | ⟨a, b, arr, hout, rfl, harr⟩
      · cases hr
      · obtain ⟨x, y, hb, hx, hy⟩ := buildRecord_ok record harr
        have e : buildRecord record (some arr) = .ok r := hr
        rw [hb] at e
        cases e
        exact ⟨a, b, hout, by rw [hfirst, hx], by rw [hsecond, hy]⟩
  · obtain ⟨arr, hret, harr⟩ := callTwoOut_success hc (hquiet hq) hout hn
    obtain ⟨x, y, hb, -, -⟩ := buildRecord_ok record harr
    refine ⟨record x y, ?_⟩
    rw [proveWrapper_eq, h, hret]
    exact hb

/-- **The round trip of the two-buffer format across the languages**: on any two buffers,
    and through each of the five prove wrappers. -/
theorem twoBuffers_roundTrip (env : Env t) (s : BridgeState t) :
    (∀ a b h, env.newByteArray (4 + a.contents.length + b.contents.length) = .ok h →
      ∃ c x y, (concatOf a b env s).1 = some c ∧ splitTwoBuffers c = .ok (x, y) ∧
        x.contents = a.contents ∧ y.contents = b.contents) ∧
    (∀ depth memberLeafHashes proverSecretKey proverIndex epoch salt,
      Places (Anarchy.proveMembership depth memberLeafHashes proverSecretKey proverIndex epoch salt)
        (·.proof) (·.commitment) env s) ∧
    (∀ depth memberLeafHashesOld memberLeafHashesNew proverSecretKey proverIndexOld epochOld
        saltOld saltNew,
      Places (Anarchy.proveUpdate depth memberLeafHashesOld memberLeafHashesNew proverSecretKey
        proverIndexOld epochOld saltOld saltNew) (·.proof) (·.publicInputs) env s) ∧
    (∀ secretKey0 secretKey1 salt,
      Places (OneOnOne.proveCreate secretKey0 secretKey1 salt) (·.proof) (·.commitment) env s) ∧
    (∀ depth memberLeafHashes adminSecretKey adminIndex groupIdFr salt,
      Places (Tyranny.proveCreate depth memberLeafHashes adminSecretKey adminIndex groupIdFr salt)
        (·.proof) (·.publicInputs) env s) ∧
    ∀ depth memberLeafHashesOld adminSecretKey adminIndexOld epochOld memberRootNew groupIdFr
        saltOld saltNew,
      Places (Tyranny.proveUpdate depth memberLeafHashesOld adminSecretKey adminIndexOld epochOld
        memberRootNew groupIdFr saltOld saltNew) (·.proof) (·.publicInputs) env s := by
  have hcalls : s.atEntry.calls = s.calls := rfl
  have hpend : s.atEntry.pending = none := rfl
  refine ⟨fun a b h halloc => concatOf_roundTrip halloc s, ?_, ?_, ?_, ?_, ?_⟩
  · intro depth leaves sk index epoch salt
    exact proveWrapper_places (fun _ _ => rfl) (fun _ _ => rfl) rfl rfl (by simp [hcalls])
      fun hq => by simp [jbytearrayToVec_quiet hq, hpend]
  · intro depth leavesOld leavesNew sk index epoch saltOld saltNew
    -- a null new roster is not read
    cases leavesNew with
    | none =>
      exact proveWrapper_places (fun _ _ => rfl) (fun _ _ => rfl) rfl rfl (by simp [hcalls])
        fun hq => by simp [jbytearrayToVec_quiet hq, hpend]
    | some roster =>
      exact proveWrapper_places (fun _ _ => rfl) (fun _ _ => rfl) rfl rfl (by simp [hcalls])
        fun hq => by simp [jbytearrayToVec_quiet hq, hpend]
  · intro sk0 sk1 salt
    exact proveWrapper_places (fun _ _ => rfl) (fun _ _ => rfl) rfl rfl (by simp [hcalls])
      fun hq => by simp [jbytearrayToVec_quiet hq, hpend]
  · intro depth leaves sk index groupId salt
    exact proveWrapper_places (fun _ _ => rfl) (fun _ _ => rfl) rfl rfl (by simp [hcalls])
      fun hq => by simp [jbytearrayToVec_quiet hq, hpend]
  · intro depth leavesOld sk index epoch root groupId saltOld saltNew
    exact proveWrapper_places (fun _ _ => rfl) (fun _ _ => rfl) rfl rfl (by simp [hcalls])
      fun hq => by simp [jbytearrayToVec_quiet hq, hpend]

/-- 130 bytes above 127. -/
def longProof : List UInt8 := List.replicate 130 200

/-- A one-on-one proof of these and three more bytes comes back as the two. -/
theorem twoBuffers_roundTrip_oneOnOne :
    ∃ r : OneOnOne.CreateProof,
      (OneOnOne.proveCreate ⟨[1], by decide⟩ ⟨[2], by decide⟩ ⟨[], by decide⟩
        (.proving .w64 (.owned longProof) (.owned [1, 0, 255])) {}).1 = .ok r ∧
        r.proof.contents = longProof ∧ r.commitment.contents = [1, 0, 255] := by
  obtain ⟨c, -, hok, hret⟩ := (twoBuffers_roundTrip
    (.proving .w64 (.owned longProof) (.owned [1, 0, 255])) {}).2.2.2.1
    ⟨[1], by decide⟩ ⟨[2], by decide⟩ ⟨[], by decide⟩
  have hlen : 4 + (OutBuf.owned longProof).contents.length +
      (OutBuf.owned [1, 0, 255]).contents.length < 2 ^ 31 := by
    simp [OutBuf.contents, longProof]
  obtain ⟨r, hr⟩ := hret (.owned longProof) (.owned [1, 0, 255]) ⟨hlen⟩
    (fun k e h => by cases h) rfl (Env.newByteArray_proving .w64 _ _ hlen)
  obtain ⟨a, b, hout, hp, hs⟩ := hok r hr
  cases hout
  exact ⟨r, hr, hp, hs⟩

end OnymSdk
