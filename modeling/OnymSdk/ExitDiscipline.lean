/-
  File:      OnymSdk/ExitDiscipline.lean
  Subject:   THE TWO EXITS of a `byte[]` export, and what failed reads lead to.

  * `ReturnsOutput`, `Raises` -- an array with the C output and nothing pending,
    or null and a pending exception;
  * `callTail_exit` -- the tail takes exactly one of them;
  * `byteExport_exit` -- **every `byte[]` export does**, and no public function
    goes on from null;
  * `reads_delivered` -- **what each byte argument of the C call is**, over every
    pattern of failing reads: a failed one arrives as the empty array, and if it
    raised, the export returns with an exception pending.
-/
import OnymSdk.Kotlin

namespace OnymSdk

variable {t : Target}

/-! ## 1. The two exits -/

/-- C returned true, the result array could be allocated and carries exactly the
    output, and no exception is pending. -/
def ReturnsOutput (env : Env t) (c : FfiCall t) (r : JRef × BridgeState t) : Prop :=
  ∃ bytes h a, env.output c = .success bytes ∧ env.newByteArray bytes.length = .ok h ∧
    r.1 = some a ∧ a.contents = bytes ∧ r.2.pending = none

/-- Null is returned and an exception is pending. -/
def Raises (r : JRef × BridgeState t) : Prop := r.1 = none ∧ r.2.pending ≠ none

theorem not_returnsOutput_of_raises {env : Env t} {c : FfiCall t} {r : JRef × BridgeState t}
    (h : Raises r) : ¬ ReturnsOutput env c r := by
  intro hx
  obtain ⟨_, _, _, _, _, h1, _⟩ := hx
  rw [h.1] at h1
  cases h1

/-- A throw leaves an exception pending, its own one if it succeeds. -/
theorem throwNew_raises {env : Env t} (hf : env.FailuresThrow) (m : String) (s : BridgeState t) :
    (throwNew m env s).2.pending ≠ none ∧
      (env.throwNew m = .ok () → (throwNew m env s).2.pending = some (.OnymException m)) := by
  rw [throwNew_pending]
  cases h : env.throwNew m with
  | ok u => exact ⟨Option.some_ne_none _, fun _ => rfl⟩
  | error p =>
    obtain ⟨e, rfl⟩ := Option.ne_none_iff_exists'.mp (hf.throwNew m p h)
    exact ⟨Option.some_ne_none _, fun h => by cases h⟩

/-- **The tail takes exactly one of the two exits**, the first one exactly when C
    returned true and the array could be allocated. -/
theorem callTail_exit {env : Env t} (hf : env.FailuresThrow) (c : FfiCall t) {s : BridgeState t}
    (hs : s.pending = none) :
    (ReturnsOutput env c (callTail c env s) ∨ Raises (callTail c env s)) ∧
    (ReturnsOutput env c (callTail c env s) ↔
      ∃ bytes h, env.output c = .success bytes ∧ env.newByteArray bytes.length = .ok h) ∧
    ∀ err, env.output c = .failure err → env.throwNew (errorText err) = .ok () →
      (callTail c env s).2.pending = some (.OnymException (errorText err)) := by
  obtain ⟨s₁, -, -, hp, he⟩ := callTail_spec c env s
  rw [hs] at hp
  rw [he]
  cases hout : env.output c with
  | failure err =>
    obtain ⟨hne, hok⟩ := throwNew_raises hf (errorText err) s₁
    have hr : Raises ((none : JRef), (throwNew (errorText err) env s₁).2) := ⟨rfl, hne⟩
    refine ⟨Or.inr hr, ⟨fun h => absurd h (not_returnsOutput_of_raises hr), ?_⟩, ?_⟩
    · intro hx
      obtain ⟨_, _, h, _⟩ := hx
      cases h
    · intro err' h ht
      cases h
      exact hok ht
  | success bytes =>
    obtain ⟨hr, hpend⟩ := byteArrayFromSlice_eq bytes env s₁
    cases halloc : env.newByteArray bytes.length with
    | ok h =>
      simp only [halloc, hp] at hr hpend
      have hex : ReturnsOutput env c (byteArrayFromSlice bytes env s₁) :=
        ⟨bytes, h, _, hout, halloc, hr, by simp, hpend⟩
      exact ⟨Or.inl hex, ⟨fun _ => ⟨bytes, h, rfl, halloc⟩, fun _ => hex⟩, fun _ h => by cases h⟩
    | error p =>
      simp only [halloc, hp, Option.or_none] at hr hpend
      have hra : Raises (byteArrayFromSlice bytes env s₁) := by
        refine ⟨hr, ?_⟩
        rw [hpend]
        exact hf.newByteArray _ p halloc
      refine ⟨Or.inr hra, ⟨fun h => absurd h (not_returnsOutput_of_raises hra), ?_⟩,
        fun _ h => by cases h⟩
      intro hx
      obtain ⟨_, _, h, ha⟩ := hx
      cases h
      rw [halloc] at ha
      cases ha

/-! ## 2. The C call of an export -/

/-- Neither tail clears a pending exception. -/
theorem callTail_pending (c : FfiCall t) (env : Env t) {s : BridgeState t}
    (hs : s.pending ≠ none) : (callTail c env s).2.pending ≠ none := by
  obtain ⟨e, hs⟩ := Option.ne_none_iff_exists'.mp hs
  obtain ⟨s₁, -, -, hp, he⟩ := callTail_spec c env s
  rw [he]
  rw [hs] at hp
  cases env.output c with
  | success bytes =>
    rw [(byteArrayFromSlice_eq bytes env s₁).2, hp]
    cases env.newByteArray bytes.length with
    | ok h => exact Option.some_ne_none e
    | error p => cases p <;> exact Option.some_ne_none _
  | failure err =>
    rw [throwNew_pending, hp]
    cases env.throwNew (errorText err) with
    | ok u => exact Option.some_ne_none _
    | error p => cases p <;> exact Option.some_ne_none _

/-- **Every export makes exactly one C call**, on what its reads delivered, and ends
    with an exception pending if the reads left one. -/
theorem ExportCall.run_reads (e : ExportCall) (env : Env t) (s : BridgeState t) :
    (∃ c : FfiCall t, (e.run env s).2.calls = s.calls ++ [c] ∧
      c.byteArgs = deliveredArgs env s.conversions e.arrays) ∧
    ((readsState env (conversionsOf e.arrays) s).pending ≠ none →
      (e.run env s).2.pending ≠ none) := by
  cases e with
  | bytes e =>
    obtain ⟨c, -, hargs, he⟩ := e.run_split env s
    have h : (ExportCall.run (.bytes e) env s).2 = (e.run env s).2 := rfl
    rw [h, he]
    refine ⟨⟨c, ?_, hargs⟩, callTail_pending c env⟩
    rw [callTail_calls, (readsState_frame env _ s).1]
  | nostrVerifyEventSignature pk id sig =>
    obtain ⟨c, -, hargs, he⟩ := verify_split pk id sig env s
    have h : (ExportCall.run (.nostrVerifyEventSignature pk id sig) env s).2 =
        (Exports.nostrVerifyEventSignature pk id sig env s).2 := rfl
    obtain ⟨-, hc, hp, -⟩ := callVerify_spec c env
      (readsState env (conversionsOf (ExportCall.nostrVerifyEventSignature pk id sig).arrays) s)
    rw [h, he]
    refine ⟨⟨c, ?_, hargs⟩, fun hs => ?_⟩
    · rw [hc, (readsState_frame env _ s).1]
    · rw [hp]
      exact hs

/-! ## 3. Exit discipline -/

/-- **Exit discipline of every `byte[]` export.** It makes one call, of its own C function
    on what its reads delivered, and ends in exactly one of the two exits, in the first one exactly when C returned true and
    the array could be allocated; a C failure that can be thrown is thrown with the C
    error text. So no public function goes on from null or from a failed call: it
    works on the output array, or it ends in the pending exception. -/
theorem byteExport_exit (e : ByteExport) (env : Env t) (s : BridgeState t)
    (hq : env.QuietReads) (hf : env.FailuresThrow) :
    ∃ c : FfiCall t, (e.run env s.atEntry).2.calls = s.calls ++ [c] ∧ c.fn = e.ffiFn ∧
      c.byteArgs = deliveredArgs env 0 e.arrays ∧
      Xor (ReturnsOutput env c (e.run env s.atEntry)) (Raises (e.run env s.atEntry)) ∧
      (ReturnsOutput env c (e.run env s.atEntry) ↔
        ∃ bytes h, env.output c = .success bytes ∧ env.newByteArray bytes.length = .ok h) ∧
      (∀ err, env.output c = .failure err → env.throwNew (errorText err) = .ok () →
        (e.run env s.atEntry).2.pending = some (.OnymException (errorText err))) ∧
      (∀ text, errorText (some (Utf8Lossy.utf8Bytes text)) = text) ∧
      ∀ api : ApiCall, api.toExport = .bytes e →
        (ReturnsOutput env c (e.run env s.atEntry) →
          (api.run env s).1 = api.build (e.run env s.atEntry).1) ∧
        (Raises (e.run env s.atEntry) →
          ∃ x, (e.run env s.atEntry).2.pending = some x ∧ (api.run env s).1 = .error x) := by
  obtain ⟨c, hfn, hargs, he⟩ := e.run_split env s.atEntry
  have hs : (readsState env (conversionsOf e.arrays) s.atEntry).pending = none := by
    rw [readsState_quiet hq]
    rfl
  obtain ⟨hor, hiff, hthrow⟩ := callTail_exit hf c hs
  have hcalls : (e.run env s.atEntry).2.calls = s.calls ++ [c] := by
    rw [he, callTail_calls, (readsState_frame env _ _).1]
    rfl
  rw [← he] at hor hiff hthrow
  refine ⟨c, hcalls, hfn, hargs, ?_, hiff, hthrow, Utf8Lossy.lossy_utf8Bytes Utf8Lossy.maximal, ?_⟩
  · rcases hor with h | h
    · exact Or.inl ⟨h, fun hr => not_returnsOutput_of_raises hr h⟩
    · exact Or.inr ⟨h, not_returnsOutput_of_raises h⟩
  · intro api hapi
    have hrun : (api.run env s).1 = (onReturn (e.run env s.atEntry)).bind api.build := by
      rw [api.run_eq, hapi, finish_bytes]
    rw [hrun]
    constructor
    · intro hx
      obtain ⟨_, _, _, _, _, _, _, hp⟩ := hx
      rw [onReturn, hp]
      rfl
    · intro h
      obtain ⟨x, hx⟩ := Option.ne_none_iff_exists'.mp h.2
      refine ⟨x, hx, ?_⟩
      rw [onReturn, hx]
      rfl

/-- An export whose C function hands out one byte takes the first exit. -/
theorem byteExport_exit_answering :
    ReturnsOutput (.answering .w32 (.owned [7])) (.onymTyrannyBakeCreateVk 5)
      ((ByteExport.tyrannyBakeCreateVk 5).run (.answering .w32 (.owned [7]))
        (BridgeState.atEntry {})) := by
  obtain ⟨c, hc, -, -, -, hiff, -⟩ := byteExport_exit (.tyrannyBakeCreateVk 5)
    (.answering .w32 (.owned [7])) {} (Env.readable_answering .w32 _).quiet
    (Env.failuresThrow_answering .w32 _)
  obtain rfl : FfiCall.onymTyrannyBakeCreateVk 5 = c := by
    have h : [FfiCall.onymTyrannyBakeCreateVk 5] = [c] := hc
    exact List.head_eq_of_cons_eq h
  exact hiff.mpr ⟨[7], ⟨by decide⟩, rfl, rfl⟩

/-! ## 4. Failed reads -/

/-- The C argument an array argument is, when it is not lost on the way. -/
def ArrayArg.exact : ArrayArg → InBuf t
  | .required (some a) | .nullable (some a) => vecArg t a.contents
  | .required none => vecArg t []
  | .nullable none => nullArg t

/-- Reads that all succeed deliver the caller's arrays. -/
theorem deliveredArgs_exact {env : Env t} {k : Nat} {args : List ArrayArg}
    (h : ∀ j, k ≤ j → j < k + (conversionsOf args).length → env.convert j = .ok ()) :
    deliveredArgs env k args = args.map ArrayArg.exact := by
  induction args generalizing k with
  | nil => rfl
  | cons arg rest ih =>
    match arg with
    | .nullable none =>
      rw [deliveredArgs, ih h]
      rfl
    | .required none =>
      have hr := ih (k := k + 1) fun j h1 h2 => h j (by omega) (by simp [conversionsOf]; omega)
      rw [deliveredArgs, hr]
      rfl
    | .required (some a) | .nullable (some a) =>
      have hk : env.convert k = .ok () := h k (Nat.le_refl k) (by simp [conversionsOf])
      have hr := ih (k := k + 1) fun j h1 h2 => h j (by omega) (by simp [conversionsOf]; omega)
      rw [deliveredArgs, hr, delivered, hk]
      rfl

/-- **What the byte arguments of the C call are.** The one C call of an export gets
    each array whose read succeeded and the empty array for each read that failed; with
    no failed read it gets exactly the caller's arrays. An export with a read that
    raised returns with an exception pending, so its caller gets that and no result. -/
theorem reads_delivered (e : ExportCall) (env : Env t) (s : BridgeState t) :
    (∃ c : FfiCall t, (e.run env s.atEntry).2.calls = s.calls ++ [c] ∧
      c.byteArgs = deliveredArgs env 0 e.arrays ∧
      ((∀ j, j < (conversionsOf e.arrays).length → env.convert j = .ok ()) →
        c.byteArgs = e.arrays.map ArrayArg.exact)) ∧
    ∀ j a x, (conversionsOf e.arrays)[j]? = some (some a) → env.convert j = .error (some x) →
      ∃ y, onReturn (e.run env s.atEntry) = .error y := by
  obtain ⟨⟨c, hc, hargs⟩, hpend⟩ := e.run_reads env s.atEntry
  refine ⟨⟨c, hc, hargs, ?_⟩, ?_⟩
  · intro hok
    rw [hargs]
    exact deliveredArgs_exact fun j _ hj => hok j (by simpa [BridgeState.atEntry] using hj)
  · intro j a x hj hx
    have hraised : env.convert (s.atEntry.conversions + j) = .error (some x) := by
      rw [← hx]
      congr 1
      exact Nat.zero_add j
    obtain ⟨y, hy⟩ := Option.ne_none_iff_exists'.mp (hpend (readsState_raised hj hraised))
    exact ⟨y, by rw [onReturn, hy]⟩

/-- Is the result one a caller takes for success? -/
def ExportResult.isSuccess : ExportResult → Bool
  | .array r => r.isSome
  | .bool b => b

/-- No failed read shows in the arguments of the C call, nor in a success. -/
def ReadsKept (e : ExportCall) (env : Env t) : Prop :=
  (∀ c, (e.run env {}).2.calls = [c] → c.byteArgs = e.arrays.map ArrayArg.exact) ∧
  ((∃ j, j < (conversionsOf e.arrays).length ∧ env.convert j ≠ .ok ()) →
    (e.run env {}).1.isSuccess = false)

/-- No read succeeds and none raises; every C function hands out one byte. -/
def unreadable : Env .w64 :=
  { Env.answering .w64 (.owned [1]) with convert := fun _ => .error none }

/-- There a roster of one byte is hashed as the empty roster, with success. -/
theorem not_readsKept_unreadable :
    ((ExportCall.bytes (.computeMerkleRoot (some ⟨[7], by decide⟩) 5)).run unreadable {}).2.calls =
        [.onymComputeMerkleRoot (vecArg .w64 []) 5] ∧
      ((ExportCall.bytes (.computeMerkleRoot (some ⟨[7], by decide⟩) 5)).run unreadable {}).1 =
        .array (some ⟨[1], by decide⟩) ∧
      ¬ ReadsKept (.bytes (.computeMerkleRoot (some ⟨[7], by decide⟩) 5)) unreadable := by
  refine ⟨by decide, by decide, fun h => ?_⟩
  have h1 := h.1 (.onymComputeMerkleRoot (vecArg .w64 []) 5) (by decide)
  exact absurd h1 (by decide)

end OnymSdk
