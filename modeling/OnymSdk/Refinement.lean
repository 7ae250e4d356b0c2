/-
  File:      OnymSdk/Refinement.lean
  Subject:   THE PUBLIC API AS THE C LIBRARY: what a caller of the SDK may think.

  Seen from outside there is no bridge: a public call asks one question of the C
  library and hands its answer on, bytes as bytes, a pinned hash as text, two outputs
  as a record, an error as an `OnymException` with its text.

  * `Answer`, `Env.answer` -- what the C library answers a C call, without pointers;
  * `Value`, `ApiCall.meaning` -- what a public function makes of an answer;
  * `Conveys` -- a result conveys the answer, or the exception the JVM raised when it
    could not allocate the result or throw the error;
  * `apiCall_conveys` -- one public call does;
  * `apiRun_refines` -- **every run of public calls is a run of C calls, in order, each
    with its answer conveyed**.
-/
import OnymSdk.RoundTrip

namespace OnymSdk

variable {t : Target}

/-! ## 1. The C library's answers -/

/-- An answer of the C library, by what is in its out buffers. -/
inductive Answer where
  | verdict (b : Bool)
  | bytes (out : List UInt8)
  | pair (first second : List UInt8)
  | error (text : String)
  deriving DecidableEq

/-- What the C library answers. -/
def Env.answer (env : Env t) (c : FfiCall t) : Answer :=
  if c.isVerify then
    match env.verify c with
    | .success () => .verdict true
    | .failure _ => .verdict false
  else if c.isProve then
    match env.twoOut c with
    | .success (a, b) => .pair a.contents b.contents
    | .failure err => .error (errorText err)
  else
    match env.oneOut c with
    | .success out => .bytes out.contents
    | .failure err => .error (errorText err)

/-! ## 2. What a public function makes of them -/

/-- What a caller gets to see. -/
inductive Value where
  | bool (b : Bool)
  | bytes (out : List UInt8)
  | text (s : String)
  | proof (first second : List UInt8)
  deriving DecidableEq

/-- A result without its references; a null array is none. -/
def ApiResult.value : ApiResult → Option Value
  | .bytes r => r.map fun a => .bytes a.contents
  | .bool b => some (.bool b)
  | .text s => some (.text s)
  | .membershipProof p => some (.proof p.proof.contents p.commitment.contents)
  | .anarchyUpdateProof p => some (.proof p.proof.contents p.publicInputs.contents)
  | .oneOnOneCreateProof p => some (.proof p.proof.contents p.commitment.contents)
  | .tyrannyCreateProof p => some (.proof p.proof.contents p.publicInputs.contents)
  | .tyrannyUpdateProof p => some (.proof p.proof.contents p.publicInputs.contents)

/-- The functions that return a pinned hash. -/
def ApiCall.isPinned : ApiCall → Bool
  | .anarchyPinnedMembershipVKSha256Hex _ | .anarchyPinnedUpdateVKSha256Hex _
  | .tyrannyPinnedCreateVKSha256Hex _ | .tyrannyPinnedUpdateVKSha256Hex _ => true
  | _ => false

/-- **The meaning of a public call**, on the answer of the C library. -/
def ApiCall.meaning (api : ApiCall) : Answer → Except Throwable Value
  | .verdict b => .ok (.bool b)
  | .bytes out => .ok (if api.isPinned then .text (Utf8Lossy.lossy Utf8Lossy.surrogates out) else .bytes out)
  | .pair first second => .ok (.proof first second)
  | .error text => .error (.OnymException text)

/-- What the JVM makes of the bridge's last request: to allocate the result, or to throw. -/
def Env.deliver (env : Env t) : Answer → Except (Option Throwable) Unit
  | .verdict _ => .ok ()
  | .bytes out => (env.newByteArray out.length).map fun _ => ()
  | .pair first second => (env.newByteArray (4 + first.length + second.length)).map fun _ => ()
  | .error text => env.throwNew text

/-- The result conveys the answer; where the JVM failed at the last request, it is the
    exception that left. -/
def Conveys (env : Env t) (api : ApiCall) (answer : Answer) (result : Except Throwable ApiResult) :
    Prop :=
  match env.deliver answer with
  | .ok () => result.map ApiResult.value = (api.meaning answer).map some
  | .error p => ∃ e, p = some e ∧ result = .error e

/-! ## 3. One call -/

/-- Every public call but one goes to a `byte[]` export. -/
theorem toExport_of_delivers {api : ApiCall} {c : FfiCall t} (h : Delivers api c)
    (hv : c.isVerify = false) : ∃ e, api.toExport = .bytes e := by
  cases h with
  | nostrVerifyEventSignature => cases hv
  | _ => exact ⟨_, rfl⟩

/-- What a public function builds from the encoding of two outputs. -/
theorem build_pair {api : ApiCall} {c : FfiCall t} (h : Delivers api c) (hp : c.isProve = true)
    {arr : JByteArray} {a b : List UInt8} (harr : arr.contents = encodeTwo a b) :
    (api.build (some arr)).map ApiResult.value = .ok (some (.proof a b)) := by
  cases h with
  | anarchyProveMembership | anarchyProveUpdate | oneOnOneProveCreate | tyrannyProveCreate
  | tyrannyProveUpdate =>
    simp only [ApiCall.build]
    obtain ⟨x, y, hb, rfl, rfl⟩ := buildRecord_ok _ harr
    rw [hb]
    rfl
  | _ => cases hp

/-- What it makes of one output. -/
theorem build_bytes {api : ApiCall} {c : FfiCall t} (h : Delivers api c) (hp : c.isProve = false)
    (arr : JByteArray) :
    (api.build (some arr)).map ApiResult.value =
      .ok (some (if api.isPinned then .text (Utf8Lossy.lossy Utf8Lossy.surrogates arr.contents)
        else .bytes arr.contents)) := by
  cases h with
  | anarchyProveMembership | anarchyProveUpdate | oneOnOneProveCreate | tyrannyProveCreate
  | tyrannyProveUpdate => cases hp
  | _ => rfl

/-- What a `byte[]` export returns on an answer: an array with its bytes, or what the JVM or
    the bridge threw. -/
theorem onReturn_callTail {env : Env t} (hf : env.FailuresThrow) {c : FfiCall t} {s : BridgeState t}
    (hs : s.pending = none) :
    onReturn (callTail c env s) =
      match env.output c with
      | .success bytes =>
        match env.newByteArray bytes.length with
        | .ok h => .ok (some (.ofUnsigned bytes h.down))
        | .error p => .error (p.getD .NullPointerException)
      | .failure err =>
        match env.throwNew (errorText err) with
        | .ok () => .error (.OnymException (errorText err))
        | .error p => .error (p.getD .NullPointerException) := by
  obtain ⟨s₁, -, -, hp, he⟩ := callTail_spec c env s
  rw [hs] at hp
  rw [he]
  cases env.output c with
  | success bytes =>
    obtain ⟨hr, hpend⟩ := byteArrayFromSlice_eq bytes env s₁
    simp only [onReturn, hr, hpend, hp]
    cases halloc : env.newByteArray bytes.length with
    | ok h => rfl
    | error p =>
      obtain ⟨e, rfl⟩ := Option.ne_none_iff_exists'.mp (hf.newByteArray _ p halloc)
      rfl
  | failure err =>
    simp only [onReturn, throwNew_pending, hp]
    cases hthrow : env.throwNew (errorText err) with
    | ok u => rfl
    | error p =>
      obtain ⟨e, rfl⟩ := Option.ne_none_iff_exists'.mp (hf.throwNew _ p hthrow)
      rfl

/-- The array for two outputs is that for their encoding. -/
theorem deliver_pair (env : Env t) (a b : List UInt8) :
    env.deliver (.pair a b) = (env.newByteArray (encodeTwo a b).length).map fun _ => () := by
  have h : ∀ n, n = (encodeTwo a b).length → ((env.newByteArray n).map fun _ => ()) =
      (env.newByteArray (encodeTwo a b).length).map fun _ => () := by
    intro n hn
    subst hn
    rfl
  exact h _ (length_encodeTwo a b).symm

/-- A call of a `byte[]` export conveys the answer. -/
theorem conveys_callTail {env : Env t} (hf : env.FailuresThrow) {api : ApiCall} {c : FfiCall t}
    (hdel : Delivers api c) (hv : c.isVerify = false) {s : BridgeState t} (hs : s.pending = none) :
    Conveys env api (env.answer c) ((onReturn (callTail c env s)).bind api.build) := by
  rw [onReturn_callTail hf hs, Env.answer, hv, if_neg Bool.false_ne_true, Env.output]
  have hfail : ∀ err, Conveys env api (.error (errorText err))
      ((match env.throwNew (errorText err) with
        | .ok () => .error (.OnymException (errorText err))
        | .error p => .error (p.getD .NullPointerException) : Except Throwable JRef).bind
          api.build) := by
    intro err
    simp only [Conveys, Env.deliver]
    cases hthrow : env.throwNew (errorText err) with
    | ok u => rfl
    | error p =>
      obtain ⟨e, rfl⟩ := Option.ne_none_iff_exists'.mp (hf.throwNew _ p hthrow)
      exact ⟨e, rfl, rfl⟩
  cases hp : c.isProve with
  | true =>
    simp only [if_true]
    cases env.twoOut c with
    | failure err => exact hfail err
    | success out =>
      obtain ⟨a, b⟩ := out
      simp only [Outcome.map, Conveys, deliver_pair]
      cases halloc : env.newByteArray (encodeTwo a.contents b.contents).length with
      | ok h => exact build_pair hdel hp (JByteArray.contents_ofUnsigned _ h.down)
      | error p =>
        obtain ⟨e, rfl⟩ := Option.ne_none_iff_exists'.mp (hf.newByteArray _ p halloc)
        exact ⟨e, rfl, rfl⟩
  | false =>
    simp only [Bool.false_eq_true, if_false]
    cases env.oneOut c with
    | failure err => exact hfail err
    | success out =>
      simp only [Outcome.map, Conveys, Env.deliver]
      cases halloc : env.newByteArray out.contents.length with
      | ok h =>
        have hb := build_bytes hdel hp (.ofUnsigned out.contents h.down)
        rw [JByteArray.contents_ofUnsigned] at hb
        exact hb
      | error p =>
        obtain ⟨e, rfl⟩ := Option.ne_none_iff_exists'.mp (hf.newByteArray _ p halloc)
        exact ⟨e, rfl, rfl⟩

/-- A call of `nostrVerifyEventSignature` conveys the verdict, and throws nothing. -/
theorem conveys_callVerify (env : Env t) (api : ApiCall) {c : FfiCall t} (hv : c.isVerify = true)
    {s : BridgeState t} (hs : s.pending = none) :
    Conveys env api (env.answer c) ((onReturn (callVerify c env s)).map .bool) := by
  obtain ⟨-, -, hp, hb⟩ := callVerify_spec c env s
  rw [hs] at hp
  rw [Env.answer, if_pos hv]
  simp only [onReturn, hp, hb]
  cases env.verify c <;> rfl

/-- The one public function that returns a `Boolean`. -/
theorem verify_run (pk id sig : JByteArray) (env : Env t) (s : BridgeState t) :
    (ApiCall.nostrVerifyEventSignature pk id sig).run env s =
      ((onReturn (Exports.nostrVerifyEventSignature (some pk) (some id) (some sig) env
          s.atEntry)).map .bool,
        (Exports.nostrVerifyEventSignature (some pk) (some id) (some sig) env s.atEntry).2) := by
  rw [ApiCall.run_eq]
  simp only [ApiCall.toExport, ExportCall.run, bridge_bind, bridge_pure, onReturn]
  cases (Exports.nostrVerifyEventSignature (some pk) (some id) (some sig) env
    s.atEntry).2.pending <;> rfl

/-- **One public call conveys the answer to its C call.** -/
theorem apiCall_conveys {env : Env t} (hr : env.Readable) (hf : env.FailuresThrow) (api : ApiCall)
    (s : BridgeState t) :
    ∃ c : FfiCall t, (api.run env s).2.calls = s.calls ++ [c] ∧ Delivers api c ∧
      Conveys env api (env.answer c) (api.run env s).1 := by
  obtain ⟨c, hc, hdel⟩ := apiCall_delivers hr api s
  refine ⟨c, hc, hdel, ?_⟩
  have hpend : ∀ rs, (readsState env rs s.atEntry).pending = none := fun rs => by
    rw [readsState_quiet hr.quiet]
    rfl
  have hcalls : ∀ rs, (readsState env rs s.atEntry).calls = s.calls := fun rs =>
    (readsState_frame env rs s.atEntry).1
  cases hv : c.isVerify with
  | false =>
    obtain ⟨e, he⟩ := toExport_of_delivers hdel hv
    obtain ⟨c', -, -, hrun⟩ := e.run_split env s.atEntry
    have hapi : api.run env s =
        ((onReturn (e.run env s.atEntry)).bind api.build, (e.run env s.atEntry).2) := by
      rw [api.run_eq, he, finish_bytes]
    rw [hapi, hrun] at hc ⊢
    obtain rfl : c' = c := by
      rw [callTail_calls, hcalls] at hc
      simpa using hc
    exact conveys_callTail hf hdel hv (hpend _)
  | true =>
    cases hdel with
    | nostrVerifyEventSignature =>
      rename_i pk id sig _ _ _ _ _ _
      obtain ⟨c', -, -, hrun⟩ := verify_split (some pk) (some id) (some sig) env s.atEntry
      rw [verify_run, hrun] at hc ⊢
      simp only [(callVerify_spec ..).2.1, hcalls] at hc
      have hcc := List.append_cancel_left hc
      cases hcc
      exact conveys_callVerify env _ hv (hpend _)
    | _ => cases hv

/-! ## 4. Whole runs -/

/-- A run of public calls of one thread: what each came back with. -/
def runApi : List (Env t × ApiCall) → BridgeState t →
    List (Except Throwable ApiResult) × BridgeState t
  | [], s => ([], s)
  | (env, api) :: rest, s =>
    ((api.run env s).1 :: (runApi rest (api.run env s).2).1, (runApi rest (api.run env s).2).2)

/-- **The SDK refines the C library.** Whatever public calls a thread makes, the C side gets
    them one by one, in order and in full, and each comes back with what its answer means;
    where the JVM could not allocate that result or throw that error, with what the JVM threw. -/
theorem apiRun_refines (calls : List (Env t × ApiCall)) (s : BridgeState t)
    (h : ∀ call ∈ calls, call.1.Readable ∧ call.1.FailuresThrow) :
    ∃ cs : List (FfiCall t), (runApi calls s).2.calls = s.calls ++ cs ∧
      List.Forall₂ (fun call c => Delivers call.2 c) calls cs ∧
      List.Forall₂ (fun x result => Conveys x.1.1 x.1.2 (x.1.1.answer x.2) result)
        (calls.zip cs) (runApi calls s).1 := by
  induction calls generalizing s with
  | nil => exact ⟨[], by simp [runApi], .nil, .nil⟩
  | cons call rest ih =>
    obtain ⟨env, api⟩ := call
    obtain ⟨hr, hf⟩ := h _ List.mem_cons_self
    obtain ⟨c, hc, hdel, hconv⟩ := apiCall_conveys hr hf api s
    obtain ⟨cs, hcs, hdels, hconvs⟩ := ih (api.run env s).2 fun x hx =>
      h x (List.mem_cons_of_mem _ hx)
    refine ⟨c :: cs, ?_, .cons hdel hdels, .cons hconv hconvs⟩
    show (runApi rest (api.run env s).2).2.calls = _
    rw [hcs, hc, List.append_assoc]
    rfl

theorem exists_of_map_ok {ε α β : Type} {f : α → β} {x : Except ε α} {y : β}
    (h : x.map f = .ok y) : ∃ a, x = .ok a ∧ f a = y := by
  cases x with
  | error e => cases h
  | ok a =>
    cases h
    exact ⟨a, rfl, rfl⟩

/-- A pinned hash comes back as its text. -/
theorem apiRun_refines_pinned :
    ∃ r, (runApi [(Env.answering .w64 (.owned [97, 98]),
        .anarchyPinnedUpdateVKSha256Hex 5)] {}).1 = [.ok r] ∧ r.value = some (.text "ab") := by
  obtain ⟨cs, -, hdel, hconv⟩ := apiRun_refines
    [(Env.answering .w64 (.owned [97, 98]), .anarchyPinnedUpdateVKSha256Hex 5)] {}
    fun call hcall => by
      obtain rfl := List.mem_singleton.mp hcall
      exact ⟨Env.readable_answering .w64 _, Env.failuresThrow_answering .w64 _⟩
  cases hdel with
  | cons hone hnone =>
    cases hnone
    cases hone
    cases hconv with
    | cons h _ =>
      have hmap : Except.map ApiResult.value _ = .ok (some (.text "ab")) := h
      obtain ⟨r, hr, hvalue⟩ := exists_of_map_ok hmap
      exact ⟨r, congrArg (fun x => [x]) hr, hvalue⟩

end OnymSdk
