/-
  File:      OnymSdk/Ownership.lean
  Subject:   OWNERSHIP of what the C side hands out, over whole runs of calls.

  * `BridgeState.atEntry` -- a native method is entered with nothing pending;
  * `runCalls` -- a finite sequence of calls of the exports, each against its
    own environment, over one state;
  * `ExportCall.run_settles`, `ExportCall.run_handOuts` -- the step: one call settles the
    ledger, and is handed out what its C function answered;
  * `runCalls_settles`, `runCalls_handOuts` -- the run: any sequence of calls does;
  * `runCalls_ledger` -- **every buffer and every error string is freed exactly
    once, by its own function, and never read afterwards**.
-/
import OnymSdk.Tails

namespace OnymSdk

variable {t : Target}

/-! ## 1. Sequences of calls -/

/-- The state a native method is entered with: the JVM threw what the previous
    one left pending when that returned. -/
def BridgeState.atEntry (s : BridgeState t) : BridgeState t :=
  { s with pending := none, conversions := 0 }

/-- A sequence of calls, each with the environment it meets. -/
def runCalls : List (Env t × ExportCall) → BridgeState t → BridgeState t
  | [], s => s
  | (env, e) :: rest, s => runCalls rest (e.run env s.atEntry).2

/-! ## 2. One call -/

/-- Reading the arrays leaves the ledger alone. -/
theorem settles_reads (env : Env t) (rs : List JRef) (s : BridgeState t) :
    Settles s (readsState env rs s) := by
  obtain ⟨_, ho, hn⟩ := readsState_frame env rs s
  exact settles_of_eq ho hn

/-- The tail of a `byte[]` export settles its allocations on every exit. -/
theorem settles_callTail (c : FfiCall t) (env : Env t) (s : BridgeState t) :
    Settles s (callTail c env s).2 := by
  obtain ⟨s₁, hs, -, -, he⟩ := callTail_spec c env s
  rw [he]
  cases env.output c with
  | success bytes =>
    obtain ⟨-, ho, hn⟩ := byteArrayFromSlice_frame bytes env s₁
    exact hs.trans (settles_of_eq ho hn)
  | failure err =>
    obtain ⟨-, ho, hn⟩ := throwNew_frame (errorText err) env s₁
    exact hs.trans (settles_of_eq ho hn)

/-- **One call settles the ledger**, whatever the export, its arguments, the
    outcome of the C function and the failures of the JVM. -/
theorem ExportCall.run_settles (e : ExportCall) (env : Env t) (s : BridgeState t) :
    Settles s (e.run env s).2 := by
  cases e with
  | bytes e =>
    obtain ⟨c, -, -, he⟩ := e.run_split env s
    have h : (ExportCall.run (.bytes e) env s).2 = (e.run env s).2 := rfl
    rw [h, he]
    exact (settles_reads env _ s).trans (settles_callTail c env _)
  | nostrVerifyEventSignature pk id sig =>
    obtain ⟨c, -, -, he⟩ := verify_split pk id sig env s
    have h : (ExportCall.run (.nostrVerifyEventSignature pk id sig) env s).2 =
        (Exports.nostrVerifyEventSignature pk id sig env s).2 := rfl
    rw [h, he]
    exact (settles_reads env _ s).trans (callVerify_spec c env _).1

/-- What the C side hands out in a call. -/
def Env.handedOut (env : Env t) (c : FfiCall t) : List Kind :=
  if c.isVerify then (env.verify c).handedOut fun _ => 0
  else if c.isProve then (env.twoOut c).handedOut fun out => out.1.count + out.2.count
  else (env.oneOut c).handedOut OutBuf.count

/-- **One call is handed out what its C function answered**, and nothing else. -/
theorem ExportCall.run_handOuts (e : ExportCall) (env : Env t) (s : BridgeState t) :
    ∃ c : FfiCall t, c.fn = e.ffiFn ∧ (e.run env s).2.calls = s.calls ++ [c] ∧
      Ledger.handOuts (e.run env s).2.ops = Ledger.handOuts s.ops ++ env.handedOut c := by
  cases e with
  | bytes e =>
    obtain ⟨c, hfn, -, he⟩ := e.run_split env s
    have h : (ExportCall.run (.bytes e) env s).2 = (e.run env s).2 := rfl
    refine ⟨c, hfn, ?_, ?_⟩
    · rw [h, he, callTail_calls, (readsState_frame env _ s).1]
    · rw [h, he, callTail_handOuts, (readsState_frame env _ s).2.1, Env.handedOut,
        e.isVerify_eq_false hfn, if_neg Bool.false_ne_true]
  | nostrVerifyEventSignature pk id sig =>
    obtain ⟨c, hfn, -, he⟩ := verify_split pk id sig env s
    have h : (ExportCall.run (.nostrVerifyEventSignature pk id sig) env s).2 =
        (Exports.nostrVerifyEventSignature pk id sig env s).2 := rfl
    refine ⟨c, hfn, ?_, ?_⟩
    · rw [h, he, (callVerify_spec ..).2.1, (readsState_frame env _ s).1]
    · rw [h, he, callVerify_handOuts, (readsState_frame env _ s).2.1, Env.handedOut,
        isVerify_of_fn hfn, if_pos rfl]

/-! ## 3. Whole runs -/

/-- **Any sequence of calls settles the ledger.** -/
theorem runCalls_settles (calls : List (Env t × ExportCall)) (s : BridgeState t) :
    Settles s (runCalls calls s) := by
  induction calls generalizing s with
  | nil => exact settles_of_eq rfl rfl
  | cons call calls ih =>
    obtain ⟨env, e⟩ := call
    have hentry : Settles s s.atEntry := settles_of_eq rfl rfl
    exact hentry.trans ((e.run_settles env s.atEntry).trans (ih _))

/-- **Any sequence of calls is handed out what its C functions answered**, call by call. -/
theorem runCalls_handOuts (calls : List (Env t × ExportCall)) (s : BridgeState t) :
    ∃ cs : List (FfiCall t), (runCalls calls s).calls = s.calls ++ cs ∧
      List.Forall₂ (fun call c => c.fn = call.2.ffiFn) calls cs ∧
      Ledger.handOuts (runCalls calls s).ops =
        Ledger.handOuts s.ops ++ (calls.zip cs).flatMap fun x => x.1.1.handedOut x.2 := by
  induction calls generalizing s with
  | nil => exact ⟨[], by simp [runCalls], .nil, by simp [runCalls]⟩
  | cons call calls ih =>
    obtain ⟨env, e⟩ := call
    obtain ⟨c, hfn, hc, ho⟩ := e.run_handOuts env s.atEntry
    obtain ⟨cs, hcs, hfns, hos⟩ := ih (e.run env s.atEntry).2
    refine ⟨c :: cs, ?_, .cons hfn hfns, ?_⟩
    · rw [runCalls, hcs, hc, List.append_assoc]
      rfl
    · rw [runCalls, hos, ho, List.append_assoc]
      rfl

/-- **The ledger of every run is clean**: the C side hands out, call by call, what its
    functions answer; the ledger accepts every step and no entry is live after any of the
    calls; every allocation handed out is freed exactly once, by the function of its kind;
    and none is read after that. -/
theorem runCalls_ledger (calls : List (Env t × ExportCall)) :
    (∃ cs : List (FfiCall t), (runCalls calls {}).calls = cs ∧
      List.Forall₂ (fun call c => c.fn = call.2.ffiFn) calls cs ∧
      Ledger.handOuts (runCalls calls {}).ops =
        (calls.zip cs).flatMap fun x => x.1.1.handedOut x.2) ∧
    (∀ n, ∃ b, Ledger.run Ledger.empty (runCalls (calls.take n) {}).ops = some b ∧
      ∀ i k, b i ≠ some (k, .live)) ∧
    (∀ i k, .handOut i k ∈ (runCalls calls {}).ops →
      (runCalls calls {}).ops.countP (Ledger.frees i) = 1 ∧
        .free i k ∈ (runCalls calls {}).ops) ∧
    ∀ pre i k post, (runCalls calls {}).ops = pre ++ .free i k :: post → .read i ∉ post := by
  have hclean : ∀ cs : List (Env t × ExportCall), ∃ b,
      Ledger.run Ledger.empty (runCalls cs {}).ops = some b ∧
        ∀ i k, b i ≠ some (k, .live) := by
    intro cs
    obtain ⟨block, ho, hb⟩ := runCalls_settles cs ({} : BridgeState t)
    rw [ho]
    exact Ledger.closed_run hb
  obtain ⟨b, hrun, hlive⟩ := hclean calls
  refine ⟨?_, fun n => hclean _, fun i k hm => Ledger.frees_once hrun hlive hm, ?_⟩
  · obtain ⟨cs, hcs, hfns, hos⟩ := runCalls_handOuts calls ({} : BridgeState t)
    exact ⟨cs, by simpa using hcs, hfns, hos⟩
  · intro pre i k post he
    rw [he] at hrun
    exact Ledger.no_read_after_free hrun

/-- A proof of two outputs, then a signature that fails with a text. -/
def proveThenVerify : List (Env .w64 × ExportCall) :=
  [(.proving .w64 (.owned [7, 8]) (.owned [9]),
      .bytes (.oneOnOneProveCreate (some ⟨[1], by decide⟩) (some ⟨[2], by decide⟩) none)),
    ({ Env.answering .w64 (.null 0) with verify := fun _ => .failure (some [101]) },
      .nostrVerifyEventSignature none none none)]

/-- There the C side hands out two buffers and a string, and each is freed once. -/
theorem runCalls_ledger_proveThenVerify :
    Ledger.handOuts (runCalls proveThenVerify {}).ops = [.buffer, .buffer, .string] ∧
      ∀ i k, .handOut i k ∈ (runCalls proveThenVerify {}).ops →
        (runCalls proveThenVerify {}).ops.countP (Ledger.frees i) = 1 := by
  obtain ⟨⟨cs, hcs, -, hos⟩, -, honce, -⟩ := runCalls_ledger proveThenVerify
  refine ⟨?_, fun i k hm => (honce i k hm).1⟩
  rw [hos, ← hcs]
  decide

end OnymSdk
