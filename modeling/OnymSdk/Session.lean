/-
  File:      OnymSdk/Session.lean
  Subject:   THE NATIVE LIBRARY OVER A PROCESS'S LIFE: `init { loadNativeLibrary() }`.

  The first thread that calls a native method initializes `OnymJni`: it runs the
  loader, while the others wait for it. If the loader throws, the class stays
  unusable. Any number of threads call public functions, in any order.

  * `Init`, `Session`, `Session.Step` -- the initialization protocol of the JVM around
    the object's `init` block;
  * `Session.Inv`, `step_inv`, `steps_inv` -- what every reachable state satisfies;
  * `session_loads_once` -- **the loader runs at most once; no C call is made unless it
    succeeded; what each call returns; and nobody waits forever**.
-/
import OnymSdk.Loader
import OnymSdk.Marshalling
import Mathlib.Logic.Relation

namespace OnymSdk

open Relation

variable {t : Target} {ι : Type}

/-! ## 1. The protocol -/

/-- Is it an `Error`? The classes beyond the named ones are those the JVM itself throws. -/
def Throwable.isError : Throwable → Bool
  | .UnsatisfiedLinkError _ | .other _ => true
  | _ => false

/-- What a failed initialization throws: an `Error` as it is, anything else wrapped. -/
def initError (e : Throwable) : Throwable :=
  if e.isError then e else .other "java.lang.ExceptionInInitializerError"

/-- What using a class throws once its initialization failed. -/
def noClassDefFoundError : Throwable := .other "java.lang.NoClassDefFoundError"

/-- Where the initialization of `OnymJni` stands. -/
inductive Init (ι : Type) where
  | uninitialized
  | running (i : ι)
  | initialized
  | erroneous

/-- A public call that came back, with what it came back with. -/
structure Returned (ι : Type) where
  thread : ι
  call : ApiCall
  result : Except Throwable ApiResult

/-- A process: the class, the call each thread is in, each thread's side of the bridge, how
    the loader's runs ended, and the calls that came back, the newest first. -/
structure Session (t : Target) (ι : Type) where
  cls : Init ι
  call : ι → Option ApiCall
  bridge : ι → BridgeState t
  loads : List (Except Throwable Unit)
  returned : List (Returned ι)

/-- Before the first call. -/
def Session.start (t : Target) (ι : Type) : Session t ι :=
  ⟨.uninitialized, fun _ => none, fun _ => {}, [], []⟩

namespace Session

section Protocol

variable [DecidableEq ι]

/-- The thread's call comes back. -/
def leave (s : Session t ι) (i : ι) (api : ApiCall) (result : Except Throwable ApiResult) :
    Session t ι :=
  { s with call := Function.update s.call i none, returned := ⟨i, api, result⟩ :: s.returned }

/-- One step of one thread, in a process on the given platform. -/
inductive Step (p : Platform) : Session t ι → Session t ι → Prop where
  | enter {s i} (api : ApiCall) (hi : s.call i = none) :
      Step p s { s with call := Function.update s.call i (some api) }
  | begin {s i api} (hi : s.call i = some api) (hc : s.cls = .uninitialized) :
      Step p s { s with cls := .running i }
  | load {s i} (hc : s.cls = .running i) (hl : p.loadNativeLibrary = .ok ()) :
      Step p s { s with cls := .initialized, loads := .ok () :: s.loads }
  | fail {s i api e} (hi : s.call i = some api) (hc : s.cls = .running i)
      (hl : p.loadNativeLibrary = .error e) :
      Step p s { s.leave i api (.error (initError e)) with
        cls := .erroneous, loads := .error e :: s.loads }
  | refuse {s i api} (hi : s.call i = some api) (hc : s.cls = .erroneous) :
      Step p s (s.leave i api (.error noClassDefFoundError))
  | native {s i api} (env : Env t) (hi : s.call i = some api) (hc : s.cls = .initialized) :
      Step p s { s.leave i api (api.run env (s.bridge i)).1 with
        bridge := Function.update s.bridge i (api.run env (s.bridge i)).2 }

/-- Any number of steps. -/
abbrev Steps (p : Platform) : Session t ι → Session t ι → Prop := ReflTransGen (Step p)

end Protocol

/-! ## 2. The invariant -/

/-- What the loader's runs say of the calls that came back. -/
def Answered (s : Session t ι) : Prop :=
  match s.loads with
  | [] => s.returned = []
  | [.ok ()] => ∀ r ∈ s.returned, ∃ (env : Env t) (b : BridgeState t),
      r.result = (r.call.run env b).1
  | [.error e] => ∃ first rest, s.returned = rest ++ [first] ∧
      first.result = .error (initError e) ∧ ∀ r ∈ rest, r.result = .error noClassDefFoundError
  | _ => False

/-- How the class and the loader's runs go together. -/
def Tracked (s : Session t ι) : Prop :=
  match s.cls with
  | .uninitialized => s.loads = []
  | .running i => s.loads = [] ∧ ∃ api, s.call i = some api
  | .initialized => s.loads = [.ok ()]
  | .erroneous => ∃ e, s.loads = [.error e]

/-- What every reachable state satisfies. -/
structure Inv [DecidableEq ι] (p : Platform) (s : Session t ι) : Prop where
  tracked : s.Tracked
  ran : ∀ x ∈ s.loads, p.loadNativeLibrary = x
  answered : s.Answered
  idle : s.cls ≠ .initialized → ∀ i, s.bridge i = {}
  settled : ∀ i, Settles {} (s.bridge i)
  counted : s.cls = .initialized → ∀ i,
    (s.bridge i).calls.length = s.returned.countP fun r => r.thread = i

end Session

/-- A public call settles what the C side hands out in it. -/
theorem ApiCall.run_settles (api : ApiCall) (env : Env t) (b : BridgeState t) :
    Settles b (api.run env b).2 := by
  rw [api.run_eq]
  have hentry : Settles b b.atEntry := settles_of_eq rfl rfl
  exact hentry.trans (api.toExport.run_settles env b.atEntry)

/-- It makes one C call. -/
theorem ApiCall.run_calls_length (api : ApiCall) (env : Env t) (b : BridgeState t) :
    (api.run env b).2.calls.length = b.calls.length + 1 := by
  obtain ⟨⟨c, hc, -⟩, -⟩ := api.toExport.run_reads env b.atEntry
  rw [api.run_calls, hc, List.length_append]
  rfl

namespace Session

variable [DecidableEq ι] {p : Platform} {s s' : Session t ι}

theorem inv_start : Inv p (start t ι) :=
  ⟨rfl, fun _ h => absurd h List.not_mem_nil, rfl, fun _ _ => rfl,
    fun _ => settles_of_eq rfl rfl, fun h => by cases h⟩

/-- Entering a call leaves the initialization alone. -/
theorem inv_enter (h : Inv p s) {i : ι} (api : ApiCall) (hi : s.call i = none) :
    Inv p { s with call := Function.update s.call i (some api) } := by
  refine ⟨?_, h.ran, h.answered, h.idle, h.settled, h.counted⟩
  have ht := h.tracked
  unfold Tracked at ht ⊢
  cases hc : s.cls with
  | running j =>
    rw [hc] at ht
    obtain ⟨hl, api', hj⟩ := ht
    have hne : j ≠ i := fun e => by rw [e, hi] at hj; cases hj
    exact ⟨hl, api', (Function.update_of_ne hne ..).trans hj⟩
  | _ =>
    rw [hc] at ht
    exact ht

theorem inv_begin (h : Inv p s) {i : ι} {api : ApiCall} (hi : s.call i = some api)
    (hc : s.cls = .uninitialized) : Inv p { s with cls := .running i } := by
  have ht := h.tracked
  rw [Tracked, hc] at ht
  exact ⟨⟨ht, api, hi⟩, h.ran, h.answered, fun _ => h.idle (by simp [hc]), h.settled,
    fun e => by cases e⟩

/-- While the loader runs nothing has come back yet. -/
theorem Inv.running (h : Inv p s) {i : ι} (hc : s.cls = .running i) :
    s.loads = [] ∧ s.returned = [] ∧ ∀ j, s.bridge j = {} := by
  have ht := h.tracked
  rw [Tracked, hc] at ht
  have ha := h.answered
  rw [Answered, ht.1] at ha
  exact ⟨ht.1, ha, h.idle (by simp [hc])⟩

theorem inv_load (h : Inv p s) {i : ι} (hc : s.cls = .running i)
    (hload : p.loadNativeLibrary = .ok ()) :
    Inv p { s with cls := .initialized, loads := .ok () :: s.loads } := by
  obtain ⟨hl, hr, hb⟩ := h.running hc
  refine ⟨?_, ?_, ?_, fun hne => absurd rfl hne, h.settled, fun _ j => ?_⟩
  · show (.ok () :: s.loads) = [.ok ()]
    rw [hl]
  · simpa [hl] using hload
  · simp only [Answered, hl, hr]
    exact fun r hm => absurd hm List.not_mem_nil
  · show (s.bridge j).calls.length = s.returned.countP _
    rw [hb, hr]
    rfl

theorem inv_fail (h : Inv p s) {i : ι} (api : ApiCall) {e : Throwable} (hc : s.cls = .running i)
    (hload : p.loadNativeLibrary = .error e) :
    Inv p { s.leave i api (.error (initError e)) with
      cls := .erroneous, loads := .error e :: s.loads } := by
  obtain ⟨hl, hr, hb⟩ := h.running hc
  refine ⟨⟨e, ?_⟩, ?_, ?_, fun _ => hb, h.settled, fun e => by cases e⟩
  · show (.error e :: s.loads) = [.error e]
    rw [hl]
  · simpa [hl] using hload
  · simp only [Answered, hl, leave, hr]
    exact ⟨⟨i, api, .error (initError e)⟩, [], rfl, rfl, fun r hm => absurd hm List.not_mem_nil⟩

theorem inv_refuse (h : Inv p s) {i : ι} (api : ApiCall) (hc : s.cls = .erroneous) :
    Inv p (s.leave i api (.error noClassDefFoundError)) := by
  have ht := h.tracked
  rw [Tracked, hc] at ht
  obtain ⟨e, hl⟩ := ht
  have ha := h.answered
  rw [Answered, hl] at ha
  obtain ⟨first, rest, hr, hfirst, hrest⟩ := ha
  refine ⟨?_, h.ran, ?_, h.idle, h.settled, fun e => ?_⟩
  · simp only [Tracked, leave, hc]
    exact ⟨e, hl⟩
  · simp only [Answered, leave, hl]
    refine ⟨first, ⟨i, api, .error noClassDefFoundError⟩ :: rest, by rw [hr]; rfl, hfirst, ?_⟩
    intro r hm
    rcases List.mem_cons.mp hm with rfl | hm
    · rfl
    · exact hrest r hm
  · have hcls : s.cls = .initialized := e
    rw [hc] at hcls
    cases hcls

theorem inv_native (h : Inv p s) {i : ι} (api : ApiCall) (env : Env t) (hc : s.cls = .initialized) :
    Inv p { s.leave i api (api.run env (s.bridge i)).1 with
      bridge := Function.update s.bridge i (api.run env (s.bridge i)).2 } := by
  have hl : s.loads = [.ok ()] := by
    have ht := h.tracked
    rwa [Tracked, hc] at ht
  have ha := h.answered
  rw [Answered, hl] at ha
  refine ⟨?_, h.ran, ?_, fun hne => absurd hc hne, ?_, fun _ j => ?_⟩
  · simp only [Tracked, leave, hc]
    exact hl
  · simp only [Answered, leave, hl]
    intro r hm
    rcases List.mem_cons.mp hm with rfl | hm
    · exact ⟨env, s.bridge i, rfl⟩
    · exact ha r hm
  · intro j
    by_cases hj : j = i
    · subst hj
      simp only [Function.update_self]
      exact (h.settled j).trans (api.run_settles env _)
    · simp only [Function.update_of_ne hj]
      exact h.settled j
  · have hcount := h.counted hc j
    by_cases hj : j = i
    · subst hj
      simp only [leave, Function.update_self, List.countP_cons_of_pos, decide_true]
      rw [api.run_calls_length, hcount]
    · have hne : i ≠ j := fun e => hj e.symm
      simp only [leave, Function.update_of_ne hj, List.countP_cons, hne, decide_false]
      exact hcount

/-- **The step lemma.** -/
theorem step_inv (h : Inv p s) (hs : Step p s s') : Inv p s' := by
  cases hs with
  | enter api hi => exact inv_enter h api hi
  | begin hi hc => exact inv_begin h hi hc
  | load hc hl => exact inv_load h hc hl
  | fail hi hc hl => exact inv_fail h _ hc hl
  | refuse hi hc => exact inv_refuse h _ hc
  | native env hi hc => exact inv_native h _ env hc

/-- **The run lemma.** -/
theorem steps_inv (h : Inv p s) (hs : Steps p s s') : Inv p s' := by
  induction hs with
  | refl => exact h
  | tail _ hstep ih => exact step_inv ih hstep

/-! ## 3. Nobody waits forever -/

/-- The thread's call has come back, the last one to do so. -/
def CameBack (s : Session t ι) (i : ι) (api : ApiCall) : Prop :=
  ∃ result, s.returned.head? = some ⟨i, api, result⟩

theorem cameBack_initialized {i : ι} {api : ApiCall} (hi : s.call i = some api)
    (hc : s.cls = .initialized) : ∃ s', Steps p s s' ∧ CameBack s' i api :=
  ⟨_, .single (.native (.answering t (.null 0)) hi hc), _, rfl⟩

theorem cameBack_erroneous {i : ι} {api : ApiCall} (hi : s.call i = some api)
    (hc : s.cls = .erroneous) : ∃ s', Steps p s s' ∧ CameBack s' i api :=
  ⟨_, .single (.refuse hi hc), _, rfl⟩

/-- The thread that runs the loader comes to an end, and lets the others go on. -/
theorem cameBack_running (h : Inv p s) {i j : ι} {api : ApiCall}
    (hi : s.call i = some api) (hc : s.cls = .running j) :
    ∃ s', Steps p s s' ∧ CameBack s' i api := by
  cases hl : p.loadNativeLibrary with
  | ok u =>
    have h₁ : Step p s _ := .load hc hl
    obtain ⟨s', hs, hback⟩ := cameBack_initialized (s := { s with
      cls := .initialized, loads := .ok () :: s.loads }) hi rfl
    exact ⟨s', (ReflTransGen.single h₁).trans hs, hback⟩
  | error e =>
    have ht := h.tracked
    rw [Tracked, hc] at ht
    obtain ⟨-, api', hj⟩ := ht
    have h₁ : Step p s _ := .fail hj hc hl
    by_cases hij : i = j
    · subst hij
      rw [hi] at hj
      cases hj
      exact ⟨_, .single h₁, _, rfl⟩
    · have hi' : (Function.update s.call j none) i = some api :=
        (Function.update_of_ne hij ..).trans hi
      obtain ⟨s', hs, hback⟩ := cameBack_erroneous
        (s := { s.leave j api' (.error (initError e)) with
          cls := .erroneous, loads := .error e :: s.loads }) hi' rfl
      exact ⟨s', (ReflTransGen.single h₁).trans hs, hback⟩

/-- **Every call can come back**, however the loader ends. -/
theorem exists_cameBack (h : Inv p s) {i : ι} {api : ApiCall}
    (hi : s.call i = some api) : ∃ s', Steps p s s' ∧ CameBack s' i api := by
  cases hc : s.cls with
  | uninitialized =>
    have h₁ : Step p s { s with cls := .running i } := .begin hi hc
    obtain ⟨s', hs, hback⟩ := cameBack_running (step_inv h h₁) (j := i) hi rfl
    exact ⟨s', (ReflTransGen.single h₁).trans hs, hback⟩
  | running j => exact cameBack_running h hi hc
  | initialized => exact cameBack_initialized hi hc
  | erroneous => exact cameBack_erroneous hi hc

/-! ## 4. The life of a process -/

/-- **The native library over every run of any number of threads.** The loader runs at most
    once. Unless it succeeded no C call is ever made: the first call to come back carries its
    error and every other one is refused. If it succeeded each call comes back with what its
    function makes of one C call, and all that C handed out is freed again. And a call that is
    waiting can always come back. -/
theorem session_loads_once (p : Platform) (h : Steps p (start t ι) s) :
    (s.loads = [] ∨ s.loads = [p.loadNativeLibrary]) ∧ s.Answered ∧
    (s.loads ≠ [.ok ()] → ∀ i, (s.bridge i).calls = []) ∧
    (s.loads = [.ok ()] → ∀ i,
      (s.bridge i).calls.length = s.returned.countP fun r => r.thread = i) ∧
    (∀ i, ∃ b, Ledger.run Ledger.empty (s.bridge i).ops = some b ∧
      ∀ n k, b n ≠ some (k, .live)) ∧
    ∀ i api, s.call i = some api → ∃ s', Steps p s s' ∧ CameBack s' i api := by
  have hinv := steps_inv inv_start h
  have ht := hinv.tracked
  refine ⟨?_, hinv.answered, ?_, ?_, ?_, fun i api hi => exists_cameBack hinv hi⟩
  · have hran := hinv.ran
    unfold Tracked at ht
    split at ht
    · exact Or.inl ht
    · exact Or.inl ht.1
    · rw [ht] at hran ⊢
      exact Or.inr (congrArg (fun x => [x]) (hran _ List.mem_cons_self).symm)
    · obtain ⟨e, hl⟩ := ht
      rw [hl] at hran ⊢
      exact Or.inr (congrArg (fun x => [x]) (hran _ List.mem_cons_self).symm)
  · intro hl i
    have hc : s.cls ≠ .initialized := fun hc => by
      rw [Tracked, hc] at ht
      exact hl ht
    rw [hinv.idle hc i]
  · intro hl i
    apply hinv.counted
    unfold Tracked at ht
    split at ht
    · rw [hl] at ht
      cases ht
    · rw [hl] at ht
      cases ht.1
    · assumption
    · obtain ⟨e, he⟩ := ht
      rw [hl] at he
      cases he
  · intro i
    obtain ⟨block, ho, hb⟩ := hinv.settled i
    rw [ho]
    exact Ledger.closed_run hb

/-- A machine without the library. -/
def withoutLibrary : Platform :=
  { Platform.foreignResource with
    getResourceAsStream := fun _ => none
    loadLibrary := fun name => .error ("no " ++ name ++ " in java.library.path") }

/-- There two calls fail, and none reaches C. -/
theorem session_loads_once_absent :
    ∃ s : Session .w64 Unit, Steps withoutLibrary (start .w64 Unit) s ∧ s.returned.length = 2 ∧
      (s.bridge ()).calls = [] := by
  have hl : withoutLibrary.loadNativeLibrary = .error (.UnsatisfiedLinkError
      (withoutLibrary.notFoundMessage "no onym_sdk_jni in java.library.path")) := by
    rw [Platform.loadNativeLibrary_absent rfl]
    rfl
  let api : ApiCall := .oneOnOneBakeCreateVK
  have h₁ := ReflTransGen.refl.tail
    (Step.enter (p := withoutLibrary) (s := start .w64 Unit) (i := ()) api rfl)
  have h₂ := h₁.tail (.begin (i := ()) rfl rfl)
  have h₃ := h₂.tail (.fail (i := ()) rfl rfl hl)
  have h₄ := h₃.tail (.enter (i := ()) api rfl)
  have h₅ := h₄.tail (.refuse (i := ()) rfl rfl)
  refine ⟨_, h₅, rfl, (session_loads_once withoutLibrary h₅).2.2.1 ?_ ()⟩
  exact fun e => by cases e

end Session

end OnymSdk
