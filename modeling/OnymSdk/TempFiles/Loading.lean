/-
  File:      OnymSdk/TempFiles/Loading.lean
  Subject:   THE LOADER AND ITS TEMPORARY FILES: `createTempLibFile`, from extraction
             to exit.

  Any number of processes extract and load the library through one temporary
  directory, step by step and in any order, beside programs that know nothing of
  them. `deleteOnExit` deletes in the reverse order of its calls, and a directory
  only when it is empty.

  * `Loading`, `Life`, `Loaders.Step` -- the loader statement by statement, and the life
    of the processes it runs in;
  * `Loaders.Inv` -- what every reachable state satisfies.
-/
import OnymSdk.Lib.ScratchDisk
import OnymSdk.Loader
import Mathlib.Logic.Relation

namespace OnymSdk

open Relation ScratchDisk

variable {ι κ : Type}

/-! ## 1. Loaders and processes -/

/-- Where a run of `loadNativeLibrary` stands: after `createTempDirectory`, after each of the two
    calls of `deleteOnExit`, in and after the copy, and at its end. -/
inductive Loading where
  | idle
  | made (d : String)
  | hooked (d : String)
  | ready (d : String)
  | copying (d : String) (n : Nat)
  | copied (d : String)
  | finished (d : Option String) (r : Except Throwable Unit)

/-- Is it done, or not begun? -/
def Loading.atRest : Loading → Prop
  | .idle | .finished _ _ => True
  | _ => False

/-- Is the copy made, or the run over? -/
def Loading.settled : Loading → Prop
  | .copied _ | .finished _ _ => True
  | _ => False

/-- A process, with what is to be deleted at its exit, the last call first. -/
inductive Life where
  | running (hooks : List Hook)
  | exiting (hooks : List Hook)
  | exited
  | killed

def Life.hooks : Life → List Hook
  | .running hooks | .exiting hooks => hooks
  | .exited | .killed => []

/-- The runs of the loader: in which process each is, what it meets there, and whether the
    system refuses to delete a library that is loaded. -/
structure Loaders (ι κ : Type) where
  jvm : ι → κ
  platform : ι → Platform
  locks : Bool

/-- The disk, what the other programs have on it, the runs and the processes. -/
structure Temp (ι κ : Type) where
  disk : Disk ι
  theirs : String → Option DirFiles
  loading : ι → Loading
  life : κ → Life

/-- Before the first run. -/
def Temp.start (theirs : String → Option DirFiles) : Temp ι κ :=
  ⟨fun d => (theirs d).map fun files => ⟨none, files⟩, theirs, fun _ => .idle,
    fun _ => .running []⟩

namespace Loaders

variable (L : Loaders ι κ)

def resource (i : ι) : Option (List UInt8) :=
  (L.platform i).getResourceAsStream (L.platform i).resourcePath

/-- The bundled bytes. -/
def bytes (i : ι) : List UInt8 := (L.resource i).getD []

def name (i : ι) : String := (L.platform i).libName

def file (i : ι) (d : String) : String := (L.platform i).resolve d (L.name i)

/-- A refused deletion: the library is loaded. -/
def Refused (s : Temp ι κ) (i : ι) (d : String) : Prop :=
  L.locks = true ∧ s.loading i = .finished (some d) (.ok ())

end Loaders

section Protocol

variable [DecidableEq ι] [DecidableEq κ]

/-- A run goes on. -/
def Temp.move (s : Temp ι κ) (i : ι) (l : Loading) : Temp ι κ :=
  { s with loading := Function.update s.loading i l }

def Temp.live (s : Temp ι κ) (k : κ) (l : Life) : Temp ι κ :=
  { s with life := Function.update s.life k l }

/-- One step: of a run, which only goes on while its process runs; of a process; or of another
    program. A process exits while no thread of it is in the loader, and may be killed at any
    time. -/
inductive Loaders.Step (L : Loaders ι κ) : Temp ι κ → Temp ι κ → Prop where
  | tierTwo {s i hooks r} (hi : s.loading i = .idle) (hk : s.life (L.jvm i) = .running hooks)
      (hr : L.resource i = none)
      (hl : ((L.platform i).loadLibrary "onym_sdk_jni").mapError
        (fun m => .UnsatisfiedLinkError ((L.platform i).notFoundMessage m)) = r) :
      L.Step s (s.move i (.finished none r))
  | noDir {s i hooks m} (hi : s.loading i = .idle) (hk : s.life (L.jvm i) = .running hooks)
      (hr : L.resource i = some (L.bytes i))
      (hm : (L.platform i).createTempDirectory "onym-sdk-jni-" = .error m) :
      L.Step s (s.move i (.finished none (.error (.IOException m))))
  | makeDir {s i hooks d} (hi : s.loading i = .idle) (hk : s.life (L.jvm i) = .running hooks)
      (hr : L.resource i = some (L.bytes i))
      (hm : (L.platform i).createTempDirectory "onym-sdk-jni-" = .ok d)
      (hd : s.disk d = none) :
      L.Step s { s.move i (.made d) with disk := Function.update s.disk d (some ⟨some i, []⟩) }
  | hookDir {s i hooks d} (hi : s.loading i = .made d)
      (hk : s.life (L.jvm i) = .running hooks) :
      L.Step s ((s.move i (.hooked d)).live (L.jvm i) (.running (.dir d :: hooks)))
  | hookFile {s i hooks d} (hi : s.loading i = .hooked d)
      (hk : s.life (L.jvm i) = .running hooks) :
      L.Step s ((s.move i (.ready d)).live (L.jvm i) (.running (.file d (L.name i) :: hooks)))
  | openFile {s i hooks d} (hi : s.loading i = .ready d)
      (hk : s.life (L.jvm i) = .running hooks) :
      L.Step s { s.move i (.copying d 0) with disk := s.disk.create d (L.name i) }
  | noFile {s i hooks d m} (hi : s.loading i = .ready d)
      (hk : s.life (L.jvm i) = .running hooks)
      (hc : (L.platform i).copyTo (L.file i d) (L.bytes i) = .error m) :
      L.Step s (s.move i (.finished (some d) (.error (.IOException m))))
  | chunk {s i hooks d n} (m : Nat) (hi : s.loading i = .copying d n)
      (hk : s.life (L.jvm i) = .running hooks) (hm : n + m ≤ (L.bytes i).length) :
      L.Step s { s.move i (.copying d (n + m)) with
        disk := s.disk.append d (L.name i) (((L.bytes i).drop n).take m) }
  | noCopy {s i hooks d n m} (hi : s.loading i = .copying d n)
      (hk : s.life (L.jvm i) = .running hooks)
      (hc : (L.platform i).copyTo (L.file i d) (L.bytes i) = .error m) :
      L.Step s (s.move i (.finished (some d) (.error (.IOException m))))
  | close {s i hooks d n} (hi : s.loading i = .copying d n)
      (hk : s.life (L.jvm i) = .running hooks) (hn : n = (L.bytes i).length)
      (hc : (L.platform i).copyTo (L.file i d) (L.bytes i) = .ok ()) :
      L.Step s (s.move i (.copied d))
  | load {s i hooks d bytes r} (hi : s.loading i = .copied d)
      (hk : s.life (L.jvm i) = .running hooks) (hb : s.disk.read d (L.name i) = some bytes)
      (hl : ((L.platform i).load (L.file i d) bytes).mapError .UnsatisfiedLinkError = r) :
      L.Step s (s.move i (.finished (some d) r))
  | exit {s k hooks} (hk : s.life k = .running hooks)
      (hrest : ∀ i, L.jvm i = k → (s.loading i).atRest) :
      L.Step s (s.live k (.exiting hooks))
  | delete {s k x rest} (hk : s.life k = .exiting (x :: rest)) :
      L.Step s { s.live k (.exiting rest) with disk := s.disk.delete x }
  | refused {s k i d name files rest} (hk : s.life k = .exiting (.file d name :: rest))
      (he : s.disk d = some ⟨some i, files⟩) (hi : L.Refused s i d) :
      L.Step s (s.live k (.exiting rest))
  | halt {s k} (hk : s.life k = .exiting []) : L.Step s (s.live k .exited)
  | kill {s k} (hk : s.life k ≠ .exited) : L.Step s (s.live k .killed)
  | other {s d} (hd : ∀ e, s.disk d = some e → e.maker = none) (x : Option DirFiles) :
      L.Step s { s with
        disk := Function.update s.disk d (x.map fun files => ⟨none, files⟩)
        theirs := Function.update s.theirs d x }

/-- Any number of steps. -/
abbrev Loaders.Steps (L : Loaders ι κ) : Temp ι κ → Temp ι κ → Prop := ReflTransGen L.Step

end Protocol

/-! ## 2. The invariant -/

namespace Loaders

variable (L : Loaders ι κ)

/-- What a run has met so far. -/
def Fact (i : ι) : Loading → Prop
  | .idle => True
  | .made d | .hooked d | .ready d | .copying d _ =>
    L.resource i = some (L.bytes i) ∧
      (L.platform i).createTempDirectory "onym-sdk-jni-" = .ok d
  | .copied d => (L.platform i).extract (L.bytes i) = .ok (L.file i d) ∧
      L.resource i = some (L.bytes i)
  | .finished _ r => (L.platform i).loadNativeLibrary = r

/-- The directory of a run, and what is in it, as long as the run has not failed. -/
def holds (i : ι) : Loading → Option (String × DirFiles)
  | .made d | .hooked d | .ready d => some (d, [])
  | .copying d n => some (d, [(L.name i, (L.bytes i).take n)])
  | .copied d | .finished (some d) (.ok ()) => some (d, [(L.name i, L.bytes i)])
  | .idle | .finished _ _ => none

/-- Why a directory is still there. -/
def Kept (s : Temp ι κ) (i : ι) (d : String) : Prop :=
  match s.life (L.jvm i) with
  | .running hooks => s.loading i = .made d ∨ .dir d ∈ hooks
  | .exiting hooks => .dir d ∈ hooks ∨ L.Refused s i d
  | .exited => L.Refused s i d
  | .killed => True

/-- Why a file is still there. -/
def KeptFile (s : Temp ι κ) (i : ι) (d : String) : Prop :=
  match s.life (L.jvm i) with
  | .running hooks => .file d (L.name i) ∈ hooks
  | .exiting hooks => .file d (L.name i) ∈ hooks ∨ L.Refused s i d
  | .exited | .killed => True

/-- After the hook of a directory there is none about it: it was called for first. -/
def Ordered (hooks : List Hook) : Prop :=
  hooks.Pairwise fun x y => ∀ d, x = .dir d → y.path ≠ d

/-- What every reachable state satisfies. -/
structure Inv (s : Temp ι κ) : Prop where
  fact : ∀ i, L.Fact i (s.loading i)
  entry : ∀ i hooks d files, s.life (L.jvm i) = .running hooks →
    L.holds i (s.loading i) = some (d, files) → s.disk d = some ⟨some i, files⟩
  hook : ∀ k, ∀ x ∈ (s.life k).hooks, ∃ i files, L.jvm i = k ∧
    s.disk x.path = some ⟨some i, files⟩ ∧ s.loading i ≠ .made x.path
  ordered : ∀ k, Ordered (s.life k).hooks
  kept : ∀ d i files, s.disk d = some ⟨some i, files⟩ → L.Kept s i d
  keptFile : ∀ d i files, s.disk d = some ⟨some i, files⟩ →
    ∀ f ∈ files, f.1 = L.name i ∧ L.KeptFile s i d
  ready : ∀ i hooks d, s.life (L.jvm i) = .running hooks → s.loading i = .ready d →
    .file d (L.name i) ∈ hooks
  theirs : ∀ d files, s.theirs d = some files ↔ s.disk d = some ⟨none, files⟩

section Steps

variable {L} {s s' : Temp ι κ}

theorem kept_congr {i : ι} {d : String} (hlife : s'.life (L.jvm i) = s.life (L.jvm i))
    (hload : s'.loading i = s.loading i) : L.Kept s' i d ↔ L.Kept s i d := by
  unfold Kept Refused
  rw [hlife, hload]

theorem keptFile_congr {i : ι} {d : String} (hlife : s'.life (L.jvm i) = s.life (L.jvm i))
    (hload : s'.loading i = s.loading i) : L.KeptFile s' i d ↔ L.KeptFile s i d := by
  unfold KeptFile Refused
  rw [hlife, hload]

theorem inv_start (theirs : String → Option DirFiles) : L.Inv (Temp.start theirs) := by
  have hnone : ∀ d i files, (Temp.start theirs : Temp ι κ).disk d ≠ some ⟨some i, files⟩ := by
    intro d i files e
    obtain ⟨_, -, hx⟩ := Option.map_eq_some_iff.mp e
    cases hx
  refine ⟨fun _ => trivial, fun _ _ _ _ _ e => (by cases e),
    fun _ _ hx => absurd hx List.not_mem_nil,
    fun _ => List.Pairwise.nil, fun d i files e => absurd e (hnone d i files),
    fun d i files e => absurd e (hnone d i files), fun _ _ _ _ e => (by cases e),
    fun d files => ?_⟩
  constructor
  · intro e
    show (theirs d).map _ = _
    rw [show theirs d = some files from e]
    rfl
  · intro e
    obtain ⟨_, hd, hx⟩ := Option.map_eq_some_iff.mp e
    cases hx
    exact hd

/-- Another program changes what is its own. -/
theorem inv_other (h : L.Inv s) {d : String} (hd : ∀ e, s.disk d = some e → e.maker = none)
    (x : Option DirFiles) : L.Inv { s with
      disk := Function.update s.disk d (x.map fun files => ⟨none, files⟩)
      theirs := Function.update s.theirs d x } := by
  have hne : ∀ d' i files, s.disk d' = some ⟨some i, files⟩ → d' ≠ d := by
    intro d' i files e hdd
    subst hdd
    cases hd _ e
  have hback : ∀ d' i files, Function.update s.disk d (x.map fun files => ⟨none, files⟩) d' =
      some ⟨some i, files⟩ → s.disk d' = some ⟨some i, files⟩ := by
    intro d' i files e
    by_cases hdd : d' = d
    · subst hdd
      rw [Function.update_self] at e
      obtain ⟨_, -, hx⟩ := Option.map_eq_some_iff.mp e
      cases hx
    · rwa [Function.update_of_ne hdd] at e
  refine ⟨h.fact, fun i hooks d' files hk hf => ?_, fun k y hy => ?_, h.ordered,
    fun d' i files e => h.kept d' i files (hback d' i files e),
    fun d' i files e => h.keptFile d' i files (hback d' i files e), h.ready, fun d' files => ?_⟩
  · have e := h.entry i hooks d' files hk hf
    exact (Function.update_of_ne (hne _ _ _ e) ..).trans e
  · obtain ⟨i, files, hi, e, hmade⟩ := h.hook k y hy
    exact ⟨i, files, hi, (Function.update_of_ne (hne _ _ _ e) ..).trans e, hmade⟩
  · show Function.update s.theirs d x d' = _ ↔ Function.update s.disk d _ d' = _
    by_cases hdd : d' = d
    · subst hdd
      rw [Function.update_self, Function.update_self]
      cases x with
      | none => exact iff_of_false (fun e => by cases e) (fun e => by cases e)
      | some f =>
        rw [Option.map_some, Option.some.injEq, Option.some.injEq, Entry.mk.injEq]
        exact (and_iff_right rfl).symm
    · rw [Function.update_of_ne hdd, Function.update_of_ne hdd]
      exact h.theirs d' files

end Steps

end Loaders

end OnymSdk
