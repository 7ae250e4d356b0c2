/-
  File:      OnymSdk/TempFiles.lean
  Subject:   THE EXTRACTED LIBRARIES ON DISK, over every run.

  * `inv_step`, `inv_steps` -- the invariant holds in every reachable state;
  * `exists_exited` -- an exit that has begun can come to its end;
  * `temp_files` -- **what is loaded is what was bundled, as the loader alone would do
    it; other directories are left alone; and a process that exits leaves nothing**.
-/
import OnymSdk.TempFiles.Runs
import OnymSdk.TempFiles.Exit

namespace OnymSdk

open Relation ScratchDisk

variable {ι κ : Type}

namespace Loaders

section Runs

variable {L : Loaders ι κ} {s s' : Temp ι κ} [DecidableEq ι] [DecidableEq κ]

/-- The step lemma. -/
theorem inv_step (h : L.Inv s) (hs : L.Step s s') : L.Inv s' := by
  cases hs with
  | @tierTwo i hooks r hi hk hr hl =>
    refine inv_idle h hi ?_
    rw [Platform.loadNativeLibrary_absent hr, ← hl]
    cases (L.platform i).loadLibrary "onym_sdk_jni" <;> rfl
  | noDir hi hk hr hm =>
    refine inv_idle h hi ?_
    rw [Platform.loadNativeLibrary_present hr, Platform.extract_noDir hm]
  | makeDir hi hk hr hm hd => exact inv_makeDir h hi hk hr hm hd
  | hookDir hi hk => exact inv_hookDir h hi hk
  | hookFile hi hk => exact inv_hookFile h hi hk
  | openFile hi hk => exact inv_openFile h hi hk
  | @noFile i hooks d m hi hk hc =>
    have hf := h.fact i
    rw [hi] at hf
    have hheld : L.holds i (s.loading i) = some (d, []) := by rw [hi]; rfl
    exact inv_settled h hk hheld (fun d' e => by rw [hi] at e; cases e) trivial
      (answer_noCopy hf.1 hf.2 hc) fun x e => by cases e
  | chunk m hi hk hm => exact inv_chunk h m hi hk
  | @noCopy i hooks d n m hi hk hc =>
    have hf := h.fact i
    rw [hi] at hf
    exact inv_settled h hk (d := d) (by rw [hi]; rfl) (fun d' e => by rw [hi] at e; cases e)
      trivial (answer_noCopy hf.1 hf.2 hc) fun x e => by cases e
  | @close i hooks d n hi hk hn hc =>
    have hf := h.fact i
    rw [hi] at hf
    have hx : (L.platform i).extract (L.bytes i) = .ok (L.file i d) := by
      rw [file, name] at hc ⊢
      rw [Platform.extract_dir hf.2, hc]
    have hheld : L.holds i (s.loading i) = some (d, [(L.name i, L.bytes i)]) := by
      rw [hi, holds, hn, List.take_length]
    exact inv_settled h hk hheld (fun d' e => by rw [hi] at e; cases e) trivial ⟨hx, hf.1⟩
      fun x e => by cases e; rfl
  | @load i hooks d bytes r hi hk hb hl =>
    have hf := h.fact i
    rw [hi] at hf
    have hheld : L.holds i (s.loading i) = some (d, [(L.name i, L.bytes i)]) := by rw [hi]; rfl
    -- the file read back is the one written
    have hread := Disk.read_of_file (h.entry i hooks d _ hk hheld)
    obtain rfl : bytes = L.bytes i := Option.some.inj (hb.symm.trans hread)
    have hanswer : L.Fact i (.finished (some d) r) := (answer_load hf.2 hf.1).trans hl
    refine inv_settled h hk hheld (fun d' e => by rw [hi] at e; cases e) trivial hanswer
      fun x e => ?_
    cases r with
    | ok u =>
      cases e
      rfl
    | error _ => cases e
  | exit hk hrest => exact inv_ended h (ends_exit h hk hrest)
  | @delete k x rest hk =>
    cases x with
    | dir d => exact inv_ended h (ends_rmdir h hk)
    | file d name => exact inv_ended h (ends_unlink h hk)
  | refused hk he hi => exact inv_ended h (ends_refused h hk he hi)
  | halt hk => exact inv_ended h (ends_halt h hk)
  | kill hk => exact inv_ended h ends_kill
  | other hd x => exact inv_other h hd x

/-- The run lemma. -/
theorem inv_steps {theirs : String → Option DirFiles} (h : L.Steps (Temp.start theirs) s) :
    L.Inv s := by
  induction h with
  | refl => exact inv_start theirs
  | tail _ hs ih => exact inv_step ih hs

/-- An exit that has begun can come to its end. -/
theorem exists_exited {k : κ} {hooks : List Hook} (hk : s.life k = .exiting hooks) :
    ∃ s', L.Steps s s' ∧ s'.life k = .exited := by
  induction hooks generalizing s with
  | nil => exact ⟨_, .single (.halt hk), live_life _⟩
  | cons x rest ih =>
    obtain ⟨s', hs, hk'⟩ := ih (s := { s.live k (.exiting rest) with disk := s.disk.delete x })
      (live_life _)
    exact ⟨s', .head (.delete hk) hs, hk'⟩

/-- **The extracted libraries.** However any number of runs of the loader, in any number of
    processes, go on beside each other and beside other programs: a run ends as the loader does
    that meets the disk alone; while its process runs, the file that a run has loaded, or is about
    to, is in a directory of its own and holds the bundled bytes; what other programs have on the
    disk is as they left it; a process that exits leaves nothing, unless the system refuses to
    delete a loaded library; and an exit that has begun can come to its end. -/
theorem temp_files {theirs : String → Option DirFiles} (h : L.Steps (Temp.start theirs) s) :
    (∀ i d r, s.loading i = .finished d r → (L.platform i).loadNativeLibrary = r) ∧
      (∀ i hooks d, s.life (L.jvm i) = .running hooks →
        s.loading i = .copied d ∨ s.loading i = .finished (some d) (.ok ()) →
        s.disk d = some ⟨some i, [(L.name i, L.bytes i)]⟩) ∧
      (∀ d files, s.disk d = some ⟨none, files⟩ ↔ s.theirs d = some files) ∧
      (∀ d i files, s.disk d = some ⟨some i, files⟩ → s.life (L.jvm i) = .exited →
        L.Refused s i d) ∧
      ∀ k hooks, s.life k = .exiting hooks → ∃ s', L.Steps s s' ∧ s'.life k = .exited := by
  have hinv := inv_steps h
  refine ⟨fun i d r hi => ?_, fun i hooks d hk hi => ?_, fun d files => (hinv.theirs d files).symm,
    fun d i files e hk => ?_, fun k hooks hk => exists_exited hk⟩
  · have hf := hinv.fact i
    rwa [hi] at hf
  · refine hinv.entry i hooks d _ hk ?_
    rcases hi with hi | hi
    · rw [hi]
      rfl
    · rw [hi]
      rfl
  · have hkept := hinv.kept d i files e
    rwa [Kept, hk] at hkept

end Runs

/-- A process with a bundled library that loads, on a system that deletes loaded files. -/
def bundledOnly : Loaders Unit Unit where
  jvm := id
  platform _ := { Platform.foreignResource with load := fun _ _ => .ok () }
  locks := false

/-- It loads its library and exits, beside another program's directory: then that one is left. -/
theorem temp_files_exit : ∃ s : Temp Unit Unit,
    bundledOnly.Steps (Temp.start fun d => if d = "/tmp/other" then some [] else none) s ∧
      s.life () = .exited ∧ (∀ d files, s.disk d ≠ some ⟨some (), files⟩) ∧
      s.disk "/tmp/other" = some ⟨none, []⟩ := by
  have hr : bundledOnly.resource () = some [0xCF, 0xFA, 0xED, 0xFE] := by decide
  have hb : bundledOnly.bytes () = [0xCF, 0xFA, 0xED, 0xFE] := by rw [bytes, hr]; rfl
  have hr' : bundledOnly.resource () = some (bundledOnly.bytes ()) := by rw [hr, hb]
  have hlen : (bundledOnly.bytes ()).length = 4 := by rw [hb]; rfl
  let s₀ : Temp Unit Unit := Temp.start fun d => if d = "/tmp/other" then some [] else none
  have h₁ : bundledOnly.Steps s₀ _ := .single
    (.makeDir (i := ()) (d := "/tmp/onym-sdk-jni-1") rfl rfl hr' rfl (by decide))
  have h₂ := h₁.tail (.hookDir (i := ()) rfl rfl)
  have h₃ := h₂.tail (.hookFile (i := ()) rfl rfl)
  have h₄ := h₃.tail (.openFile (i := ()) rfl rfl)
  have h₅ := h₄.tail (.chunk 4 (i := ()) rfl rfl (by rw [hlen]))
  have h₆ := h₅.tail (.close (i := ()) rfl rfl (by rw [hlen]) rfl)
  have hread := Disk.read_of_file
    ((inv_steps h₆).entry () _ "/tmp/onym-sdk-jni-1" [(_, bundledOnly.bytes ())] rfl rfl)
  have h₇ := h₆.tail (.load (i := ()) rfl rfl hread rfl)
  have h₈ := h₇.tail (.exit (k := ()) rfl fun _ _ => trivial)
  have h₉ := (h₈.tail (.delete (k := ()) rfl)).tail (.delete (k := ()) rfl)
  have h := h₉.tail (.halt (k := ()) rfl)
  obtain ⟨-, -, htheirs, hleft, -⟩ := temp_files h
  refine ⟨_, h, rfl, fun d files e => ?_, (htheirs _ _).mpr rfl⟩
  cases (hleft d () files e rfl).1

end Loaders

end OnymSdk
