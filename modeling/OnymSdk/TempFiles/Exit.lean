/-
  File:      OnymSdk/TempFiles/Exit.lean
  Subject:   WHAT THE END OF A PROCESS DOES to its temporary files.

  * `Ends`, `inv_ended` -- what changes the directories of one ended process only keeps
    the invariant;
  * `ends_delete`, `ends_rmdir`, `ends_unlink` -- the deletions, one call after the other;
  * `ends_exit`, `ends_refused`, `ends_halt`, `ends_kill` -- the rest of its end.
-/
import OnymSdk.TempFiles.Loading

namespace OnymSdk

open ScratchDisk

variable {ι κ : Type}

namespace Loaders

variable {L : Loaders ι κ} {s : Temp ι κ}

/-! ## 1. The end of a process -/

/-- The disk changes in directories of the process only, and a directory goes only when no call
    for it is left. -/
def Mine (L : Loaders ι κ) (s : Temp ι κ) (k : κ) (hooks : List Hook) (disk : Disk ι) : Prop :=
  ∀ d, disk d = s.disk d ∨ ∃ i files, L.jvm i = k ∧ s.disk d = some ⟨some i, files⟩ ∧
    ((disk d = none ∧ ∀ x ∈ hooks, x.path ≠ d) ∨
      ∃ files', files' ⊆ files ∧ disk d = some ⟨some i, files'⟩)

/-- What is there was there, with these files at least. -/
theorem Mine.back {k : κ} {hooks : List Hook} {disk : Disk ι} (hm : Mine L s k hooks disk)
    {d : String} {i : ι} {files : DirFiles} (e : disk d = some ⟨some i, files⟩) :
    ∃ files₀, s.disk d = some ⟨some i, files₀⟩ ∧ files ⊆ files₀ := by
  rcases hm d with hd | ⟨j, f, hj, e', ⟨hnone, -⟩ | ⟨f', hsub, hd⟩⟩
  · exact ⟨files, hd ▸ e, fun _ hx => hx⟩
  · rw [hnone] at e
    cases e
  · obtain ⟨hi, rfl⟩ := Entry.mk.inj (Option.some.inj (hd.symm.trans e))
    exact ⟨f, hi ▸ e', hsub⟩

variable [DecidableEq κ]

/-- What the end of a process does. -/
structure Ends (L : Loaders ι κ) (s : Temp ι κ) (k : κ) (l : Life) (disk : Disk ι) : Prop where
  ended : ∀ hooks, l ≠ .running hooks
  calls : l.hooks.Sublist (s.life k).hooks
  mine : Mine L s k l.hooks disk
  kept : ∀ d i files, L.jvm i = k → disk d = some ⟨some i, files⟩ →
    L.Kept (s.live k l) i d ∧ ∀ f ∈ files, f.1 = L.name i → L.KeptFile (s.live k l) i d

/-- It keeps the invariant. -/
theorem inv_ended (h : L.Inv s) {k : κ} {l : Life} {disk : Disk ι} (a : Ends L s k l disk) :
    L.Inv { s.live k l with disk := disk } := by
  have hother : ∀ d i files, L.jvm i ≠ k → s.disk d = some ⟨some i, files⟩ →
      disk d = some ⟨some i, files⟩ := by
    intro d i files hi e
    rcases a.mine d with hd | ⟨j, f, hj, e', -⟩
    · rw [hd, e]
    · obtain ⟨hm, -⟩ := Entry.mk.inj (Option.some.inj (e.symm.trans e'))
      exact absurd ((congrArg L.jvm (Option.some.inj hm)).trans hj) hi
  refine ⟨h.fact, fun i hooks d files hk hf => ?_, fun k' x hx => ?_, fun k' => ?_,
    fun d i files e => ?_, fun d i files e f hf => ?_, fun i hooks d hk hr => ?_,
    fun d files => ?_⟩
  · have hi : L.jvm i ≠ k := by
      intro hi
      subst hi
      exact a.ended hooks ((Function.update_self ..).symm.trans hk)
    exact hother d i files hi
      (h.entry i hooks d files ((Function.update_of_ne hi ..).symm.trans hk) hf)
  · by_cases hk : k' = k
    · subst hk
      have hx : x ∈ l.hooks := by
        rwa [show (s.live k' l).life k' = l from Function.update_self ..] at hx
      obtain ⟨i, files, hi, e, hmade⟩ := h.hook k' x (a.calls.subset hx)
      rcases a.mine x.path with hd | ⟨j, f, hj, e', ⟨-, hno⟩ | ⟨f', -, hd⟩⟩
      · exact ⟨i, files, hi, hd.trans e, hmade⟩
      · exact absurd rfl (hno x hx)
      · obtain ⟨hm, -⟩ := Entry.mk.inj (Option.some.inj (e.symm.trans e'))
        exact ⟨i, f', hi, hd.trans (by rw [hm]), hmade⟩
    · rw [show (s.live k l).life k' = s.life k' from Function.update_of_ne hk ..] at hx
      obtain ⟨i, files, hi, e, hmade⟩ := h.hook k' x hx
      exact ⟨i, files, hi, hother _ i files (fun e' => hk (hi.symm.trans e')) e, hmade⟩
  · by_cases hk : k' = k
    · subst hk
      rw [show (s.live k' l).life k' = l from Function.update_self ..]
      exact (h.ordered k').sublist a.calls
    · rw [show (s.live k l).life k' = s.life k' from Function.update_of_ne hk ..]
      exact h.ordered k'
  · by_cases hi : L.jvm i = k
    · exact (a.kept d i files hi e).1
    · obtain ⟨files₀, e₀, -⟩ := a.mine.back e
      have hlife : (s.live k l).life (L.jvm i) = s.life (L.jvm i) := Function.update_of_ne hi ..
      exact (kept_congr (s := s) hlife rfl).mpr (h.kept d i files₀ e₀)
  · obtain ⟨files₀, e₀, hsub⟩ := a.mine.back e
    obtain ⟨hname, hkept⟩ := h.keptFile d i files₀ e₀ f (hsub hf)
    refine ⟨hname, ?_⟩
    by_cases hi : L.jvm i = k
    · exact (a.kept d i files hi e).2 f hf hname
    · have hlife : (s.live k l).life (L.jvm i) = s.life (L.jvm i) := Function.update_of_ne hi ..
      exact (keptFile_congr (s := s) hlife rfl).mpr hkept
  · have hi : L.jvm i ≠ k := by
      intro hi
      subst hi
      exact a.ended hooks ((Function.update_self ..).symm.trans hk)
    exact h.ready i hooks d ((Function.update_of_ne hi ..).symm.trans hk) hr
  · show s.theirs d = _ ↔ disk d = _
    rw [h.theirs]
    rcases a.mine d with hd | ⟨j, f, hj, e', hd⟩
    · rw [hd]
    · refine iff_of_false (fun e => ?_) (fun e => ?_)
      · rw [e'] at e
        cases e
      · rcases hd with ⟨hnone, -⟩ | ⟨f', -, hd⟩
        · rw [hnone] at e
          cases e
        · rw [hd] at e
          cases e

/-! ## 2. Its steps -/

section Steps

variable {k : κ} {hooks rest : List Hook} {x : Hook}

theorem live_life (l : Life) : (s.live k l).life k = l := Function.update_self ..

theorem ends_exit (h : L.Inv s) (hk : s.life k = .running hooks)
    (hrest : ∀ i, L.jvm i = k → (s.loading i).atRest) : Ends L s k (.exiting hooks) s.disk where
  ended := fun _ e => by cases e
  calls := by rw [hk]; exact List.Sublist.refl _
  mine := fun _ => Or.inl rfl
  kept := fun d i files hi e => by
    have hkept := h.kept d i files e
    have hfile := h.keptFile d i files e
    unfold Kept at hkept ⊢
    unfold KeptFile at hfile ⊢
    rw [hi, hk] at hkept hfile
    rw [hi, live_life]
    refine ⟨Or.inl (hkept.resolve_left fun hmade => ?_), fun f hf _ => Or.inl (hfile f hf).2⟩
    have hidle := hrest i hi
    rw [hmade] at hidle
    exact hidle

/-- One call is dealt with; what it was about is gone, or could not be deleted. -/
theorem ends_delete (h : L.Inv s) {disk : Disk ι} (hk : s.life k = .exiting (x :: rest))
    (hmine : Mine L s k rest disk)
    (hdir : ∀ d i files, disk d = some ⟨some i, files⟩ → x = .dir d → L.Refused s i d)
    (hfile : ∀ d i files, disk d = some ⟨some i, files⟩ → ∀ f ∈ files, x = .file d f.1 →
      L.Refused s i d) : Ends L s k (.exiting rest) disk where
  ended := fun _ e => by cases e
  calls := by rw [hk]; exact List.sublist_cons_self _ _
  mine := hmine
  kept := fun d i files hi e => by
    obtain ⟨files₀, e₀, hsub⟩ := hmine.back e
    have hkept := h.kept d i files₀ e₀
    have hkeptFile := h.keptFile d i files₀ e₀
    unfold Kept at hkept ⊢
    unfold KeptFile at hkeptFile ⊢
    rw [hi, hk] at hkept hkeptFile
    rw [hi, live_life]
    refine ⟨?_, fun f hf hname => ?_⟩
    · rcases hkept with hmem | href
      · rcases List.mem_cons.mp hmem with hx | hmem
        · exact Or.inr (hdir d i files e hx.symm)
        · exact Or.inl hmem
      · exact Or.inr href
    · rcases (hkeptFile f (hsub hf)).2 with hmem | href
      · rcases List.mem_cons.mp hmem with hx | hmem
        · exact Or.inr (hfile d i files e f hf (by rw [hname]; exact hx.symm))
        · exact Or.inl hmem
      · exact Or.inr href

/-- The directory is deleted if its file is: the call for the file was dealt with before. -/
theorem ends_rmdir (h : L.Inv s) {d : String} (hk : s.life k = .exiting (.dir d :: rest)) :
    Ends L s k (.exiting rest) (s.disk.rmdir d) := by
  obtain ⟨i, files, hi, e, -⟩ := h.hook k (.dir d) (by rw [hk]; exact List.mem_cons_self)
  have hfirst : ∀ y ∈ rest, y.path ≠ d := by
    have ho := h.ordered k
    rw [hk] at ho
    exact fun y hy => (List.pairwise_cons.mp ho).1 y hy d rfl
  have e : s.disk d = some ⟨some i, files⟩ := e
  by_cases hempty : files = []
  · subst hempty
    rw [Disk.rmdir_of_empty e]
    refine ends_delete h hk (fun d' => ?_) (fun d' j f e' hx => ?_) fun d' j f e' y hy hx => ?_
    · by_cases hd : d' = d
      · subst hd
        exact Or.inr ⟨i, [], hi, e, Or.inl ⟨Function.update_self .., hfirst⟩⟩
      · exact Or.inl (Function.update_of_ne hd ..)
    · cases hx
      rw [Function.update_self] at e'
      cases e'
    · cases hx
  · rw [Disk.rmdir_of_ne e hempty]
    refine ends_delete h hk (fun d' => Or.inl rfl) (fun d' j f e' hx => ?_)
      fun d' j f e' y hy hx => by cases hx
    cases hx
    -- its file was refused, since the call for it is not left
    obtain ⟨hm, rfl⟩ := Entry.mk.inj (Option.some.inj (e.symm.trans e'))
    obtain rfl : i = j := Option.some.inj hm
    obtain ⟨y, hy⟩ := List.exists_mem_of_ne_nil _ hempty
    have hkept := (h.keptFile d i files e y hy).2
    rw [KeptFile, hi, hk] at hkept
    refine hkept.resolve_left fun hmem => ?_
    rcases List.mem_cons.mp hmem with hx | hmem
    · cases hx
    · exact hfirst _ hmem rfl

theorem ends_unlink (h : L.Inv s) {d name : String}
    (hk : s.life k = .exiting (.file d name :: rest)) :
    Ends L s k (.exiting rest) (s.disk.unlink d name) := by
  obtain ⟨i, files, hi, e, -⟩ := h.hook k (.file d name) (by rw [hk]; exact List.mem_cons_self)
  have e : s.disk d = some ⟨some i, files⟩ := e
  rw [Disk.unlink_of_entry e]
  refine ends_delete h hk (fun d' => ?_) (fun d' j f e' hx => by cases hx)
    fun d' j f e' y hy hx => ?_
  · by_cases hd : d' = d
    · subst hd
      exact Or.inr ⟨i, files, hi, e,
        Or.inr ⟨_, fun y hy => (List.mem_filter.mp hy).1, Function.update_self ..⟩⟩
    · exact Or.inl (Function.update_of_ne hd ..)
  · cases hx
    rw [Function.update_self] at e'
    obtain ⟨-, rfl⟩ := Entry.mk.inj (Option.some.inj e')
    have hne := (List.mem_filter.mp hy).2
    exact absurd rfl (of_decide_eq_true hne)

theorem ends_refused (h : L.Inv s) {i : ι} {d name : String} {files : DirFiles}
    (hk : s.life k = .exiting (.file d name :: rest)) (e : s.disk d = some ⟨some i, files⟩)
    (hi : L.Refused s i d) : Ends L s k (.exiting rest) s.disk := by
  refine ends_delete h hk (fun _ => Or.inl rfl) (fun d' j f e' hx => by cases hx)
    fun d' j f e' y hy hx => ?_
  cases hx
  obtain ⟨hm, -⟩ := Entry.mk.inj (Option.some.inj (e.symm.trans e'))
  exact Option.some.inj hm ▸ hi

theorem ends_halt (h : L.Inv s) (hk : s.life k = .exiting []) : Ends L s k .exited s.disk where
  ended := fun _ e => by cases e
  calls := List.nil_sublist _
  mine := fun _ => Or.inl rfl
  kept := fun d i files hi e => by
    have hkept := h.kept d i files e
    unfold Kept at hkept ⊢
    unfold KeptFile
    rw [hi, hk] at hkept
    rw [hi, live_life]
    exact ⟨hkept.resolve_left List.not_mem_nil, fun _ _ _ => trivial⟩

theorem ends_kill : Ends L s k .killed s.disk where
  ended := fun _ e => by cases e
  calls := List.nil_sublist _
  mine := fun _ => Or.inl rfl
  kept := fun d i files hi e => by
    unfold Kept KeptFile
    rw [hi, live_life]
    exact ⟨trivial, fun _ _ _ => trivial⟩

end Steps

end Loaders

end OnymSdk
