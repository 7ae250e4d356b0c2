/-
  File:      OnymSdk/TempFiles/Runs.lean
  Subject:   WHAT A RUN OF THE LOADER DOES to the disk and to the calls of its process.

  * `Acts`, `inv_acted` -- an act of a run on its own directory keeps the invariant;
  * one lemma a step of the run.
-/
import OnymSdk.TempFiles.Loading

namespace OnymSdk

open ScratchDisk

variable {ι κ : Type}

/-! ## 1. Acts -/

namespace Loaders

section Acts

variable {L : Loaders ι κ} {s : Temp ι κ}

/-- What a run does to its own directory: where it stands then, what is to be deleted at exit and
    what the directory holds. -/
structure Acts (L : Loaders ι κ) (s : Temp ι κ) (i : ι) (l : Loading) (hooks hooks' : List Hook)
    (d : String) (files : DirFiles) : Prop where
  life : s.life (L.jvm i) = .running hooks
  mine : ∀ e, s.disk d = some e → e.maker = some i
  made : ∀ d', s.loading i = .made d' → d' = d
  calls : hooks' = hooks ∨
    ∃ x, hooks' = x :: hooks ∧ x.path = d ∧ (x = .dir d → ∀ y ∈ hooks, y.path ≠ d)
  fact : L.Fact i l
  holds : ∀ d' f, L.holds i l = some (d', f) → d' = d ∧ f = files
  kept : l = .made d ∨ .dir d ∈ hooks'
  unhooked : ∀ d', l = .made d' → ∀ y ∈ hooks', y.path ≠ d'
  named : ∀ f ∈ files, f.1 = L.name i ∧ .file d (L.name i) ∈ hooks'
  ready : ∀ d', l = .ready d' → .file d (L.name i) ∈ hooks'

variable {i : ι} {l : Loading} {hooks hooks' : List Hook} {d : String} {files : DirFiles}

theorem Acts.subset (a : Acts L s i l hooks hooks' d files) {x : Hook} (hx : x ∈ hooks) :
    x ∈ hooks' := by
  rcases a.calls with rfl | ⟨_, rfl, -⟩
  · exact hx
  · exact List.mem_cons_of_mem _ hx

/-- The directory of another run is another one. -/
theorem Acts.ne (a : Acts L s i l hooks hooks' d files) {j : ι} {d' : String} {f : DirFiles}
    (hj : j ≠ i) (e : s.disk d' = some ⟨some j, f⟩) : d' ≠ d := by
  intro hd
  subst hd
  exact hj (Option.some.inj (a.mine _ e))

variable [DecidableEq ι] [DecidableEq κ]

/-- The state after it. -/
def acted (L : Loaders ι κ) (s : Temp ι κ) (i : ι) (l : Loading) (hooks : List Hook) (d : String)
    (files : DirFiles) : Temp ι κ :=
  { s with
    loading := Function.update s.loading i l
    life := Function.update s.life (L.jvm i) (.running hooks)
    disk := Function.update s.disk d (some ⟨some i, files⟩) }

theorem ordered_acted (h : L.Inv s) (a : Acts L s i l hooks hooks' d files) (k : κ) :
    Ordered ((acted L s i l hooks' d files).life k).hooks := by
  by_cases hk : k = L.jvm i
  · subst hk
    have hold : Ordered hooks := by
      have ho := h.ordered (L.jvm i)
      rwa [a.life] at ho
    show Ordered (Function.update s.life (L.jvm i) (.running hooks') (L.jvm i)).hooks
    rw [Function.update_self]
    rcases a.calls with rfl | ⟨x, rfl, hx, hfirst⟩
    · exact hold
    · refine List.Pairwise.cons (fun y hy d' e => ?_) hold
      subst e
      obtain rfl : d' = d := hx
      exact hfirst rfl y hy
  · show Ordered (Function.update s.life (L.jvm i) (.running hooks') k).hooks
    rw [Function.update_of_ne hk]
    exact h.ordered k

theorem hook_acted (h : L.Inv s) (a : Acts L s i l hooks hooks' d files) {k : κ} {x : Hook}
    (hx : x ∈ ((acted L s i l hooks' d files).life k).hooks) :
    ∃ j f, L.jvm j = k ∧ (acted L s i l hooks' d files).disk x.path = some ⟨some j, f⟩ ∧
      (acted L s i l hooks' d files).loading j ≠ .made x.path := by
  unfold acted at hx ⊢
  dsimp only at hx ⊢
  by_cases hk : k = L.jvm i
  · subst hk
    rw [Function.update_self] at hx
    have hi : l ≠ .made x.path := fun e => a.unhooked _ e x hx rfl
    by_cases hd : x.path = d
    · exact ⟨i, files, rfl, by rw [hd, Function.update_self], by rwa [Function.update_self]⟩
    · have hold : x ∈ (s.life (L.jvm i)).hooks := by
        rw [a.life]
        rcases a.calls with rfl | ⟨y, rfl, hy, -⟩
        · exact hx
        · exact (List.mem_cons.mp hx).resolve_left fun e => hd (e ▸ hy)
      obtain ⟨j, f, hj, hdisk, hmade⟩ := h.hook _ x hold
      refine ⟨j, f, hj, by rwa [Function.update_of_ne hd], ?_⟩
      by_cases hji : j = i
      · subst hji
        rwa [Function.update_self]
      · rwa [Function.update_of_ne hji]
  · rw [Function.update_of_ne hk] at hx
    obtain ⟨j, f, hj, hdisk, hmade⟩ := h.hook _ x hx
    have hji : j ≠ i := fun e => hk (e ▸ hj.symm)
    exact ⟨j, f, hj, by rwa [Function.update_of_ne (a.ne hji hdisk)],
      by rwa [Function.update_of_ne hji]⟩

theorem loading_acted {j : ι} (hj : j ≠ i) :
    (acted L s i l hooks' d files).loading j = s.loading j := Function.update_of_ne hj ..

theorem life_acted : (acted L s i l hooks' d files).life (L.jvm i) = .running hooks' :=
  Function.update_self ..

/-- A directory of a run: the one acted on, or another. -/
theorem disk_acted {j : ι} {d' : String} {f : DirFiles}
    (e : (acted L s i l hooks' d files).disk d' = some ⟨some j, f⟩) :
    (d' = d ∧ j = i ∧ f = files) ∨ (d' ≠ d ∧ s.disk d' = some ⟨some j, f⟩) := by
  by_cases hd : d' = d
  · subst hd
    have hself : (acted L s i l hooks' d' files).disk d' = some ⟨some i, files⟩ :=
      Function.update_self ..
    obtain ⟨hm, hf⟩ := Entry.mk.inj (Option.some.inj (hself.symm.trans e))
    exact Or.inl ⟨rfl, (Option.some.inj hm).symm, hf.symm⟩
  · exact Or.inr ⟨hd, (Function.update_of_ne hd ..).symm.trans e⟩

theorem entry_acted (h : L.Inv s) (a : Acts L s i l hooks hooks' d files) {j : ι}
    {hs : List Hook} {d' : String} {f : DirFiles}
    (hj : (acted L s i l hooks' d files).life (L.jvm j) = .running hs)
    (hf : L.holds j ((acted L s i l hooks' d files).loading j) = some (d', f)) :
    (acted L s i l hooks' d files).disk d' = some ⟨some j, f⟩ := by
  by_cases hji : j = i
  · subst hji
    rw [show (acted L s j l hooks' d files).loading j = l from Function.update_self ..] at hf
    obtain ⟨rfl, rfl⟩ := a.holds _ _ hf
    exact Function.update_self ..
  · rw [loading_acted hji] at hf
    have hrun : ∃ hs', s.life (L.jvm j) = .running hs' := by
      by_cases hk : L.jvm j = L.jvm i
      · exact ⟨hooks, hk ▸ a.life⟩
      · exact ⟨hs, (Function.update_of_ne hk ..).symm.trans hj⟩
    obtain ⟨hs', hj'⟩ := hrun
    have e := h.entry j hs' d' f hj' hf
    exact (Function.update_of_ne (a.ne hji e) ..).trans e

theorem kept_acted (h : L.Inv s) (a : Acts L s i l hooks hooks' d files) {j : ι} {d' : String}
    {f : DirFiles} (e : (acted L s i l hooks' d files).disk d' = some ⟨some j, f⟩) :
    L.Kept (acted L s i l hooks' d files) j d' := by
  rcases disk_acted e with ⟨rfl, rfl, rfl⟩ | ⟨hd, e⟩
  · unfold Kept
    rw [life_acted]
    exact a.kept.imp_left fun hl => (Function.update_self ..).trans hl
  · have hkept := h.kept d' j f e
    by_cases hk : L.jvm j = L.jvm i
    · unfold Kept at hkept ⊢
      rw [hk, a.life] at hkept
      rw [hk, life_acted]
      refine hkept.imp (fun hmade => ?_) a.subset
      have hji : j ≠ i := by
        intro hji
        subst hji
        exact hd (a.made _ hmade)
      exact (loading_acted hji).trans hmade
    · exact (kept_congr (Function.update_of_ne hk ..)
        (loading_acted fun hji => hk (congrArg L.jvm hji))).mpr hkept

theorem keptFile_acted (h : L.Inv s) (a : Acts L s i l hooks hooks' d files) {j : ι}
    {d' : String} {f : DirFiles}
    (e : (acted L s i l hooks' d files).disk d' = some ⟨some j, f⟩)
    {x : String × List UInt8} (hx : x ∈ f) :
    x.1 = L.name j ∧ L.KeptFile (acted L s i l hooks' d files) j d' := by
  rcases disk_acted e with ⟨rfl, rfl, rfl⟩ | ⟨hd, e⟩
  · refine ⟨(a.named x hx).1, ?_⟩
    unfold KeptFile
    rw [life_acted]
    exact (a.named x hx).2
  · obtain ⟨hname, hkept⟩ := h.keptFile d' j f e x hx
    refine ⟨hname, ?_⟩
    by_cases hk : L.jvm j = L.jvm i
    · unfold KeptFile at hkept ⊢
      rw [hk, a.life] at hkept
      rw [hk, life_acted]
      exact a.subset hkept
    · exact (keptFile_congr (Function.update_of_ne hk ..)
        (loading_acted fun hji => hk (congrArg L.jvm hji))).mpr hkept

theorem ready_acted (h : L.Inv s) (a : Acts L s i l hooks hooks' d files) {j : ι}
    {hs : List Hook} {d' : String}
    (hj : (acted L s i l hooks' d files).life (L.jvm j) = .running hs)
    (hr : (acted L s i l hooks' d files).loading j = .ready d') : .file d' (L.name j) ∈ hs := by
  by_cases hji : j = i
  · subst hji
    obtain rfl : hooks' = hs := Life.running.inj (life_acted.symm.trans hj)
    have hl : l = .ready d' := (Function.update_self ..).symm.trans hr
    obtain ⟨rfl, -⟩ := a.holds d' [] (by rw [hl]; rfl)
    exact a.ready _ hl
  · rw [loading_acted hji] at hr
    by_cases hk : L.jvm j = L.jvm i
    · rw [hk] at hj
      obtain rfl : hooks' = hs := Life.running.inj (life_acted.symm.trans hj)
      exact a.subset (h.ready j hooks d' (hk ▸ a.life) hr)
    · exact h.ready j hs d' ((Function.update_of_ne hk ..).symm.trans hj) hr

/-- **A run's act keeps the invariant.** -/
theorem inv_acted (h : L.Inv s) (a : Acts L s i l hooks hooks' d files) :
    L.Inv (acted L s i l hooks' d files) := by
  refine ⟨fun j => ?_, fun j hs d' f hj hf => entry_acted h a hj hf,
    fun k x hx => hook_acted h a hx, ordered_acted h a, fun d' j f e => kept_acted h a e,
    fun d' j f e x hx => keptFile_acted h a e hx, fun j hs d' hj hr => ready_acted h a hj hr,
    fun d' f => ?_⟩
  · by_cases hj : j = i
    · subst hj
      show L.Fact j (Function.update s.loading j l j)
      rw [Function.update_self]
      exact a.fact
    · rw [loading_acted hj]
      exact h.fact j
  · show s.theirs d' = _ ↔ Function.update s.disk d _ d' = _
    rw [h.theirs]
    by_cases hd : d' = d
    · subst hd
      rw [Function.update_self]
      refine iff_of_false (fun e => ?_) (fun e => by cases e)
      cases a.mine _ e
    · rw [Function.update_of_ne hd]

/-- A run goes on in its directory. -/
theorem inv_on (h : L.Inv s) {disk : Disk ι} (hk : s.life (L.jvm i) = .running hooks)
    (a : Acts L s i l hooks hooks d files)
    (hdisk : disk = Function.update s.disk d (some ⟨some i, files⟩)) :
    L.Inv { s.move i l with disk := disk } := by
  have hlife : Function.update s.life (L.jvm i) (.running hooks) = s.life :=
    Function.update_eq_self_iff.mpr hk.symm
  have hinv := inv_acted h a
  rw [acted, hlife] at hinv
  subst hdisk
  exact hinv

end Acts

end Loaders

/-! ## 2. The steps -/

namespace Platform

variable {p : Platform} {d : String} {resource : List UInt8}

theorem extract_noDir {m : String} (hm : p.createTempDirectory "onym-sdk-jni-" = .error m) :
    p.extract resource = .error (.IOException m) := by
  rw [extract, createTempLibFile, hm]
  rfl

theorem extract_dir (hm : p.createTempDirectory "onym-sdk-jni-" = .ok d) :
    p.extract resource =
      match p.copyTo (p.resolve d p.libName) resource with
      | .ok () => .ok (p.resolve d p.libName)
      | .error m => .error (.IOException m) := by
  rw [extract, createTempLibFile, hm]
  show (do
    (p.copyTo (p.resolve d p.libName) resource).mapError .IOException
    pure (p.resolve d p.libName) : Except Throwable String) = _
  cases p.copyTo (p.resolve d p.libName) resource <;> rfl

end Platform

namespace Loaders

section Steps

variable {L : Loaders ι κ} {s : Temp ι κ} {i : ι} {hooks : List Hook} {d : String}
  {files files' : DirFiles} {l : Loading}

/-- A run that has made its directory, and called for its deletion. -/
theorem dir_mem (h : L.Inv s) (hk : s.life (L.jvm i) = .running hooks)
    (hheld : L.holds i (s.loading i) = some (d, files)) (hmade : ∀ d', s.loading i ≠ .made d') :
    .dir d ∈ hooks := by
  have hkept := h.kept d i files (h.entry i hooks d files hk hheld)
  rw [Kept, hk] at hkept
  exact hkept.resolve_left (hmade d)

/-- The calls it made are about files of its name. -/
theorem file_mem (h : L.Inv s) (hk : s.life (L.jvm i) = .running hooks) {bytes : List UInt8}
    (hheld : L.holds i (s.loading i) = some (d, [(L.name i, bytes)])) :
    .file d (L.name i) ∈ hooks := by
  have hkept := (h.keptFile d i _ (h.entry i hooks d _ hk hheld) _ (List.mem_singleton_self _)).2
  rwa [KeptFile, hk] at hkept

theorem mine_of_entry (e : s.disk d = some ⟨some i, files⟩) :
    ∀ x, s.disk d = some x → x.maker = some i := by
  intro x hx
  rw [e] at hx
  cases hx
  rfl

/-- A run goes on without a call. -/
theorem acts_on (h : L.Inv s) (hk : s.life (L.jvm i) = .running hooks)
    (hheld : L.holds i (s.loading i) = some (d, files)) (hmade : ∀ d', s.loading i ≠ .made d')
    (hl : ∀ d', l ≠ .made d' ∧ l ≠ .ready d') (hfact : L.Fact i l)
    (hholds : ∀ d' f, L.holds i l = some (d', f) → d' = d ∧ f = files')
    (hnamed : ∀ f ∈ files', f.1 = L.name i ∧ .file d (L.name i) ∈ hooks) :
    Acts L s i l hooks hooks d files' where
  life := hk
  mine := mine_of_entry (h.entry i hooks d files hk hheld)
  made := fun d' e => absurd e (hmade d')
  calls := Or.inl rfl
  fact := hfact
  holds := hholds
  kept := Or.inr (dir_mem h hk hheld hmade)
  unhooked := fun d' e => absurd e (hl d').1
  named := hnamed
  ready := fun d' e => absurd e (hl d').2

/-- What a run answers whose copy fails ... -/
theorem answer_noCopy {m : String} (hr : L.resource i = some (L.bytes i))
    (hm : (L.platform i).createTempDirectory "onym-sdk-jni-" = .ok d)
    (hc : (L.platform i).copyTo (L.file i d) (L.bytes i) = .error m) :
    (L.platform i).loadNativeLibrary = .error (.IOException m) := by
  rw [Platform.loadNativeLibrary_present hr, Platform.extract_dir hm]
  rw [file, name] at hc
  rw [hc]

/-- ... and one that has its copy, when the library is loaded. -/
theorem answer_load (hr : L.resource i = some (L.bytes i))
    (hx : (L.platform i).extract (L.bytes i) = .ok (L.file i d)) :
    (L.platform i).loadNativeLibrary =
      ((L.platform i).load (L.file i d) (L.bytes i)).mapError .UnsatisfiedLinkError := by
  rw [Platform.loadNativeLibrary_present hr, hx]

variable [DecidableEq ι]

/-- A run ends before it has a directory. -/
theorem inv_idle (h : L.Inv s) {i : ι} {r : Except Throwable Unit} (hi : s.loading i = .idle)
    (hr : (L.platform i).loadNativeLibrary = r) : L.Inv (s.move i (.finished none r)) := by
  have hmove : ∀ j, j ≠ i → (s.move i (.finished none r)).loading j = s.loading j :=
    fun j hj => Function.update_of_ne hj ..
  have hself : (s.move i (.finished none r)).loading i = .finished none r :=
    Function.update_self ..
  have hmade : ∀ j d,
      (s.move i (.finished none r)).loading j = .made d ↔ s.loading j = .made d := by
    intro j d
    by_cases hj : j = i
    · subst hj
      rw [hself, hi]
      exact iff_of_false (fun e => by cases e) (fun e => by cases e)
    · rw [hmove j hj]
  have hrefused : ∀ j d, L.Refused (s.move i (.finished none r)) j d ↔ L.Refused s j d := by
    intro j d
    by_cases hj : j = i
    · subst hj
      unfold Refused
      rw [hself, hi]
      exact iff_of_false (fun e => by cases e.2) (fun e => by cases e.2)
    · unfold Refused
      rw [hmove j hj]
  refine ⟨fun j => ?_, fun j hooks d files hk hf => ?_, fun k x hx => ?_, h.ordered,
    fun d j files e => ?_, fun d j files e f hf => ?_, fun j hooks d hk hj => ?_, h.theirs⟩
  · by_cases hj : j = i
    · subst hj
      rw [hself]
      exact hr
    · rw [hmove j hj]
      exact h.fact j
  · by_cases hj : j = i
    · subst hj
      rw [hself] at hf
      cases hf
    · rw [hmove j hj] at hf
      exact h.entry j hooks d files hk hf
  · obtain ⟨j, files, hj, e, hm⟩ := h.hook k x hx
    exact ⟨j, files, hj, e, fun e' => hm ((hmade j _).mp e')⟩
  · have hkept := h.kept d j files e
    unfold Kept at hkept ⊢
    simp only [hmade, hrefused]
    exact hkept
  · have hkept := h.keptFile d j files e f hf
    unfold KeptFile at hkept ⊢
    simp only [hrefused]
    exact hkept
  · by_cases hji : j = i
    · subst hji
      rw [hself] at hj
      cases hj
    · rw [hmove j hji] at hj
      exact h.ready j hooks d hk hj

variable [DecidableEq κ]

theorem inv_makeDir (h : L.Inv s) (hi : s.loading i = .idle)
    (hk : s.life (L.jvm i) = .running hooks) (hr : L.resource i = some (L.bytes i))
    (hm : (L.platform i).createTempDirectory "onym-sdk-jni-" = .ok d) (hd : s.disk d = none) :
    L.Inv { s.move i (.made d) with disk := Function.update s.disk d (some ⟨some i, []⟩) } := by
  have hfresh : ∀ y ∈ hooks, y.path ≠ d := by
    intro y hy e
    obtain ⟨_, _, -, hdisk, -⟩ := h.hook (L.jvm i) y (by rwa [hk])
    rw [e, hd] at hdisk
    cases hdisk
  have a : Acts L s i (.made d) hooks hooks d [] := {
    life := hk
    mine := fun x e => by rw [hd] at e; cases e
    made := fun d' e => by rw [hi] at e; cases e
    calls := Or.inl rfl
    fact := ⟨hr, hm⟩
    holds := fun d' f e => by cases e; exact ⟨rfl, rfl⟩
    kept := Or.inl rfl
    unhooked := fun d' e => by cases e; exact hfresh
    named := fun f hf => absurd hf List.not_mem_nil
    ready := fun d' e => by cases e }
  exact inv_on h hk a rfl

theorem inv_hookDir (h : L.Inv s) (hi : s.loading i = .made d)
    (hk : s.life (L.jvm i) = .running hooks) :
    L.Inv ((s.move i (.hooked d)).live (L.jvm i) (.running (.dir d :: hooks))) := by
  have e : s.disk d = some ⟨some i, []⟩ := h.entry i hooks d [] hk (by rw [hi]; rfl)
  have hfirst : ∀ y ∈ hooks, y.path ≠ d := by
    intro y hy hyd
    obtain ⟨j, f, -, e', hmade⟩ := h.hook (L.jvm i) y (by rwa [hk])
    rw [hyd] at e' hmade
    obtain ⟨hm, -⟩ := Entry.mk.inj (Option.some.inj (e.symm.trans e'))
    exact hmade (Option.some.inj hm ▸ hi)
  have a : Acts L s i (.hooked d) hooks (.dir d :: hooks) d [] := {
    life := hk
    mine := mine_of_entry e
    made := fun d' hd' => by rw [hi] at hd'; cases hd'; rfl
    calls := Or.inr ⟨_, rfl, rfl, fun _ => hfirst⟩
    fact := by have hf := h.fact i; rwa [hi] at hf
    holds := fun d' f hf => by cases hf; exact ⟨rfl, rfl⟩
    kept := Or.inr List.mem_cons_self
    unhooked := fun d' hd' => by cases hd'
    named := fun f hf => absurd hf List.not_mem_nil
    ready := fun d' hd' => by cases hd' }
  have hinv := inv_acted h a
  rwa [acted, Function.update_eq_self_iff.mpr e.symm] at hinv

theorem inv_hookFile (h : L.Inv s) (hi : s.loading i = .hooked d)
    (hk : s.life (L.jvm i) = .running hooks) :
    L.Inv ((s.move i (.ready d)).live (L.jvm i) (.running (.file d (L.name i) :: hooks))) := by
  have hheld : L.holds i (s.loading i) = some (d, []) := by rw [hi]; rfl
  have e : s.disk d = some ⟨some i, []⟩ := h.entry i hooks d [] hk hheld
  have hdir : .dir d ∈ hooks := dir_mem h hk hheld fun d' hd' => by rw [hi] at hd'; cases hd'
  have a : Acts L s i (.ready d) hooks (.file d (L.name i) :: hooks) d [] := {
    life := hk
    mine := mine_of_entry e
    made := fun d' hd' => by rw [hi] at hd'; cases hd'
    calls := Or.inr ⟨_, rfl, rfl, fun hx => by cases hx⟩
    fact := by have hf := h.fact i; rwa [hi] at hf
    holds := fun d' f hf => by cases hf; exact ⟨rfl, rfl⟩
    kept := Or.inr (List.mem_cons_of_mem _ hdir)
    unhooked := fun d' hd' => by cases hd'
    named := fun f hf => absurd hf List.not_mem_nil
    ready := fun _ _ => List.mem_cons_self }
  have hinv := inv_acted h a
  rwa [acted, Function.update_eq_self_iff.mpr e.symm] at hinv

/-- A run writes its file, up to some byte. -/
theorem inv_copying (h : L.Inv s) {disk : Disk ι} {n : Nat}
    (hk : s.life (L.jvm i) = .running hooks)
    (hheld : L.holds i (s.loading i) = some (d, files)) (hmade : ∀ d', s.loading i ≠ .made d')
    (hfact : L.Fact i (.copying d n)) (hcall : .file d (L.name i) ∈ hooks)
    (hdisk : disk =
      Function.update s.disk d (some ⟨some i, [(L.name i, (L.bytes i).take n)]⟩)) :
    L.Inv { s.move i (.copying d n) with disk := disk } := by
  have a : Acts L s i (.copying d n) hooks hooks d [(L.name i, (L.bytes i).take n)] := by
    refine acts_on h hk hheld hmade (fun d' => ⟨fun e => ?_, fun e => ?_⟩) hfact
      (fun d' f e => ?_) fun f hfile => ?_
    · cases e
    · cases e
    · cases e
      exact ⟨rfl, rfl⟩
    · rw [List.mem_singleton.mp hfile]
      exact ⟨rfl, hcall⟩
  exact inv_on h hk a hdisk

theorem inv_openFile (h : L.Inv s) (hi : s.loading i = .ready d)
    (hk : s.life (L.jvm i) = .running hooks) :
    L.Inv { s.move i (.copying d 0) with disk := s.disk.create d (L.name i) } := by
  have hheld : L.holds i (s.loading i) = some (d, []) := by rw [hi]; rfl
  have hf := h.fact i
  rw [hi] at hf
  exact inv_copying h hk hheld (fun d' e => by rw [hi] at e; cases e) hf
    (h.ready i hooks d hk hi) (Disk.create_of_empty (h.entry i hooks d [] hk hheld))

theorem inv_chunk (h : L.Inv s) {n : Nat} (m : Nat) (hi : s.loading i = .copying d n)
    (hk : s.life (L.jvm i) = .running hooks) :
    L.Inv { s.move i (.copying d (n + m)) with
      disk := s.disk.append d (L.name i) (((L.bytes i).drop n).take m) } := by
  have hheld : L.holds i (s.loading i) = some (d, [(L.name i, (L.bytes i).take n)]) := by
    rw [hi]; rfl
  have hf := h.fact i
  rw [hi] at hf
  refine inv_copying h hk hheld (fun d' e => by rw [hi] at e; cases e) hf
    (file_mem h hk hheld) ?_
  rw [Disk.append_of_file (h.entry i hooks d _ hk hheld), List.take_add]

/-- A run ends, or has its copy, and its files are as before. -/
theorem inv_settled (h : L.Inv s) (hk : s.life (L.jvm i) = .running hooks)
    (hheld : L.holds i (s.loading i) = some (d, files)) (hmade : ∀ d', s.loading i ≠ .made d')
    (hl : l.settled) (hfact : L.Fact i l)
    (hholds : ∀ x, L.holds i l = some x → x = (d, files)) : L.Inv (s.move i l) := by
  have e := h.entry i hooks d files hk hheld
  have hnot : ∀ d', l ≠ .made d' ∧ l ≠ .ready d' := by
    intro d'
    constructor
    · intro e
      subst e
      exact hl
    · intro e
      subst e
      exact hl
  have a : Acts L s i l hooks hooks d files := by
    refine acts_on h hk hheld hmade hnot hfact (fun d' f hf => Prod.mk.inj (hholds _ hf))
      fun f hf => ?_
    obtain ⟨hname, hkept⟩ := h.keptFile d i files e f hf
    rw [KeptFile, hk] at hkept
    exact ⟨hname, hkept⟩
  exact inv_on h hk a (Function.update_eq_self_iff.mpr e.symm).symm

end Steps

end Loaders

end OnymSdk
