/-
  File:      OnymSdk/Release/Serializable.lean
  Subject:   WHAT THE HISTORY OF THE RELEASES BRANCH SAYS, over all interleavings.

  * `Sequential` -- a history that the given runs make one after the other, each from
    the tip the run before it left;
  * `branch_serializable` -- **the accepted runs are serializable**: whatever the order of the
    steps, the branch is the one they make in the order of their pushes;
  * `Plain` -- a tree whose text files are the three of the metadata;
  * `branches_converge` -- **the tip is a function of what was accepted**: two branches
    with the same last accepted files have the same tip, up to the clock of its publish;
  * `latest_monotone` -- the version a consumer resolves as latest never goes back.
-/
import OnymSdk.Release.Workflow

namespace OnymSdk.Release

open FastForward Relation VersionNames

variable {ι : Type} {tools : Tools} {args : ι → Args}

/-! ## 1. Sequential histories -/

/-- The runs, newest first, publish one after the other, each from the tip before it and only if
    it has something to commit. A run whose commit is the tip already adds nothing. -/
inductive Sequential (tools : Tools) (args : ι → Args) : List ι → History → Prop where
  | nil : Sequential tools args [] []
  | publish {l h i c} (hl : Sequential tools args l h)
      (hm : c.message = commitMessage (args i).version)
      (ht : Prepared tools (args i) (checkedOut (args i) h) c.tree) (hc : Changes h c.tree) :
      Sequential tools args (i :: l) (c :: h)
  | again {l h i c} (hl : Sequential tools args l (c :: h))
      (hm : c.message = commitMessage (args i).version)
      (ht : Prepared tools (args i) (checkedOut (args i) h) c.tree) (hc : Changes h c.tree) :
      Sequential tools args (i :: l) (c :: h)

/-- The commit of a run, with the run's message, on top of what it changes. -/
def SignedBy (a : Args) (history : History) : Prop :=
  ∃ c base, history = c :: base ∧ c.message = commitMessage a.version ∧ Changes base c.tree

/-- A run about to push has its own commit. -/
def Signed (args : ι → Args) (s : System ι) : Prop :=
  ∀ i history, s.phase i = .committed history → SignedBy (args i) history

section System

variable {s s' : System ι}

/-- **An accepted push** is the next publish in sequence: the branch did not move since the run
    looked it up. -/
theorem sequential_push (hinv : Inv tools args s) (hsig : Signed args s)
    (h : Sequential tools args s.accepted s.remote) {i : ι} {history : History}
    (hi : s.phase i = .committed history) (ha : Accepts s.remote history) :
    Sequential tools args (i :: s.accepted) history := by
  obtain ⟨c, base, rfl, hbase, hprep⟩ := phaseOk_of hinv hi
  obtain ⟨d, base', e, hmsg, hchanges⟩ := hsig i _ hi
  cases e
  rcases accepts_cases hbase ha with e | e
  · rw [e] at h
    exact .publish h hmsg hprep hchanges
  · rw [e] at h
    exact .again h hmsg hprep hchanges

variable [DecidableEq ι]

theorem signed_move (h : Signed args s) {i : ι} {p : Phase}
    (hp : ∀ history, p = .committed history → SignedBy (args i) history) :
    Signed args (s.move i p) := by
  intro j history hj
  by_cases hji : j = i
  · subst hji
    rw [phase_move] at hj
    exact hp history hj
  · simp only [System.move, Function.update_of_ne hji] at hj
    exact h j history hj

theorem signed_step (h : Signed args s) (hs : Step tools args s s') : Signed args s' := by
  cases hs with
  | commit hi hc =>
    refine signed_move h fun history e => ?_
    cases e
    exact ⟨_, _, rfl, rfl, hc⟩
  | push hi ha => exact signed_move (p := .ended) h fun _ e => by cases e
  | _ => exact signed_move h fun _ e => by cases e

/-- The step lemma. -/
theorem sequential_step (hinv : Inv tools args s) (hsig : Signed args s)
    (h : Sequential tools args s.accepted s.remote) (hs : Step tools args s s') :
    Sequential tools args s'.accepted s'.remote := by
  cases hs with
  | push hi ha => exact sequential_push hinv hsig h hi ha
  | _ => exact h

/-- The run lemma. -/
theorem sequential_steps (h : Steps tools args (initial ι) s) :
    Inv tools args s ∧ Signed args s ∧ Sequential tools args s.accepted s.remote := by
  induction h with
  | refl => exact ⟨inv_initial, (fun _ _ h => by cases h), .nil⟩
  | tail _ hstep ih =>
    obtain ⟨hinv, hsig, hser⟩ := ih
    exact ⟨step_inv hinv hstep, signed_step hsig hstep, sequential_step hinv hsig hser hstep⟩

/-- The branch only ever grows. -/
theorem steps_remote (h : Steps tools args s s') : s.remote <:+ s'.remote := by
  induction h with
  | refl => exact List.suffix_refl _
  | tail _ hstep ih =>
    cases hstep with
    | push hi ha => exact ih.trans ha.2
    | _ => exact ih

/-- **The accepted runs are serializable.** In every interleaving of concurrent and interrupted
    runs the branch is the one the accepted runs make when each runs alone, in the order of
    their pushes; and a later history only adds commits to an earlier one. -/
theorem branch_serializable (h : Steps tools args (initial ι) s) :
    Sequential tools args s.accepted s.remote ∧
      ∀ s', Steps tools args s s' → s.remote <:+ s'.remote ∧ s.accepted <:+ s'.accepted :=
  ⟨(sequential_steps h).2.2, fun _ hs => ⟨steps_remote hs, steps_accepted hs⟩⟩

end System

/-- The history of a first publish is sequential. -/
theorem branch_serializable_first :
    ∃ s : System Unit,
      Steps ⟨fun _ => "", fun _ => ""⟩ (fun _ => firstRelease) (initial Unit) s ∧
      s.accepted = [()] ∧
      Sequential ⟨fun _ => "", fun _ => ""⟩ (fun _ => firstRelease) [()] s.remote := by
  obtain ⟨s, hs, hacc⟩ := exists_first_publish ⟨fun _ => "", fun _ => ""⟩ firstRelease (by decide)
  have h := (branch_serializable hs).1
  rw [hacc] at h
  exact ⟨s, hs, hacc, h⟩

/-! ## 2. The tree at the tip -/

/-- The text files of the artifact's directory are those of the metadata. -/
def Plain (t : Tree) : Prop :=
  ∀ n text, t.file? n = some text → n = META ∨ n = META_MD5 ∨ n = META_SHA1

/-- The metadata the script prints for a tree. -/
def printed (t : Tree) (now : String) : Text :=
  metadataText (listVersions t) ((listVersions t).getLastD "") now

section Tip

variable {t t' base : Tree} {a : Args}

/-- The listed versions depend on the directories only. -/
theorem listVersions_congr (h : ∀ n, t.dir? n = t'.dir? n) : listVersions t = listVersions t' := by
  unfold listVersions
  congr 1
  ext n
  simp only [Finset.mem_filter, h n, and_congr_left_iff, Bool.and_eq_true]
  intro hn
  obtain ⟨files, hf⟩ := Option.isSome_iff_exists.mp hn.1
  exact iff_of_true (mem_keys_of_dir? ((h n).trans hf)) (mem_keys_of_dir? hf)

/-- What stands under a name is its directory or its file. -/
theorem lookup_eq (t : Tree) (n : String) :
    t.artifact.lookup n =
      match t.dir? n with
      | some files => some (.dir files)
      | none => (t.file? n).map .file := by
  unfold Tree.dir? Tree.file?
  cases t.artifact.lookup n with
  | none => rfl
  | some e => cases e <;> rfl

theorem plain_write_dir (h : Plain t) (n : String) (files : Files) :
    Plain (t.write n (.dir files)) := by
  intro m text hm
  by_cases e : m = n
  · rw [e] at hm
    simp [Tree.file?, Tree.write] at hm
  · rw [Tree.file?_write_of_ne _ _ e] at hm
    exact h m text hm

theorem plain_write_file (h : Plain t) {n : String} (hn : n = META ∨ n = META_MD5 ∨ n = META_SHA1)
    (text : Text) : Plain (t.write n (.file text)) := by
  intro m text' hm
  by_cases e : m = n
  · rw [e]
    exact hn
  · rw [Tree.file?_write_of_ne _ _ e] at hm
    exact h m text' hm

/-- **What a prepared tree is** beside its directories: the metadata of these, and everything else
    as in its base. -/
theorem prepared_files (h : Prepared tools a base t) :
    t.others = base.others ∧ ∃ now, t.file? META = some (printed t now) ∧
      t.file? META_MD5 = some [tools.md5 (printed t now)] ∧
      t.file? META_SHA1 = some [tools.sha1 (printed t now)] := by
  obtain ⟨now, h⟩ := h
  obtain ⟨text, htext, hmeta, hmd5, hsha1⟩ := regenerate_file? h
  have hprint : text = printed t now := by
    rw [htext, printed, listVersions_congr (regenerate_dir? h)]
  rw [hprint] at hmeta hmd5 hsha1
  refine ⟨?_, now, hmeta, hmd5, hsha1⟩
  obtain ⟨-, text, -, rfl⟩ := regenerate_cases h
  rfl

/-- A prepared tree is plain if its base is. -/
theorem plain_prepared (hb : Plain base) (h : Prepared tools a base t) : Plain t := by
  obtain ⟨now, h⟩ := h
  obtain ⟨-, text, -, rfl⟩ := regenerate_cases h
  exact plain_write_file (plain_write_file (plain_write_file (plain_write_dir hb _ _)
    (Or.inl rfl) _) (Or.inr (Or.inl rfl)) _) (Or.inr (Or.inr rfl)) _

/-- Plain trees with the same directories and the same metadata files are the same there. -/
theorem artifact_eq (h : Plain t) (h' : Plain t') (hdir : ∀ n, t.dir? n = t'.dir? n)
    (hfile : ∀ n, n = META ∨ n = META_MD5 ∨ n = META_SHA1 → t.file? n = t'.file? n) :
    t.artifact = t'.artifact := by
  apply Finmap.ext_lookup
  intro n
  rw [lookup_eq, lookup_eq, hdir]
  cases t'.dir? n with
  | some files => rfl
  | none =>
    by_cases hn : n = META ∨ n = META_MD5 ∨ n = META_SHA1
    · rw [hfile n hn]
    · have hnone : ∀ {u : Tree}, Plain u → u.file? n = none := fun hu =>
        Option.eq_none_iff_forall_ne_some.mpr fun text e => hn (hu n text e)
      rw [hnone h, hnone h']

end Tip

theorem plain_orphanTree (a : Args) : Plain (orphanTree a) := by
  intro n text h
  cases h

/-- **The tip of a sequential history** is plain, carries the README of the repository, and
    holds the metadata of its own directories. -/
theorem sequential_tip {repo branch : String}
    (hr : ∀ i, (args i).repo = repo ∧ (args i).branch = branch) {l : List ι} {h : History}
    (hs : Sequential tools args l h) {c : Commit} (hc : c ∈ h.head?) :
    Plain c.tree ∧
      c.tree.others = Finmap.singleton "README.md" (readmeText repo branch) ∧
      ∃ now, c.tree.file? META = some (printed c.tree now) ∧
        c.tree.file? META_MD5 = some [tools.md5 (printed c.tree now)] ∧
        c.tree.file? META_SHA1 = some [tools.sha1 (printed c.tree now)] := by
  induction hs generalizing c with
  | nil => cases hc
  | publish hl hm ht hch ih =>
    rename_i l h i d
    obtain rfl : d = c := by simpa using hc
    have hbase : Plain (checkedOut (args i) h) ∧ (checkedOut (args i) h).others =
        Finmap.singleton "README.md" (readmeText repo branch) := by
      cases h with
      | nil =>
        obtain ⟨rfl, rfl⟩ := hr i
        exact ⟨plain_orphanTree _, rfl⟩
      | cons d rest => exact ⟨(ih rfl).1, (ih rfl).2.1⟩
    obtain ⟨ho, hfiles⟩ := prepared_files ht
    exact ⟨plain_prepared hbase.1 ht, ho.trans hbase.2, hfiles⟩
  | again hl hm ht hch ih => exact ih hc

/-- After a publish there is a tip. -/
theorem exists_tip {l : List ι} {h : History} (hs : Sequential tools args l h) (hl : l ≠ []) :
    ∃ c rest, h = c :: rest := by
  cases hs with
  | nil => exact absurd rfl hl
  | publish => exact ⟨_, _, rfl⟩
  | again => exact ⟨_, _, rfl⟩

/-! ## 3. Convergence -/

section Converge

variable {ι' : Type} [DecidableEq ι] [DecidableEq ι']

/-- **The tip is a function of what was accepted.** Take any two branches of one repository, each
    after any interleaving of any runs. If for every version the last accepted run staged the
    same files, then the tips have the same directories, the same README and the same listing,
    and are equal if the clocks of the last publishes read the same. -/
theorem branches_converge {repo branch : String} {args : ι → Args} {args' : ι' → Args}
    (hr : ∀ i, (args i).repo = repo ∧ (args i).branch = branch)
    (hr' : ∀ i, (args' i).repo = repo ∧ (args' i).branch = branch)
    {s : System ι} {s' : System ι'} (h : Steps tools args (initial ι) s)
    (h' : Steps tools args' (initial ι') s')
    (hacc : ∀ n, lastAccepted args s.accepted n = lastAccepted args' s'.accepted n)
    {c c' : Commit} {rest rest' : History} (hc : s.remote = c :: rest)
    (hc' : s'.remote = c' :: rest') :
    (∀ n, c.tree.dir? n = c'.tree.dir? n) ∧ c.tree.others = c'.tree.others ∧
      ∃ now now', c.tree.file? META = some (printed c.tree now) ∧
        c'.tree.file? META = some (printed c.tree now') ∧ (now = now' → c.tree = c'.tree) := by
  obtain ⟨hinv, -, hser⟩ := sequential_steps h
  obtain ⟨hinv', -, hser'⟩ := sequential_steps h'
  obtain ⟨hp, ho, now, hm, hmd5, hsha1⟩ := sequential_tip hr hser (c := c) (by rw [hc]; rfl)
  obtain ⟨hp', ho', now', hm', hmd5', hsha1'⟩ :=
    sequential_tip hr' hser' (c := c') (by rw [hc']; rfl)
  have hdir : ∀ n, c.tree.dir? n = c'.tree.dir? n := by
    intro n
    have e := hinv.contents n
    have e' := hinv'.contents n
    rw [hc, dirAt_cons] at e
    rw [hc', dirAt_cons] at e'
    rw [e, e', hacc]
  have hprint : ∀ time, printed c'.tree time = printed c.tree time := fun time => by
    rw [printed, printed, listVersions_congr hdir]
  rw [hprint] at hm' hmd5' hsha1'
  refine ⟨hdir, ho.trans ho'.symm, now, now', hm, hm', fun e => ?_⟩
  subst e
  have hart : c.tree.artifact = c'.tree.artifact := by
    refine artifact_eq hp hp' hdir fun n hn => ?_
    rcases hn with rfl | rfl | rfl
    · rw [hm, hm']
    · rw [hmd5, hmd5']
    · rw [hsha1, hsha1']
  have hoth := ho.trans ho'.symm
  cases ht : c.tree with
  | mk art oth =>
    cases ht' : c'.tree with
    | mk art' oth' =>
      rw [ht, ht'] at hart hoth
      exact congrArg₂ Tree.mk hart hoth

end Converge

/-- A queued run that is left alone publishes, if its version is not there yet. -/
theorem exists_publish [DecidableEq ι] {s : System ι} (hinv : Inv tools args s) {i : ι}
    (hi : s.phase i = .queued) (hf : (args i).files ≠ ∅)
    (hnew : dirAt s.remote (args i).version.name = none) :
    ∃ s', Steps tools args s s' ∧ s'.accepted = i :: s.accepted ∧
      ∀ j, j ≠ i → s'.phase j = s.phase j := by
  let a := args i
  have hov : OnlyVersions (checkedOut a s.remote) :=
    onlyVersions_checkedOut hinv a (List.suffix_refl _)
  -- the metadata names are free, since they are not version names
  have hfree : ∀ n, glob versionGlob n.toList = false → (checkedOut a s.remote).dir? n = none := by
    intro n hn
    cases hd : (checkedOut a s.remote).dir? n with
    | none => rfl
    | some files =>
      obtain ⟨v, rfl⟩ := hov n files hd
      exact absurd rfl (name_ne_of_glob v hn)
  obtain ⟨tree, htree⟩ := exists_prepared tools "" a (checkedOut a s.remote)
    ⟨hfree _ (by decide), hfree _ (by decide), hfree _ (by decide)⟩
  have hchanges : Changes s.remote tree := by
    intro e
    have hdir := (prepared_spec ⟨_, htree⟩).1
    rw [e, dir?_treeOf, hnew] at hdir
    cases hdir
  let s₁ := s.move i (.checkedOut s.remote)
  let s₂ := s₁.move i (.staged s.remote (stage a.version a.files (checkedOut a s.remote)))
  let s₃ := s₂.move i (.regenerated s.remote tree)
  let s₄ := s₃.move i (.committed (⟨tree, commitMessage a.version, 0⟩ :: s.remote))
  have h₁ : Step tools args s s₁ := by
    by_cases hr : s.remote = []
    · have h : Step tools args s (s.move i (.checkedOut [])) := .lookUpAbsent hi
      rwa [← hr] at h
    · exact .lookUp hi hr
  have h₂ : Step tools args s₁ s₂ := .stage (phase_move ..) hf
  have h₃ : Step tools args s₂ s₃ := .regenerate (phase_move ..) htree
  have h₄ : Step tools args s₃ s₄ := .commit (phase_move ..) hchanges
  have h₅ : Step tools args s₄ _ := .push (phase_move ..) (accepts_cons _ _)
  refine ⟨_, ((((ReflTransGen.single h₁).tail h₂).tail h₃).tail h₄).tail h₅, rfl, fun j hj => ?_⟩
  simp [s₄, s₃, s₂, s₁, System.move, Function.update_of_ne hj]

/-- 0.0.1 and 0.0.2, from one repository. -/
def bothReleases : Bool → Args
  | false => firstRelease
  | true => secondRelease

/-- They can be published in either order. -/
theorem exists_both (tools : Tools) (i : Bool) :
    ∃ s s' : System Bool, Steps tools bothReleases (initial Bool) s ∧ s.accepted = [i] ∧
      Steps tools bothReleases s s' ∧ s'.accepted = [!i, i] := by
  have hfiles : ∀ j, (bothReleases j).files ≠ ∅ := fun j => by cases j <;> decide
  have hinit : Inv tools bothReleases (initial Bool) := inv_initial
  obtain ⟨s, hs, hacc, hphase⟩ := exists_publish hinit (i := i) rfl (hfiles i) rfl
  have hinv := steps_inv hinit hs
  have hqueued : s.phase (!i) = .queued := hphase (!i) (by cases i <;> decide)
  have hnew : dirAt s.remote (bothReleases (!i)).version.name = none := by
    rw [hinv.contents, hacc]
    cases i <;> decide
  obtain ⟨s', hs', hacc', -⟩ := exists_publish hinv hqueued (hfiles _) hnew
  exact ⟨s, s', hs, hacc, hs', by rw [hacc', hacc]; rfl⟩

/-- Whichever goes first, the branch ends with the same directories. -/
theorem branches_converge_orders :
    ∃ (tools : Tools) (s s' : System Bool) (c c' : Commit),
      Steps tools bothReleases (initial Bool) s ∧ s.accepted = [true, false] ∧
      Steps tools bothReleases (initial Bool) s' ∧ s'.accepted = [false, true] ∧
      c ∈ s.remote.head? ∧ c' ∈ s'.remote.head? ∧ ∀ n, c.tree.dir? n = c'.tree.dir? n := by
  let tools : Tools := ⟨fun _ => "", fun _ => ""⟩
  obtain ⟨_, s, hs₁, -, hs₂, hacc⟩ := exists_both tools false
  obtain ⟨_, s', hs₁', -, hs₂', hacc'⟩ := exists_both tools true
  have hs := hs₁.trans hs₂
  have hs' := hs₁'.trans hs₂'
  have hsame : ∀ n, lastAccepted bothReleases s.accepted n =
      lastAccepted bothReleases s'.accepted n := by
    intro n
    have h0 : (bothReleases false).version.name = "0.0.1" := by decide
    have h1 : (bothReleases true).version.name = "0.0.2" := by decide
    simp only [hacc, hacc', Bool.not_false, Bool.not_true, lastAccepted, List.find?_cons, h0, h1]
    by_cases hn : "0.0.1" = n
    · subst hn
      rfl
    · by_cases hn' : "0.0.2" = n
      · subst hn'
        rfl
      · simp [hn, hn']
  obtain ⟨c, rest, hc⟩ := exists_tip (sequential_steps hs).2.2
    (by rw [hacc]; exact List.cons_ne_nil _ _)
  obtain ⟨c', rest', hc'⟩ := exists_tip (sequential_steps hs').2.2
    (by rw [hacc']; exact List.cons_ne_nil _ _)
  have hrepo : ∀ i, (bothReleases i).repo = "onymchat/onym-sdk-kotlin" ∧
      (bothReleases i).branch = "releases" := fun i => by cases i <;> exact ⟨rfl, rfl⟩
  exact ⟨tools, s, s', c, c', hs, hacc, hs', hacc', by rw [hc]; rfl, by rw [hc']; rfl,
    (branches_converge hrepo hrepo hs hs' hsame hc hc').1⟩

/-! ## 4. The latest version -/

/-- A version is determined by its name. -/
theorem number_of_name {v w : Version} (h : v.name = w.name) : v.number = w.number := by
  have hdot : dotted v.major v.minor v.patch = dotted w.major w.minor w.patch := by
    have e := congrArg String.toList h
    simpa [Version.name] using e
  have hsplit := congrArg (List.splitOn '.') hdot
  rw [splitOn_dotted, splitOn_dotted] at hsplit
  simp only [List.cons.injEq, and_true] at hsplit
  obtain ⟨h1, h2, h3⟩ := hsplit
  rw [Version.number, Version.number, h1, h2, h3]

/-- **The latest version never goes back.** Over any run, whatever is published in between, a
    later tip lists every version an earlier one listed, and the version it names as latest is
    not smaller. -/
theorem latest_monotone [DecidableEq ι] {s s' : System ι} (h : Steps tools args (initial ι) s)
    (hs : Steps tools args s s') {c : Commit} {rest : History} (hc : s.remote = c :: rest) :
    ∃ c' rest' text text', s'.remote = c' :: rest' ∧ c.tree.file? META = some text ∧
      c'.tree.file? META = some text' ∧ (∀ n ∈ versionsIn text, n ∈ versionsIn text') ∧
      ∃ v v' : Version, latestIn text = [v.name] ∧ latestIn text' = [v'.name] ∧
        v.number ≤ v'.number := by
  have hinv := steps_inv inv_initial h
  have hinv' := steps_inv hinv hs
  obtain ⟨c', rest', hc'⟩ : ∃ c' rest', s'.remote = c' :: rest' := by
    cases hr : s'.remote with
    | nil =>
      have hsuf := steps_remote hs
      rw [hc, hr] at hsuf
      cases List.suffix_nil.mp hsuf
    | cons c' rest' => exact ⟨c', rest', rfl⟩
  obtain ⟨-, text, htext⟩ := hinv.commits c (by rw [hc]; exact List.mem_cons_self)
  obtain ⟨-, text', htext'⟩ := hinv'.commits c' (by rw [hc']; exact List.mem_cons_self)
  have hlists : ∀ n ∈ versionsIn text, n ∈ versionsIn text' := by
    intro n hn
    obtain ⟨files, hf⟩ := (htext.lists n).mp hn
    have hlast : lastAccepted args s.accepted n = some files := by
      rw [← hinv.contents, hc]
      exact hf
    obtain ⟨files', hf'⟩ := lastAccepted_mono (steps_accepted hs) hlast
    rw [← hinv'.contents, hc'] at hf'
    exact (htext'.lists n).mpr ⟨files', hf'⟩
  refine ⟨c', rest', text, text', hc', htext.onDisk, htext'.onDisk, hlists, ?_⟩
  obtain ⟨vs, hvs, -, top, htop, hlatest, -, -⟩ := htext.ascending
  obtain ⟨vs', hvs', -, top', -, hlatest', -, hmax⟩ := htext'.ascending
  refine ⟨top, top', hlatest, hlatest', ?_⟩
  have hmem : top.name ∈ versionsIn text' :=
    hlists _ (by rw [hvs]; exact List.mem_map_of_mem htop)
  rw [hvs'] at hmem
  obtain ⟨w, hw, hname⟩ := List.mem_map.mp hmem
  rw [← number_of_name hname]
  exact hmax w hw

/-- 0.0.1 published after 0.0.2 leaves 0.0.2 listed. -/
theorem latest_monotone_backport :
    ∃ (tools : Tools) (s s' : System Bool) (c : Commit) (rest : History) (text : Text),
      Steps tools bothReleases (initial Bool) s ∧ s.accepted = [true] ∧
      Steps tools bothReleases s s' ∧ s'.accepted = [false, true] ∧
      s'.remote = c :: rest ∧ c.tree.file? META = some text ∧ "0.0.2" ∈ versionsIn text := by
  let tools : Tools := ⟨fun _ => "", fun _ => ""⟩
  obtain ⟨s, s', hs, hacc, hs', hacc'⟩ := exists_both tools true
  have hinv := steps_inv inv_initial hs
  obtain ⟨c, rest, hc⟩ := exists_tip (sequential_steps hs).2.2
    (by rw [hacc]; exact List.cons_ne_nil _ _)
  obtain ⟨-, text₀, hcons⟩ := hinv.commits c (by rw [hc]; exact List.mem_cons_self)
  obtain ⟨c', rest', text, text', hc', htext, htext', hlists, -⟩ := latest_monotone hs hs' hc
  refine ⟨tools, s, s', c', rest', text', hs, hacc, hs', hacc', hc', htext', hlists _ ?_⟩
  rw [hcons.onDisk] at htext
  cases htext
  have hdir : dirAt s.remote "0.0.2" = some secondRelease.files := by
    rw [hinv.contents, hacc]
    decide
  rw [hc] at hdir
  exact (hcons.lists _).mpr ⟨_, hdir⟩

end OnymSdk.Release
