/-
  File:      OnymSdk/Release/Attach.lean
  Subject:   THE GITHUB RELEASES, next to the tags and the releases branch.

  The last step of a run attaches the AAR and the POM of its own workspace to a
  release of the tag it has just pushed. Any number of runs, for any tags and
  main commits, take their steps in any order; each can stop after any step.

  * `attach` -- what the step attaches, or the file it misses;
  * `Site.Step` -- the steps of Workflow.lean, the workspaces, and attaching;
  * `Site.Inv` -- a run that has pushed its tag still has the workspace it built
    from the tagged commit;
  * `releases_pinned` -- **in every interleaving a release holds what was built from
    its tag's commit, for good**, whatever becomes of the branch;
  * `Site.Current`, `releases_served` -- **if runs do not overlap on a tag, the branch
    serves the very files that are attached**.
-/
import OnymSdk.Release.Workflow

namespace OnymSdk.Release

open Traces

/-! ## 1. The files of a release -/

/-- `onym-sdk-${VERSION}.aar`. -/
def aarName (v : Version) : String := "onym-sdk-" ++ v.name ++ ".aar"

/-- `onym-sdk-${VERSION}.pom`. -/
def pomName (v : Version) : String := "onym-sdk-" ++ v.name ++ ".pom"

/-- What the build leaves on a run's runner: `build/libs`, and the version's directory of
    `build/maven-local`. -/
structure Workspace where
  libs : Files
  maven : Files

/-- **Create GitHub Release**: the AAR and the POM, both of which have to be there. -/
def attach (v : Version) (w : Workspace) : Except String Files :=
  match w.libs.lookup (aarName v) with
  | none => .error ("missing build/libs/" ++ aarName v)
  | some aar =>
    match w.maven.lookup (pomName v) with
    | none =>
      .error ("missing build/maven-local/chat/onym/onym-sdk/" ++ v.name ++ "/" ++ pomName v)
    | some pom => .ok ((Finmap.singleton (aarName v) aar).insert (pomName v) pom)

/-- Every attached file is one of the workspace, under its own name. -/
theorem attach_lookup {v : Version} {w : Workspace} {assets : Files}
    (h : attach v w = .ok assets) {name : String} {bytes : List UInt8}
    (hn : assets.lookup name = some bytes) :
    (name = aarName v ∧ w.libs.lookup name = some bytes) ∨
      (name = pomName v ∧ w.maven.lookup name = some bytes) := by
  unfold attach at h
  split at h
  · cases h
  · rename_i aar haar
    split at h
    · cases h
    · rename_i pom hpom
      cases h
      by_cases hp : name = pomName v
      · subst hp
        rw [Finmap.lookup_insert] at hn
        exact Or.inr ⟨rfl, hpom.trans hn⟩
      · rw [Finmap.lookup_insert_of_ne _ hp] at hn
        by_cases ha : name = aarName v
        · subst ha
          rw [Finmap.lookup_singleton_eq] at hn
          exact Or.inl ⟨rfl, haar.trans hn⟩
        · rw [Finmap.lookup_eq_none.mpr fun hm => ha (Finmap.mem_singleton _ _ _ |>.mp hm)] at hn
          cases hn

theorem aarName_ne_pomName (v w : Version) : aarName v ≠ pomName w := by
  intro e
  have hlast := congrArg (fun s => s.toList.reverse.head?) e
  simp [aarName, pomName] at hlast

/-- The AAR is among them. -/
theorem attach_aar {v : Version} {w : Workspace} {assets : Files} (h : attach v w = .ok assets) :
    ∃ aar, w.libs.lookup (aarName v) = some aar ∧ assets.lookup (aarName v) = some aar := by
  unfold attach at h
  split at h
  · cases h
  · rename_i aar haar
    split at h
    · cases h
    · cases h
      refine ⟨aar, haar, ?_⟩
      rw [Finmap.lookup_insert_of_ne _ (aarName_ne_pomName v v), Finmap.lookup_singleton_eq]

/-! ## 2. The system -/

/-- The origin; what each run's runner holds; the runs that have pushed their tag and are to
    attach; and the GitHub Releases, by tag. -/
structure Site (ι : Type) where
  origin : Origin ι
  work : ι → Option Workspace
  tagged : ι → Bool
  assets : String → Option Files

/-- Before the first release. -/
def site (ι : Type) : Site ι := ⟨origin ι, fun _ => none, fun _ => false, fun _ => none⟩

/-- The steps: those of the workflow so far, and attaching. -/
inductive SiteEvent (ι : Type) where
  | run (e : Event ι)
  | attach (i : ι)

/-- The steps that neither change a workspace nor come last. -/
def Event.isPlain {ι : Type} : Event ι → Bool
  | .checkout _ | .validate _ _ | .publish _ => true
  | _ => false

/-- A workflow, with what Gradle leaves in `build/libs` on the same occasion. -/
structure Assembly (ι : Type) extends Workflow ι where
  libs : History → Nat → Files

variable {ι : Type}

/-- What a build of a main commit leaves on the runner. -/
def Assembly.workspace (A : Assembly ι) (head : History) (k : Nat) : Workspace :=
  ⟨A.libs head k, A.build head k⟩

/-- The tag a run is for. -/
def Assembly.tag (A : Assembly ι) (i : ι) : String := tagOf (A.version i)

/-- One step of one run. A run that fails to attach stops. -/
inductive Assembly.Step [DecidableEq ι] (A : Assembly ι) :
    Site ι → SiteEvent ι → Site ι → Prop where
  | plain {s e o} (he : e.isPlain = true) (h : A.toWorkflow.Step s.origin e o) :
      A.Step s (.run e) { s with origin := o }
  | build {s i head} (k : Nat) (hi : s.origin.phase i = .validated head) :
      A.Step s (.run (.build i)) { s with
        origin := s.origin.move i (.built head (A.build head k)),
        work := Function.update s.work i (some (A.workspace head k)) }
  | tag {s i o} (h : A.toWorkflow.Step s.origin (.tag i) o) :
      A.Step s (.run (.tag i)) { s with
        origin := o, tagged := Function.update s.tagged i true }
  | attach {s i w assets} (hi : s.tagged i = true) (hw : s.work i = some w)
      (ha : attach (A.version i) w = .ok assets) (hn : s.assets (A.tag i) = none) :
      A.Step s (.attach i) { s with
        assets := Function.update s.assets (A.tag i) (some assets),
        tagged := Function.update s.tagged i false }
  | stop {s i} : A.Step s (.run (.stop i)) { s with
      origin := s.origin.move i .ended, tagged := Function.update s.tagged i false }

/-! ## 3. What the runs hold -/

theorem withoutV_tagOf (v : Version) : withoutV (tagOf v) = v.name := by
  unfold withoutV
  rw [toList_tagOf]
  rfl

/-- The build file of the commit has the version. -/
def Names (head : History) (v : Version) : Prop := gradleVersion (gradleText head) = v.name

/-- What a run holds in its stage. -/
def Assembly.RunOk (A : Assembly ι) (tags : String → Option History) (i : ι) (w : Option Workspace)
    (tagged : Bool) : Stage → Prop
  | .queued | .checkedOut _ _ => tagged = false
  | .validated head => tagged = false ∧ Names head (A.version i)
  | .built head files => tagged = false ∧ Names head (A.version i) ∧
      ∃ k, w = some (A.workspace head k) ∧ files = A.build head k
  | .published head => tagged = false ∧ Names head (A.version i) ∧
      ∃ k, w = some (A.workspace head k)
  | .ended => tagged = true → ∃ head k, w = some (A.workspace head k) ∧ tags (A.tag i) = some head

/-- Every release holds the AAR and the POM of a build of its tag's commit. -/
def Assembly.Attached (A : Assembly ι) (s : Site ι) : Prop :=
  ∀ tag assets, s.assets tag = some assets → ∃ (v : Version) (c : History) (k : Nat),
    tag = tagOf v ∧ s.origin.tags tag = some c ∧ attach v (A.workspace c k) = .ok assets

/-- Every tag is that of a version, at a commit whose build file has that version. -/
def Labelled (s : Origin ι) : Prop :=
  ∀ tag c, s.tags tag = some c → ∃ v : Version, tag = tagOf v ∧ Names c v

/-- The invariant of every run. -/
structure Assembly.Inv (A : Assembly ι) (s : Site ι) : Prop where
  runs : ∀ i, A.RunOk s.origin.tags i (s.work i) (s.tagged i) (s.origin.phase i)
  labelled : Labelled s.origin
  attached : A.Attached s

theorem inv_site (A : Assembly ι) : A.Inv (site ι) := by
  refine ⟨fun _ => rfl, ?_, ?_⟩
  · intro _ _ h
    cases h
  · intro _ _ h
    cases h

/-- Tags are never moved or taken away. -/
def TagsKept (tags tags' : String → Option History) : Prop :=
  ∀ tag c, tags tag = some c → tags' tag = some c

theorem runOk_mono {A : Assembly ι} {tags tags' : String → Option History} (h : TagsKept tags tags')
    {i : ι} {w : Option Workspace} {tagged : Bool} {p : Stage} (hp : A.RunOk tags i w tagged p) :
    A.RunOk tags' i w tagged p := by
  cases p with
  | ended =>
    intro ht
    obtain ⟨head, k, hw, htag⟩ := hp ht
    exact ⟨head, k, hw, h _ _ htag⟩
  | _ => exact hp

/-- A run that is to attach has ended but for that, and holds a build of its tag's commit. -/
theorem runOk_tagged {A : Assembly ι} {tags : String → Option History} {i : ι}
    {w : Option Workspace} {p : Stage} (h : A.RunOk tags i w true p) :
    p = .ended ∧ ∃ head k, w = some (A.workspace head k) ∧ tags (A.tag i) = some head := by
  cases p with
  | ended => exact ⟨rfl, h rfl⟩
  | queued | checkedOut => cases h
  | validated | built | published => cases h.1

theorem attached_mono {A : Assembly ι} {s s' : Site ι} (h : A.Attached s)
    (ht : TagsKept s.origin.tags s'.origin.tags) (ha : s'.assets = s.assets) : A.Attached s' := by
  intro tag assets hx
  rw [ha] at hx
  obtain ⟨v, c, k, hv, hc, hk⟩ := h tag assets hx
  exact ⟨v, c, k, hv, ht _ _ hc, hk⟩

section Steps

variable [DecidableEq ι] {A : Assembly ι} {s s' : Site ι}

/-- A release of a build of its tag's commit is added. -/
theorem attached_insert (h : A.Attached s) {i : ι} {head : History} {k : Nat} {assets : Files}
    (htag : s.origin.tags (A.tag i) = some head)
    (ha : attach (A.version i) (A.workspace head k) = .ok assets) :
    A.Attached { s with
      assets := Function.update s.assets (A.tag i) (some assets),
      tagged := Function.update s.tagged i false } := by
  intro tag x hx
  by_cases ht : tag = A.tag i
  · subst ht
    obtain rfl : assets = x := by simpa using hx
    exact ⟨A.version i, head, k, rfl, htag, ha⟩
  · exact h tag x (by simpa [Function.update_of_ne ht] using hx)

theorem tagsKept_pushTag {o : Origin ι} {i : ι} {tag : String} {head : History}
    (h : o.tags tag = none) : TagsKept o.tags (o.pushTag i tag head).tags := by
  intro t c hc
  by_cases ht : t = tag
  · subst ht
    rw [h] at hc
    cases hc
  · rwa [Origin.tags_pushTag_of_ne _ _ ht]

/-- No step of a run takes a tag away. -/
theorem tagsKept_step {W : Workflow ι} {o o' : Origin ι} {e : Event ι} (h : W.Step o e o') :
    TagsKept o.tags o'.tags := by
  cases h with
  | tag hi ht => exact tagsKept_pushTag ht
  | _ => exact fun _ _ hc => hc

/-- One run goes on; what the others hold stays. -/
theorem runs_update (h : A.Inv s) {o : Origin ι} (ht : TagsKept s.origin.tags o.tags) {i : ι}
    {p : Stage} {w : Option Workspace} {b : Bool}
    (hp : o.phase = Function.update s.origin.phase i p)
    (hi : A.RunOk o.tags i w b p) (j : ι) :
    A.RunOk o.tags j (Function.update s.work i w j) (Function.update s.tagged i b j)
      (o.phase j) := by
  rw [hp]
  by_cases hj : j = i
  · subst hj
    simpa only [Function.update_self] using hi
  · simp only [Function.update_of_ne hj]
    exact runOk_mono ht (h.runs j)

/-- One run goes on in its workspace. -/
theorem runs_move (h : A.Inv s) {o : Origin ι} (ht : TagsKept s.origin.tags o.tags) {i : ι}
    {p : Stage} (hp : o.phase = Function.update s.origin.phase i p)
    (hi : A.RunOk o.tags i (s.work i) (s.tagged i) p) (j : ι) :
    A.RunOk o.tags j (s.work j) (s.tagged j) (o.phase j) := by
  have hj := runs_update h ht hp hi j
  rwa [Function.update_eq_self, Function.update_eq_self] at hj

theorem runOk_step {o : Origin ι} {e : Event ι} (h : A.Inv s) (he : e.isPlain = true)
    (hs : A.toWorkflow.Step s.origin e o) (j : ι) :
    A.RunOk o.tags j (s.work j) (s.tagged j) (o.phase j) := by
  have hkept := tagsKept_step hs
  cases hs with
  | checkout hi =>
    rename_i i _
    have hrun := h.runs i
    rw [hi] at hrun
    exact runs_move h hkept rfl hrun j
  | validate hi hv =>
    rename_i i _ _ _
    have hrun := h.runs i
    rw [hi] at hrun
    have hname := (validate_ok hv).2.2.2
    rw [withoutV_tagOf] at hname
    exact runs_move h hkept rfl ⟨hrun, hname⟩ j
  | publish hi hf hb hp =>
    rename_i i _ _ _ _ _
    have hrun := h.runs i
    rw [hi] at hrun
    obtain ⟨ht, hname, k, hw, -⟩ := hrun
    exact runs_move h hkept rfl ⟨ht, hname, k, hw⟩ j
  | build k hi => cases he
  | tag hi ht => cases he
  | stop => cases he

theorem labelled_step {o : Origin ι} {e : Event ι} (h : A.Inv s)
    (hs : A.toWorkflow.Step s.origin e o) : Labelled o := by
  cases hs with
  | tag hi ht =>
    rename_i i head
    have hrun := h.runs i
    rw [hi] at hrun
    intro tag c hc
    by_cases hn : tag = tagOf (A.version i)
    · subst hn
      rw [Origin.tags_pushTag_self] at hc
      cases hc
      exact ⟨A.version i, rfl, hrun.2.1⟩
    · rw [Origin.tags_pushTag_of_ne _ _ hn] at hc
      exact h.labelled tag c hc
  | _ => exact h.labelled

/-- The step lemma. -/
theorem site_step_inv {e : SiteEvent ι} (h : A.Inv s) (hs : A.Step s e s') : A.Inv s' := by
  cases hs with
  | plain he hs =>
    exact ⟨runOk_step (s := s) h he hs, labelled_step h hs,
      attached_mono h.attached (tagsKept_step hs) rfl⟩
  | build k hi =>
    rename_i i head
    have hrun := h.runs i
    rw [hi] at hrun
    have hstep := Workflow.Step.build (W := A.toWorkflow) k hi
    refine ⟨fun j => ?_, labelled_step h hstep, attached_mono h.attached (tagsKept_step hstep) rfl⟩
    have hj := runs_update h (tagsKept_step hstep) (i := i) (w := some (A.workspace head k))
      (b := s.tagged i) rfl ⟨hrun.1, hrun.2, k, rfl, rfl⟩ j
    rwa [Function.update_eq_self] at hj
  | tag hs =>
    rename_i i o
    have hkept := tagsKept_step hs
    refine ⟨fun j => ?_, labelled_step h hs, attached_mono h.attached hkept rfl⟩
    cases hs with
    | tag hi ht =>
      rename_i head
      have hrun := h.runs i
      rw [hi] at hrun
      obtain ⟨-, -, k, hw⟩ := hrun
      have hj := runs_update h hkept (i := i) (w := s.work i) (b := true) (p := .ended) rfl
        (fun _ => ⟨head, k, hw, Origin.tags_pushTag_self ..⟩) j
      rwa [Function.update_eq_self] at hj
  | attach hi hw ha hn =>
    rename_i i w assets
    have hrun := h.runs i
    rw [hi] at hrun
    obtain ⟨hend, head, k, hk, htag⟩ := runOk_tagged hrun
    obtain rfl : w = A.workspace head k := Option.some.inj (hw.symm.trans hk)
    refine ⟨fun j => ?_, h.labelled, attached_insert h.attached htag ha⟩
    have hphase : s.origin.phase = Function.update s.origin.phase i .ended := by
      rw [← hend, Function.update_eq_self]
    have hj := runs_update h (o := s.origin) (fun _ _ hc => hc) (w := s.work i) (b := false) hphase
      (fun hb => by cases hb) j
    rwa [Function.update_eq_self] at hj
  | stop =>
    rename_i i
    refine ⟨fun j => ?_, h.labelled, attached_mono h.attached (fun _ _ hc => hc) rfl⟩
    have hj := runs_update h (o := s.origin.move i .ended) (fun _ _ hc => hc) (i := i)
      (w := s.work i) (b := false) (p := .ended) rfl (fun hb => by cases hb) j
    rwa [Function.update_eq_self] at hj

/-- Assets are never replaced or taken away. -/
theorem assets_step {e : SiteEvent ι} (hs : A.Step s e s') {tag : String} {assets : Files}
    (h : s.assets tag = some assets) : s'.assets tag = some assets := by
  cases hs with
  | attach hi hw ha hn =>
    rename_i i w x
    have ht : tag ≠ A.tag i := by
      intro ht
      rw [ht, hn] at h
      cases h
    exact (Function.update_of_ne ht _ _).trans h
  | _ => exact h

theorem siteTags_step {e : SiteEvent ι} (hs : A.Step s e s') :
    TagsKept s.origin.tags s'.origin.tags := by
  cases hs with
  | plain he hs => exact tagsKept_step hs
  | tag hs => exact tagsKept_step hs
  | _ => exact fun _ _ hc => hc

/-- **What a release holds was built from its tag's commit.** Along every run, however the
    steps interleave: a release has the AAR and the POM of a build of the commit its tag is at,
    that commit's build file has the tag's version, and neither tag nor assets ever change. -/
theorem releases_pinned {tr : List (SiteEvent ι × Site ι)} (h : Exec A.Step (site ι) tr) :
    Along (fun s _ s' => A.Attached s' ∧ Labelled s'.origin ∧
      (∀ tag c, s.origin.tags tag = some c → s'.origin.tags tag = some c) ∧
      ∀ tag assets, s.assets tag = some assets → s'.assets tag = some assets) (site ι) tr := by
  refine along_mono A.Inv A.Step _ (fun s e s' hinv hs _ => ?_) (inv_site A) h (along_exec h)
  have hinv' := site_step_inv hinv hs
  exact ⟨hinv', hinv'.attached, hinv'.labelled, siteTags_step hs, fun _ _ => assets_step hs⟩

end Steps

/-! ## 4. The branch serves what is attached -/

/-- The run has published, and has its tag or its release before it. -/
def Site.Done (s : Site ι) (i : ι) : Prop :=
  (∃ head, s.origin.phase i = .published head) ∨ s.tagged i = true

/-- Every attached file is one of the version's directory on the branch. -/
def Site.Served (s : Site ι) : Prop :=
  ∀ tag assets, s.assets tag = some assets → ∃ (v : Version) (files : Files), tag = tagOf v ∧
    dirAt s.origin.releases v.name = some files ∧
    ∀ name bytes, assets.lookup name = some bytes → files.lookup name = some bytes

/-- Validations as for `Workflow.Serial`. -/
def Assembly.Serial (A : Assembly ι) (s : Site ι) : SiteEvent ι → Prop
  | .run e => A.toWorkflow.Serial s.origin e
  | .attach _ => True

/-- The publication of the AAR is a copy of the one in `build/libs`. -/
def Assembly.Copies (A : Assembly ι) : Prop :=
  ∀ c k v, (A.libs c k).lookup (aarName v) = (A.build c k).lookup (aarName v)

/-- The invariant of runs that do not overlap on a tag: what a run has published is still the
    last for its version while it goes on, and what is attached stays on the branch. -/
structure Assembly.Current (A : Assembly ι) (s : Site ι) : Prop where
  exclusive : A.toWorkflow.Exclusive s.origin
  logged : Logged s.origin
  last : ∀ i w, s.Done i → s.work i = some w →
    dirAt s.origin.releases (A.version i).name = some w.maven
  served : s.Served

theorem current_site (A : Assembly ι) : A.Current (site ι) := by
  refine ⟨exclusive_origin _, logged_origin, ?_, ?_⟩
  · intro i w _ hw
    cases hw
  · intro tag assets hx
    cases hx

/-- With the copy, what is attached is what was published. -/
theorem attach_served {A : Assembly ι} (hcopy : A.Copies) {v : Version} {c : History} {k : Nat}
    {assets : Files} (h : attach v (A.workspace c k) = .ok assets) {name : String}
    {bytes : List UInt8} (hn : assets.lookup name = some bytes) :
    (A.build c k).lookup name = some bytes := by
  rcases attach_lookup h hn with ⟨rfl, hl⟩ | ⟨rfl, hl⟩
  · exact (hcopy c k v).symm.trans hl
  · exact hl

section Serialized

variable {A : Assembly ι} {s s' : Site ι}

/-- A done run that has its tag cannot be overtaken by one that still waits for the same tag. -/
theorem name_ne_of_done (hinv : A.Inv s) (h : A.Current s) {i j : ι} (hj : s.Done j) (hne : j ≠ i)
    (hi : (s.origin.phase i).active = true) : (A.version j).name ≠ (A.version i).name := by
  intro hname
  have htag : tagOf (A.version j) = tagOf (A.version i) := congrArg ("v" ++ ·) hname
  obtain ⟨hfree, halone⟩ := h.exclusive.of_active hi
  rcases hj with ⟨head, hp⟩ | ht
  · exact halone j hne (by rw [hp]; rfl) htag
  · have hrun := hinv.runs j
    rw [ht] at hrun
    obtain ⟨-, head, k, -, hc⟩ := runOk_tagged hrun
    rw [Assembly.tag, htag, hfree] at hc
    cases hc

/-- A released version is not being published. -/
theorem name_ne_of_assets (hinv : A.Inv s) (h : A.Current s) {i : ι} {v : Version} {assets : Files}
    (hx : s.assets (tagOf v) = some assets) (hi : (s.origin.phase i).active = true) :
    v.name ≠ (A.version i).name := by
  intro hname
  obtain ⟨-, c, -, -, hc, -⟩ := hinv.attached _ _ hx
  have htag : tagOf v = tagOf (A.version i) := congrArg ("v" ++ ·) hname
  rw [htag, (h.exclusive.of_active hi).1] at hc
  cases hc

/-- A step that leaves the branch alone keeps what is last and what is served, if the runs that
    are done after it were done before it in the same workspace. -/
theorem current_of_done (h : A.Current s) {s' : Site ι}
    (hex : A.toWorkflow.Exclusive s'.origin) (hlog : Logged s'.origin)
    (hr : s'.origin.releases = s.origin.releases) (ha : s'.assets = s.assets)
    (hd : ∀ j, s'.Done j → s.Done j ∧ s'.work j = s.work j) : A.Current s' := by
  refine ⟨hex, hlog, ?_, ?_⟩
  · intro j w hj hw
    obtain ⟨hdone, hwork⟩ := hd j hj
    rw [hr]
    exact h.last j w hdone (hwork ▸ hw)
  · intro tag assets hx
    rw [hr]
    exact h.served tag assets (ha ▸ hx)

variable [DecidableEq ι]

/-- A run moves on without becoming done. -/
theorem done_move {i : ι} {p : Stage} {w : Option Workspace} (hp : ∀ head, p ≠ .published head)
    (hi : s.tagged i = false) {j : ι}
    (hj : Site.Done { s with
      origin := s.origin.move i p, work := Function.update s.work i w } j) :
    s.Done j ∧ Function.update s.work i w j = s.work j := by
  by_cases hji : j = i
  · subst hji
    rcases hj with ⟨head, hph⟩ | ht
    · exact absurd ((Function.update_self ..).symm.trans hph) (hp head)
    · rw [hi] at ht
      cases ht
  · refine ⟨?_, Function.update_of_ne hji ..⟩
    rcases hj with ⟨head, hph⟩ | ht
    · exact Or.inl ⟨head, (Function.update_of_ne hji ..).symm.trans hph⟩
    · exact Or.inr ht

theorem done_phase {i : ι} {p : Stage} (hp : ∀ head, p ≠ .published head) (hi : s.tagged i = false)
    {j : ι} (hj : Site.Done { s with origin := s.origin.move i p } j) : s.Done j := by
  refine (done_move (w := s.work i) hp hi (j := j) ?_).1
  rwa [Function.update_eq_self]

/-- A run publishes: its files are the last for its version, and no done run or release is for
    that version. -/
theorem current_publish (hinv : A.Inv s) (h : A.Current s) {i : ι} {head r : History}
    {files : Files} (hi : s.origin.phase i = .built head files) (hdir : dirAt r (A.version i).name = some files)
    (hother : ∀ n, n ≠ (A.version i).name → dirAt r n = dirAt s.origin.releases n)
    (hex : A.toWorkflow.Exclusive (s.origin.publish i head r ⟨(A.version i).name, files⟩))
    (hlog : Logged (s.origin.publish i head r ⟨(A.version i).name, files⟩)) :
    A.Current { s with origin := s.origin.publish i head r ⟨(A.version i).name, files⟩ } := by
  have hact : (s.origin.phase i).active = true := by rw [hi]; rfl
  refine ⟨hex, hlog, ?_, ?_⟩
  · intro j w hj hw
    show dirAt r (A.version j).name = some w.maven
    by_cases hji : j = i
    · subst hji
      have hrun := hinv.runs j
      rw [hi] at hrun
      obtain ⟨-, -, k, hk, rfl⟩ := hrun
      obtain rfl : w = A.workspace head k := Option.some.inj (hw.symm.trans hk)
      exact hdir
    · have hdone : s.Done j := by
        rcases hj with ⟨head', hp⟩ | ht
        · exact Or.inl ⟨head', (Function.update_of_ne hji ..).symm.trans hp⟩
        · exact Or.inr ht
      rw [hother _ (name_ne_of_done hinv h hdone hji hact)]
      exact h.last j w hdone hw
  · intro tag assets hx
    obtain ⟨v, old, rfl, hv, hsub⟩ := h.served tag assets hx
    refine ⟨v, old, rfl, ?_, hsub⟩
    show dirAt r v.name = some old
    rw [hother _ (name_ne_of_assets hinv h hx hact), hv]

/-- A run on its own releases its version, and attaches its files. -/
theorem exists_attached (A : Assembly ι) (i : ι) (head : History) {assets : Files}
    (hv : validate (A.tag i) none none (gradleText head) = .ok ()) (hne : A.build head 0 ≠ ∅)
    (hh : head ≠ []) (ha : attach (A.version i) (A.workspace head 0) = .ok assets) :
    ∃ tr, Exec A.Step (site ι) tr ∧ Along (fun s e _ => A.Serial s e) (site ι) tr ∧
      (final (site ι) tr).assets (A.tag i) = some assets := by
  let s₁ : Site ι := { site ι with origin := (origin ι).move i (.checkedOut head none) }
  let s₂ : Site ι := { s₁ with origin := s₁.origin.move i (.validated head) }
  let s₃ : Site ι := { s₂ with
    origin := s₂.origin.move i (.built head (A.build head 0)),
    work := Function.update s₂.work i (some (A.workspace head 0)) }
  have hi₁ : s₁.origin.phase i = .checkedOut head none := Function.update_self ..
  have hi₂ : s₂.origin.phase i = .validated head := Function.update_self ..
  have hi₃ : s₃.origin.phase i = .built head (A.build head 0) := Function.update_self ..
  have hl₃ : Logged s₃.origin := ⟨fun _ => rfl, ruleless_empty⟩
  obtain ⟨r, h₄, -, -⟩ := exists_publish_step A.toWorkflow i hl₃ hi₃ hne hh ⟨rfl, rfl, rfl⟩
  let s₄ : Site ι := { s₃ with
    origin := s₃.origin.publish i head r ⟨(A.version i).name, A.build head 0⟩ }
  have hi₄ : s₄.origin.phase i = .published head := Function.update_self ..
  let s₅ : Site ι := { s₄ with
    origin := s₄.origin.pushTag i (tagOf (A.version i)) head,
    tagged := Function.update s₄.tagged i true }
  have hw : s₅.work i = some (A.workspace head 0) := Function.update_self ..
  have ht : s₅.tagged i = true := Function.update_self ..
  let s₆ : Site ι := { s₅ with
    assets := Function.update s₅.assets (A.tag i) (some assets),
    tagged := Function.update s₅.tagged i false }
  refine ⟨[(.run (.checkout i), s₁), (.run (.validate i true), s₂), (.run (.build i), s₃),
    (.run (.publish i), s₄), (.run (.tag i), s₅), (.attach i, s₆)], ?_, ?_, ?_⟩
  · exact ⟨.plain rfl (.checkout rfl), .plain rfl (.validate hi₁ hv), .build 0 hi₂, .plain rfl h₄,
      .tag (.tag hi₄ rfl), .attach ht hw ha rfl, trivial⟩
  · refine ⟨trivial, ⟨rfl, fun j hj => ?_⟩, trivial, trivial, trivial, trivial, trivial⟩
    rw [show s₁.origin = (origin ι).move i (.checkedOut head none) from rfl, phase_move_cases] at hj
    split at hj
    · cases hj
    · cases hj
  · exact Function.update_self ..

/-- The step lemma of serialized runs. -/
theorem current_step (hcopy : A.Copies) {e : SiteEvent ι} (hinv : A.Inv s) (h : A.Current s)
    (hs : A.Step s e s') (hser : A.Serial s e) : A.Current s' := by
  cases hs with
  | plain he hs =>
    have hex := (serial_step h.exclusive hs hser).1
    have hlog := logged_step h.logged hs
    cases hs with
    | checkout hi =>
      rename_i i head
      have hrun := hinv.runs i
      rw [hi] at hrun
      refine current_of_done h hex hlog rfl rfl fun j hj => ⟨done_phase ?_ hrun hj, rfl⟩
      intro _ hp
      cases hp
    | validate hi hv =>
      rename_i i head _ _
      have hrun := hinv.runs i
      rw [hi] at hrun
      refine current_of_done h hex hlog rfl rfl fun j hj => ⟨done_phase ?_ hrun hj, rfl⟩
      intro _ hp
      cases hp
    | publish hi hf hb hp =>
      obtain ⟨hdir, hother, -⟩ := publish_step_dirs h.logged hf hb hp
      exact current_publish hinv h hi hdir hother hex hlog
    | build k hi => cases he
    | tag hi ht => cases he
    | stop => cases he
  | build k hi =>
    rename_i i head
    have hrun := hinv.runs i
    rw [hi] at hrun
    have hstep := Workflow.Step.build (W := A.toWorkflow) k hi
    refine current_of_done h (serial_step h.exclusive hstep trivial).1 (logged_step h.logged hstep)
      rfl rfl fun j hj => ?_
    exact done_move (fun _ hp => by cases hp) hrun.1 hj
  | tag hs =>
    rename_i i o
    have hex := (serial_step h.exclusive hs trivial).1
    have hlog := logged_step h.logged hs
    cases hs with
    | tag hi ht =>
      rename_i head
      refine current_of_done h hex hlog rfl rfl fun j hj => ⟨?_, rfl⟩
      by_cases hji : j = i
      · subst hji
        exact Or.inl ⟨head, hi⟩
      · rcases hj with ⟨head', hp⟩ | htag
        · exact Or.inl ⟨head', (Function.update_of_ne hji ..).symm.trans hp⟩
        · exact Or.inr ((Function.update_of_ne hji ..).symm.trans htag)
  | attach hi hw ha hn =>
    rename_i i w assets
    have hlast := h.last i w (Or.inr hi) hw
    refine ⟨h.exclusive, h.logged, ?_, ?_⟩
    · intro j w' hj hw'
      refine h.last j w' ?_ hw'
      rcases hj with hp | ht
      · exact Or.inl hp
      · by_cases hji : j = i
        · subst hji
          exact Or.inr hi
        · exact Or.inr ((Function.update_of_ne hji ..).symm.trans ht)
    · intro tag x hx
      by_cases ht : tag = A.tag i
      · subst ht
        obtain rfl : assets = x := by simpa using hx
        have hrun := hinv.runs i
        rw [hi] at hrun
        obtain ⟨-, head, k, hk, -⟩ := runOk_tagged hrun
        obtain rfl : w = A.workspace head k := Option.some.inj (hw.symm.trans hk)
        exact ⟨A.version i, _, rfl, hlast, fun _ _ => attach_served hcopy ha⟩
      · exact h.served tag x (by simpa [Function.update_of_ne ht] using hx)
  | stop =>
    rename_i i
    have hstep := Workflow.Step.stop (W := A.toWorkflow) (s := s.origin) (i := i)
    refine current_of_done h (serial_step h.exclusive hstep trivial).1 (logged_step h.logged hstep)
      rfl rfl fun j hj => ⟨?_, rfl⟩
    have hji : j ≠ i := by
      intro hji
      subst hji
      rcases hj with ⟨head, hp⟩ | ht
      · cases (Function.update_self ..).symm.trans hp
      · cases (Function.update_self ..).symm.trans ht
    rcases hj with ⟨head, hp⟩ | ht
    · exact Or.inl ⟨head, (Function.update_of_ne hji ..).symm.trans hp⟩
    · exact Or.inr ((Function.update_of_ne hji ..).symm.trans ht)

/-- A serialized step keeps tags and artifacts together. -/
theorem pinned_step {e : SiteEvent ι} (h : A.Current s) (hp : A.toWorkflow.Pinned s.origin)
    (hs : A.Step s e s') (hser : A.Serial s e) :
    A.toWorkflow.Pinned s'.origin ∧ Frozen s.origin s'.origin := by
  have hstep : ∀ {e o}, A.toWorkflow.Step s.origin e o → A.toWorkflow.Serial s.origin e →
      A.toWorkflow.Pinned o ∧ Frozen s.origin o := fun hs hser =>
    (pins_step_iff h.logged hp hs).mpr (serial_step h.exclusive hs hser).2
  cases hs with
  | plain he hs => exact hstep hs hser
  | build k hi => exact hstep (.build k hi) trivial
  | tag hs => exact hstep hs trivial
  | attach hi hw ha hn => exact ⟨hp, fun _ _ _ => rfl⟩
  | stop => exact hstep .stop trivial

/-- What holds in every state of runs whose validations are serialized. -/
structure Assembly.Settled (A : Assembly ι) (s : Site ι) : Prop where
  inv : A.Inv s
  current : A.Current s
  pinned : A.toWorkflow.Pinned s.origin

omit [DecidableEq ι] in
theorem settled_site (A : Assembly ι) : A.Settled (site ι) :=
  ⟨inv_site A, current_site A, pinned_origin _⟩

theorem settled_step (hcopy : A.Copies) {e : SiteEvent ι} (h : A.Settled s) (hs : A.Step s e s')
    (hser : A.Serial s e) : A.Settled s' ∧ Frozen s.origin s'.origin := by
  have hcur := current_step hcopy h.inv h.current hs hser
  obtain ⟨hpin, hfrozen⟩ := pinned_step h.current h.pinned hs hser
  exact ⟨⟨site_step_inv h.inv hs, hcur, hpin⟩, hfrozen⟩

/-- **The branch serves what is attached.** Where every validation gets its answer from origin
    and finds no other run for its tag active: after every step, the directory of each tag holds
    a build of its commit, which no step changes, and every file of a release is the file of that
    name in the version's directory. -/
theorem releases_served (hcopy : A.Copies) {tr : List (SiteEvent ι × Site ι)}
    (h : Exec A.Step (site ι) tr) (hser : Along (fun s e _ => A.Serial s e) (site ι) tr) :
    Along (fun s _ s' => s'.Served ∧ A.toWorkflow.Pinned s'.origin ∧ Frozen s.origin s'.origin)
      (site ι) tr := by
  refine along_mono A.Settled _ _ (fun s e s' hset hs hp => ?_) (settled_site A) h hser
  obtain ⟨hset', hfrozen⟩ := settled_step hcopy hset hs hp
  exact ⟨hset', hset'.current.served, hset'.pinned, hfrozen⟩

end Serialized

/-! ## 5. One run -/

/-- One run, started for v0.0.1. -/
def oneRun : Assembly Unit where
  repo := "onymchat/onym-sdk-kotlin"
  tools := ⟨fun _ => "", fun _ => ""⟩
  version _ := firstRelease.version
  build head _ := (Finmap.singleton "onym-sdk-0.0.1.aar" [UInt8.ofNat head.length]).insert
    "onym-sdk-0.0.1.pom" [60]
  libs head _ := Finmap.singleton "onym-sdk-0.0.1.aar" [UInt8.ofNat head.length]

theorem oneRun_copies : oneRun.Copies := by
  intro c k v
  refine (Finmap.lookup_insert_of_ne _ fun h => ?_).symm
  have hlast := congrArg (fun s => s.toList.reverse.head?) h
  simp [aarName] at hlast

/-- It attaches v0.0.1. -/
theorem exists_firstAssets : ∃ tr : List (SiteEvent Unit × Site Unit),
    Exec oneRun.Step (site Unit) tr ∧ Along (fun s e _ => oneRun.Serial s e) (site Unit) tr ∧
      ((final (site Unit) tr).assets "v0.0.1").isSome := by
  have hname : oneRun.tag () = "v0.0.1" := by decide
  have hassets : attach (oneRun.version ()) (oneRun.workspace firstHead 0) =
      .ok (oneRun.build firstHead 0) := rfl
  obtain ⟨tr, hexec, hser, ha⟩ := exists_attached oneRun () firstHead
    (validate_heads _ (Or.inl rfl)) (by decide) (List.cons_ne_nil _ _) hassets
  rw [hname] at ha
  exact ⟨tr, hexec, hser, by rw [ha]; rfl⟩

/-- The release of v0.0.1 is pinned ... -/
theorem releases_pinned_first : ∃ tr, Exec oneRun.Step (site Unit) tr ∧
    ((final (site Unit) tr).assets "v0.0.1").isSome ∧
      Along (fun s _ s' => oneRun.Attached s' ∧ Labelled s'.origin ∧
        (∀ tag c, s.origin.tags tag = some c → s'.origin.tags tag = some c) ∧
        ∀ tag assets, s.assets tag = some assets → s'.assets tag = some assets)
        (site Unit) tr := by
  obtain ⟨tr, hexec, -, ha⟩ := exists_firstAssets
  exact ⟨tr, hexec, ha, releases_pinned hexec⟩

/-- ... and the branch serves it. -/
theorem releases_served_first : ∃ tr, Exec oneRun.Step (site Unit) tr ∧
    Along (fun s e _ => oneRun.Serial s e) (site Unit) tr ∧
      ((final (site Unit) tr).assets "v0.0.1").isSome ∧
      Along (fun s _ s' => s'.Served ∧ oneRun.toWorkflow.Pinned s'.origin ∧
        Frozen s.origin s'.origin) (site Unit) tr := by
  obtain ⟨tr, hexec, hser, ha⟩ := exists_firstAssets
  exact ⟨tr, hexec, hser, ha, releases_served oneRun_copies hexec hser⟩

end OnymSdk.Release
