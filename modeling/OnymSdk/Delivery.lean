/-
  File:      OnymSdk/Delivery.lean
  Subject:   FROM A TAG TO A CONSUMER: the workflow's builds, its releases and the loader.

  Release/ says which files a tagged version has, whatever the builds are; Build/ says
  what a build is, and what the loader makes of it. Here the builds of the one are
  those of the other.

  * `Runner`, `Delivery` -- what the build steps meet with a commit checked out; a
    workflow whose AARs are the ones these steps cut;
  * `Delivery.Good` -- an AAR that was cut from a commit, with all that it then has;
  * `good_of_run` -- every AAR that is cut is good;
  * `deliveries` -- **what a consumer gets for a tagged version is a good AAR of the
    tagged commit**, from the branch and from the release alike.
-/
import OnymSdk.Build.Aar
import OnymSdk.Release.Attach

namespace OnymSdk

open Build Release Traces

/-! ## 1. The builds of the workflow -/

/-- A Linux runner on x86_64: what the build steps meet when the tree is checked out. Cargo reads
    the linker and the flags of an Android target for builds for that target only. -/
structure Runner where
  host : Tree → Host
  machine : Tree → Machine
  tests : Tree → Resources → Bool
  gradle : Tree → Bool
  vars : Vars
  sysname : ∀ t, (host t).sysname = "Linux"
  arch : ∀ t, (host t).machine = "x86_64"
  ownVars : ∀ t, (machine t).Scoped

/-- A checkout in which nothing is staged. -/
def Runner.checkout (r : Runner) : Checkout := ⟨fun _ => none, ⟨r.vars, fun _ => none⟩⟩

/-- The build steps on the tree. -/
def Runner.run (r : Runner) (t : Tree) : Except (List String) Aar :=
  (buildJob (r.host t) (r.machine t) (r.tests t) (r.gradle t) r.checkout).1

variable {ι : Type}

/-- A workflow whose builds are these steps, on the tree of the commit. `unpack` is what an archive
    holds, if it is that of an AAR: one in `build/libs` is the archive of an AAR that the steps
    have cut, and Gradle's publication holds a copy of it. -/
structure Delivery (ι : Type) extends Assembly ι where
  runner : Nat → Runner
  unpack : List UInt8 → Option Aar
  cut : ∀ c k v bytes, (libs c k).lookup (aarName v) = some bytes →
    ∃ aar, (runner k).run (treeOf c) = .ok aar ∧ unpack bytes = some aar
  copies : toAssembly.Copies

/-! ## 2. What they deliver -/

/-- On every device with the AAR the loader loads exactly if the device loads the library that the
    AAR has for its ABI, away from the runner's own directory. -/
def LoadsEverywhere (aar : Aar) : Prop :=
  ∀ (p : Platform) abi libraryDir, Installed p aar abi libraryDir →
    p.platformDir ≠ "linux/x86_64" →
    (p.loadNativeLibrary = .ok () ↔ LoadsAbi p aar abi libraryDir)

/-- The archive of an AAR that was cut from a commit: it has the libraries of the four ABIs, each
    as cargo makes it alone from the commit, and no others; and loaders load the one of their
    ABI. -/
def Delivery.Good (D : Delivery ι) (c : History) (bytes : List UInt8) : Prop :=
  ∃ k aar tc, (D.runner k).run (treeOf c) = .ok aar ∧ D.unpack bytes = some aar ∧
    ((D.runner k).machine (treeOf c)).Found (D.runner k).vars tc ∧
    (∀ abi, (aar.jni abi).isSome ↔ abi ∈ ABIS) ∧
    (∀ abi ∈ ABIS, aar.jni abi =
      ((D.runner k).machine (treeOf c)).library tc (loopVars (D.runner k).vars) abi) ∧
    LoadsEverywhere aar

theorem good_of_run (D : Delivery ι) {c : History} {k : Nat} {aar : Aar} {bytes : List UInt8}
    (h : (D.runner k).run (treeOf c) = .ok aar) (hb : D.unpack bytes = some aar) :
    D.Good c bytes := by
  let r := D.runner k
  have htriple : Shell.Triple (fun s => s = r.checkout)
      (buildJob (r.host (treeOf c)) (r.machine (treeOf c)) (r.tests (treeOf c))
        (r.gradle (treeOf c)))
      (fun aar _ => Bundled (r.host (treeOf c)) (r.machine (treeOf c)) r.checkout aar)
      (fun _ _ => True) :=
    buildJob_triple (r.ownVars _) r.checkout
  have hbundled : Bundled (r.host (treeOf c)) (r.machine (treeOf c)) r.checkout aar :=
    htriple.of_ok rfl (Prod.ext h rfl)
  obtain ⟨tc, hfound, hjni⟩ := hbundled.abis
  refine ⟨k, aar, tc, h, hb, hfound, hbundled.isSome_iff, fun abi habi => ?_,
    fun p abi libraryDir hin hd => ?_⟩
  · rw [hjni abi, if_pos habi]
    rfl
  · exact hbundled.loads_elsewhere (r.sysname _) (r.arch _) (fun _ => rfl) hin hd

section Runs

variable {D : Delivery ι} {s : Site ι}

/-- What a tagged version has on the branch is good. -/
theorem good_of_pinned (h : D.toWorkflow.Pinned s.origin) {v : Version} {c : History}
    (hc : s.origin.tags (tagOf v) = some c) :
    ∃ files, dirAt s.origin.releases v.name = some files ∧
      ∀ bytes, files.lookup (aarName v) = some bytes → D.Good c bytes := by
  obtain ⟨k, hk⟩ := h v c hc
  refine ⟨_, hk, fun bytes hbytes => ?_⟩
  rw [← D.copies c k v] at hbytes
  obtain ⟨aar, hrun, hunpack⟩ := D.cut c k v bytes hbytes
  exact good_of_run D hrun hunpack

/-- Its release has an AAR, and the branch has the same. -/
theorem same_of_served (hinv : D.toAssembly.Inv s) (h : s.Served) {v : Version}
    {files assets : Files} (hf : dirAt s.origin.releases v.name = some files)
    (ha : s.assets (tagOf v) = some assets) :
    ∃ bytes, assets.lookup (aarName v) = some bytes ∧ files.lookup (aarName v) = some bytes := by
  obtain ⟨w, c, k, hw, -, hattach⟩ := hinv.attached _ _ ha
  obtain ⟨w', files', hw', hf', hsub⟩ := h _ _ ha
  have hname : aarName w = aarName v := by
    rw [aarName, aarName, tagOf_eq hw]
  obtain ⟨bytes, -, hbytes⟩ := attach_aar hattach
  rw [hname] at hbytes
  rw [← tagOf_eq hw', hf] at hf'
  obtain rfl : files = files' := Option.some.inj hf'
  exact ⟨bytes, hbytes, hsub _ _ hbytes⟩

/-- **What a consumer gets.** Along every run of the workflow with serialized validations: every
    tagged version has its files on the branch, and no step changes them; an AAR among them is a
    good one of the tagged commit; and if the tag has a release, its AAR is that very one. -/
theorem deliveries [DecidableEq ι] {tr : List (SiteEvent ι × Site ι)}
    (h : Exec D.toAssembly.Step (site ι) tr)
    (hser : Along (fun s e _ => D.toAssembly.Serial s e) (site ι) tr) :
    Along (fun s _ s' => Frozen s.origin s'.origin ∧
      ∀ v c, s'.origin.tags (tagOf v) = some c →
        ∃ files, dirAt s'.origin.releases v.name = some files ∧
          (∀ bytes, files.lookup (aarName v) = some bytes → D.Good c bytes) ∧
          ∀ assets, s'.assets (tagOf v) = some assets → ∃ bytes,
            assets.lookup (aarName v) = some bytes ∧ files.lookup (aarName v) = some bytes)
      (site ι) tr := by
  refine along_mono D.toAssembly.Settled _ _ (fun s e s' hset hs hp => ?_) (settled_site _) h hser
  obtain ⟨hset', hfrozen⟩ := settled_step D.copies hset hs hp
  refine ⟨hset', hfrozen, fun v c hc => ?_⟩
  obtain ⟨files, hfiles, hgood⟩ := good_of_pinned hset'.pinned hc
  exact ⟨files, hfiles, hgood,
    fun assets ha => same_of_served hset'.inv hset'.current.served hfiles ha⟩

end Runs

/-! ## 3. One delivery -/

/-- The runner with the NDK. -/
def ubuntuRunner : Runner where
  host _ := ubuntu
  machine _ := Build.runner
  tests _ _ := true
  gradle _ := true
  vars name := if name = "ANDROID_NDK_ROOT" then some "/ndk" else none
  sysname _ := rfl
  arch _ := rfl
  ownVars _ := runner_scoped

/-- An archive of five members: the libraries of the ABIs, a byte each, and the runner's. -/
def unpackFive : List UInt8 → Option Aar
  | arm64 :: armv7 :: x64 :: x86 :: own => some
    { resources := fun path =>
        if path = "/native/linux/x86_64/libonym_sdk_jni.so" then some own else none
      jni := fun abi =>
        if abi = "arm64-v8a" then some [arm64] else if abi = "armeabi-v7a" then some [armv7]
        else if abi = "x86_64" then some [x64] else if abi = "x86" then some [x86] else none }
  | _ => none

/-- What the steps cut on this runner fits into one. -/
theorem exists_archive : ∃ aar bytes,
    (∀ t, ubuntuRunner.run t = .ok aar) ∧ unpackFive bytes = some aar := by
  obtain ⟨aar, s, h⟩ : ∃ aar s, buildJob ubuntu Build.runner (fun _ => true) true
      ubuntuRunner.checkout = (.ok aar, s) := ⟨_, _, rfl⟩
  have hb : Bundled ubuntu Build.runner ubuntuRunner.checkout aar :=
    (buildJob_triple runner_scoped _).of_ok rfl h
  obtain ⟨path, lib, hpath, -, hres⟩ := hb.exists_resource rfl rfl fun _ => rfl
  obtain ⟨tc, -, hjni⟩ := hb.abis
  have hone : ∀ abi ∈ ABIS, ∃ n, aar.jni abi = some [n] := fun abi habi => by
    rw [hjni abi, if_pos habi]
    simp only [ABIS, List.mem_cons, List.not_mem_nil, or_false] at habi
    rcases habi with rfl | rfl | rfl | rfl <;> exact ⟨_, rfl⟩
  obtain ⟨n₁, h₁⟩ := hone "arm64-v8a" (by decide)
  obtain ⟨n₂, h₂⟩ := hone "armeabi-v7a" (by decide)
  obtain ⟨n₃, h₃⟩ := hone "x86_64" (by decide)
  obtain ⟨n₄, h₄⟩ := hone "x86" (by decide)
  refine ⟨aar, n₁ :: n₂ :: n₃ :: n₄ :: lib, fun _ => congrArg Prod.fst h, congrArg some ?_⟩
  obtain ⟨resources, jni⟩ := aar
  congr
  · funext q
    have hq := hres q
    rw [hpath] at hq
    exact hq.symm
  · funext abi
    by_cases habi : abi ∈ ABIS
    · simp only [ABIS, List.mem_cons, List.not_mem_nil, or_false] at habi
      rcases habi with rfl | rfl | rfl | rfl
      · exact h₁.symm
      · exact h₂.symm
      · exact h₃.symm
      · exact h₄.symm
    · have hnone : jni abi = none := (hjni abi).trans (if_neg habi)
      simp only [ABIS, List.mem_cons, List.not_mem_nil, or_false, not_or] at habi
      rw [hnone, if_neg habi.1, if_neg habi.2.1, if_neg habi.2.2.1, if_neg habi.2.2.2]

/-- One run, started for v0.0.1, whose AAR has this archive. -/
def oneDelivery {aar : Aar} {bytes : List UInt8} (h : ∀ t, ubuntuRunner.run t = .ok aar)
    (hb : unpackFive bytes = some aar) : Delivery Unit where
  repo := "onymchat/onym-sdk-kotlin"
  tools := ⟨fun _ => "", fun _ => ""⟩
  version _ := firstRelease.version
  libs _ _ := Finmap.singleton "onym-sdk-0.0.1.aar" bytes
  build _ _ := (Finmap.singleton "onym-sdk-0.0.1.aar" bytes).insert "onym-sdk-0.0.1.pom" [60]
  runner _ := ubuntuRunner
  unpack := unpackFive
  cut c k v x hx := by
    have hname : aarName v = "onym-sdk-0.0.1.aar" := by
      by_contra hne
      rw [Finmap.lookup_eq_none.mpr fun hm => hne ((Finmap.mem_singleton _ _ _).mp hm)] at hx
      cases hx
    rw [hname, Finmap.lookup_singleton_eq] at hx
    obtain rfl := Option.some.inj hx
    exact ⟨aar, h _, hb⟩
  copies c k v := by
    refine (Finmap.lookup_insert_of_ne _ fun h => ?_).symm
    exact aarName_ne_pomName v firstRelease.version h

/-- It delivers v0.0.1, with a good AAR. -/
theorem deliveries_first : ∃ (D : Delivery Unit) (tr : List (SiteEvent Unit × Site Unit)),
    Exec D.toAssembly.Step (site Unit) tr ∧
    Along (fun s e _ => D.toAssembly.Serial s e) (site Unit) tr ∧
    ((final (site Unit) tr).assets "v0.0.1").isSome ∧
    Along (fun s _ s' => Frozen s.origin s'.origin ∧
      ∀ v c, s'.origin.tags (tagOf v) = some c →
        ∃ files, dirAt s'.origin.releases v.name = some files ∧
          (∀ bytes, files.lookup (aarName v) = some bytes → D.Good c bytes) ∧
          ∀ assets, s'.assets (tagOf v) = some assets → ∃ bytes,
            assets.lookup (aarName v) = some bytes ∧ files.lookup (aarName v) = some bytes)
      (site Unit) tr := by
  obtain ⟨aar, bytes, hrun, hunpack⟩ := exists_archive
  let D := oneDelivery hrun hunpack
  have hname : D.tag () = "v0.0.1" := (by decide : tagOf firstRelease.version = "v0.0.1")
  have hassets : attach (D.version ()) (D.workspace firstHead 0) = .ok (D.build firstHead 0) := rfl
  have hne : D.build firstHead 0 ≠ ∅ := fun e => by
    have hpom : (D.build firstHead 0).lookup "onym-sdk-0.0.1.pom" = some [60] :=
      Finmap.lookup_insert _
    rw [e] at hpom
    cases hpom
  obtain ⟨tr, hexec, hser, ha⟩ := exists_attached D.toAssembly () firstHead
    (validate_heads _ (Or.inl rfl)) hne (List.cons_ne_nil _ _) hassets
  rw [hname] at ha
  exact ⟨D, tr, hexec, hser, by rw [ha]; rfl, deliveries hexec hser⟩

end OnymSdk
