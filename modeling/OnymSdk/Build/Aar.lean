/-
  File:      OnymSdk/Build/Aar.lean
  Subject:   THE AAR THAT THE RELEASE WORKFLOW CUTS, and the loader in it.

  The workflow builds for its own machine to run the tests, then for the ABIs, and
  bundles both: the jar has the runner's library among its resources, and becomes
  the `classes.jar` of the AAR.

  * `Checkout`, `bundleAar`, `buildJob` -- the steps from the host build to the AAR;
  * `buildJob_triple` -- what an AAR holds when the job gets as far;
  * `Installed` -- a device that runs an app with the AAR;
  * `aar_loads` -- **on a device the loader loads the library of its ABI, unless the
    platform shows the runner's library under the loader's own path: then it tries
    that one only**.
-/
import OnymSdk.Build.Host

namespace OnymSdk.Build

open Shell

/-! ## 1. The job -/

/-- What the steps work on. -/
structure Checkout where
  resources : Resources
  output : Output

/-- The AAR: what its `classes.jar` has of `src/main/resources`, and
    `jni/<abi>/libonym_sdk_jni.so`. -/
structure Aar where
  resources : Resources
  jni : String → Option (List UInt8)

/-- `bundleAar`: the jar as `classes.jar`, and what is staged for the ABIs. -/
def bundleAar (s : Checkout) : Aar := ⟨s.resources, s.output.jniLibs⟩

def onResources {α : Type} (m : Command (List String) Resources α) :
    Command (List String) Checkout α :=
  zoom Checkout.resources (fun x s => { s with resources := x }) m

def onOutput {α : Type} (m : Script α) : Command (List String) Checkout α :=
  zoom Checkout.output (fun x s => { s with output := x }) m

/-- **The job**, from the host build to the AAR; `tests` and `gradle` say whether these steps
    succeed. -/
def buildJob (H : Host) (M : Machine) (tests : Resources → Bool) (gradle : Bool) :
    Command (List String) Checkout Aar := do
  onResources (buildHost H none)
  check (fun s => tests s.resources = true) []
  onOutput (buildAndroid M)
  check (fun _ => gradle = true) []
  asks bundleAar

/-! ## 2. What it bundles -/

section Job

variable {H : Host} {M : Machine} {tests : Resources → Bool} {gradle : Bool}

/-- An AAR with the runner's library as its only resource, and the libraries of the ABIs. -/
structure Bundled (H : Host) (M : Machine) (s₀ : Checkout) (aar : Aar) : Prop where
  host : H.osArch ≠ "" → ∃ path lib, H.library none = some (path, lib) ∧
    ∀ q, aar.resources q = if q = path then some lib else s₀.resources q
  abis : ∃ tc, M.Found s₀.output.vars tc ∧ ∀ abi, aar.jni abi =
    if abi ∈ ABIS then M.library tc (loopVars s₀.output.vars) abi else none
  all : ∀ abi ∈ ABIS, (aar.jni abi).isSome

theorem buildJob_triple (hM : M.Scoped) (s₀ : Checkout) :
    Triple (fun s => s = s₀) (buildJob H M tests gradle) (fun aar _ => Bundled H M s₀ aar)
      (fun _ _ => True) := by
  unfold buildJob onResources onOutput
  refine Triple.bind (Triple.zoom fun s _ => buildHost_triple H none s.resources).any_error
    fun _ => ?_
  refine Triple.bind (Triple.check fun _ _ _ => trivial) fun _ => ?_
  refine Triple.bind (Triple.zoom fun s _ => buildAndroid_triple hM s.output).any_error
    fun _ => ?_
  refine Triple.bind (Triple.check fun _ _ _ => trivial) fun _ => ?_
  refine Triple.asks.post_mono fun aar s hs => ?_
  obtain ⟨⟨⟨s₁, out, ⟨⟨_, res, rfl, ⟨hres, hlib⟩, rfl⟩, -⟩, ⟨-, tc, hfin⟩, rfl⟩, -⟩, rfl⟩ := hs
  refine ⟨fun hne => ?_, ⟨tc, hfin.found, hfin.libs⟩, fun abi habi => ?_⟩
  · obtain ⟨path, lib, hl, hst⟩ := hlib hne
    refine ⟨path, lib, hl, fun q => ?_⟩
    show res q = _
    rw [hres, hst]
    exact Function.update_apply ..
  · show (out.jniLibs abi).isSome
    rw [hfin.libs abi, if_pos habi]
    exact (hfin.ready abi habi).library_isSome

end Job

/-! ## 3. A consumer of the AAR -/

section Consumer

variable {H : Host} {M : Machine} {tests : Resources → Bool} {gradle : Bool} {p : Platform}

/-- An app with the AAR on a device, with its libraries in a directory: under the loader's path
    the platform shows the resource of the AAR, or nothing; and `System.loadLibrary` loads the
    library that the AAR has for the device's ABI, if there is one. -/
structure Installed (p : Platform) (aar : Aar) (abi libraryDir : String) : Prop where
  shows : p.getResourceAsStream p.resourcePath = none ∨
    p.getResourceAsStream p.resourcePath = aar.resources p.resourcePath
  libName : p.libName = "libonym_sdk_jni.so"
  library : p.FallbackLoads ↔ ∃ lib, aar.jni abi = some lib ∧
    p.load (p.resolve libraryDir p.libName) lib = .ok ()

/-- The device loads the library that the AAR has for the ABI. -/
def LoadsAbi (p : Platform) (aar : Aar) (abi libraryDir : String) : Prop :=
  ∃ lib, aar.jni abi = some lib ∧ p.load (p.resolve libraryDir p.libName) lib = .ok ()

/-- The one path a Linux runner's library has. -/
theorem library_linux {path : String} {lib : List UInt8} (hs : H.sysname = "Linux")
    (hm : H.machine = "x86_64") (h : H.library none = some (path, lib)) :
    path = "/native/linux/x86_64/libonym_sdk_jni.so" := by
  obtain ⟨ext, he, rfl⟩ := library_cases h
  have ha : H.osArch = "linux/x86_64" := by
    simp [Host.osArch, hs, hm]
  unfold Host.ext at he
  rw [hs] at he
  cases he
  rw [Host.path, ha]
  rfl

/-- Another directory is another path. -/
theorem resourcePath_ne (hl : p.libName = "libonym_sdk_jni.so")
    (hd : p.platformDir ≠ "linux/x86_64") :
    p.resourcePath ≠ "/native/linux/x86_64/libonym_sdk_jni.so" := by
  intro e
  have hsplit : "/native/" ++ p.platformDir ++ "/" ++ "libonym_sdk_jni.so" =
      "/native/" ++ "linux/x86_64" ++ "/" ++ "libonym_sdk_jni.so" := by
    rw [← hl]
    exact e.trans (by rw [hl]; rfl)
  have hpath := (String.append_left_inj _).mp ((String.append_left_inj _).mp hsplit)
  exact hd ((String.append_right_inj _).mp hpath)

theorem Bundled.isSome_iff {s₀ : Checkout} {aar : Aar} (hb : Bundled H M s₀ aar) (abi : String) :
    (aar.jni abi).isSome ↔ abi ∈ ABIS := by
  refine ⟨fun hx => ?_, hb.all abi⟩
  obtain ⟨tc, -, hjni⟩ := hb.abis
  by_contra habi
  rw [hjni abi, if_neg habi] at hx
  cases hx

/-- Its one resource is the Linux runner's library. -/
theorem Bundled.exists_resource {s₀ : Checkout} {aar : Aar} (hb : Bundled H M s₀ aar)
    (hs : H.sysname = "Linux") (hm : H.machine = "x86_64")
    (hfresh : ∀ q, s₀.resources q = none) : ∃ path lib,
      path = "/native/linux/x86_64/libonym_sdk_jni.so" ∧ H.library none = some (path, lib) ∧
        ∀ q, aar.resources q = if q = path then some lib else none := by
  have hne : H.osArch ≠ "" := by
    simp [Host.osArch, hs, hm]
  obtain ⟨path, lib, hlib, hres⟩ := hb.host hne
  refine ⟨path, lib, library_linux hs hm hlib, hlib, fun q => ?_⟩
  rw [hres, hfresh]

/-- Away from the runner's directory the loader is its second tier. -/
theorem Bundled.loads_elsewhere {s₀ : Checkout} {aar : Aar} {abi libraryDir : String}
    (hb : Bundled H M s₀ aar) (hs : H.sysname = "Linux") (hm : H.machine = "x86_64")
    (hfresh : ∀ q, s₀.resources q = none) (hin : Installed p aar abi libraryDir)
    (hd : p.platformDir ≠ "linux/x86_64") :
    p.loadNativeLibrary = .ok () ↔ LoadsAbi p aar abi libraryDir := by
  obtain ⟨path, lib, hpath, -, hres⟩ := hb.exists_resource hs hm hfresh
  have hnone : p.getResourceAsStream p.resourcePath = none := by
    rcases hin.shows with hn | he
    · exact hn
    · rw [he, hres, hpath, if_neg (resourcePath_ne hin.libName hd)]
  exact (Platform.loads_fallback_iff hnone).trans hin.library

/-- **The loader in a consumer of the AAR.** Let the workflow cut an AAR on a Linux runner, from
    a fresh checkout. It has the libraries of the four ABIs and no others. On a device whose
    directory is not the runner's the loader loads exactly if the device loads the library that
    the AAR has for its ABI; where it is and the platform shows the bundled resource, it loads
    exactly if the runner's library loads, whatever the ABI's does. -/
theorem aar_loads (hM : M.Scoped) (hs : H.sysname = "Linux") (hm : H.machine = "x86_64")
    {s₀ s : Checkout} (hfresh : ∀ q, s₀.resources q = none) {aar : Aar}
    (h : buildJob H M tests gradle s₀ = (.ok aar, s)) {abi libraryDir : String}
    (hin : Installed p aar abi libraryDir) :
    (∀ abi, (aar.jni abi).isSome ↔ abi ∈ ABIS) ∧
    (p.platformDir ≠ "linux/x86_64" →
      (p.loadNativeLibrary = .ok () ↔ LoadsAbi p aar abi libraryDir)) ∧
    ∀ lib, p.getResourceAsStream p.resourcePath = some lib →
      H.library none = some (p.resourcePath, lib) ∧
      (p.loadNativeLibrary = .ok () ↔
        ∃ file, p.extract lib = .ok file ∧ p.load file lib = .ok ()) := by
  have hb : Bundled H M s₀ aar := (buildJob_triple hM s₀).of_ok rfl h
  obtain ⟨path, lib₀, -, hlib, hres⟩ := hb.exists_resource hs hm hfresh
  refine ⟨hb.isSome_iff, hb.loads_elsewhere hs hm hfresh hin, fun lib hget => ?_⟩
  have hfound : p.resourcePath = path ∧ lib₀ = lib := by
    rcases hin.shows with hn | he
    · rw [hget] at hn
      cases hn
    · rw [hget, hres] at he
      split at he
      · exact ⟨‹_›, (Option.some.inj he).symm⟩
      · cases he
  obtain ⟨rfl, rfl⟩ := hfound
  exact ⟨hlib, Platform.loads_bundled_iff hget⟩

end Consumer

/-- A device that shows all resources, where the libraries of the AAR load and the runner's does
    not. -/
def device (arch : String) (aar : Aar) (abi : String) : Platform :=
  { Platform.foreignResource with
    osArch := some arch
    getResourceAsStream := aar.resources
    load := fun path lib =>
      if lib = [0x7F, 0x45, 0x4C, 0x46] then .error (path ++ ": library \"libc.so.6\" not found")
      else .ok ()
    loadLibrary := fun _ =>
      match aar.jni abi with
      | some _ => .ok ()
      | none => .error "library \"libonym_sdk_jni.so\" not found" }

/-- The job of a runner with the NDK. -/
def runnerCheckout : Checkout :=
  ⟨fun _ => none,
    ⟨fun name => if name = "ANDROID_NDK_ROOT" then some "/ndk" else none, fun _ => none⟩⟩

theorem exists_runnerAar :
    ∃ aar s, buildJob ubuntu runner (fun _ => true) true runnerCheckout = (.ok aar, s) ∧
      aar.resources "/native/linux/x86_64/libonym_sdk_jni.so" = some [0x7F, 0x45, 0x4C, 0x46] ∧
      (∃ n, aar.jni "x86_64" = some [n]) ∧ ∃ n, aar.jni "arm64-v8a" = some [n] :=
  ⟨_, _, rfl, rfl, ⟨_, rfl⟩, ⟨_, rfl⟩⟩

/-- Both of its kinds: an arm64 device loads, and an x86_64 emulator, whose library would load too,
    does not. -/
theorem aar_loads_devices : ∃ aar s,
    buildJob ubuntu runner (fun _ => true) true runnerCheckout = (.ok aar, s) ∧
    Installed (device "aarch64" aar "arm64-v8a") aar "arm64-v8a" "/data/app/lib" ∧
    (device "aarch64" aar "arm64-v8a").loadNativeLibrary = .ok () ∧
    Installed (device "x86_64" aar "x86_64") aar "x86_64" "/data/app/lib" ∧
    LoadsAbi (device "x86_64" aar "x86_64") aar "x86_64" "/data/app/lib" ∧
    (device "x86_64" aar "x86_64").loadNativeLibrary ≠ .ok () := by
  obtain ⟨aar, s, h, hres, ⟨n, hx86⟩, m, harm⟩ := exists_runnerAar
  have hload : ∀ arch abi n, aar.jni abi = some [n] →
      LoadsAbi (device arch aar abi) aar abi "/data/app/lib" := fun arch abi n hn =>
    ⟨[n], hn, if_neg (by simp)⟩
  have hin : ∀ arch abi n, aar.jni abi = some [n] →
      Installed (device arch aar abi) aar abi "/data/app/lib" := fun arch abi n hn => by
    refine ⟨Or.inr rfl, rfl, iff_of_true ?_ (hload arch abi n hn)⟩
    show (match aar.jni abi with | some _ => _ | none => _) = _
    rw [hn]
  have harmDir : (device "aarch64" aar "arm64-v8a").platformDir ≠ "linux/x86_64" := by
    show (device "aarch64" ⟨fun _ => none, fun _ => none⟩ "arm64-v8a").platformDir ≠ _
    decide
  have hx86Path : (device "x86_64" aar "x86_64").resourcePath =
      "/native/linux/x86_64/libonym_sdk_jni.so" := by
    show (device "x86_64" ⟨fun _ => none, fun _ => none⟩ "x86_64").resourcePath = _
    decide
  have hget : (device "x86_64" aar "x86_64").getResourceAsStream
      (device "x86_64" aar "x86_64").resourcePath = some [0x7F, 0x45, 0x4C, 0x46] := by
    rw [hx86Path]
    exact hres
  obtain ⟨-, helse, -⟩ := aar_loads runner_scoped rfl rfl (fun _ => rfl) h (hin "aarch64" _ m harm)
  obtain ⟨-, -, hown⟩ := aar_loads runner_scoped rfl rfl (fun _ => rfl) h (hin "x86_64" _ n hx86)
  refine ⟨aar, s, h, hin _ _ m harm, (helse harmDir).mpr (hload _ _ m harm), hin _ _ n hx86,
    hload _ _ n hx86, fun hok => ?_⟩
  obtain ⟨file, -, hfile⟩ := (hown _ hget).2.mp hok
  cases hfile

end OnymSdk.Build
