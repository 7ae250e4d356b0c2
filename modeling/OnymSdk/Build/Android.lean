/-
  File:      OnymSdk/Build/Android.lean
  Subject:   build-android-jni.sh: ONE LIBRARY FOR EACH ANDROID ABI.

  The script exports the linker and the flags of one target after the other and
  runs cargo for each, so every build sees the variables of the ones before it.

  * `Machine` -- what the script meets: the NDK, rustup, cargo, the disk;
  * `setUp`, `buildAbi`, `buildAndroid` -- the script;
  * `Ready`, `alone` -- a target that can be built, and its build by itself;
  * `android_libraries` -- **it succeeds exactly if every ABI can be built by itself,
    with these very libraries and no others in the output**; and what a failure
    leaves there.
-/
import OnymSdk.Lib.Shell
import Mathlib.Data.List.Basic

namespace OnymSdk.Build

open Shell

/-! ## 1. The machine -/

/-- Environment variables. -/
abbrev Vars := String → Option String

def Vars.set (env : Vars) (name value : String) : Vars := Function.update env name (some value)

/-- `${name:-default}`. -/
def Vars.orElse (env : Vars) (name default : String) : String :=
  match env name with
  | some value => if value = "" then default else value
  | none => default

/-- What the script meets. `clear` is `rm -rf` and `mkdir -p` of the output: which of the old
    libraries they leave if they fail, or `none` if they work. `cargo vars target` is a build of
    rust-jni for the target: what then stands at the library's path, or `none` if it fails. `cp` is
    all that follows it for an ABI: what its failure leaves, or `none` if it works. `report` is the
    listing at the end. -/
structure Machine where
  root : String
  uname : String
  isDir : String → Bool
  isExecutable : String → Bool
  hasTarget : String → Bool
  addTarget : String → Bool
  clear : Option (String → Bool)
  cargo : Vars → String → Option (Option (List UInt8))
  cp : String → Option (Option (List UInt8))
  report : Bool

/-- What the script changes: the exported variables, and the library of each ABI under
    `build/android/jniLibs`. -/
structure Output where
  vars : Vars
  jniLibs : String → Option (List UInt8)

/-- A part of the script; an error is what it prints on the way out. -/
abbrev Script (α : Type) := Command (List String) Output α

/-! ## 2. The script -/

/-- The toolchain of a run: the directory of the clang wrappers, and the API level. -/
structure Toolchain where
  bin : String
  api : String

/-- `abi_to_rust_target`. -/
def abiToRustTarget (abi : String) : Option String :=
  match abi with
  | "arm64-v8a" => some "aarch64-linux-android"
  | "armeabi-v7a" => some "armv7-linux-androideabi"
  | "x86_64" => some "x86_64-linux-android"
  | "x86" => some "i686-linux-android"
  | _ => none

/-- `rust_target_to_clang`, in the toolchain's directory. -/
def Toolchain.clang (tc : Toolchain) (target : String) : String :=
  tc.bin ++ "/" ++
    if target = "armv7-linux-androideabi" then "armv7a-linux-androideabi" ++ tc.api ++ "-clang"
    else target ++ tc.api ++ "-clang"

/-- `tr 'a-z-' 'A-Z_'`. -/
def targetEnv (target : String) : String :=
  String.ofList (target.toList.map fun c =>
    if c = '-' then '_' else if 'a' ≤ c ∧ c ≤ 'z' then Char.ofNat (c.toNat - 32) else c)

def linkerVar (target : String) : String := "CARGO_TARGET_" ++ targetEnv target ++ "_LINKER"

def rustflagsVar (target : String) : String := "CARGO_TARGET_" ++ targetEnv target ++ "_RUSTFLAGS"

/-- What the script exports for a target. -/
def Toolchain.exports (tc : Toolchain) (target : String) (env : Vars) : Vars :=
  (env.set (linkerVar target) (tc.clang target)).set (rustflagsVar target)
    "-C link-arg=-Wl,-z,max-page-size=16384"

/-- What cargo is started with, on top of what is exported. -/
def Toolchain.compilers (tc : Toolchain) (target : String) (env : Vars) : Vars :=
  ((env.set ("CC_" ++ target) (tc.clang target)).set ("CXX_" ++ target)
    (tc.clang target ++ "++")).set ("AR_" ++ target) (tc.bin ++ "/llvm-ar")

/-- `ABIS`. -/
def ABIS : List String := ["arm64-v8a", "armeabi-v7a", "x86_64", "x86"]

section Script

variable (M : Machine)

/-- The NDK's directory of prebuilt tools for the host. -/
def ndkHost : Option String :=
  match M.uname with
  | "Linux" => some "linux-x86_64"
  | "Darwin" => some "darwin-x86_64"
  | _ => none

/-- `rm -rf "$OUT_DIR"; mkdir -p "$OUT_DIR"`. -/
def clearOutput : Script Unit :=
  match M.clear with
  | none => modify fun s => { s with jniLibs := fun _ => none }
  | some kept => do
    modify fun s => { s with jniLibs := fun abi => if kept abi then s.jniLibs abi else none }
    exit []

/-- Up to the loop: find the toolchain, and empty the output. -/
def setUp : Script Toolchain := do
  let ndk ← asks fun s => s.vars.orElse "ANDROID_NDK_HOME" (s.vars.orElse "ANDROID_NDK_ROOT" "")
  check (fun _ => ndk ≠ "")
    ["set ANDROID_NDK_HOME (or ANDROID_NDK_ROOT) to the path of your Android NDK install",
      "(e.g. $ANDROID_HOME/ndk/27.x.y)"]
  modify fun s => { s with vars := s.vars.set "ANDROID_NDK_HOME" ndk }
  let contracts := M.root ++ "/External/onym-contracts"
  check (fun _ => M.isDir (contracts ++ "/plonk") = true)
    ["expected onym-contracts submodule at " ++ contracts,
      "run: git submodule update --init --recursive"]
  match ndkHost M with
  | none => exit ["unsupported host: " ++ M.uname]
  | some host =>
    let bin := ndk ++ "/toolchains/llvm/prebuilt/" ++ host ++ "/bin"
    check (fun _ => M.isDir bin = true)
      ["missing NDK toolchain: " ++ bin, "(check that ANDROID_NDK_HOME points at a valid NDK r25+)"]
    let api ← asks fun s => s.vars.orElse "ANDROID_API" "24"
    clearOutput M
    return ⟨bin, api⟩

/-- After cargo: copy the library to the output. -/
def stageLibrary (abi target : String) (built : Option (Option (List UInt8))) : Script Unit :=
  match built with
  | none => exit []
  | some none =>
    exit ["missing " ++ M.root ++ "/rust-jni/target/" ++ target ++ "/release/libonym_sdk_jni.so"]
  | some (some lib) =>
    match M.cp abi with
    | none => modify fun s => { s with jniLibs := Function.update s.jniLibs abi (some lib) }
    | some left => do
      modify fun s => { s with jniLibs := Function.update s.jniLibs abi left }
      exit []

/-- One round of the loop. -/
def buildAbi (tc : Toolchain) (abi : String) : Script Unit := do
  match abiToRustTarget abi with
  | none => exit ["unknown ABI: " ++ abi]
  | some target =>
    let clang := tc.clang target
    check (fun _ => M.isExecutable clang = true)
      ["missing NDK clang wrapper: " ++ clang,
        "(check API level " ++ tc.api ++ " is supported by this NDK)"]
    modify fun s => { s with vars := tc.exports target s.vars }
    check (fun _ => M.hasTarget target = true ∨ M.addTarget target = true) []
    let built ← asks fun s => M.cargo (tc.compilers target s.vars) target
    stageLibrary M abi target built

/-- **The script.** -/
def buildAndroid : Script Unit := do
  let tc ← setUp M
  forEach ABIS (buildAbi M tc)
  check (fun _ => M.report = true) []

end Script

/-! ## 3. A target by itself -/

/-- The targets of the ABIS. -/
def targets : List String := ABIS.filterMap abiToRustTarget

/-- A variable cargo reads for another one of the targets only. -/
def Foreign (target name : String) : Prop :=
  ∃ other ∈ targets, targetEnv other ≠ targetEnv target ∧
    (name = linkerVar other ∨ name = rustflagsVar other)

/-- The environments are the same to a build for the target. -/
def Agree (target : String) (env env' : Vars) : Prop :=
  ∀ name, ¬ Foreign target name → env name = env' name

/-- What cargo documents of `CARGO_TARGET_<triple>_LINKER` and `_RUSTFLAGS`: they are for builds
    for that target. A build for one Android target reads those of no other. -/
def Machine.Scoped (M : Machine) : Prop :=
  ∀ target ∈ targets, ∀ env env', Agree target env env' → M.cargo env target = M.cargo env' target

/-- The build for a target by itself. -/
def Machine.alone (M : Machine) (tc : Toolchain) (env : Vars) (target : String) :
    Option (Option (List UInt8)) :=
  M.cargo (tc.compilers target (tc.exports target env)) target

/-- The library of an ABI, built by itself. -/
def Machine.library (M : Machine) (tc : Toolchain) (env : Vars) (abi : String) :
    Option (List UInt8) :=
  match abiToRustTarget abi with
  | some target => (M.alone tc env target).join
  | none => none

/-- The ABI can be built by itself. -/
def Machine.Ready (M : Machine) (tc : Toolchain) (env : Vars) (abi : String) : Prop :=
  ∃ target lib, abiToRustTarget abi = some target ∧ M.isExecutable (tc.clang target) = true ∧
    (M.hasTarget target = true ∨ M.addTarget target = true) ∧
    M.alone tc env target = some (some lib) ∧ M.cp abi = none

section Agree

variable {target other : String} {env env' : Vars} {tc : Toolchain}

theorem agree_set (h : Agree target env env') (name value : String) :
    Agree target (env.set name value) (env'.set name value) := by
  intro n hn
  unfold Vars.set
  by_cases e : n = name
  · rw [e, Function.update_self, Function.update_self]
  · rw [Function.update_of_ne e, Function.update_of_ne e, h n hn]

theorem agree_build (h : Agree target env env') :
    Agree target (tc.compilers target (tc.exports target env))
      (tc.compilers target (tc.exports target env')) :=
  agree_set (agree_set (agree_set (agree_set (agree_set h _ _) _ _) _ _) _ _) _ _

/-- The exports of another target change nothing for this one. -/
theorem agree_exports (h : Agree target env env') (hmem : other ∈ targets)
    (ho : targetEnv other ≠ targetEnv target) : Agree target (tc.exports other env) env' := by
  intro n hn
  have hl : n ≠ linkerVar other := fun e => hn ⟨other, hmem, ho, Or.inl e⟩
  have hr : n ≠ rustflagsVar other := fun e => hn ⟨other, hmem, ho, Or.inr e⟩
  unfold Toolchain.exports Vars.set
  rw [Function.update_of_ne hr, Function.update_of_ne hl, h n hn]

/-- A text ends like its second half. -/
theorem getLast?_append (x : String) {y : String} {c : Char} (h : y.toList.getLast? = some c) :
    (x ++ y).toList.getLast? = some c := by
  rw [String.toList_append, List.getLast?_append, h, Option.some_or]

/-- The target's own linker is not another target's variable. -/
theorem not_foreign_linkerVar (target : String) : ¬ Foreign target (linkerVar target) := by
  intro hx
  obtain ⟨other, -, hne, e | e⟩ := hx
  · refine hne ((String.append_right_inj "CARGO_TARGET_").mp ?_)
    exact ((String.append_left_inj "_LINKER").mp e).symm
  · -- they end in different letters
    have hl : (linkerVar target).toList.getLast? = some 'R' := getLast?_append _ (by decide)
    have hr : (rustflagsVar other).toList.getLast? = some 'S' := getLast?_append _ (by decide)
    rw [e, hr] at hl
    cases hl

end Agree

theorem mem_targets {abi target : String} (ha : abi ∈ ABIS) (ht : abiToRustTarget abi = some target) :
    target ∈ targets := List.mem_filterMap.mpr ⟨abi, ha, ht⟩

/-- The four targets have variables of their own. -/
theorem targetEnv_ne {abi abi' target target' : String} (ha : abi ∈ ABIS) (ha' : abi' ∈ ABIS)
    (hne : abi ≠ abi') (ht : abiToRustTarget abi = some target)
    (ht' : abiToRustTarget abi' = some target') : targetEnv target ≠ targetEnv target' := by
  have hall : ∀ x ∈ ABIS, ∀ y ∈ ABIS, x ≠ y →
      (abiToRustTarget x).map targetEnv ≠ (abiToRustTarget y).map targetEnv := by decide
  intro e
  apply hall abi ha abi' ha' hne
  rw [ht, ht', Option.map_some, Option.map_some, e]

/-! ## 4. The loop -/

section Loop

variable {M : Machine} {tc : Toolchain} {env : Vars}

/-- After some ABIs: their libraries are those built by themselves, there are no others, and the
    variables are as at first to each of the remaining ones. -/
structure Inv (M : Machine) (tc : Toolchain) (env : Vars) (done : List String) (s : Output) :
    Prop where
  ready : ∀ abi ∈ done, M.Ready tc env abi
  built : ∀ abi ∈ done, s.jniLibs abi = M.library tc env abi
  others : ∀ abi, abi ∉ done → s.jniLibs abi = none
  vars : ∀ abi ∈ ABIS, abi ∉ done → ∀ target, abiToRustTarget abi = some target →
    Agree target s.vars env

/-- After some ABIs and part of the next one. -/
def Off (M : Machine) (tc : Toolchain) (env : Vars) (done : List String) (abi : String)
    (s : Output) : Prop :=
  ∀ x, x ≠ abi → s.jniLibs x = if x ∈ done then M.library tc env x else none

/-- Where the loop stops: at the first ABI that cannot be built by itself, with nothing of that one
    but what a failed copy leaves. -/
structure Stopped (M : Machine) (tc : Toolchain) (env : Vars) (done : List String) (abi : String)
    (s : Output) : Prop where
  ready : ∀ x ∈ done, M.Ready tc env x
  next : ¬ M.Ready tc env abi
  off : Off M tc env done abi s
  left : s.jniLibs abi = none ∨ M.cp abi = some (s.jniLibs abi)

/-- The loop stops somewhere. -/
def StoppedIn (M : Machine) (tc : Toolchain) (env : Vars) (s : Output) : Prop :=
  ∃ done abi rest, ABIS = done ++ abi :: rest ∧ Stopped M tc env done abi s

theorem Inv.off {done : List String} {s : Output} (h : Inv M tc env done s) (abi : String) :
    Off M tc env done abi s := by
  intro x _
  by_cases hx : x ∈ done
  · rw [if_pos hx, h.built x hx]
  · rw [if_neg hx, h.others x hx]

/-- The ABI of a round is none of those done. -/
theorem next_not_mem {done rest : List String} {abi : String} (hsplit : ABIS = done ++ abi :: rest) :
    abi ∉ done := by
  have hnodup : ABIS.Nodup := by decide
  rw [hsplit] at hnodup
  exact fun hd => (List.nodup_append.mp hnodup).2.2 abi hd abi List.mem_cons_self rfl

/-- A round that ends before its copy. -/
theorem Inv.stopped {done rest : List String} {abi : String} {s : Output}
    (h : Inv M tc env done s) (hsplit : ABIS = done ++ abi :: rest) (hr : ¬ M.Ready tc env abi) :
    StoppedIn M tc env s :=
  ⟨done, abi, rest, hsplit, h.ready, hr, h.off abi, Or.inl (h.others abi (next_not_mem hsplit))⟩

/-- Where the loop stops does not depend on the variables then. -/
theorem StoppedIn.vars {s : Output} (h : StoppedIn M tc env s) (vars : Vars) :
    StoppedIn M tc env { s with vars := vars } := by
  obtain ⟨done, abi, rest, hsplit, hready, hnext, hoff, hleft⟩ := h
  exact ⟨done, abi, rest, hsplit, hready, hnext, hoff, hleft⟩

/-- A round whose copy fails. -/
theorem Inv.stopped_copy {done rest : List String} {abi : String} {s : Output}
    {left : Option (List UInt8)} (h : Inv M tc env done s) (hsplit : ABIS = done ++ abi :: rest)
    (hcp : M.cp abi = some left) :
    StoppedIn M tc env { s with jniLibs := Function.update s.jniLibs abi left } := by
  refine ⟨done, abi, rest, hsplit, h.ready, fun hr => ?_, fun x hx => ?_, Or.inr ?_⟩
  · obtain ⟨_, _, -, -, -, -, hcp'⟩ := hr
    cases hcp.symm.trans hcp'
  · exact (Function.update_of_ne hx _ _).trans (h.off abi x hx)
  · have hself : Function.update s.jniLibs abi left abi = left := Function.update_self ..
    exact hcp.trans (congrArg some hself.symm)

/-- One round, up to its copy. -/
theorem inv_round {done rest : List String} {abi target : String} {lib : List UInt8} {s : Output}
    (h : Inv M tc env done s) (hsplit : ABIS = done ++ abi :: rest)
    (ht : abiToRustTarget abi = some target) (hr : M.Ready tc env abi)
    (hlib : M.alone tc env target = some (some lib)) :
    Inv M tc env (done ++ [abi])
      { vars := tc.exports target s.vars, jniLibs := Function.update s.jniLibs abi (some lib) } := by
  have hmem : abi ∈ ABIS := by
    rw [hsplit]
    exact List.mem_append_right _ List.mem_cons_self
  refine ⟨?_, ?_, ?_, ?_⟩
  · intro x hx
    rcases List.mem_append.mp hx with hd | hs
    · exact h.ready x hd
    · rw [List.mem_singleton.mp hs]
      exact hr
  · intro x hx
    by_cases hxa : x = abi
    · rw [hxa, Machine.library, ht]
      exact (Function.update_self ..).trans (by simp [hlib])
    · have hd : x ∈ done := by simpa [hxa] using hx
      exact (Function.update_of_ne hxa _ _).trans (h.built x hd)
  · intro x hx
    have hxa : x ≠ abi := fun e => hx (by simp [e])
    exact (Function.update_of_ne hxa _ _).trans (h.others x fun hd => hx (by simp [hd]))
  · intro x hx hnot target' ht'
    have hxa : abi ≠ x := fun e => hnot (by simp [e])
    exact agree_exports (h.vars x hx (fun hd => hnot (by simp [hd])) target' ht')
      (mem_targets hmem ht) (targetEnv_ne hmem hx hxa ht ht')

/-- In a round, after cargo: the output is that of the round's start, the target's variables are
    exported, and the library is that of a build by itself. -/
def Round (M : Machine) (tc : Toolchain) (env : Vars) (done : List String) (target : String)
    (built : Option (Option (List UInt8))) (s : Output) : Prop :=
  ∃ s₀, Inv M tc env done s₀ ∧ s = { s₀ with vars := tc.exports target s₀.vars } ∧
    M.isExecutable (tc.clang target) = true ∧
    (M.hasTarget target = true ∨ M.addTarget target = true) ∧
    built = M.alone tc env target

/-- The ABI's target is ready. -/
theorem ready_iff {abi target : String} (ht : abiToRustTarget abi = some target) :
    M.Ready tc env abi ↔ M.isExecutable (tc.clang target) = true ∧
      (M.hasTarget target = true ∨ M.addTarget target = true) ∧
      (∃ lib, M.alone tc env target = some (some lib)) ∧ M.cp abi = none := by
  constructor
  · intro hr
    obtain ⟨t, lib, ht', hx, hr, hlib, hcp⟩ := hr
    obtain rfl : target = t := Option.some.inj (ht.symm.trans ht')
    exact ⟨hx, hr, ⟨lib, hlib⟩, hcp⟩
  · intro hr
    obtain ⟨hx, hr, ⟨lib, hlib⟩, hcp⟩ := hr
    exact ⟨target, lib, ht, hx, hr, hlib, hcp⟩

theorem Machine.Ready.library_isSome {abi : String} (h : M.Ready tc env abi) :
    (M.library tc env abi).isSome := by
  obtain ⟨target, lib, ht, -, -, hlib, -⟩ := h
  simp [Machine.library, ht, hlib]

/-- The end of a round. -/
theorem stageLibrary_triple {done rest : List String} {abi target : String}
    {built : Option (Option (List UInt8))} (hsplit : ABIS = done ++ abi :: rest)
    (ht : abiToRustTarget abi = some target) :
    Triple (Round M tc env done target built) (stageLibrary M abi target built)
      (fun _ => Inv M tc env (done ++ [abi])) (fun _ => StoppedIn M tc env) := by
  unfold stageLibrary
  cases built with
  | none =>
    refine Triple.exit fun s hs => ?_
    obtain ⟨s₀, hinv, rfl, -, -, hb⟩ := hs
    refine (hinv.stopped hsplit fun hr => ?_).vars _
    obtain ⟨-, -, ⟨lib, hlib⟩, -⟩ := (ready_iff ht).mp hr
    cases hb.trans hlib
  | some out =>
    cases out with
    | none =>
      refine Triple.exit fun s hs => ?_
      obtain ⟨s₀, hinv, rfl, -, -, hb⟩ := hs
      refine (hinv.stopped hsplit fun hr => ?_).vars _
      obtain ⟨-, -, ⟨lib, hlib⟩, -⟩ := (ready_iff ht).mp hr
      cases hb.trans hlib
    | some lib =>
      cases hcp : M.cp abi with
      | none =>
        refine Triple.modify.post_mono fun _ s hs => ?_
        obtain ⟨_, ⟨s₀, hinv, rfl, hx, hr, hb⟩, rfl⟩ := hs
        exact inv_round hinv hsplit ht ((ready_iff ht).mpr ⟨hx, hr, ⟨lib, hb.symm⟩, hcp⟩) hb.symm
      | some left =>
        refine Triple.bind Triple.modify fun _ => Triple.exit fun s hs => ?_
        obtain ⟨_, ⟨s₀, hinv, rfl, -⟩, rfl⟩ := hs
        exact (hinv.stopped_copy hsplit hcp).vars _

/-- **One round of the loop.** -/
theorem buildAbi_triple (hM : M.Scoped) {done rest : List String} {abi : String}
    (hsplit : ABIS = done ++ abi :: rest) :
    Triple (Inv M tc env done) (buildAbi M tc abi) (fun _ => Inv M tc env (done ++ [abi]))
      (fun _ => StoppedIn M tc env) := by
  have hmem : abi ∈ ABIS := by
    rw [hsplit]
    exact List.mem_append_right _ List.mem_cons_self
  unfold buildAbi
  cases hta : abiToRustTarget abi with
  | none =>
    refine Triple.exit fun s hs => hs.stopped hsplit fun hr => ?_
    obtain ⟨_, _, ht, -⟩ := hr
    cases hta.symm.trans ht
  | some target =>
    refine Triple.bind (Triple.check fun s hs hx => ?_) fun _ => ?_
    · exact hs.stopped hsplit fun hr => hx ((ready_iff hta).mp hr).1
    refine Triple.bind Triple.modify fun _ => ?_
    refine Triple.bind (Triple.check fun s hs hr => ?_) fun _ => ?_
    · obtain ⟨s₀, ⟨hinv, -⟩, rfl⟩ := hs
      exact (hinv.stopped hsplit fun hr' => hr ((ready_iff hta).mp hr').2.1).vars _
    refine Triple.bind Triple.asks fun built => ?_
    refine (stageLibrary_triple hsplit hta).pre_mono fun s hs => ?_
    obtain ⟨⟨⟨s₀, ⟨hinv, hx⟩, rfl⟩, hr⟩, rfl⟩ := hs
    -- cargo does what it would do for this target by itself
    have hagree := hinv.vars abi hmem (next_not_mem hsplit) target hta
    exact ⟨s₀, hinv, rfl, hx, hr, hM _ (mem_targets hmem hta) _ _ (agree_build hagree)⟩

end Loop

/-! ## 5. The whole script -/

/-- `ANDROID_NDK_HOME`, or else `ANDROID_NDK_ROOT`. -/
def ndkHome (env : Vars) : String :=
  env.orElse "ANDROID_NDK_HOME" (env.orElse "ANDROID_NDK_ROOT" "")

/-- The variables in the loop: the NDK is exported. -/
def loopVars (env : Vars) : Vars := env.set "ANDROID_NDK_HOME" (ndkHome env)

/-- The toolchain the script finds. -/
def Machine.Found (M : Machine) (env : Vars) (tc : Toolchain) : Prop :=
  ndkHome env ≠ "" ∧ M.isDir (M.root ++ "/External/onym-contracts" ++ "/plonk") = true ∧
    (∃ host, ndkHost M = some host ∧
      tc.bin = ndkHome env ++ "/toolchains/llvm/prebuilt/" ++ host ++ "/bin") ∧
    M.isDir tc.bin = true ∧ tc.api = (loopVars env).orElse "ANDROID_API" "24"

theorem Machine.Found.unique {M : Machine} {env : Vars} {tc tc' : Toolchain} (h : M.Found env tc)
    (h' : M.Found env tc') : tc = tc' := by
  obtain ⟨-, -, ⟨host, hh, hb⟩, -, ha⟩ := h
  obtain ⟨-, -, ⟨host', hh', hb'⟩, -, ha'⟩ := h'
  have hhost : host = host' := Option.some.inj (hh.symm.trans hh')
  subst hhost
  have hbin : tc.bin = tc'.bin := hb.trans hb'.symm
  have hapi : tc.api = tc'.api := ha.trans ha'.symm
  cases tc
  cases tc'
  rw [Toolchain.mk.injEq]
  exact ⟨hbin, hapi⟩

section Whole

variable {M : Machine}

/-- The output after emptying it has failed. -/
def Machine.uncleared (libs : String → Option (List UInt8)) (kept : String → Bool) :
    String → Option (List UInt8) := fun abi => if kept abi then libs abi else none

/-- Before the loop: the toolchain is missing and nothing is changed, or the output could not be
    emptied. -/
def NotSetUp (M : Machine) (s₀ s : Output) : Prop :=
  ((∀ tc, ¬ M.Found s₀.vars tc) ∧ s.jniLibs = s₀.jniLibs) ∨
    ∃ tc kept, M.Found s₀.vars tc ∧ M.clear = some kept ∧
      s.jniLibs = Machine.uncleared s₀.jniLibs kept

/-- Emptying the output. -/
theorem clearOutput_triple (P : Output → Prop) :
    Triple P (clearOutput M)
      (fun _ s => ∃ s₁, P s₁ ∧ M.clear = none ∧ s = { s₁ with jniLibs := fun _ => none })
      (fun _ s => ∃ s₁ kept, P s₁ ∧ M.clear = some kept ∧
        s = { s₁ with jniLibs := Machine.uncleared s₁.jniLibs kept }) := by
  unfold clearOutput
  cases hc : M.clear with
  | none =>
    refine Triple.modify.post_mono fun _ s hs => ?_
    obtain ⟨s₁, h₁, rfl⟩ := hs
    exact ⟨s₁, h₁, rfl, rfl⟩
  | some kept =>
    refine Triple.bind Triple.modify fun _ => Triple.exit fun s hs => ?_
    obtain ⟨s₁, h₁, rfl⟩ := hs
    exact ⟨s₁, kept, h₁, rfl, rfl⟩

/-- **The part before the loop**: the output is emptied only once the toolchain is found. -/
theorem setUp_triple (M : Machine) (s₀ : Output) :
    Triple (fun s => s = s₀) (setUp M)
      (fun tc s => M.Found s₀.vars tc ∧ M.clear = none ∧ s.vars = loopVars s₀.vars ∧
        s.jniLibs = fun _ => none)
      (fun _ s => NotSetUp M s₀ s) := by
  unfold setUp
  refine Triple.bind Triple.asks fun ndk => ?_
  refine Triple.bind (Triple.check fun s hs hn => ?_) fun _ => ?_
  · obtain ⟨rfl, rfl⟩ := hs
    exact Or.inl ⟨fun tc hf => hn hf.1, rfl⟩
  refine Triple.bind Triple.modify fun _ => ?_
  refine Triple.bind (Triple.check fun s hs hd => ?_) fun _ => ?_
  · obtain ⟨_, ⟨⟨rfl, rfl⟩, -⟩, rfl⟩ := hs
    exact Or.inl ⟨fun tc hf => hd hf.2.1, rfl⟩
  cases hh : ndkHost M with
  | none =>
    refine Triple.exit fun s hs => ?_
    obtain ⟨⟨_, ⟨⟨rfl, rfl⟩, -⟩, rfl⟩, -⟩ := hs
    refine Or.inl ⟨fun tc hf => ?_, rfl⟩
    obtain ⟨host, hhost, -⟩ := hf.2.2.1
    cases hh.symm.trans hhost
  | some host =>
    refine Triple.bind (Triple.check fun s hs hb => ?_) fun _ => ?_
    · obtain ⟨⟨_, ⟨⟨rfl, rfl⟩, -⟩, rfl⟩, -⟩ := hs
      refine Or.inl ⟨fun tc hf => hb ?_, rfl⟩
      obtain ⟨host', hhost, hbin⟩ := hf.2.2.1
      obtain rfl : host = host' := Option.some.inj (hh.symm.trans hhost)
      rw [← hf.2.2.2.1, hbin]
      rfl
    refine Triple.bind Triple.asks fun api => ?_
    refine Triple.bind ((clearOutput_triple _).mono (fun _ hs => hs) (fun _ _ hs => hs) ?_) fun _ =>
      Triple.pure fun s hs => ?_
    · intro _ s hs
      obtain ⟨s₁, kept, ⟨⟨⟨⟨_, ⟨⟨rfl, rfl⟩, hn⟩, rfl⟩, hd⟩, hb⟩, rfl⟩, hkept, rfl⟩ := hs
      exact Or.inr ⟨⟨_, _⟩, kept, ⟨hn, hd, ⟨host, hh, rfl⟩, hb, rfl⟩, hkept, rfl⟩
    · obtain ⟨_, ⟨⟨⟨⟨_, ⟨⟨rfl, rfl⟩, hn⟩, rfl⟩, hd⟩, hb⟩, rfl⟩, hclear, rfl⟩ := hs
      exact ⟨⟨hn, hd, ⟨host, hh, rfl⟩, hb, rfl⟩, hclear, rfl, rfl⟩

/-- After the loop. -/
structure Finished (M : Machine) (tc : Toolchain) (env : Vars) (s : Output) : Prop where
  found : M.Found env tc
  clear : M.clear = none
  ready : ∀ abi ∈ ABIS, M.Ready tc (loopVars env) abi
  libs : ∀ abi, s.jniLibs abi = if abi ∈ ABIS then M.library tc (loopVars env) abi else none

/-- What the script leaves where it fails: before the loop, in it, or at the report. -/
def Failed (M : Machine) (s₀ s : Output) : Prop :=
  NotSetUp M s₀ s ∨
    (∃ tc, M.Found s₀.vars tc ∧ M.clear = none ∧ StoppedIn M tc (loopVars s₀.vars) s) ∨
    (M.report = false ∧ ∃ tc, Finished M tc s₀.vars s)

theorem buildAndroid_triple (hM : M.Scoped) (s₀ : Output) :
    Triple (fun s => s = s₀) (buildAndroid M)
      (fun _ s => M.report = true ∧ ∃ tc, Finished M tc s₀.vars s) (fun _ => Failed M s₀) := by
  unfold buildAndroid
  refine Triple.bind ((setUp_triple M s₀).mono (fun _ hs => hs) (fun _ _ hs => hs)
    fun _ _ he => Or.inl he) fun tc => ?_
  have hrounds := Triple.forEach (Inv M tc (loopVars s₀.vars)) fun done x rest hsplit =>
    buildAbi_triple hM hsplit
  have hloop : Triple (fun s => M.Found s₀.vars tc ∧ M.clear = none ∧ s.vars = loopVars s₀.vars ∧
      s.jniLibs = fun _ => none) (forEach ABIS (buildAbi M tc))
      (fun _ s => Finished M tc s₀.vars s) (fun _ => Failed M s₀) := by
    intro s hs
    obtain ⟨hf, hclear, hvars, hlibs⟩ := hs
    have hstart : Inv M tc (loopVars s₀.vars) [] s := by
      refine ⟨?_, ?_, fun abi _ => by rw [hlibs], fun abi _ _ target _ => ?_⟩
      · intro abi hx
        cases hx
      · intro abi hx
        cases hx
      · rw [hvars]
        exact fun _ _ => rfl
    refine (hrounds.mono (fun _ hx => hx) (fun _ s' hx => ?_) fun _ s' hx => ?_) s hstart
    · refine ⟨hf, hclear, hx.ready, fun abi => ?_⟩
      split
      · exact hx.built abi ‹_›
      · exact hx.others abi ‹_›
    · exact Or.inr (Or.inl ⟨tc, hf, hclear, hx⟩)
  refine Triple.bind hloop fun _ => (Triple.check fun s hs hr => ?_).post_mono fun _ s hs => ?_
  · exact Or.inr (Or.inr ⟨Bool.eq_false_iff.mpr hr, tc, hs⟩)
  · exact ⟨hs.2, tc, hs.1⟩

/-- **The libraries of the AAR.** The script succeeds exactly if it finds the toolchain, can empty
    the output, can build every ABI by itself, and prints its report. Then the output has the
    libraries of these builds and no others. If it fails, the output is untouched and there is no
    toolchain; or emptying it failed; or it has the libraries of the ABIs before the first one that
    cannot be built, of that one what a failed copy leaves, and nothing else; or it has all the
    libraries, and only the report failed. -/
theorem android_libraries (hM : M.Scoped) {s₀ s : Output} {r : Except (List String) Unit}
    (h : buildAndroid M s₀ = (r, s)) :
    (r = .ok () ↔ ∃ tc, M.Found s₀.vars tc ∧ M.clear = none ∧
      (∀ abi ∈ ABIS, M.Ready tc (loopVars s₀.vars) abi) ∧ M.report = true) ∧
    (r = .ok () → ∀ tc, M.Found s₀.vars tc → ∀ abi, s.jniLibs abi =
      if abi ∈ ABIS then M.library tc (loopVars s₀.vars) abi else none) ∧
    (r ≠ .ok () → Failed M s₀ s) := by
  have htriple := buildAndroid_triple hM s₀
  cases r with
  | ok u =>
    obtain ⟨hreport, tc, hfin⟩ := htriple.of_ok rfl h
    refine ⟨iff_of_true rfl ⟨tc, hfin.found, hfin.clear, hfin.ready, hreport⟩, fun _ tc' hf' => ?_,
      fun hne => absurd rfl hne⟩
    rw [hf'.unique hfin.found]
    exact hfin.libs
  | error e =>
    have herr : Failed M s₀ s := htriple.of_error rfl h
    refine ⟨⟨fun hx => (by cases hx), fun hx => ?_⟩, fun hx => (by cases hx), fun _ => herr⟩
    obtain ⟨tc, hf, hclear, hready, hreport⟩ := hx
    rcases herr with (⟨hnone, -⟩ | ⟨_, kept, -, hkept, -⟩) | ⟨tc', hf', -, hstop⟩ | ⟨hrep, -⟩
    · exact absurd hf (hnone tc)
    · cases hclear.symm.trans hkept
    · obtain ⟨done, abi, rest, hsplit, -, hnext, -⟩ := hstop
      rw [hf'.unique hf] at hnext
      refine absurd (hready abi ?_) hnext
      rw [hsplit]
      exact List.mem_append_right _ List.mem_cons_self
    · cases hreport.symm.trans hrep

end Whole

/-- A runner whose cargo builds for a target if it is told the linker. -/
def runner : Machine where
  root := "/home/runner/work"
  uname := "Linux"
  isDir _ := true
  isExecutable _ := true
  hasTarget _ := false
  addTarget _ := true
  clear := none
  cargo env target := (env (linkerVar target)).map fun clang => some [UInt8.ofNat clang.length]
  cp _ := none
  report := true

theorem runner_scoped : runner.Scoped := by
  intro target _ env env' h
  show (env (linkerVar target)).map _ = (env' (linkerVar target)).map _
  rw [h _ (not_foreign_linkerVar target)]

/-- It builds all four. -/
theorem android_libraries_runner : ∃ s,
    buildAndroid runner ⟨fun name => if name = "ANDROID_NDK_ROOT" then some "/ndk" else none,
      fun _ => some []⟩ = (.ok (), s) ∧ ∀ abi, (s.jniLibs abi).isSome ↔ abi ∈ ABIS := by
  let s₀ : Output := ⟨fun name => if name = "ANDROID_NDK_ROOT" then some "/ndk" else none,
    fun _ => some []⟩
  let tc : Toolchain := ⟨"/ndk/toolchains/llvm/prebuilt/linux-x86_64/bin", "24"⟩
  have hrun : buildAndroid runner s₀ = ((buildAndroid runner s₀).1, (buildAndroid runner s₀).2) :=
    rfl
  obtain ⟨hiff, hlibs, -⟩ := android_libraries runner_scoped hrun
  have hf : runner.Found s₀.vars tc :=
    ⟨by decide, rfl, ⟨"linux-x86_64", rfl, by decide⟩, rfl, by decide⟩
  have hready : ∀ abi ∈ ABIS, runner.Ready tc (loopVars s₀.vars) abi := by
    intro abi habi
    simp only [ABIS, List.mem_cons, List.not_mem_nil, or_false] at habi
    rcases habi with rfl | rfl | rfl | rfl <;>
      exact ⟨_, _, rfl, rfl, Or.inr rfl, rfl, rfl⟩
  have hok := hiff.mpr ⟨tc, hf, rfl, hready, rfl⟩
  refine ⟨(buildAndroid runner s₀).2, Prod.ext hok rfl, fun abi => ?_⟩
  rw [hlibs hok tc hf abi]
  by_cases habi : abi ∈ ABIS
  · rw [if_pos habi]
    exact iff_of_true (hready abi habi).library_isSome habi
  · rw [if_neg habi]
    exact iff_of_false (by simp) habi

end OnymSdk.Build
