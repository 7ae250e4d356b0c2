/-
  File:      OnymSdk/Build/Host.lean
  Subject:   build-host-jni.sh, AND WHAT THE LOADER FINDS OF IT.

  The script stages the library under `src/main/resources/native/<os>/<arch>/`;
  the jar is made of the resources, and the loader of `OnymJni.kt` looks up a path
  that it computes from the JVM's properties. The directory is ignored by git and
  never cleaned, so a checkout collects what was ever staged in it.

  * `Host`, `buildHost` -- a machine, and the script on it;
  * `staged` -- what one run writes, and where; `buildHost_staged`;
  * `RunsOn` -- a JVM on a machine: what it says of itself;
  * `resourcePath_eq` -- **the script's table and the loader's detection agree**;
  * `jar_serves` -- **after any builds on any machines the loader finds, on each, the
    library last staged there**, and else tells to do what makes it find one.
-/
import OnymSdk.Build.Android
import OnymSdk.Loader

namespace OnymSdk.Build

open Shell

/-! ## 1. The script -/

/-- A machine that builds for itself. `cargo release` is the build: what then stands in the
    profile's directory, or `none` if it fails; `cp` is what a failed copy leaves. -/
structure Host where
  root : String
  sysname : String
  machine : String
  vars : Vars
  isDir : String → Bool
  cargo : Bool → Option (String → Option (List UInt8))
  cp : Option (Option (List UInt8))

/-- The files under `src/main/resources`, by the path they have in the jar. -/
abbrev Resources := String → Option (List UInt8)

/-- The extension of the library. -/
def Host.ext (H : Host) : Option String :=
  match H.sysname with
  | "Darwin" => some "dylib"
  | "Linux" => some "so"
  | _ => none

/-- `OS_ARCH`; on a machine that is not in the table it is what the script inherits. -/
def Host.osArch (H : Host) : String :=
  if H.sysname = "Darwin" ∧ H.machine = "arm64" then "darwin/aarch64"
  else if H.sysname = "Darwin" ∧ H.machine = "x86_64" then "darwin/x86_64"
  else if H.sysname = "Linux" ∧ H.machine = "aarch64" then "linux/aarch64"
  else if H.sysname = "Linux" ∧ H.machine = "x86_64" then "linux/x86_64"
  else H.vars.orElse "OS_ARCH" ""

def libFile (ext : String) : String := "libonym_sdk_jni." ++ ext

/-- The path in the jar. -/
def Host.path (H : Host) (ext : String) : String := "/native/" ++ H.osArch ++ "/" ++ libFile ext

/-- Is `--debug` given? -/
def isRelease (arg : Option String) : Bool := arg ≠ some "--debug"

/-- **The script.** -/
def buildHost (H : Host) (arg : Option String) : Command (List String) Resources Unit := do
  let contracts := H.root ++ "/External/onym-contracts"
  check (fun _ => H.isDir (contracts ++ "/plonk") = true)
    ["expected onym-contracts submodule at " ++ contracts,
      "run: git submodule update --init --recursive"]
  match H.cargo (isRelease arg) with
  | none => exit []
  | some out =>
    match H.ext with
    | none => exit ["unsupported host: " ++ H.sysname]
    | some ext =>
      match out (libFile ext) with
      | none =>
        exit ["expected JNI cdylib not found: " ++ H.root ++ "/rust-jni/target/" ++
          (if isRelease arg then "release" else "debug") ++ "/" ++ libFile ext]
      | some lib =>
        if H.osArch = "" then pure ()
        else
          match H.cp with
          | none => modify fun s => Function.update s (H.path ext) (some lib)
          | some left => do
            modify fun s => Function.update s (H.path ext) left
            exit []

/-! ## 2. What a run stages -/

/-- The library of a run that gets as far as the copy, with its path. -/
def Host.library (H : Host) (arg : Option String) : Option (String × List UInt8) := do
  if H.isDir (H.root ++ "/External/onym-contracts" ++ "/plonk") = true then
    let out ← H.cargo (isRelease arg)
    let ext ← H.ext
    let lib ← out (libFile ext)
    if H.osArch = "" then none else some (H.path ext, lib)
  else none

/-- What a run writes, and where. -/
def staged (H : Host) (arg : Option String) : Option (String × Option (List UInt8)) :=
  (H.library arg).map fun x => (x.1, H.cp.getD (some x.2))

/-- The resources after a write. -/
def apply (s : Resources) : Option (String × Option (List UInt8)) → Resources
  | some (path, content) => Function.update s path content
  | none => s

section Staged

variable {H : Host} {arg : Option String}

/-- **What one run does**: it writes what is staged, or nothing, and a success on a machine with a
    directory has staged its library. -/
theorem buildHost_triple (H : Host) (arg : Option String) (s₀ : Resources) :
    Triple (fun s => s = s₀) (buildHost H arg)
      (fun _ s => s = apply s₀ (staged H arg) ∧ (H.osArch ≠ "" → ∃ path lib,
        H.library arg = some (path, lib) ∧ staged H arg = some (path, some lib)))
      (fun _ s => s = apply s₀ (staged H arg)) := by
  have hnone : H.library arg = none → s₀ = apply s₀ (staged H arg) := fun h => by
    rw [staged, h]
    rfl
  unfold buildHost
  by_cases hd : H.isDir (H.root ++ "/External/onym-contracts" ++ "/plonk") = true
  · have hlib : H.library arg = (H.cargo (isRelease arg)).bind fun out => H.ext.bind fun ext =>
        (out (libFile ext)).bind fun lib =>
          if H.osArch = "" then none else some (H.path ext, lib) := if_pos hd
    refine Triple.bind (Triple.check fun s _ hn => absurd hd hn) fun _ => ?_
    cases hc : H.cargo (isRelease arg) with
    | none =>
      refine Triple.exit fun s hs => ?_
      rw [hs.1]
      exact hnone (by rw [hlib, hc]; rfl)
    | some out =>
      cases he : H.ext with
      | none =>
        refine Triple.exit fun s hs => ?_
        rw [hs.1]
        exact hnone (by rw [hlib, hc, he]; rfl)
      | some ext =>
        rw [hc, he, Option.bind_some, Option.bind_some] at hlib
        dsimp only
        cases ho : out (libFile ext) with
        | none =>
          refine Triple.exit fun s hs => ?_
          rw [hs.1]
          exact hnone (by rw [hlib, ho]; rfl)
        | some lib =>
          rw [ho, Option.bind_some] at hlib
          dsimp only
          by_cases ha : H.osArch = ""
          · rw [if_pos ha] at hlib ⊢
            refine Triple.pure fun s hs => ?_
            rw [hs.1]
            exact ⟨hnone hlib, fun hne => absurd ha hne⟩
          · rw [if_neg ha] at hlib ⊢
            cases hcp : H.cp with
            | none =>
              dsimp only
              have hst : staged H arg = some (H.path ext, some lib) := by
                rw [staged, hlib, hcp]
                rfl
              refine Triple.modify.post_mono fun _ s hs => ?_
              obtain ⟨_, ⟨rfl, -⟩, rfl⟩ := hs
              rw [hst]
              exact ⟨rfl, fun _ => ⟨_, _, hlib, rfl⟩⟩
            | some left =>
              refine Triple.bind Triple.modify fun _ => Triple.exit fun s hs => ?_
              obtain ⟨_, ⟨rfl, -⟩, rfl⟩ := hs
              rw [staged, hlib, hcp]
              rfl
  · refine Triple.bind (Triple.check fun s hs _ => ?_) fun _ s hs => absurd hs.2 hd
    rw [hs]
    exact hnone (if_neg hd)

theorem buildHost_state (H : Host) (arg : Option String) (s : Resources) :
    (buildHost H arg s).2 = apply s (staged H arg) := by
  have h := buildHost_triple H arg s s rfl
  split at h
  · rename_i hr
    rw [hr]
    exact h.1
  · rename_i hr
    rw [hr]
    exact h

end Staged

/-! ## 3. A JVM on a machine -/

/-- `os.name` and `os.arch` of a JVM on the machines in the script's table. -/
def Host.jvm (H : Host) : Option (String × String) :=
  if H.sysname = "Darwin" ∧ H.machine = "arm64" then some ("Mac OS X", "aarch64")
  else if H.sysname = "Darwin" ∧ H.machine = "x86_64" then some ("Mac OS X", "x86_64")
  else if H.sysname = "Linux" ∧ H.machine = "aarch64" then some ("Linux", "aarch64")
  else if H.sysname = "Linux" ∧ H.machine = "x86_64" then some ("Linux", "amd64")
  else none

/-- What a JVM on the machine says of itself. -/
structure RunsOn (H : Host) (p : Platform) : Prop where
  properties : H.jvm = p.osName.bind fun name => p.osArch.map fun arch => (name, arch)
  known : H.jvm.isSome
  lowercase : ∀ s : String, (∀ c ∈ s.toList, c.toNat < 128) →
    p.lowercase s = String.ofList (s.toList.map Char.toLower)
  mapLibraryName : ∀ ext, H.ext = some ext → ∀ name, p.mapLibraryName name =
    "lib" ++ name ++ "." ++ ext

section RunsOn

variable {H : Host} {p : Platform}

/-- The script's table, next to the JVM's. -/
theorem jvm_cases {name arch : String} (h : H.jvm = some (name, arch)) :
    (name = "Mac OS X" ∧ arch = "aarch64" ∧ H.osArch = "darwin/aarch64") ∨
      (name = "Mac OS X" ∧ arch = "x86_64" ∧ H.osArch = "darwin/x86_64") ∨
      (name = "Linux" ∧ arch = "aarch64" ∧ H.osArch = "linux/aarch64") ∨
      (name = "Linux" ∧ arch = "amd64" ∧ H.osArch = "linux/x86_64") := by
  unfold Host.jvm at h
  unfold Host.osArch
  split at h
  · cases h
    exact Or.inl ⟨rfl, rfl, if_pos ‹_›⟩
  · rw [if_neg ‹_›]
    split at h
    · cases h
      exact Or.inr (Or.inl ⟨rfl, rfl, if_pos ‹_›⟩)
    · rw [if_neg ‹_›]
      split at h
      · cases h
        exact Or.inr (Or.inr (Or.inl ⟨rfl, rfl, if_pos ‹_›⟩))
      · rw [if_neg ‹_›]
        split at h
        · cases h
          exact Or.inr (Or.inr (Or.inr ⟨rfl, rfl, if_pos ‹_›⟩))
        · cases h

/-- The properties of a JVM on the machine. -/
theorem RunsOn.exists_properties (h : RunsOn H p) :
    ∃ name arch, p.osName = some name ∧ p.osArch = some arch ∧ H.jvm = some (name, arch) := by
  obtain ⟨hprop, hknown, -, -⟩ := h
  rw [hprop] at hknown ⊢
  cases hn : p.osName with
  | none =>
    rw [hn] at hknown
    cases hknown
  | some name =>
    cases ha : p.osArch with
    | none =>
      rw [hn, ha] at hknown
      cases hknown
    | some arch => exact ⟨name, arch, rfl, rfl, rfl⟩

theorem RunsOn.lowercase_of_all (h : RunsOn H p) {s : String}
    (hs : s.toList.all (fun c => c.toNat < 128) = true) :
    p.lowercase s = String.ofList (s.toList.map Char.toLower) :=
  h.lowercase s fun c hc => of_decide_eq_true (List.all_eq_true.mp hs c hc)

/-- The directory the loader computes from the properties. -/
theorem platformDir_eq (h : RunsOn H p) : p.platformDir = H.osArch ∧ H.osArch ≠ "" := by
  obtain ⟨name, arch, hn, ha, hjvm⟩ := h.exists_properties
  unfold Platform.platformDir Platform.detectOs Platform.detectArch
  rw [hn, ha, Option.getD_some, Option.getD_some]
  rcases jvm_cases hjvm with ⟨rfl, rfl, e⟩ | ⟨rfl, rfl, e⟩ | ⟨rfl, rfl, e⟩ | ⟨rfl, rfl, e⟩ <;>
  · rw [e, h.lowercase_of_all (by decide), h.lowercase_of_all (by decide)]
    decide

/-- **The script's table and the loader's detection agree.** -/
theorem resourcePath_eq (h : RunsOn H p) {ext : String} (he : H.ext = some ext) :
    p.resourcePath = H.path ext := by
  unfold Platform.resourcePath Platform.libName Host.path libFile
  rw [(platformDir_eq h).1, h.mapLibraryName ext he]
  rfl

end RunsOn

/-! ## 4. Builds in one checkout -/

/-- Runs of the script in one checkout, each on some machine. -/
def builds (runs : List (Host × Option String)) (s : Resources) : Resources :=
  runs.foldl (fun s r => (buildHost r.1 r.2 s).2) s

/-- What the last run that wrote to the path left there. -/
def lastStaged (runs : List (Host × Option String)) (path : String) : Option (List UInt8) :=
  (runs.reverse.findSome? fun r =>
    (staged r.1 r.2).bind fun x => if x.1 = path then some x.2 else none).join

theorem builds_append (runs : List (Host × Option String)) (r : Host × Option String)
    (s : Resources) : builds (runs ++ [r]) s = apply (builds runs s) (staged r.1 r.2) := by
  rw [builds, List.foldl_append, List.foldl_cons, List.foldl_nil, buildHost_state]
  rfl

theorem lastStaged_append (runs : List (Host × Option String)) (r : Host × Option String)
    (path : String) : lastStaged (runs ++ [r]) path =
      match staged r.1 r.2 with
      | some (q, content) => if q = path then content else lastStaged runs path
      | none => lastStaged runs path := by
  unfold lastStaged
  rw [List.reverse_append, List.reverse_singleton, List.singleton_append, List.findSome?_cons]
  cases staged r.1 r.2 with
  | none => rfl
  | some x =>
    obtain ⟨q, content⟩ := x
    rw [Option.bind_some]
    by_cases hq : q = path
    · simp only [if_pos hq, Option.join_some]
    · simp only [if_neg hq]

/-- **Every path holds what was last staged there**, and nothing else is there. -/
theorem builds_eq (runs : List (Host × Option String)) (path : String) :
    builds runs (fun _ => none) path = lastStaged runs path := by
  induction runs using List.reverseRecOn with
  | nil => rfl
  | append_singleton runs r ih =>
    rw [builds_append, lastStaged_append]
    cases staged r.1 r.2 with
    | none => exact ih
    | some x =>
      obtain ⟨q, content⟩ := x
      by_cases hq : q = path
      · subst hq
        simp only [apply, if_pos, Function.update_self]
      · simp only [apply, if_neg hq]
        rw [Function.update_of_ne (Ne.symm hq), ih]

section Serves

variable {runs : List (Host × Option String)} {H : Host} {p : Platform}

/-- A library is staged under the machine's own file name. -/
theorem library_cases {arg : Option String} {path : String} {lib : List UInt8}
    (h : H.library arg = some (path, lib)) : ∃ ext, H.ext = some ext ∧ path = H.path ext := by
  unfold Host.library at h
  split at h
  · simp only [Option.bind_eq_bind, Option.bind_eq_some_iff, Option.ite_none_left_eq_some,
      Option.some.injEq, Prod.mk.injEq] at h
    obtain ⟨_, -, ext, he, _, -, -, rfl, -⟩ := h
    exact ⟨ext, he, rfl⟩
  · cases h

/-- It is the path the loader looks up on the same machine. -/
theorem library_path (h : RunsOn H p) {arg : Option String} {path : String} {lib : List UInt8}
    (hl : H.library arg = some (path, lib)) : path = p.resourcePath := by
  obtain ⟨ext, he, rfl⟩ := library_cases hl
  exact (resourcePath_eq h he).symm

/-- The error of the second tier names the directory that the script fills. -/
theorem within_notFoundMessage (h : RunsOn H p) (cause : String) :
    Within ("src/main/resources/native/" ++ H.osArch ++ "/") (p.notFoundMessage cause) := by
  rw [← (platformDir_eq h).1]
  unfold Platform.notFoundMessage
  -- it stands in the fourth of the six parts, with the dot after it
  apply Platform.within_append_right
  apply Platform.within_append_right
  apply Platform.within_append_left
  refine ⟨[], ".\n".toList, ?_⟩
  simp [String.toList_append]

/-- **What the loader finds.** Take any runs of the script in a fresh checkout, on any machines,
    successful or not, and a JVM on one of the machines with the jar of that checkout (of its
    entries only the one at the loader's own path matters). If a library was last staged for the
    machine, the loader loads if this one extracts and loads. If none was, it loads if the second
    tier does, and otherwise its error names the directory to fill; and one successful run on the
    machine fills it with the library just built. -/
theorem jar_serves (h : RunsOn H p)
    (hjar : p.getResourceAsStream p.resourcePath = builds runs (fun _ => none) p.resourcePath) :
    (∀ lib, lastStaged runs p.resourcePath = some lib →
      (p.loadNativeLibrary = .ok () ↔
        ∃ file, p.extract lib = .ok file ∧ p.load file lib = .ok ())) ∧
    (lastStaged runs p.resourcePath = none →
      (p.loadNativeLibrary = .ok () ↔ p.FallbackLoads) ∧
      ∀ e, p.loadNativeLibrary = .error e → ∃ message, e = .UnsatisfiedLinkError message ∧
        Within ("src/main/resources/native/" ++ H.osArch ++ "/") message) ∧
    ∀ arg, (buildHost H arg (builds runs fun _ => none)).1 = .ok () → ∃ lib,
      H.library arg = some (p.resourcePath, lib) ∧
      lastStaged (runs ++ [(H, arg)]) p.resourcePath = some lib := by
  refine ⟨fun lib hlib => ?_, fun hnone => ?_, fun arg hok => ?_⟩
  · exact Platform.loads_bundled_iff (by rw [hjar, builds_eq, hlib])
  · have hres : p.getResourceAsStream p.resourcePath = none := by
      rw [hjar, builds_eq, hnone]
    refine ⟨Platform.loads_fallback_iff hres, fun e he => ?_⟩
    rw [Platform.loadNativeLibrary_absent hres] at he
    split at he
    · cases he
    · cases he
      exact ⟨_, rfl, within_notFoundMessage h _⟩
  · have htriple := buildHost_triple H arg (builds runs fun _ => none)
    obtain ⟨-, hst⟩ := htriple.of_ok rfl (Prod.ext hok rfl)
    obtain ⟨path, lib, hlib, hstaged⟩ := hst (platformDir_eq h).2
    obtain rfl := library_path h hlib
    refine ⟨lib, hlib, ?_⟩
    rw [lastStaged_append, hstaged]
    exact if_pos rfl

end Serves

/-- A Linux machine whose cargo builds. -/
def ubuntu : Host where
  root := "/home/runner/work"
  sysname := "Linux"
  machine := "x86_64"
  vars _ := none
  isDir _ := true
  cargo _ := some fun file =>
    if file = "libonym_sdk_jni.so" then some [0x7F, 0x45, 0x4C, 0x46] else none
  cp := none

/-- A JVM there, with the jar of a checkout that was built in once. -/
def ubuntuJvm : Platform :=
  { Platform.foreignResource with
    getResourceAsStream := builds [(ubuntu, none)] fun _ => none
    load := fun _ _ => .ok () }

theorem ubuntuJvm_runsOn : RunsOn ubuntu ubuntuJvm := by
  refine ⟨by decide, by decide, fun _ _ => rfl, fun ext he name => ?_⟩
  cases he
  show "lib" ++ name ++ ".so" = "lib" ++ name ++ "." ++ "so"
  rw [@String.append_assoc ("lib" ++ name)]
  rfl

/-- It loads the library of that build. -/
theorem jar_serves_ubuntu : ubuntuJvm.loadNativeLibrary = .ok () := by
  obtain ⟨hserved, -, -⟩ := jar_serves ubuntuJvm_runsOn rfl
  exact (hserved [0x7F, 0x45, 0x4C, 0x46] (by decide)).mpr ⟨_, rfl, rfl⟩

end OnymSdk.Build
