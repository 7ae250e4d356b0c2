/-
  File:      OnymSdk/Exports.lean
  Subject:   THE 23 JNI EXPORTS of `rust-jni/src/lib.rs`.

  * the exports, one definition each, under the name behind
    `Java_chat_onym_sdk_internal_OnymJni_`; the two macros are
    `jniOneInOneOut` and `jniBakeOrPinned`;
  * `ByteExport`, `ExportCall` -- an export with its arguments, the
    `byte[]`-returning ones apart from `nostrVerifyEventSignature`; `ffiFn` -- the C
    function it is for;
  * `readsState` -- what the array reads at the head of an export do to the state;
    `delivered` -- what a read delivers;
  * `ByteExport.run_split`, `verify_split` -- **the shape of every export**: its
    reads, then one call of its C function on what they delivered, then the tail of
    Bridge.lean. Everything proved about all exports goes through these two.
-/
import OnymSdk.Bridge

namespace OnymSdk

variable {t : Target}

/-! ## 1. The exports -/

namespace Exports

/-- Macro `jni_one_in_one_out`. -/
def jniOneInOneOut (ffiFn : InBuf t → FfiCall t) (input : JRef) : Bridge t JRef := do
  let bytes ← jbytearrayToVec input
  callOneOut (ffiFn (vecArg t bytes))

def computeLeafHash : JRef → Bridge t JRef := jniOneInOneOut .onymComputeLeafHash

def computePublicKey : JRef → Bridge t JRef := jniOneInOneOut .onymComputePublicKey

def parsePlonkProof : JRef → Bridge t JRef := jniOneInOneOut .onymParsePlonkProof

def nostrDerivePublicKey : JRef → Bridge t JRef := jniOneInOneOut .onymNostrDerivePublicKey

def computeMerkleRoot (leafHashes : JRef) (depth : Int32) : Bridge t JRef := do
  let leaves ← jbytearrayToVec leafHashes
  callOneOut (.onymComputeMerkleRoot (vecArg t leaves) (jintAsUsize t depth))

def computeSha256Commitment (root : JRef) (epoch : Int64) (salt : JRef) : Bridge t JRef := do
  let rootV ← jbytearrayToVec root
  let saltV ← jbytearrayToVec salt
  callOneOut (.onymComputeSha256Commitment (vecArg t rootV) (jlongAsU64 epoch) (vecArg t saltV))

def computePoseidonCommitment (root : JRef) (epoch : Int64) (salt : JRef) : Bridge t JRef := do
  let rootV ← jbytearrayToVec root
  let saltV ← jbytearrayToVec salt
  callOneOut (.onymComputePoseidonCommitment (vecArg t rootV) (jlongAsU64 epoch) (vecArg t saltV))

def nostrSignEventId (secretKey eventId : JRef) : Bridge t JRef := do
  let sk ← jbytearrayToVec secretKey
  let id ← jbytearrayToVec eventId
  callOneOut (.onymNostrSignEventId (vecArg t sk) (vecArg t id))

def nostrVerifyEventSignature (publicKey eventId signature : JRef) : Bridge t Bool := do
  let pk ← jbytearrayToVec publicKey
  let id ← jbytearrayToVec eventId
  let sig ← jbytearrayToVec signature
  callVerify (.onymNostrVerifyEventSignature (vecArg t pk) (vecArg t id) (vecArg t sig))

/-- Macro `jni_bake_or_pinned`. -/
def jniBakeOrPinned (ffiFn : Usize t → FfiCall t) (depth : Int32) : Bridge t JRef :=
  callOneOut (ffiFn (jintAsUsize t depth))

def anarchyBakeMembershipVk : Int32 → Bridge t JRef :=
  jniBakeOrPinned .onymAnarchyBakeMembershipVk

def anarchyBakeUpdateVk : Int32 → Bridge t JRef := jniBakeOrPinned .onymAnarchyBakeUpdateVk

def anarchyPinnedMembershipVkSha256Hex : Int32 → Bridge t JRef :=
  jniBakeOrPinned .onymAnarchyPinnedMembershipVkSha256Hex

def anarchyPinnedUpdateVkSha256Hex : Int32 → Bridge t JRef :=
  jniBakeOrPinned .onymAnarchyPinnedUpdateVkSha256Hex

def anarchyProveMembership (depth : Int32) (leaves proverSk : JRef) (proverIndex : Int32)
    (epoch : Int64) (salt : JRef) : Bridge t JRef := do
  let leavesV ← jbytearrayToVec leaves
  let skV ← jbytearrayToVec proverSk
  let saltV ← jbytearrayToVec salt
  callTwoOut (.onymAnarchyProveMembership (jintAsUsize t depth) (vecArg t leavesV)
    (vecArg t skV) (jintAsUsize t proverIndex) (jlongAsU64 epoch) (vecArg t saltV))

def anarchyProveUpdate (depth : Int32) (leavesOld leavesNew proverSk : JRef)
    (proverIndexOld : Int32) (epochOld : Int64) (saltOld saltNew : JRef) : Bridge t JRef := do
  let oldV ← jbytearrayToVec leavesOld
  -- null is the "reuse old roster" sentinel; an empty array is not
  let newVOpt ← match leavesNew with
    | none => pure none
    | some a => do pure (some (← jbytearrayToVec (some a)))
  let newArg := match newVOpt with
    | none => nullArg t
    | some v => vecArg t v
  let skV ← jbytearrayToVec proverSk
  let saltOldV ← jbytearrayToVec saltOld
  let saltNewV ← jbytearrayToVec saltNew
  callTwoOut (.onymAnarchyProveUpdate (jintAsUsize t depth) (vecArg t oldV) newArg
    (vecArg t skV) (jintAsUsize t proverIndexOld) (jlongAsU64 epochOld) (vecArg t saltOldV)
    (vecArg t saltNewV))

def oneOnOneBakeCreateVk : Bridge t JRef := callOneOut .onymOneononeBakeCreateVk

def oneOnOneProveCreate (sk0 sk1 salt : JRef) : Bridge t JRef := do
  let sk0V ← jbytearrayToVec sk0
  let sk1V ← jbytearrayToVec sk1
  let saltV ← jbytearrayToVec salt
  callTwoOut (.onymOneononeProveCreate (vecArg t sk0V) (vecArg t sk1V) (vecArg t saltV))

def tyrannyBakeCreateVk : Int32 → Bridge t JRef := jniBakeOrPinned .onymTyrannyBakeCreateVk

def tyrannyBakeUpdateVk : Int32 → Bridge t JRef := jniBakeOrPinned .onymTyrannyBakeUpdateVk

def tyrannyPinnedCreateVkSha256Hex : Int32 → Bridge t JRef :=
  jniBakeOrPinned .onymTyrannyPinnedCreateVkSha256Hex

def tyrannyPinnedUpdateVkSha256Hex : Int32 → Bridge t JRef :=
  jniBakeOrPinned .onymTyrannyPinnedUpdateVkSha256Hex

def tyrannyProveCreate (depth : Int32) (leaves adminSk : JRef) (adminIndex : Int32)
    (groupIdFr salt : JRef) : Bridge t JRef := do
  let leavesV ← jbytearrayToVec leaves
  let adminV ← jbytearrayToVec adminSk
  let gidV ← jbytearrayToVec groupIdFr
  let saltV ← jbytearrayToVec salt
  callTwoOut (.onymTyrannyProveCreate (jintAsUsize t depth) (vecArg t leavesV)
    (vecArg t adminV) (jintAsUsize t adminIndex) (vecArg t gidV) (vecArg t saltV))

def tyrannyProveUpdate (depth : Int32) (leavesOld adminSk : JRef) (adminIndexOld : Int32)
    (epochOld : Int64) (memberRootNew groupIdFr saltOld saltNew : JRef) : Bridge t JRef := do
  let oldV ← jbytearrayToVec leavesOld
  let adminV ← jbytearrayToVec adminSk
  let mrnV ← jbytearrayToVec memberRootNew
  let gidV ← jbytearrayToVec groupIdFr
  let saltOldV ← jbytearrayToVec saltOld
  let saltNewV ← jbytearrayToVec saltNew
  callTwoOut (.onymTyrannyProveUpdate (jintAsUsize t depth) (vecArg t oldV) (vecArg t adminV)
    (jintAsUsize t adminIndexOld) (jlongAsU64 epochOld) (vecArg t mrnV) (vecArg t gidV)
    (vecArg t saltOldV) (vecArg t saltNewV))

end Exports

/-! ## 2. An export with its arguments -/

/-- A call of a `byte[]`-returning export. -/
inductive ByteExport where
  | computeLeafHash (input : JRef)
  | computePublicKey (input : JRef)
  | parsePlonkProof (input : JRef)
  | nostrDerivePublicKey (input : JRef)
  | computeMerkleRoot (leafHashes : JRef) (depth : Int32)
  | computeSha256Commitment (root : JRef) (epoch : Int64) (salt : JRef)
  | computePoseidonCommitment (root : JRef) (epoch : Int64) (salt : JRef)
  | nostrSignEventId (secretKey eventId : JRef)
  | anarchyBakeMembershipVk (depth : Int32)
  | anarchyBakeUpdateVk (depth : Int32)
  | anarchyPinnedMembershipVkSha256Hex (depth : Int32)
  | anarchyPinnedUpdateVkSha256Hex (depth : Int32)
  | anarchyProveMembership (depth : Int32) (leaves proverSk : JRef) (proverIndex : Int32)
      (epoch : Int64) (salt : JRef)
  | anarchyProveUpdate (depth : Int32) (leavesOld leavesNew proverSk : JRef)
      (proverIndexOld : Int32) (epochOld : Int64) (saltOld saltNew : JRef)
  | oneOnOneBakeCreateVk
  | oneOnOneProveCreate (sk0 sk1 salt : JRef)
  | tyrannyBakeCreateVk (depth : Int32)
  | tyrannyBakeUpdateVk (depth : Int32)
  | tyrannyPinnedCreateVkSha256Hex (depth : Int32)
  | tyrannyPinnedUpdateVkSha256Hex (depth : Int32)
  | tyrannyProveCreate (depth : Int32) (leaves adminSk : JRef) (adminIndex : Int32)
      (groupIdFr salt : JRef)
  | tyrannyProveUpdate (depth : Int32) (leavesOld adminSk : JRef) (adminIndexOld : Int32)
      (epochOld : Int64) (memberRootNew groupIdFr saltOld saltNew : JRef)

/-- The export's body. -/
def ByteExport.run : ByteExport → Bridge t JRef
  | .computeLeafHash input => Exports.computeLeafHash input
  | .computePublicKey input => Exports.computePublicKey input
  | .parsePlonkProof input => Exports.parsePlonkProof input
  | .nostrDerivePublicKey input => Exports.nostrDerivePublicKey input
  | .computeMerkleRoot leafHashes depth => Exports.computeMerkleRoot leafHashes depth
  | .computeSha256Commitment root epoch salt => Exports.computeSha256Commitment root epoch salt
  | .computePoseidonCommitment root epoch salt =>
      Exports.computePoseidonCommitment root epoch salt
  | .nostrSignEventId secretKey eventId => Exports.nostrSignEventId secretKey eventId
  | .anarchyBakeMembershipVk depth => Exports.anarchyBakeMembershipVk depth
  | .anarchyBakeUpdateVk depth => Exports.anarchyBakeUpdateVk depth
  | .anarchyPinnedMembershipVkSha256Hex depth =>
      Exports.anarchyPinnedMembershipVkSha256Hex depth
  | .anarchyPinnedUpdateVkSha256Hex depth => Exports.anarchyPinnedUpdateVkSha256Hex depth
  | .anarchyProveMembership depth leaves proverSk proverIndex epoch salt =>
      Exports.anarchyProveMembership depth leaves proverSk proverIndex epoch salt
  | .anarchyProveUpdate depth leavesOld leavesNew proverSk proverIndexOld epochOld saltOld
      saltNew => Exports.anarchyProveUpdate depth leavesOld leavesNew proverSk proverIndexOld
        epochOld saltOld saltNew
  | .oneOnOneBakeCreateVk => Exports.oneOnOneBakeCreateVk
  | .oneOnOneProveCreate sk0 sk1 salt => Exports.oneOnOneProveCreate sk0 sk1 salt
  | .tyrannyBakeCreateVk depth => Exports.tyrannyBakeCreateVk depth
  | .tyrannyBakeUpdateVk depth => Exports.tyrannyBakeUpdateVk depth
  | .tyrannyPinnedCreateVkSha256Hex depth => Exports.tyrannyPinnedCreateVkSha256Hex depth
  | .tyrannyPinnedUpdateVkSha256Hex depth => Exports.tyrannyPinnedUpdateVkSha256Hex depth
  | .tyrannyProveCreate depth leaves adminSk adminIndex groupIdFr salt =>
      Exports.tyrannyProveCreate depth leaves adminSk adminIndex groupIdFr salt
  | .tyrannyProveUpdate depth leavesOld adminSk adminIndexOld epochOld memberRootNew groupIdFr
      saltOld saltNew => Exports.tyrannyProveUpdate depth leavesOld adminSk adminIndexOld
        epochOld memberRootNew groupIdFr saltOld saltNew

/-- A call of any of the 23 exports. -/
inductive ExportCall where
  | bytes (e : ByteExport)
  | nostrVerifyEventSignature (publicKey eventId signature : JRef)

/-- The C function an export is for. -/
def ByteExport.ffiFn : ByteExport → FfiFn
  | .computeLeafHash _ => .onymComputeLeafHash
  | .computePublicKey _ => .onymComputePublicKey
  | .parsePlonkProof _ => .onymParsePlonkProof
  | .nostrDerivePublicKey _ => .onymNostrDerivePublicKey
  | .computeMerkleRoot .. => .onymComputeMerkleRoot
  | .computeSha256Commitment .. => .onymComputeSha256Commitment
  | .computePoseidonCommitment .. => .onymComputePoseidonCommitment
  | .nostrSignEventId .. => .onymNostrSignEventId
  | .anarchyBakeMembershipVk _ => .onymAnarchyBakeMembershipVk
  | .anarchyBakeUpdateVk _ => .onymAnarchyBakeUpdateVk
  | .anarchyPinnedMembershipVkSha256Hex _ => .onymAnarchyPinnedMembershipVkSha256Hex
  | .anarchyPinnedUpdateVkSha256Hex _ => .onymAnarchyPinnedUpdateVkSha256Hex
  | .anarchyProveMembership .. => .onymAnarchyProveMembership
  | .anarchyProveUpdate .. => .onymAnarchyProveUpdate
  | .oneOnOneBakeCreateVk => .onymOneononeBakeCreateVk
  | .oneOnOneProveCreate .. => .onymOneononeProveCreate
  | .tyrannyBakeCreateVk _ => .onymTyrannyBakeCreateVk
  | .tyrannyBakeUpdateVk _ => .onymTyrannyBakeUpdateVk
  | .tyrannyPinnedCreateVkSha256Hex _ => .onymTyrannyPinnedCreateVkSha256Hex
  | .tyrannyPinnedUpdateVkSha256Hex _ => .onymTyrannyPinnedUpdateVkSha256Hex
  | .tyrannyProveCreate .. => .onymTyrannyProveCreate
  | .tyrannyProveUpdate .. => .onymTyrannyProveUpdate

def ExportCall.ffiFn : ExportCall → FfiFn
  | .bytes e => e.ffiFn
  | .nostrVerifyEventSignature .. => .onymNostrVerifyEventSignature

/-- What an export returns to the JVM. -/
inductive ExportResult where
  | array (r : JRef)
  | bool (b : Bool)
  deriving DecidableEq

def ExportCall.run : ExportCall → Bridge t ExportResult
  | .bytes e => do return .array (← e.run)
  | .nostrVerifyEventSignature publicKey eventId signature => do
      return .bool (← Exports.nostrVerifyEventSignature publicKey eventId signature)

/-- A byte-array argument of an export: read in any case, or passed on as null
    when it is null. -/
inductive ArrayArg where
  | required (ref : JRef)
  | nullable (ref : JRef)
  deriving DecidableEq

/-- The byte-array arguments of an export, in parameter order. -/
def ByteExport.arrays : ByteExport → List ArrayArg
  | .computeLeafHash input | .computePublicKey input | .parsePlonkProof input
  | .nostrDerivePublicKey input => [.required input]
  | .computeMerkleRoot leafHashes _ => [.required leafHashes]
  | .computeSha256Commitment root _ salt | .computePoseidonCommitment root _ salt =>
      [.required root, .required salt]
  | .nostrSignEventId secretKey eventId => [.required secretKey, .required eventId]
  | .anarchyBakeMembershipVk _ | .anarchyBakeUpdateVk _
  | .anarchyPinnedMembershipVkSha256Hex _ | .anarchyPinnedUpdateVkSha256Hex _
  | .oneOnOneBakeCreateVk
  | .tyrannyBakeCreateVk _ | .tyrannyBakeUpdateVk _
  | .tyrannyPinnedCreateVkSha256Hex _ | .tyrannyPinnedUpdateVkSha256Hex _ => []
  | .anarchyProveMembership _ leaves proverSk _ _ salt =>
      [.required leaves, .required proverSk, .required salt]
  | .anarchyProveUpdate _ leavesOld leavesNew proverSk _ _ saltOld saltNew =>
      [.required leavesOld, .nullable leavesNew, .required proverSk, .required saltOld,
        .required saltNew]
  | .oneOnOneProveCreate sk0 sk1 salt => [.required sk0, .required sk1, .required salt]
  | .tyrannyProveCreate _ leaves adminSk _ groupIdFr salt =>
      [.required leaves, .required adminSk, .required groupIdFr, .required salt]
  | .tyrannyProveUpdate _ leavesOld adminSk _ _ memberRootNew groupIdFr saltOld saltNew =>
      [.required leavesOld, .required adminSk, .required memberRootNew, .required groupIdFr,
        .required saltOld, .required saltNew]

def ExportCall.arrays : ExportCall → List ArrayArg
  | .bytes e => e.arrays
  | .nostrVerifyEventSignature publicKey eventId signature =>
      [.required publicKey, .required eventId, .required signature]

/-! ## 3. Reading the arrays -/

/-- The references an export converts, in order. -/
def conversionsOf : List ArrayArg → List JRef
  | [] => []
  | .required r :: rest => r :: conversionsOf rest
  | .nullable none :: rest => conversionsOf rest
  | .nullable (some a) :: rest => some a :: conversionsOf rest

/-- What the `k`-th conversion of a call delivers to the export. -/
def delivered (env : Env t) (k : Nat) : JRef → List UInt8
  | none => []
  | some a =>
    match env.convert k with
    | .ok () => a.contents
    | .error _ => []

/-- The C arguments that a list of array arguments arrives as, from the `k`-th
    conversion on. -/
def deliveredArgs (env : Env t) : Nat → List ArrayArg → List (InBuf t)
  | _, [] => []
  | k, .required r :: rest => vecArg t (delivered env k r) :: deliveredArgs env (k + 1) rest
  | k, .nullable none :: rest => nullArg t :: deliveredArgs env k rest
  | k, .nullable (some a) :: rest =>
      vecArg t (delivered env k (some a)) :: deliveredArgs env (k + 1) rest

/-- The state after converting the given references. -/
def readsState (env : Env t) (refs : List JRef) (s : BridgeState t) : BridgeState t :=
  refs.foldl (fun s r => (jbytearrayToVec r env s).2) s

@[simp] theorem jbytearrayToVec_fst (r : JRef) (env : Env t) (s : BridgeState t) :
    (jbytearrayToVec r env s).1 = delivered env s.conversions r := by
  cases r with
  | none => rfl
  | some a =>
    simp only [jbytearrayToVec, convertByteArray, delivered, bridge_bind, bridge_pure]
    cases env.convert s.conversions <;> rfl

/-- What one conversion does to the state. -/
theorem jbytearrayToVec_snd (r : JRef) (env : Env t) (s : BridgeState t) :
    (jbytearrayToVec r env s).2 =
      { s with
        conversions := s.conversions + 1
        pending := match r, env.convert s.conversions with
          | some _, .error (some e) => some e
          | _, _ => s.pending } := by
  cases r with
  | none => rfl
  | some a =>
    simp only [jbytearrayToVec, convertByteArray, bridge_bind, bridge_pure]
    cases env.convert s.conversions with
    | ok u => rfl
    | error p => cases p <;> rfl

@[simp] theorem jbytearrayToVec_conversions (r : JRef) (env : Env t) (s : BridgeState t) :
    (jbytearrayToVec r env s).2.conversions = s.conversions + 1 := by
  rw [jbytearrayToVec_snd]

@[simp] theorem jbytearrayToVec_calls (r : JRef) (env : Env t) (s : BridgeState t) :
    (jbytearrayToVec r env s).2.calls = s.calls := by
  rw [jbytearrayToVec_snd]

/-! ## 4. The shape of every export -/

/-- The tail an export ends in, by the C function it calls. -/
def callTail (c : FfiCall t) : Bridge t JRef := if c.isProve then callTwoOut c else callOneOut c

theorem callTail_one {c : FfiCall t} (h : c.isProve = false) (env : Env t) (s : BridgeState t) :
    callTail c env s = callOneOut c env s := by
  simp [callTail, h]

theorem callTail_two {c : FfiCall t} (h : c.isProve = true) (env : Env t) (s : BridgeState t) :
    callTail c env s = callTwoOut c env s := by
  simp [callTail, h]

/-- A `byte[]` export is for a function with out buffers. -/
theorem ByteExport.isVerify_eq_false (e : ByteExport) {c : FfiCall t} (h : c.fn = e.ffiFn) :
    c.isVerify = false := by
  cases c with
  | onymNostrVerifyEventSignature => cases e <;> cases h
  | _ => rfl

theorem isVerify_of_fn {c : FfiCall t} (h : c.fn = .onymNostrVerifyEventSignature) :
    c.isVerify = true := by
  cases c with
  | onymNostrVerifyEventSignature => rfl
  | _ => cases h

/-- **The shape of every `byte[]` export**: it reads its arrays, makes one call of its C
    function on what the reads delivered, and ends in the call's tail. -/
theorem ByteExport.run_split (e : ByteExport) (env : Env t) (s : BridgeState t) :
    ∃ c : FfiCall t, c.fn = e.ffiFn ∧ c.byteArgs = deliveredArgs env s.conversions e.arrays ∧
      e.run env s = callTail c env (readsState env (conversionsOf e.arrays) s) := by
  cases e with
  | anarchyProveUpdate depth leavesOld leavesNew proverSk proverIndexOld epochOld saltOld saltNew =>
    cases leavesNew with
    | none =>
      refine ⟨_, rfl, ?_, (callTail_two rfl env _).symm⟩
      simp [FfiCall.byteArgs, deliveredArgs, ByteExport.arrays]
    | some a =>
      refine ⟨_, rfl, ?_, (callTail_two rfl env _).symm⟩
      simp [FfiCall.byteArgs, deliveredArgs, ByteExport.arrays]
  | anarchyProveMembership | oneOnOneProveCreate | tyrannyProveCreate | tyrannyProveUpdate =>
    refine ⟨_, rfl, ?_, (callTail_two rfl env _).symm⟩
    simp [FfiCall.byteArgs, deliveredArgs, ByteExport.arrays]
  | _ =>
    refine ⟨_, rfl, ?_, (callTail_one rfl env _).symm⟩
    simp [FfiCall.byteArgs, deliveredArgs, ByteExport.arrays]

/-- The shape of `nostrVerifyEventSignature`. -/
theorem verify_split (pk id sig : JRef) (env : Env t) (s : BridgeState t) :
    ∃ c : FfiCall t, c.fn = .onymNostrVerifyEventSignature ∧
      c.byteArgs = deliveredArgs env s.conversions
        (ExportCall.nostrVerifyEventSignature pk id sig).arrays ∧
      Exports.nostrVerifyEventSignature pk id sig env s =
        callVerify c env (readsState env
          (conversionsOf (ExportCall.nostrVerifyEventSignature pk id sig).arrays) s) := by
  refine ⟨_, rfl, ?_, rfl⟩
  simp [FfiCall.byteArgs, deliveredArgs, ExportCall.arrays]

end OnymSdk
