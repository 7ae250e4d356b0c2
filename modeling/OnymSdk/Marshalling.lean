/-
  File:      OnymSdk/Marshalling.lean
  Subject:   MARSHALLING from the public API to the C ABI, on both targets.

  * `BytesArg`, `RosterArg`, `IntArg`, `EpochArg` -- how an argument of each kind
    has to arrive;
  * `Delivers` -- which C function a public function has to call, with each
    argument under its own parameter name;
  * `apiCall_delivers` -- it does, in one call;
  * `delivers_inj` -- a C call determines the public call it came from;
  * `apiCall_marshals` -- **faithful and injective marshalling**.
-/
import OnymSdk.ExitDiscipline

namespace OnymSdk

variable {t : Target}

/-! ## 1. Byte arrays -/

/-- A `ByteArray` arrives behind a non-null pointer, with its bytes and its length. -/
def BytesArg (a : JByteArray) (b : InBuf t) : Prop :=
  b.ptr = .to a.contents ∧ b.len.toNat = a.bytes.length

/-- The new roster arrives as `(NULL, 0)` exactly when it is null. -/
def RosterArg (r : JRef) (b : InBuf t) : Prop :=
  (r = none ↔ b = ⟨.null, 0⟩) ∧ ∀ a, r = some a → BytesArg a b

theorem two_pow_le_bits (t : Target) : 2 ^ 32 ≤ 2 ^ t.bits := by
  cases t <;> decide

@[simp] theorem bytesArg_vecArg (a : JByteArray) : BytesArg a (vecArg t a.contents) := by
  refine ⟨rfl, ?_⟩
  have h1 := a.size_lt
  have h2 := two_pow_le_bits t
  rw [vecArg, BitVec.toNat_ofNat, a.length_contents, Nat.mod_eq_of_lt (by omega)]

@[simp] theorem rosterArg_null : RosterArg none (nullArg t) :=
  ⟨⟨fun _ => rfl, fun _ => rfl⟩, fun a h => by cases h⟩

@[simp] theorem rosterArg_vecArg (a : JByteArray) : RosterArg (some a) (vecArg t a.contents) := by
  refine ⟨⟨fun h => ?_, fun h => ?_⟩, fun b h => ?_⟩
  · cases h
  · cases h
  · cases h
    exact bytesArg_vecArg a

theorem BytesArg.inj {a a' : JByteArray} {b : InBuf t} (h : BytesArg a b) (h' : BytesArg a' b) :
    a = a' := by
  have e := h.1.symm.trans h'.1
  injection e with e
  exact JByteArray.contents_inj e

theorem RosterArg.inj {r r' : JRef} {b : InBuf t} (h : RosterArg r b) (h' : RosterArg r' b) :
    r = r' := by
  cases r with
  | none => exact (h'.1.mpr (h.1.mp rfl)).symm
  | some a =>
    cases r' with
    | none => exact h.1.mpr (h'.1.mp rfl)
    | some a' => rw [(h.2 a rfl).inj (h'.2 a' rfl)]

/-! ## 2. Integers -/

/-- A depth or an index arrives as its number, a negative one beyond every depth and
    index there is; its low 32 bits stay. -/
structure IntArg (x : Int32) (u : Usize t) : Prop where
  nonneg : 0 ≤ x.toInt → (u.toNat : Int) = x.toInt
  neg : x.toInt < 0 → 2 ^ 31 ≤ u.toNat
  low : (u.toNat : Int) % 2 ^ 32 = x.toInt % 2 ^ 32

/-- The eight bytes of a `Long`, as `ByteBuffer.putLong` writes them. -/
def longBytes (x : Int64) : List UInt8 :=
  [x >>> 56, x >>> 48, x >>> 40, x >>> 32, x >>> 24, x >>> 16, x >>> 8, x].map fun y =>
    y.toInt8.toUInt8

/-- An epoch arrives as the unsigned number of the same eight bytes. -/
structure EpochArg (x : Int64) (u : UInt64) : Prop where
  value : (u.toNat : Int) = x.toInt % 2 ^ 64
  bytes : BigEndian.toBytes 8 u.toNat = longBytes x

/-- The sign extension of a negative number is that number below the top of its width. -/
theorem signExtend_toNat (x : BitVec 32) {w : Nat} (hw : w = 32 ∨ w = 64) :
    ((x.signExtend w).toNat : Int) = if 0 ≤ x.toInt then x.toInt else x.toInt + 2 ^ w := by
  have h : (x.signExtend w).toInt = x.toInt := BitVec.toInt_signExtend_of_le (by omega)
  have hc := BitVec.toInt_eq_toNat_cond (x.signExtend w)
  have hlt := (x.signExtend w).isLt
  rw [h] at hc
  rcases hw with rfl | rfl <;> omega

@[simp] theorem intArg_jintAsUsize (x : Int32) : IntArg x (jintAsUsize t x) := by
  have h := signExtend_toNat x.toBitVec (w := t.bits) (by cases t <;> decide)
  have hx : -2 ^ 31 ≤ x.toInt ∧ x.toInt < 2 ^ 31 := ⟨x.le_toInt, x.toInt_lt⟩
  have hx' : x.toBitVec.toInt = x.toInt := rfl
  have ht : (2 : Int) ^ t.bits = 2 ^ 32 ∨ (2 : Int) ^ t.bits = 2 ^ 64 := by
    cases t
    · exact Or.inl rfl
    · exact Or.inr rfl
  unfold jintAsUsize
  rw [hx'] at h
  generalize (2 : Int) ^ t.bits = p at *
  split at h <;> constructor <;> omega

/-- A byte of a shifted word, however the shift fills up from the left. -/
theorem byte_of_shift (x : BitVec 64) (k : Nat) (hk : k + 8 ≤ 64) :
    (x.sshiftRight k).setWidth 8 = BitVec.ofNat 8 (x.toNat / 2 ^ k) := by
  apply BitVec.eq_of_getLsbD_eq
  intro i hi
  have h64 : decide (64 ≤ i) = false := decide_eq_false (by omega)
  rw [BitVec.getLsbD_setWidth, BitVec.getLsbD_sshiftRight, BitVec.getLsbD_ofNat,
    Nat.testBit_div_two_pow, h64, if_pos (by omega), decide_eq_true hi, Nat.add_comm i k]
  rfl

theorem longBytes_eq (x : Int64) : longBytes x = BigEndian.toBytes 8 x.toBitVec.toNat := by
  have h : ∀ (y : Int64) (k : Nat), k + 8 ≤ 64 → y.toBitVec = x.toBitVec.sshiftRight k →
      y.toInt8.toUInt8 = UInt8.ofNat (x.toBitVec.toNat / 2 ^ k) := fun y k hk hy => by
    apply UInt8.toBitVec_inj.mp
    show y.toBitVec.signExtend 8 = _
    rw [BitVec.signExtend_eq_setWidth_of_le _ (by omega), hy, byte_of_shift _ _ hk]
    rfl
  have h0 : x.toBitVec = x.toBitVec.sshiftRight 0 := BitVec.sshiftRight_zero.symm
  simp only [longBytes, List.map, BigEndian.toBytes]
  rw [h (x >>> 56) 56 (by omega) rfl, h (x >>> 48) 48 (by omega) rfl,
    h (x >>> 40) 40 (by omega) rfl, h (x >>> 32) 32 (by omega) rfl,
    h (x >>> 24) 24 (by omega) rfl, h (x >>> 16) 16 (by omega) rfl,
    h (x >>> 8) 8 (by omega) rfl, h x 0 (by omega) h0]
  rfl

@[simp] theorem epochArg_jlongAsU64 (x : Int64) : EpochArg x (jlongAsU64 x) := by
  have hx : x.toInt = if 2 * x.toBitVec.toNat < 2 ^ 64 then (x.toBitVec.toNat : Int)
      else x.toBitVec.toNat - 2 ^ 64 := BitVec.toInt_eq_toNat_cond _
  have hlt := x.toBitVec.isLt
  refine ⟨?_, (longBytes_eq x).symm⟩
  show (x.toBitVec.toNat : Int) = _
  split at hx <;> omega

theorem IntArg.inj {x y : Int32} {u : Usize t} (h : IntArg x u) (h' : IntArg y u) : x = y := by
  have e := h.low.symm.trans h'.low
  have hx : -2 ^ 31 ≤ x.toInt ∧ x.toInt < 2 ^ 31 := ⟨x.le_toInt, x.toInt_lt⟩
  have hy : -2 ^ 31 ≤ y.toInt ∧ y.toInt < 2 ^ 31 := ⟨y.le_toInt, y.toInt_lt⟩
  exact Int32.toInt_inj.mp (by omega)

theorem EpochArg.inj {x y : Int64} {u : UInt64} (h : EpochArg x u) (h' : EpochArg y u) :
    x = y := by
  have e := h.value.symm.trans h'.value
  have hx : -2 ^ 63 ≤ x.toInt ∧ x.toInt < 2 ^ 63 := ⟨x.le_toInt, x.toInt_lt⟩
  have hy : -2 ^ 63 ≤ y.toInt ∧ y.toInt < 2 ^ 63 := ⟨y.le_toInt, y.toInt_lt⟩
  exact Int64.toInt_inj.mp (by omega)

/-! ## 3. The matching C call -/

/-- The C call a public call has to arrive as: the C function of its name, each
    argument under its own parameter. -/
inductive Delivers : ApiCall → FfiCall t → Prop where
  | leafHash {secretKey sk} (h : BytesArg secretKey sk) :
      Delivers (.leafHash secretKey) (.onymComputeLeafHash sk)
  | publicKey {secretKey sk} (h : BytesArg secretKey sk) :
      Delivers (.publicKey secretKey) (.onymComputePublicKey sk)
  | merkleRoot {leafHashes depth leafHashes' depth'} (h1 : BytesArg leafHashes leafHashes')
      (h2 : IntArg depth depth') :
      Delivers (.merkleRoot leafHashes depth) (.onymComputeMerkleRoot leafHashes' depth')
  | sha256Commitment {poseidonRoot epoch salt root epoch' salt'}
      (h1 : BytesArg poseidonRoot root) (h2 : EpochArg epoch epoch') (h3 : BytesArg salt salt') :
      Delivers (.sha256Commitment poseidonRoot epoch salt)
        (.onymComputeSha256Commitment root epoch' salt')
  | poseidonCommitment {poseidonRoot epoch salt root epoch' salt'}
      (h1 : BytesArg poseidonRoot root) (h2 : EpochArg epoch epoch') (h3 : BytesArg salt salt') :
      Delivers (.poseidonCommitment poseidonRoot epoch salt)
        (.onymComputePoseidonCommitment root epoch' salt')
  | parsePlonkProof {proof proof'} (h : BytesArg proof proof') :
      Delivers (.parsePlonkProof proof) (.onymParsePlonkProof proof')
  | nostrDerivePublicKey {secretKey sk} (h : BytesArg secretKey sk) :
      Delivers (.nostrDerivePublicKey secretKey) (.onymNostrDerivePublicKey sk)
  | nostrSignEventId {secretKey eventId sk eventId'} (h1 : BytesArg secretKey sk)
      (h2 : BytesArg eventId eventId') :
      Delivers (.nostrSignEventId secretKey eventId) (.onymNostrSignEventId sk eventId')
  | nostrVerifyEventSignature {publicKey eventId signature pk eventId' sig}
      (h1 : BytesArg publicKey pk) (h2 : BytesArg eventId eventId') (h3 : BytesArg signature sig) :
      Delivers (.nostrVerifyEventSignature publicKey eventId signature)
        (.onymNostrVerifyEventSignature pk eventId' sig)
  | anarchyBakeMembershipVK {depth depth'} (h : IntArg depth depth') :
      Delivers (.anarchyBakeMembershipVK depth) (.onymAnarchyBakeMembershipVk depth')
  | anarchyBakeUpdateVK {depth depth'} (h : IntArg depth depth') :
      Delivers (.anarchyBakeUpdateVK depth) (.onymAnarchyBakeUpdateVk depth')
  | anarchyPinnedMembershipVKSha256Hex {depth depth'} (h : IntArg depth depth') :
      Delivers (.anarchyPinnedMembershipVKSha256Hex depth)
        (.onymAnarchyPinnedMembershipVkSha256Hex depth')
  | anarchyPinnedUpdateVKSha256Hex {depth depth'} (h : IntArg depth depth') :
      Delivers (.anarchyPinnedUpdateVKSha256Hex depth)
        (.onymAnarchyPinnedUpdateVkSha256Hex depth')
  | anarchyProveMembership {depth memberLeafHashes proverSecretKey proverIndex epoch salt depth'
      leaves sk proverIndex' epoch' salt'} (h1 : IntArg depth depth')
      (h2 : BytesArg memberLeafHashes leaves) (h3 : BytesArg proverSecretKey sk)
      (h4 : IntArg proverIndex proverIndex') (h5 : EpochArg epoch epoch')
      (h6 : BytesArg salt salt') :
      Delivers
        (.anarchyProveMembership depth memberLeafHashes proverSecretKey proverIndex epoch salt)
        (.onymAnarchyProveMembership depth' leaves sk proverIndex' epoch' salt')
  | anarchyProveUpdate {depth memberLeafHashesOld memberLeafHashesNew proverSecretKey
      proverIndexOld epochOld saltOld saltNew depth' leavesOld leavesNew sk proverIndexOld'
      epochOld' saltOld' saltNew'} (h1 : IntArg depth depth')
      (h2 : BytesArg memberLeafHashesOld leavesOld) (h3 : RosterArg memberLeafHashesNew leavesNew)
      (h4 : BytesArg proverSecretKey sk) (h5 : IntArg proverIndexOld proverIndexOld')
      (h6 : EpochArg epochOld epochOld') (h7 : BytesArg saltOld saltOld')
      (h8 : BytesArg saltNew saltNew') :
      Delivers
        (.anarchyProveUpdate depth memberLeafHashesOld memberLeafHashesNew proverSecretKey
          proverIndexOld epochOld saltOld saltNew)
        (.onymAnarchyProveUpdate depth' leavesOld leavesNew sk proverIndexOld' epochOld' saltOld'
          saltNew')
  | oneOnOneBakeCreateVK : Delivers .oneOnOneBakeCreateVK .onymOneononeBakeCreateVk
  | oneOnOneProveCreate {secretKey0 secretKey1 salt sk0 sk1 salt'} (h1 : BytesArg secretKey0 sk0)
      (h2 : BytesArg secretKey1 sk1) (h3 : BytesArg salt salt') :
      Delivers (.oneOnOneProveCreate secretKey0 secretKey1 salt)
        (.onymOneononeProveCreate sk0 sk1 salt')
  | tyrannyBakeCreateVK {depth depth'} (h : IntArg depth depth') :
      Delivers (.tyrannyBakeCreateVK depth) (.onymTyrannyBakeCreateVk depth')
  | tyrannyBakeUpdateVK {depth depth'} (h : IntArg depth depth') :
      Delivers (.tyrannyBakeUpdateVK depth) (.onymTyrannyBakeUpdateVk depth')
  | tyrannyPinnedCreateVKSha256Hex {depth depth'} (h : IntArg depth depth') :
      Delivers (.tyrannyPinnedCreateVKSha256Hex depth)
        (.onymTyrannyPinnedCreateVkSha256Hex depth')
  | tyrannyPinnedUpdateVKSha256Hex {depth depth'} (h : IntArg depth depth') :
      Delivers (.tyrannyPinnedUpdateVKSha256Hex depth)
        (.onymTyrannyPinnedUpdateVkSha256Hex depth')
  | tyrannyProveCreate {depth memberLeafHashes adminSecretKey adminIndex groupIdFr salt depth'
      leaves adminSk adminIndex' groupIdFr' salt'} (h1 : IntArg depth depth')
      (h2 : BytesArg memberLeafHashes leaves) (h3 : BytesArg adminSecretKey adminSk)
      (h4 : IntArg adminIndex adminIndex') (h5 : BytesArg groupIdFr groupIdFr')
      (h6 : BytesArg salt salt') :
      Delivers
        (.tyrannyProveCreate depth memberLeafHashes adminSecretKey adminIndex groupIdFr salt)
        (.onymTyrannyProveCreate depth' leaves adminSk adminIndex' groupIdFr' salt')
  | tyrannyProveUpdate {depth memberLeafHashesOld adminSecretKey adminIndexOld epochOld
      memberRootNew groupIdFr saltOld saltNew depth' leavesOld adminSk adminIndexOld' epochOld'
      memberRootNew' groupIdFr' saltOld' saltNew'} (h1 : IntArg depth depth')
      (h2 : BytesArg memberLeafHashesOld leavesOld) (h3 : BytesArg adminSecretKey adminSk)
      (h4 : IntArg adminIndexOld adminIndexOld') (h5 : EpochArg epochOld epochOld')
      (h6 : BytesArg memberRootNew memberRootNew') (h7 : BytesArg groupIdFr groupIdFr')
      (h8 : BytesArg saltOld saltOld') (h9 : BytesArg saltNew saltNew') :
      Delivers
        (.tyrannyProveUpdate depth memberLeafHashesOld adminSecretKey adminIndexOld epochOld
          memberRootNew groupIdFr saltOld saltNew)
        (.onymTyrannyProveUpdate depth' leavesOld adminSk adminIndexOld' epochOld' memberRootNew'
          groupIdFr' saltOld' saltNew')

/-- **A C call determines the public call it came from.** -/
theorem delivers_inj {api api' : ApiCall} {c : FfiCall t} (h : Delivers api c)
    (h' : Delivers api' c) : api = api' := by
  cases h <;> cases h' <;> congr 1 <;>
    first
      | exact BytesArg.inj ‹_› ‹_›
      | exact IntArg.inj ‹_› ‹_›
      | exact EpochArg.inj ‹_› ‹_›
      | exact RosterArg.inj ‹_› ‹_›

/-! ## 4. Every public call -/

/-- A public function makes the C calls of its native method. -/
theorem ApiCall.run_calls (api : ApiCall) (env : Env t) (s : BridgeState t) :
    (api.run env s).2.calls = (api.toExport.run env s.atEntry).2.calls := by
  rw [api.run_eq]

/-- An export that ends in the one-buffer tail of `c` calls `c`. -/
theorem calls_of_one {e : ByteExport} {env : Env t} {s s' : BridgeState t} {c : FfiCall t}
    (hc : c.isProve = false) (h : e.run env s = callOneOut c env s') (hs : s'.calls = s.calls) :
    ((ExportCall.bytes e).run env s).2.calls = s.calls ++ [c] := by
  have hrun : ((ExportCall.bytes e).run env s).2 = (e.run env s).2 := rfl
  rw [hrun, h, ← callTail_one hc, callTail_calls, hs]

/-- The same for the two-buffer tail. -/
theorem calls_of_two {e : ByteExport} {env : Env t} {s s' : BridgeState t} {c : FfiCall t}
    (hc : c.isProve = true) (h : e.run env s = callTwoOut c env s') (hs : s'.calls = s.calls) :
    ((ExportCall.bytes e).run env s).2.calls = s.calls ++ [c] := by
  have hrun : ((ExportCall.bytes e).run env s).2 = (e.run env s).2 := rfl
  rw [hrun, h, ← callTail_two hc, callTail_calls, hs]

/-- The same for `nostrVerifyEventSignature`. -/
theorem calls_of_verify {pk id sig : JRef} {env : Env t} {s s' : BridgeState t} {c : FfiCall t}
    (h : Exports.nostrVerifyEventSignature pk id sig env s = callVerify c env s')
    (hs : s'.calls = s.calls) :
    ((ExportCall.nostrVerifyEventSignature pk id sig).run env s).2.calls = s.calls ++ [c] := by
  have hrun : ((ExportCall.nostrVerifyEventSignature pk id sig).run env s).2 =
      (Exports.nostrVerifyEventSignature pk id sig env s).2 := rfl
  rw [hrun, h, (callVerify_spec c env s').2.1, hs]

theorem delivered_readable {env : Env t} (hr : env.Readable) (k : Nat) (a : JByteArray) :
    delivered env k (some a) = a.contents := by
  rw [delivered, hr k]

/-- **Every public call arrives as its C call**, with every argument in place. -/
theorem apiCall_delivers {env : Env t} (hr : env.Readable) (api : ApiCall) (s : BridgeState t) :
    ∃ c : FfiCall t, (api.run env s).2.calls = s.calls ++ [c] ∧ Delivers api c := by
  have hentry : s.atEntry.calls = s.calls := rfl
  simp only [ApiCall.run_calls]
  cases api with
  | nostrVerifyEventSignature pk eventId signature =>
    refine ⟨_, calls_of_verify rfl (by simp [hentry]), ?_⟩
    simp only [jbytearrayToVec_fst, delivered_readable hr]
    constructor <;> simp
  | anarchyProveUpdate depth memberLeafHashesOld memberLeafHashesNew proverSecretKey
      proverIndexOld epochOld saltOld saltNew =>
    -- the null roster skips its read, so the two cases end in different states
    cases memberLeafHashesNew with
    | none =>
      refine ⟨_, calls_of_two rfl rfl (by simp [hentry]), ?_⟩
      simp only [jbytearrayToVec_fst, delivered_readable hr]
      constructor <;> simp
    | some a =>
      refine ⟨_, calls_of_two rfl rfl (by simp [hentry]), ?_⟩
      simp only [jbytearrayToVec_fst, delivered_readable hr, bridge_pure]
      constructor <;> simp
  | anarchyProveMembership | oneOnOneProveCreate | tyrannyProveCreate | tyrannyProveUpdate =>
    refine ⟨_, calls_of_two rfl rfl (by simp [hentry]), ?_⟩
    simp only [jbytearrayToVec_fst, delivered_readable hr]
    constructor <;> simp
  | leafHash | publicKey | merkleRoot | sha256Commitment | poseidonCommitment | parsePlonkProof
  | nostrDerivePublicKey | nostrSignEventId =>
    refine ⟨_, calls_of_one rfl rfl (by simp [hentry]), ?_⟩
    simp only [jbytearrayToVec_fst, delivered_readable hr]
    constructor <;> simp
  | _ =>
    refine ⟨_, calls_of_one rfl rfl hentry, ?_⟩
    constructor <;> simp

/-- **Faithful and injective marshalling.** Every public call makes exactly one C call,
    of the function of its name with every argument in its own parameter; and no two
    different public calls ever make the same C call. -/
theorem apiCall_marshals (env env' : Env t) (s s' : BridgeState t) (hr : env.Readable)
    (hr' : env'.Readable) :
    (∀ api : ApiCall, ∃ c : FfiCall t,
      (api.run env s).2.calls = s.calls ++ [c] ∧ Delivers api c) ∧
    ∀ (api api' : ApiCall) (c : FfiCall t), (api.run env s).2.calls = s.calls ++ [c] →
      (api'.run env' s').2.calls = s'.calls ++ [c] → api = api' := by
  refine ⟨fun api => apiCall_delivers hr api s, ?_⟩
  intro api api' c h h'
  obtain ⟨d, hd, hdel⟩ := apiCall_delivers hr api s
  obtain ⟨d', hd', hdel'⟩ := apiCall_delivers hr' api' s'
  obtain rfl : d = c := by
    rw [hd] at h
    simpa using h
  obtain rfl : d' = d := by
    rw [hd'] at h'
    simpa using h'
  exact delivers_inj hdel hdel'

/-- On a 32-bit target a negative depth arrives as a number no depth is. -/
theorem apiCall_marshals_negative :
    ∃ u : Usize .w32,
      ((ApiCall.tyrannyBakeCreateVK (-1)).run (.answering .w32 (.owned [])) {}).2.calls =
        [.onymTyrannyBakeCreateVk u] ∧ 2 ^ 31 ≤ u.toNat := by
  obtain ⟨c, hc, hdel⟩ := (apiCall_marshals (.answering .w32 (.owned []))
    (.answering .w32 (.owned [])) {} {} (Env.readable_answering .w32 _)
    (Env.readable_answering .w32 _)).1 (.tyrannyBakeCreateVK (-1))
  cases hdel with
  | tyrannyBakeCreateVK h => exact ⟨_, hc, h.neg (by decide)⟩

end OnymSdk
