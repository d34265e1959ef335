import ChainHub.Proofs.Certificate
import ChainHub.Proofs.Merkle.Sketch
import ChainHub.Proofs.Wire.Records

/-!
# What is signed and hashed can be read in one way only

Validators sign a string of bytes, and a certificate carries a hash of another one. Both strings are
fields written one after the other, so it has to be shown that the fields can be told apart again:
otherwise a signature would count for a second chain or block, or a hash for a second validator set.

* `Certificate.Agrees`: two certificates have all fields in common that are signed.
* `Certificate.signingBytes_eq_iff`: the signed string tells the chain and these fields.
* `ValidatorSet.hashInput_eq_iff`: the hashed string tells the validators and their threshold.
* `commitments_unambiguous`: both, and what follows for signatures and for hashes.

The signed fields all have a fixed length. The validators do not: they come after their number, and
each key comes after its length. That number has 32 bits and could start again at zero, but the
string does not depend on it, since nothing but the threshold follows and no validator is as short
as that.
-/

namespace ChainHub

open Wire

/-! ## Certificates -/

namespace Certificate

/-- The certificates have everything in common but their bitmaps and signatures. -/
structure Agrees (c c' : Certificate) : Prop where
  blockId : c.blockId = c'.blockId
  height : c.height = c'.height
  timestamp : c.timestamp = c'.timestamp
  stateRoot : c.stateRoot = c'.stateRoot
  validatorsHash : c.validatorsHash = c'.validatorsHash

variable {c c' : Certificate} {chain chain' : ChainId}

/-- After its tag the signed string is a tuple in its written form. -/
theorem signingBytes_eq (c : Certificate) (chain : ChainId) :
    c.signingBytes chain = signingTag ++
      Wire.encode (chain, c.blockId, c.height, c.timestamp, c.stateRoot, c.validatorsHash) := by
  simp only [signingBytes, Wire.encode, List.append_assoc]

/-- **The signed string tells the chain and all that certificates commit to.** -/
theorem signingBytes_eq_iff :
    c.signingBytes chain = c'.signingBytes chain' ↔ chain = chain' ∧ c.Agrees c' := by
  rw [signingBytes_eq, signingBytes_eq]
  constructor
  · intro h
    have hfields : (chain, c.blockId, c.height, c.timestamp, c.stateRoot, c.validatorsHash) =
        (chain', c'.blockId, c'.height, c'.timestamp, c'.stateRoot, c'.validatorsHash) :=
      eq_of_encode_eq (by simp [Lawful.Fits]) (by simp [Lawful.Fits]) (List.append_cancel_left h)
    simp only [Prod.mk.injEq] at hfields
    obtain ⟨hchain, hblockId, hheight, htimestamp, hstateRoot, hvalidatorsHash⟩ := hfields
    exact ⟨hchain, hblockId, hheight, htimestamp, hstateRoot, hvalidatorsHash⟩
  · rintro ⟨rfl, hagrees⟩
    rw [hagrees.blockId, hagrees.height, hagrees.timestamp, hagrees.stateRoot,
      hagrees.validatorsHash]

/-- The keys under which the signature of a certificate is verified. -/
def signerKeys (c : Certificate) (set : ValidatorSet) : List Bytes :=
  (selected c.signers set.validators).map (·.key)

end Certificate

/-- One signature counts for two different messages under the same keys. -/
def SignatureScheme.Confuses (scheme : SignatureScheme) (keys : List Bytes) (signature : Bytes) :
    Prop :=
  ∃ message other, message ≠ other ∧ scheme.verifyAggregate keys message signature = true ∧
    scheme.verifyAggregate keys other signature = true

/-- **A signature does not count for another chain or certificate** under the same keys, unless the
scheme accepts it for two messages. -/
theorem Certificate.agrees_of_verifySignatureWith {scheme : SignatureScheme}
    {c c' : Certificate} {chain chain' : ChainId} {set set' : ValidatorSet}
    (hc : c.verifySignatureWith scheme chain set = .ok ())
    (hc' : c'.verifySignatureWith scheme chain' set' = .ok ())
    (hkeys : c.signerKeys set = c'.signerKeys set') (hsignature : c.signature = c'.signature) :
    chain = chain' ∧ c.Agrees c' ∨ scheme.Confuses (c.signerKeys set) c.signature := by
  have hverified : ∀ {c : Certificate} {chain : ChainId} {set : ValidatorSet},
      c.verifySignatureWith scheme chain set = .ok () →
        scheme.verifyAggregate (c.signerKeys set) (c.signingBytes chain) c.signature = true := by
    intro c chain set h
    have hbacked := (verifySignatureWith_eq_ok_iff.mp h).signature
    rwa [signerKeys, selected_eq_map, List.map_map]
  rw [← signingBytes_eq_iff]
  refine or_iff_not_imp_left.mpr fun hne => ?_
  refine ⟨c.signingBytes chain, c'.signingBytes chain', hne, hverified hc, ?_⟩
  rw [hkeys, hsignature]
  exact hverified hc'

/-! ## Validator sets -/

namespace ValidatorSet

/-- The lengths of the keys can be written with 32 bits. -/
def HasWritableKeys (set : ValidatorSet) : Prop := ∀ v ∈ set.validators, v.key.length < 2 ^ 32

theorem length_encode_validator (v : Validator) : (Wire.encode v).length = 12 + v.key.length := by
  show (Wire.encode v.key ++ Wire.encode v.weight).length = _
  rw [List.length_append, length_encode_bytes, length_encode_uint64]
  omega

/-- Validators are told apart from the threshold behind them: a threshold has no room for one. -/
theorem eq_of_flatMap_encode_eq {vs ws : List Validator} {t u : UInt64}
    (hvs : ∀ v ∈ vs, v.key.length < 2 ^ 32) (hws : ∀ w ∈ ws, w.key.length < 2 ^ 32)
    (h : vs.flatMap Wire.encode ++ Wire.encode t = ws.flatMap Wire.encode ++ Wire.encode u) :
    vs = ws ∧ t = u := by
  induction vs generalizing ws with
  | nil =>
    cases ws with
    | nil => exact ⟨rfl, eq_of_encode_eq trivial trivial h⟩
    | cons w ws =>
      have hlen := congrArg List.length h
      simp only [List.flatMap_nil, List.nil_append, List.flatMap_cons, List.length_append,
        length_encode_uint64, length_encode_validator] at hlen
      omega
  | cons v vs ih =>
    cases ws with
    | nil =>
      have hlen := congrArg List.length h
      simp only [List.flatMap_nil, List.nil_append, List.flatMap_cons, List.length_append,
        length_encode_uint64, length_encode_validator] at hlen
      omega
    | cons w ws =>
      rw [List.forall_mem_cons] at hvs hws
      rw [List.flatMap_cons, List.flatMap_cons, List.append_assoc, List.append_assoc] at h
      obtain ⟨hfirst, hrest⟩ := encode_append_inj (show Validator.Fits v from hvs.1) hws.1 h
      obtain ⟨hothers, hthreshold⟩ := ih hvs.2 hws.2 hrest
      exact ⟨by rw [hfirst, hothers], hthreshold⟩

/-- **The hashed string tells the validators, in their order, and the threshold.** -/
theorem hashInput_eq_iff {set set' : ValidatorSet} (hset : set.HasWritableKeys)
    (hset' : set'.HasWritableKeys) :
    set.hashInput = set'.hashInput ↔
      set.validators = set'.validators ∧ set.threshold = set'.threshold := by
  constructor
  · intro h
    have hlists : ∀ set : ValidatorSet, set.hashInput =
        Wire.encode (UInt32.ofNat set.validators.length) ++
          (set.validators.flatMap Wire.encode ++ Wire.encode set.threshold) := fun set =>
      List.append_assoc _ _ _
    rw [hlists, hlists] at h
    exact eq_of_flatMap_encode_eq hset hset' (encode_append_inj trivial trivial h).2
  · rintro ⟨hvalidators, hthreshold⟩
    rw [hashInput, hashInput, hvalidators, hthreshold]

/-- **A hash is not that of another set**, unless the two hashed strings collide. -/
theorem eq_of_hash_eq {set set' : ValidatorSet} (hset : set.HasWritableKeys)
    (hset' : set'.HasWritableKeys) (h : set.hash = set'.hash) :
    set = set' ∨ Collision [set.hashInput, set'.hashInput] := by
  refine or_iff_not_imp_right.mpr fun hcollision => ?_
  have hinput := eq_of_keccak256_eq hcollision (by simp) (by simp) h
  obtain ⟨hvalidators, hthreshold⟩ := (hashInput_eq_iff hset hset').mp hinput
  cases set
  cases set'
  congr

end ValidatorSet

/-! ## Both -/

/-- **What is signed and hashed can be read in one way only.** So a signature that counts for one
certificate and chain counts for no other, and a hash stands for one set of validators. -/
theorem commitments_unambiguous :
    (∀ (c c' : Certificate) (chain chain' : ChainId),
      c.signingBytes chain = c'.signingBytes chain' ↔ chain = chain' ∧ c.Agrees c') ∧
    (∀ set set' : ValidatorSet, set.HasWritableKeys → set'.HasWritableKeys →
      (set.hashInput = set'.hashInput ↔
        set.validators = set'.validators ∧ set.threshold = set'.threshold) ∧
      (set.hash = set'.hash → set = set' ∨ Collision [set.hashInput, set'.hashInput])) ∧
    ∀ (scheme : SignatureScheme) (c c' : Certificate) (chain chain' : ChainId)
      (set set' : ValidatorSet), c.verifySignatureWith scheme chain set = .ok () →
      c'.verifySignatureWith scheme chain' set' = .ok () →
      c.signerKeys set = c'.signerKeys set' → c.signature = c'.signature →
      chain = chain' ∧ c.Agrees c' ∨ scheme.Confuses (c.signerKeys set) c.signature :=
  ⟨fun _ _ _ _ => Certificate.signingBytes_eq_iff,
    fun _ _ hset hset' => ⟨ValidatorSet.hashInput_eq_iff hset hset',
      ValidatorSet.eq_of_hash_eq hset hset'⟩,
    fun _ _ _ _ _ _ _ hc hc' hkeys hsignature =>
      Certificate.agrees_of_verifySignatureWith hc hc' hkeys hsignature⟩

/-- Two validators, and one whose key has the bytes of both in it. -/
def twoOrOne : ValidatorSet × ValidatorSet :=
  (⟨[⟨[1], 3⟩, ⟨[4], 5⟩], 6⟩, ⟨[⟨[1, 3, 0, 0, 0, 0, 0, 0, 0, 1, 0, 0, 0, 4], 5⟩], 6⟩)

/-- Takes every signature for that of everybody on everything. -/
def SignatureScheme.lenient : SignatureScheme where
  Key := Unit
  Signature := Unit
  decodeKey? _ := some ()
  decodeSignature? _ := some ()
  noKey := ()
  addKeys _ _ := ()
  addSignatures? _ := some []
  sign _ _ := []
  accepts _ _ _ := true

/-- A certificate that two validators have signed. -/
def pairSigned : Certificate := { (default : Certificate) with height := 5, signers := [3] }

/-- The two sets are told apart, and the bitmap and the signature make no difference to what is
signed. The lenient scheme accepts a certificate for two chains, so it confuses what is signed. -/
theorem commitments_unambiguous_pair :
    (twoOrOne.1.HasWritableKeys ∧ twoOrOne.2.HasWritableKeys ∧
      twoOrOne.1.hashInput ≠ twoOrOne.2.hashInput) ∧
    (∀ chain, pairSigned.signingBytes chain =
      { pairSigned with signers := [1], signature := [7] }.signingBytes chain) ∧
    pairSigned.verifySignatureWith .lenient ⟨[0, 0, 0, 1], rfl⟩ twoOrOne.1 = .ok () ∧
    pairSigned.verifySignatureWith .lenient ⟨[0, 0, 0, 2], rfl⟩ twoOrOne.1 = .ok () ∧
    SignatureScheme.lenient.Confuses [[1], [4]] [] := by
  obtain ⟨hsigned, hhashed, hreplay⟩ := commitments_unambiguous
  have htwo : twoOrOne.1.HasWritableKeys := by
    unfold ValidatorSet.HasWritableKeys
    decide
  have hone : twoOrOne.2.HasWritableKeys := by
    unfold ValidatorSet.HasWritableKeys
    decide
  have hsets : twoOrOne.1.validators ≠ twoOrOne.2.validators := by decide
  have hchains : (⟨[0, 0, 0, 1], rfl⟩ : ChainId) ≠ ⟨[0, 0, 0, 2], rfl⟩ := by decide
  refine ⟨⟨htwo, hone, fun h => hsets ((hhashed _ _ htwo hone).1.mp h).1⟩, fun chain => ?_, rfl,
    rfl, ?_⟩
  · exact (hsigned _ _ _ _).mpr ⟨rfl, rfl, rfl, rfl, rfl, rfl⟩
  · exact (hreplay .lenient pairSigned pairSigned _ _ twoOrOne.1 twoOrOne.1 rfl rfl rfl
      rfl).resolve_left fun h => hchains h.1

end ChainHub
