import ChainHub.Proofs.Hub.Calls
import ChainHub.Proofs.Hub.Inbox
import ChainHub.Proofs.Sparse.Membership
import ChainHub.Proofs.Wire.Records

/-!
# A state root binds each key to one value

A state root comes from a chain that may be hostile, so nothing is known of the tree behind it, and
there need not be one. Still no two values can be shown under one key against the same root, unless
two of the strings hashed for the two proofs collide or one of them hashes to an empty subtree.

* `Sparse.eq_of_rootAlong`: along one way a root leads to one leaf, whatever the siblings are.
* `Sparse.value_eq_of_includes`: so two accepted proofs show the same value.
* `stateRoot_binds`: what follows for the two records that the hub reads from a certified state, the
  root of a partner's outbox and a partner's channel.

The two proofs may have different shapes, since a sibling that is empty may be listed or left out
(`Sparse.rootOf_listed_empty`, `Sparse.exists_lone`). What they have in common is a sibling for each
of the levels.
-/

namespace ChainHub

namespace Sparse

/-- The hash function fails on some strings: two of them collide, or one of them hashes to what
stands for an empty subtree. -/
def HashFails (inputs : List Bytes) : Prop := Collision inputs ∨ HitsEmpty inputs

/-- **Along one way a root leads to one leaf.** The induction is on the way, from the root down. No
node above the leaf is empty, so each branch was hashed and fixes the node below it. -/
theorem eq_of_rootAlong {S : List Bytes} (hS : ¬ Collision S) (hzero : ¬ HitsEmpty S)
    {leaf other : Digest} (hleaf : leaf ≠ emptySubtree) :
    ∀ {way : List Bool} {siblings siblings' : List Digest},
      siblings.length = way.length → siblings'.length = way.length →
      alongInputs leaf way siblings ⊆ S → alongInputs other way siblings' ⊆ S →
      rootAlong leaf way siblings = rootAlong other way siblings' → leaf = other
  | [], [], [], _, _, _, _, h => h
  | b :: way, sibling :: siblings, sibling' :: siblings', hlen, hlen', hin, hin', h => by
    have hne := rootAlong_ne hzero hleaf hin
    rw [alongInputs_cons, List.append_subset] at hin hin'
    rw [rootAlong_cons] at hne h
    rw [rootAlong_cons] at h
    obtain ⟨hnode, -⟩ := eq_of_branchBeside_eq hS hne hin.1 hin'.1 h
    exact eq_of_rootAlong hS hzero hleaf (Nat.succ.inj hlen) (Nat.succ.inj hlen') hin.2 hin'.2 hnode

/-- **Two accepted proofs for one key show the same value.** -/
theorem value_eq_of_includes {root key : Digest} {value other : Bytes} {proof proof' : Proof}
    (h : includes root key value proof = true) (h' : includes root key other proof' = true) :
    HashFails (rootOfInputs key value proof ++ rootOfInputs key other proof') ∨ value = other := by
  refine or_iff_not_imp_left.mpr fun hfails => ?_
  obtain ⟨hS, hzero⟩ := not_or.mp hfails
  have hinputs := List.Subset.refl (rootOfInputs key value proof ++ rootOfInputs key other proof')
  rw [List.append_subset] at hinputs
  obtain ⟨siblings, hlen, hroot, hin⟩ := exists_along_of_rootOf (includes_eq_true_iff.mp h)
  obtain ⟨siblings', hlen', hroot', hin'⟩ := exists_along_of_rootOf (includes_eq_true_iff.mp h')
  obtain ⟨hvalue, halong⟩ := List.append_subset.mp (List.Subset.trans hin hinputs.1)
  obtain ⟨hother, halong'⟩ := List.append_subset.mp (List.Subset.trans hin' hinputs.2)
  have hleaf : sparseLeafHash key value ≠ emptySubtree := fun hempty =>
    hzero ⟨sparseLeafInput key value, hvalue (by simp [leafInputs]), hempty⟩
  have hhash := eq_of_rootAlong hS hzero hleaf hlen hlen' halong halong' (hroot.symm.trans hroot')
  exact eq_of_sparseLeafHash_eq hS hvalue hother hhash

/-- Without siblings a proof leads to the root of a tree that holds nothing else. -/
theorem rootOf_lone (key : Digest) (value : Bytes) :
    rootOf key value ⟨Bitmap.ofBits 32 fun _ => false, []⟩ =
      .ok (rootAlong (sparseLeafHash key value) (keyBits key)
        (List.replicate depth emptySubtree)) := by
  have hbits := bitmapBits_ofBits (List.length_replicate (n := depth) (a := emptySubtree))
  have hclimb := climb_present (List.replicate depth emptySubtree) (keyBits key).reverse
    (sparseLeafHash key value) (by simp)
  have hbit : (fun i => (List.replicate depth emptySubtree).getD i emptySubtree != emptySubtree) =
      fun _ => false := by
    funext i
    simp
  have hnone : present (List.replicate depth emptySubtree) = [] := by simp [present]
  rw [hbit] at hbits
  rw [hnone] at hclimb
  rw [rootAlong_eq_foldl (by simp), List.reverse_replicate]
  unfold rootOf
  rw [hbits]
  show (climb _ _ _ >>= _) = _
  rw [hclimb]
  rfl

/-- **A sibling that is empty may be listed or left out.** Here it is the one of the leaf. -/
theorem rootOf_listed_empty {bit : Nat → Bool} (h : bit 0 = false) (key : Digest) (value : Bytes)
    (siblings : List Bytes) :
    rootOf key value
        ⟨Bitmap.ofBits 32 fun i => i == 0 || bit i, emptySubtree.toList :: siblings⟩ =
      rootOf key value ⟨Bitmap.ofBits 32 bit, siblings⟩ := by
  have hbits : ∀ bit : Nat → Bool, bitmapBits (Bitmap.ofBits 32 bit) =
      .ok (bit 0 :: (List.range 255).map fun i => bit (i + 1)) := fun bit => by
    rw [bitmapBits, if_pos (Or.inr (Bitmap.length_ofBits _ _))]
    congr 1
    have htest : ∀ i ∈ List.range depth, Bitmap.test (Bitmap.ofBits 32 bit) i = bit i := fun i hi =>
      Bitmap.test_ofBits (List.mem_range.mp hi)
    rw [List.map_congr_left htest]
    exact (congrArg _ (List.range_succ_eq_map (n := 255))).trans (by simp [Function.comp_def])
  obtain ⟨right, way, hway⟩ : ∃ right way, (keyBits key).reverse = right :: way :=
    List.exists_cons_of_length_pos (by rw [List.length_reverse, length_keyBits]; decide)
  unfold rootOf
  rw [hbits, hbits, hway, h]
  show (climb ((true, right) :: _) (_ :: siblings) _ >>= _) =
    (climb ((false, right) :: _) siblings _ >>= _)
  rw [climb_sibling, climb_absent]
  rfl

/-- One record has two accepted proofs against the root of a tree that holds nothing else. -/
theorem exists_lone (key : Digest) (value : Bytes) :
    ∃ root proof listing, proof ≠ listing ∧ includes root key value proof = true ∧
      includes root key value listing = true := by
  have hlone := rootOf_lone key value
  have hlisting := (@rootOf_listed_empty (fun _ => false) rfl key value []).trans hlone
  exact ⟨_, _, _, by simp, includes_eq_true_iff.mpr hlone, includes_eq_true_iff.mpr hlisting⟩

end Sparse

/-! ## Records in a certified state -/

/-- The strings that are hashed to check the proof of an outbox root. -/
def InboxUpdate.outboxRootInputs (u : InboxUpdate) (own : ChainId) (outboxRoot : Digest) :
    List Bytes :=
  Sparse.rootOfInputs (Update.outboxRootKey own) outboxRoot.toList u.outboxRootProof

/-- The strings that are hashed to check the proof of a channel. -/
def RecoveryInitRequest.channelInputs (request : RecoveryInitRequest) (own : ChainId) :
    List Bytes :=
  Sparse.rootOfInputs (Recovery.channelKey own) request.channel request.proof

/-- A certificate with this state root has got an outbox root accepted by the hub `own`. -/
def Update.Accepts (root : Digest) (own : ChainId) (u : InboxUpdate) (outboxRoot : Digest) : Prop :=
  ∃ s id, ∃ certificate : Certificate, certificate.stateRoot = root ∧
    verifyInbox s own id (some certificate) u = .ok outboxRoot

/-- The hub `own` has accepted the channel of a terminated chain with this state root. -/
def Recovery.Accepts (root : Digest) (own : ChainId) (request : RecoveryInitRequest)
    (channel : Channel) : Prop :=
  ∃ s id account state, verifyInit s request = .ok (id, channel) ∧
    s.get .own = some account ∧ account.chainId = own ∧
      s.get (.terminatedState id) = some state ∧ state.stateRoot = root

theorem Update.Accepts.includes {root outboxRoot : Digest} {own : ChainId} {u : InboxUpdate}
    (h : Accepts root own u outboxRoot) :
    Sparse.includes root (outboxRootKey own) outboxRoot.toList u.outboxRootProof = true := by
  obtain ⟨s, id, certificate, rfl, hverify⟩ := h
  obtain ⟨_, -, -, hproves⟩ := verifyInbox_eq_ok_iff.mp hverify
  exact hproves

theorem Recovery.Accepts.includes {root : Digest} {own : ChainId} {request : RecoveryInitRequest}
    {channel : Channel} (h : Accepts root own request channel) :
    Sparse.includes root (channelKey own) request.channel request.proof = true ∧
      (Wire.decode request.channel : Except WireError Channel) = .ok channel := by
  obtain ⟨s, id, account, state, hverify, hown, rfl, hstate, rfl⟩ := h
  obtain ⟨-, own', state', hown', hstate', -, -, hdecode, hincludes⟩ :=
    verifyInit_eq_ok_iff.mp hverify
  cases hown.symm.trans hown'
  cases hstate.symm.trans hstate'
  exact ⟨hincludes, hdecode⟩

/-- **A state root binds each key to one value.** The root is any 32 bytes. Whatever is accepted
against it under one key is one value, however the proofs look, unless two of the strings hashed for
the two proofs collide or one of them hashes to an empty subtree. So with one certified root a hub
accepts one outbox root at most, whatever is delivered with it and to whichever chain it belongs,
and one channel at most. -/
theorem stateRoot_binds (root : Digest) :
    (∀ key value other proof proof', Sparse.includes root key value proof = true →
      Sparse.includes root key other proof' = true →
        Sparse.HashFails (Sparse.rootOfInputs key value proof ++
          Sparse.rootOfInputs key other proof') ∨ value = other) ∧
    (∀ own u u' outboxRoot outboxRoot', Update.Accepts root own u outboxRoot →
      Update.Accepts root own u' outboxRoot' →
        Sparse.HashFails (u.outboxRootInputs own outboxRoot ++
          u'.outboxRootInputs own outboxRoot') ∨ outboxRoot = outboxRoot') ∧
    (∀ own request request' channel channel', Recovery.Accepts root own request channel →
      Recovery.Accepts root own request' channel' →
        Sparse.HashFails (request.channelInputs own ++ request'.channelInputs own) ∨
          channel = channel') := by
  refine ⟨fun key value other proof proof' h h' => Sparse.value_eq_of_includes h h',
    fun own u u' outboxRoot outboxRoot' h h' => ?_,
    fun own request request' channel channel' h h' => ?_⟩
  · exact (Sparse.value_eq_of_includes h.includes h'.includes).imp_right FixedBytes.ext
  · obtain ⟨hincludes, hdecode⟩ := h.includes
    obtain ⟨hincludes', hdecode'⟩ := h'.includes
    refine (Sparse.value_eq_of_includes hincludes hincludes').imp_right fun heq => ?_
    rw [heq] at hdecode
    exact Except.ok.inj (hdecode.symm.trans hdecode')

/-- A hub that has a channel accepts the root of an outbox without messages by any right proof. -/
theorem Update.accepts_of_includes {root : Digest} {own : ChainId} {proof : Sparse.Proof}
    (h : Sparse.includes root (outboxRootKey own) (Merkle.rootOfPath []).toList proof = true) :
    Accepts root own ⟨[], [], proof⟩ (Merkle.rootOfPath []) := by
  let s : Store := Store.empty.put (.channel own) (some default)
  let certificate : Certificate := { (default : Certificate) with stateRoot := root }
  have hchannel : s.get (.channel own) = some default := Store.get_put_self _ _ _
  have hnone : Merkle.onesCount (default : Accumulator).size.toNat = 0 := Merkle.onesCount.eq_1 0
  have hroot : (InboxUpdate.mk [] [] proof).outboxRoot? (default : Channel).inbox =
      some (Merkle.rootOfPath []) := by
    refine InboxUpdate.outboxRoot?_eq_some_iff.mpr ⟨default, [], rfl, rfl, ?_⟩
    rw [Merkle.rootOfRightWitness, hnone]
    rfl
  exact ⟨s, own, certificate, rfl, verifyInbox_eq_ok_iff.mpr ⟨default, hchannel, hroot, h⟩⟩

/-- A hub accepts the channel of a chain by any right proof, too. The chain here has its own id. -/
theorem Recovery.accepts_of_includes {root : Digest} {own : ChainId} {proof : Sparse.Proof}
    {channel : Channel} (hfits : Wire.Fits channel)
    (h : Sparse.includes root (channelKey own) (Wire.encode channel) proof = true) :
    Accepts root own ⟨own.toList, Wire.encode channel, proof⟩ channel := by
  let account : OwnAccount := ⟨own, "hub", 0⟩
  let state : TerminatedState := ⟨root, default, true⟩
  let s : Store := (Store.empty.put .own (some account)).put (.terminatedState own) (some state)
  have hown : s.get .own = some account := Store.get_put_of_ne _ _ (by simp)
  have hstate : s.get (.terminatedState own) = some state := Store.get_put_self _ _ _
  have hnone : s.get (.terminatedOutbox own) = none := Store.get_put_of_ne _ _ (by simp)
  refine ⟨s, own, account, state, verifyInit_eq_ok_iff.mpr ⟨?_, account, state, hown, hstate, rfl,
    hnone, Wire.decode_encode hfits, h⟩, hown, rfl, hstate, rfl⟩
  rw [parseChainId, FixedBytes.ofList?_toList]

/-- Against the root of a state with one record, an accepted proof has no siblings and another one
lists an empty sibling. The record is an outbox root, or a channel. -/
theorem stateRoot_binds_lone :
    (∃ root u u', u ≠ u' ∧ Update.Accepts root default u (Merkle.rootOfPath []) ∧
      Update.Accepts root default u' (Merkle.rootOfPath []) ∧
        (Sparse.HashFails (u.outboxRootInputs default (Merkle.rootOfPath []) ++
          u'.outboxRootInputs default (Merkle.rootOfPath [])) ∨
            Merkle.rootOfPath [] = Merkle.rootOfPath [])) ∧
    (∃ root request request', request ≠ request' ∧ Recovery.Accepts root default request default ∧
      Recovery.Accepts root default request' default ∧
        (Sparse.HashFails (request.channelInputs default ++ request'.channelInputs default) ∨
          (default : Channel) = default)) := by
  constructor
  · obtain ⟨root, proof, listing, hne, h, h'⟩ :=
      Sparse.exists_lone (Update.outboxRootKey default) (Merkle.rootOfPath []).toList
    have haccepts := Update.accepts_of_includes h
    have haccepts' := Update.accepts_of_includes h'
    exact ⟨root, _, _, by simpa using hne, haccepts, haccepts',
      (stateRoot_binds root).2.1 _ _ _ _ _ haccepts haccepts'⟩
  · obtain ⟨root, proof, listing, hne, h, h'⟩ :=
      Sparse.exists_lone (Recovery.channelKey default) (Wire.encode (default : Channel))
    have hshort : 0 < UInt32.size := by decide
    have hfits : Wire.Fits (default : Channel) := ⟨hshort, hshort⟩
    have haccepts := Recovery.accepts_of_includes hfits h
    have haccepts' := Recovery.accepts_of_includes hfits h'
    exact ⟨root, _, _, by simpa using hne, haccepts, haccepts',
      (stateRoot_binds root).2.2 _ _ _ _ _ haccepts haccepts'⟩

end ChainHub
