import ChainHub.Proofs.Hub.Origin
import ChainHub.Proofs.Hub.Relayer
import ChainHub.Proofs.Hub.Return
import ChainHub.Proofs.Merkle.Prove

/-!
# Pending messages can be recovered

A terminated chain has not received the last messages of the outbox that is frozen for it. Each of
them that is on its way out can be recovered, whatever has been recovered before, and goes back to
its sender as long as this chain is live.

* `frozenLeaves`: the list whose root a frozen outbox has.
* `RecoveryRequest.ofLeaves`: the recovery that anyone can put together from this list.
* `Pending`: messages that wait to be recovered.
* `recoveredFrom_afterAll`: the frozen outbox is that of the list after any calls.
* `Pending.canReturn`: a message that waits comes from the hub or from a chain that has certified
  something, so a live sender is an active one.
* `recover_pending`: messages that wait are recovered and reach their origin.
-/

namespace ChainHub

open Merkle

/-! ## What waits to be recovered -/

/-- The store has no record of anything that was sent to a chain. -/
structure Store.IsNewTo (s : Store) (id : ChainId) : Prop where
  consistent : Consistent s
  outbox : s.outboxOf id = .empty
  unfrozen : s.get (.terminatedOutbox id) = none

/-- The store of a run is new to every chain at the beginning. -/
theorem Run.isNewTo_start (r : Run) (id : ChainId) : r.start.IsNewTo id where
  consistent := r.consistent_start
  outbox := r.outboxOf_start id
  unfrozen := r.get_start (by simp) (by simp) (by simp) (by simp)

/-- The messages that were sent to a chain, those that were recovered in their recovered form. -/
def frozenLeaves (id : ChainId) (calls : List Call) (s : Store) : List Bytes :=
  withRecovered (collect (Call.sent id) calls s) (covered (collect (Call.recoveries id) calls s))

/-- The recovery of the leaves at the given positions with the proof that their tree gives. -/
def RecoveryRequest.ofLeaves (id : ChainId) (leaves : List Bytes) (positions : List UInt64) :
    Except MerkleError RecoveryRequest := do
  let siblings ← (Tree.ofLeaves leaves).prove (positions.map UInt64.toNat)
  return {
    chainId := id.toList
    messages := positions.filterMap fun i => leaves[i.toNat]?
    indexes := positions
    siblings := siblings.map (·.toList) }

/-- Messages at ascending positions of a frozen outbox that the terminated chain has not received,
that were not recovered yet and that are on their way out from live chains. -/
structure Pending (id : ChainId) (calls : List Call) (s : Store) (hub : ChainId) (now : UInt64)
    (frozen : TerminatedOutbox) (positions : List UInt64) (messages : List Message) : Prop where
  ne_nil : positions ≠ []
  ascending : positions.Pairwise (· < ·)
  range : ∀ i ∈ positions, frozen.partnerInboxSize ≤ i ∧ i < frozen.size
  fresh : ∀ i ∈ positions, i ∉ covered (collect (Call.recoveries id) calls s)
  leaves : List.Forall₂ (fun i m => (frozenLeaves id calls s)[i.toNat]? = some m.encode)
    positions messages
  status : ∀ m ∈ messages, m.status = .ok
  live : ∀ m ∈ messages, (afterAll calls s).isLive hub m.sender now = true

/-! ## Nothing is sent to a terminated chain -/

namespace Call

variable {s : Store} {id : ChainId} {k : Call}

theorem sent_of_isClosed (hs : Consistent s) (hclosed : s.IsClosed id) : k.sent id s = [] := by
  obtain ⟨acts, htrace⟩ := k.exists_trace hs
  have hkept : (k.after s).outboxOf id = s.outboxOf id := by
    unfold Store.outboxOf
    rw [htrace.get_of_isClosed hclosed (Or.inr (Or.inr (Or.inl rfl)))]
  have hsize := Accumulator.size_of_appendAll (appendAll?_sent (k := k) id hs)
  rw [hkept] at hsize
  exact List.eq_nil_of_length_eq_zero (by omega)

/-- Only the outbox of a terminated chain is frozen. -/
theorem isClosed_of_freezes (hs : Consistent s) (h : k.freezes id s = true) : s.IsClosed id := by
  obtain ⟨header, funds, request⟩ := k
  cases request with
  | initRecovery request =>
    unfold freezes at h
    simp only [Bool.and_eq_true, decide_eq_true_eq, Option.isSome_iff_exists] at h
    obtain ⟨hid, response, hresponse⟩ := h
    obtain ⟨acts, -, -, id', partner, channel, hverify, -⟩ := of_accepted hs hresponse
    obtain ⟨hparse, ⟨state, hstate⟩, -⟩ := Recovery.of_verifyInit hverify
    obtain rfl : id' = id := Attempt.eq_of_toOption hparse hid
    exact hs.state _ _ hstate
  | _ => cases h

end Call

theorem collect_sent_of_isClosed {s : Store} {id : ChainId} (hs : Consistent s)
    (hclosed : s.IsClosed id) (calls : List Call) : collect (Call.sent id) calls s = [] := by
  induction calls generalizing s with
  | nil => rfl
  | cons k rest ih =>
    obtain ⟨acts, htrace⟩ := k.exists_trace hs
    rw [collect, Call.sent_of_isClosed hs hclosed, List.nil_append]
    exact ih (htrace.consistent hs) (htrace.isClosed hclosed)

/-! ## The frozen list -/

section

variable {s : Store} {id : ChainId} {calls : List Call} {frozen : TerminatedOutbox}

/-- **A frozen outbox is that of all that was ever sent**, with the recovered messages replaced. -/
theorem recoveredFrom_afterAll (hs : s.IsNewTo id)
    (hfrozen : (afterAll calls s).get (.terminatedOutbox id) = some frozen)
    (hcollision : ¬ Collision (recoveryInputs (collect (Call.sent id) calls s) frozen.size
      (collect (Call.recoveries id) calls s))) :
    RecoveredFrom (collect (Call.sent id) calls s) frozen
      (collect (Call.recoveries id) calls s) := by
  have hinv := frozenIn hs.consistent hs.outbox hs.unfrozen calls
  unfold FrozenIn at hinv
  rw [hfrozen] at hinv
  obtain ⟨before, k, later, sent, rfl, hfreezes, rfl, -, hrecovered⟩ := hinv
  have hmid := consistent_afterAll hs.consistent before
  have hclosed := Call.isClosed_of_freezes hmid hfreezes
  have hsent : collect (Call.sent id) (before ++ k :: later) s =
      collect (Call.sent id) before s := by
    rw [collect_append, collect_sent_of_isClosed hmid hclosed, List.append_nil]
  rw [hsent] at hcollision ⊢
  exact hrecovered.resolve_right hcollision

end

/-! ## Pending messages -/

namespace Pending

variable {s : Store} {id hub : ChainId} {calls : List Call} {now : UInt64}
  {frozen : TerminatedOutbox} {positions : List UInt64} {messages : List Message} {m : Message}

/-- A pending message was sent as it is. -/
theorem mem_sent (h : Pending id calls s hub now frozen positions messages) (hm : m ∈ messages) :
    m.encode ∈ collect (Call.sent id) calls s := by
  obtain ⟨n, hn, rfl⟩ := List.mem_iff_getElem.mp hm
  have hn' : n < positions.length := by rwa [h.leaves.length_eq]
  have hleaf := h.leaves.get hn' hn
  simp only [List.get_eq_getElem] at hleaf
  have hfresh : positions[n].toNat ∉
      (covered (collect (Call.recoveries id) calls s)).map UInt64.toNat := by
    intro hmem
    obtain ⟨i, hi, heq⟩ := List.mem_map.mp hmem
    rw [UInt64.toNat_inj.mp heq] at hi
    exact h.fresh _ (List.getElem_mem hn') hi
  unfold frozenLeaves at hleaf
  rw [getElem?_withRecovered] at hleaf
  simp only [if_neg hfresh, Option.map_id'] at hleaf
  exact List.mem_of_getElem? hleaf

/-- So it is for the terminated chain and has an origin. -/
theorem originates (h : Pending id calls s hub now frozen positions messages) (hs : Consistent s)
    (hm : m ∈ messages) : m.receiver = id ∧ (afterAll calls s).Originates m :=
  originates_of_mem_sent hs (h.mem_sent hm) (h.status m hm)

/-- A pending message passes the check of a recovery. -/
theorem checkedMessage (h : Pending id calls s hub now frozen positions messages)
    (hs : Consistent s) (hm : m ∈ messages) :
    Recovery.CheckedMessage (afterAll calls s) hub now id m.encode m := by
  obtain ⟨hreceiver, horiginates⟩ := h.originates hs hm
  have hlen : m.encode.length < UInt32.size :=
    Nat.lt_of_le_of_lt (Message.checkFormat_eq_ok_iff.mp horiginates.format).2.2.1 (by decide)
  exact ⟨Message.decode_encode hlen, h.status m hm, hreceiver, h.live m hm⟩

/-- **A pending message can go back.** Its sender is the hub or has certified something; a live
sender is not terminated, so it is active. -/
theorem canReturn {own : OwnAccount}
    (h : Pending id calls s own.chainId now frozen positions messages) (hs : Consistent s)
    (hown : (afterAll calls s).get .own = some own)
    (hfrozen : (afterAll calls s).get (.terminatedOutbox id) = some frozen) (hm : m ∈ messages) :
    (afterAll calls s).CanReturn own.chainId now m := by
  obtain ⟨hreceiver, horiginates⟩ := h.originates hs hm
  refine ⟨hreceiver ▸ (consistent_afterAll hs calls).outbox _ _ hfrozen, fun hne => ?_⟩
  obtain ⟨-, account, hget, hlive⟩ := (Store.isLive_eq_true_iff hne).mp (h.live m hm)
  rcases horiginates.origin with ⟨own', hown', hsender⟩ | ⟨account', hget', hstatus⟩
  · obtain rfl := Option.some.inj (hown.symm.trans hown')
    exact absurd hsender hne
  · obtain rfl := Option.some.inj (hget.symm.trans hget')
    exact ⟨account, hget, ChainAccount.active_of_isLive hlive hstatus, hlive⟩

/-! ### The proof that the tree gives -/

/-- The leaves at the positions are the messages. -/
theorem filterMap_leaves (h : Pending id calls s hub now frozen positions messages) :
    (positions.filterMap fun i => (frozenLeaves id calls s)[i.toNat]?) =
      messages.map Message.encode := by
  have hleaves := h.leaves
  generalize frozenLeaves id calls s = leaves at hleaves
  clear h
  induction hleaves with
  | nil => rfl
  | cons hleaf _ ih =>
    rw [List.filterMap_cons, hleaf, ih]
    rfl

/-- The positions and the hashes of the messages are among those of the leaves. -/
theorem covers (h : Pending id calls s hub now frozen positions messages) :
    Covers ((positions.map UInt64.toNat).zip ((messages.map Message.encode).map leafHash))
      ((frozenLeaves id calls s).map leafHash) := by
  rintro ⟨position, hash⟩ hmem
  rw [List.map_map, List.zip_map] at hmem
  obtain ⟨⟨i, m⟩, hpair, heq⟩ := List.mem_map.mp hmem
  cases heq
  have hleaf := (List.forall₂_iff_zip.mp h.leaves).2 hpair
  dsimp only
  rw [List.getElem?_map, hleaf]
  rfl

/-- The positions are those of leaves and ascend. -/
theorem ascending_toNat (h : Pending id calls s hub now frozen positions messages) :
    Ascending frozen.size.toNat 0 (positions.map UInt64.toNat) := by
  refine ascending_of_pairwise ?_ ?_
  · exact List.pairwise_map.mpr (h.ascending.imp UInt64.lt_iff_toNat_lt.mp)
  · rw [List.forall_mem_map]
    exact fun i hi => ⟨Nat.zero_le _, UInt64.lt_iff_toNat_lt.mp (h.range i hi).2⟩

/-- **The recovery of pending messages passes its check.** -/
theorem exists_checked (h : Pending id calls s hub now frozen positions messages)
    (hs : Consistent s)
    (hfrozen : (afterAll calls s).get (.terminatedOutbox id) = some frozen)
    (hrecovered : RecoveredFrom (collect (Call.sent id) calls s) frozen
      (collect (Call.recoveries id) calls s))
    (hsize : frozen.size.toNat + 1 < UInt64.size) :
    ∃ request v, RecoveryRequest.ofLeaves id (frozenLeaves id calls s) positions = .ok request ∧
      Recovery.Checked (afterAll calls s) hub now request v ∧ v.messages = messages := by
  have hwidth : frozen.size.toNat = (frozenLeaves id calls s).length :=
    hrecovered.size.trans (length_withRecovered _ _).symm
  have hcount : positions.length = messages.length := h.leaves.length_eq
  have hasc := h.ascending_toNat
  have hprove := Tree.prove_ofLeaves (by simpa using h.ne_nil) (hwidth ▸ hasc)
  have hproof := rootOfLeaves_treeSiblings hwidth (hwidth ▸ hsize) h.ne_nil (hwidth ▸ hasc)
    (by rw [List.length_map, List.length_map, hcount]) h.covers
  generalize treeSiblings ((frozenLeaves id calls s).map leafHash)
    (positions.map UInt64.toNat) = siblings at hprove hproof
  let request : RecoveryRequest := {
    chainId := id.toList
    messages := messages.map Message.encode
    indexes := positions
    siblings := siblings.map (·.toList) }
  refine ⟨request, ⟨id, frozen, messages, positions, siblings⟩, ?_, ?_, rfl⟩
  · unfold RecoveryRequest.ofLeaves
    rw [hprove, h.filterMap_leaves]
    rfl
  · constructor
    case id => simp [request, parseChainId]
    case outbox => exact hfrozen
    case indexes => rfl
    case range =>
      exact Recovery.verifyIndexes_eq_ok_iff.mpr ⟨⟨h.ne_nil, by simp [request, hcount]⟩,
        hasc.isAscending, h.range⟩
    case messages =>
      show List.Forall₂ _ (messages.map Message.encode) messages
      rw [List.forall₂_map_left_iff, List.forall₂_same]
      exact fun m hm => h.checkedMessage hs hm
    case siblings => exact parseHashes_toList siblings
    case proof =>
      rw [hrecovered.root]
      exact hproof

end Pending

/-! ## Their recovery -/

/-- **Pending messages can be recovered and reach their origin.** Whatever calls have been made, of
which one has frozen the outbox toward a chain and others may have recovered messages, the leaves
that the frozen root stands for are known to all, and their tree proves any of them. A recovery of
pending messages with such a proof is accepted, as long as there is room for them; each message of
another chain than the hub enters the outbox toward this chain once, in its recovered form, and is
counted as delivered. Only two strings hashed for the recoveries before that collide could prevent
it. The store before the calls may be that of any run at its beginning (`Run.isNewTo_start`). -/
theorem recover_pending {s : Store} {id : ChainId} (hs : s.IsNewTo id) (calls : List Call)
    {own : OwnAccount} (hown : (afterAll calls s).get .own = some own) {frozen : TerminatedOutbox}
    (hfrozen : (afterAll calls s).get (.terminatedOutbox id) = some frozen) (header : BlockHeader)
    (funds : List Coin) {positions : List UInt64} {messages : List Message}
    (hpending : Pending id calls s own.chainId header.time frozen positions messages)
    (hsize : frozen.size.toNat + 1 < UInt64.size)
    (hroom : (afterAll calls s).HasRoom own.chainId messages) :
    Collision (recoveryInputs (collect (Call.sent id) calls s) frozen.size
        (collect (Call.recoveries id) calls s)) ∨
      ∃ request response,
        RecoveryRequest.ofLeaves id (frozenLeaves id calls s) positions = .ok request ∧
        Call.SendsBack ⟨header, funds, .recover request⟩ (afterAll calls s) own.chainId messages
          response := by
  by_cases hcollision : Collision (recoveryInputs (collect (Call.sent id) calls s) frozen.size
    (collect (Call.recoveries id) calls s))
  · exact Or.inl hcollision
  · have hrecovered := recoveredFrom_afterAll hs hfrozen hcollision
    obtain ⟨request, v, hrequest, hchecked, rfl⟩ :=
      hpending.exists_checked hs.consistent hfrozen hrecovered hsize
    obtain ⟨response, hsends⟩ := Call.recover_returns (consistent_afterAll hs.consistent calls)
      hown funds hchecked (fun m hm => hpending.canReturn hs.consistent hown hfrozen hm) hroom
    exact Or.inr ⟨request, response, hrequest, hsends⟩

/-! ## A chain that falls silent -/

/-- An initialization that passes its check is accepted and freezes the outbox. -/
theorem Call.after_initRecovery {s : Store} {header : BlockHeader} {funds : List Coin}
    {request : RecoveryInitRequest} {id : ChainId} {partner channel : Channel}
    (hid : Recovery.verifyInit s request = .ok (id, partner))
    (hchannel : s.get (.channel id) = some channel) :
    (⟨header, funds, .initRecovery request⟩ : Call).after s =
      s.put (.terminatedOutbox id) (some (channel.frozenOutbox partner.inbox.size)) := by
  have hrun : ∃ response, (⟨header, funds, .initRecovery request⟩ : Call).run s =
      .ok response
        (s.put (.terminatedOutbox id) (some (channel.frozenOutbox partner.inbox.size))) := by
    show ∃ response, Recovery.start request s = .ok response _
    unfold Recovery.start
    rw [bind_of_ok (show (get : StoreM Store) s = .ok s s from rfl), hid,
      bind_of_ok (show StoreM.ofAttempt _ s = .ok (id, partner) s from rfl)]
    dsimp only
    rw [bind_of_ok (StoreM.load_eq hchannel)]
    exact ⟨_, rfl⟩
  obtain ⟨response, hrun⟩ := hrun
  exact (accepted_of_run hrun).2

namespace Run

/-- Another sidechain. -/
def talkingChain : ChainId := ⟨[0, 0, 0, 3], rfl⟩

/-- A message of it to the silent chain. -/
def toSilent : Message where
  module := "token"
  command := "transfer"
  nonce := 0
  fee := 0
  sender := talkingChain
  receiver := silentChain
  params := []
  status := .ok

/-- The notice to the silent chain that it is terminated. -/
def silentNotice : Message :=
  (channelTerminatedDraft silentChain).message ⟨ChainId.mainchain 0, "hub", 1⟩

/-- The channel as the silent chain and the hub know it at first. -/
def silentChannel : Channel := .fresh default 0

/-- The last state of the silent chain. -/
def silentState : Sparse.Tree :=
  Sparse.Tree.empty.insert (Recovery.channelKey (ChainId.mainchain 0)) (Wire.encode silentChannel)

/-- The account of the silent chain, had it certified this state. -/
def silentAccount : ChainAccount where
  name := "alpha"
  status := .active
  last := ⟨1, 1, silentState.root, FixedBytes.zero 32⟩

/-- The account of the other chain, which has certified something much later. -/
def talkingAccount : ChainAccount where
  name := "beta"
  status := .active
  last := ⟨1, 2000000, FixedBytes.zero 32, FixedBytes.zero 32⟩

/-- Its channel, with the message to the silent chain on its way. -/
def talkingChannel : Channel :=
  { silentChannel with partnerOutboxRoot := (Tree.ofLeaves [toSilent.encode]).root }

/-- The records with both chains active. -/
def acquainted : Store :=
  ((waiting.store.put (.account silentChain) (some silentAccount)).put (.channel silentChain)
    (some silentChannel)).registered talkingChain talkingAccount talkingChannel
      ⟨[⟨List.replicate 48 1, 1⟩], 1⟩

/-- The message is passed on to the silent chain, which is terminated for its silence. -/
def silencing : List Call := [
  ⟨⟨2, 2000000⟩, [], .update {
    sender := talkingChain.toList
    certificate := []
    validators := []
    threshold := 1
    inbox := .relay [toSilent.encode] 0 1 default }⟩,
  ⟨⟨3, 3000000⟩, [], .terminateForLiveness silentChain.toList⟩]

/-- The outbox toward the silent chain is frozen. -/
def freezing (proof : Sparse.Proof) : Call :=
  ⟨⟨4, 3000000⟩, [], .initRecovery ⟨silentChain.toList, Wire.encode silentChannel, proof⟩⟩

theorem isNewTo_acquainted : acquainted.IsNewTo silentChain where
  consistent := by
    obtain ⟨account, hget, hstatus⟩ := registered_silentChain
    have haccount : Consistent (waiting.store.put (.account silentChain) (some silentAccount)) :=
      waiting.consistent.put_account hget (by simp [hstatus])
    have hbuilt : silentChannel.inbox.Built ∧ silentChannel.outbox.Built :=
      ⟨Accumulator.built_empty, Accumulator.built_empty⟩
    exact (haccount.put_channel ⟨silentAccount, Store.get_put_self _ _ _⟩ hbuilt).registered rfl
      (by rfl) ⟨Accumulator.built_empty, Accumulator.built_empty⟩
  outbox := by rfl
  unfrozen := by rfl

theorem sent_silencing :
    collect (Call.sent silentChain) silencing acquainted =
      [toSilent.encode, silentNotice.encode] := by
  decide +kernel

/-- What is left when the chain has been terminated, as far as it can be computed quickly. -/
theorem after_silencing :
    (afterAll silencing acquainted).get .own = some ⟨ChainId.mainchain 0, "hub", 2⟩ ∧
      ((afterAll silencing acquainted).get (.channel silentChain)).map (fun c => c.outbox.size) =
        some 2 ∧
      (afterAll silencing acquainted).get (.terminatedOutbox silentChain) = none ∧
      (afterAll silencing acquainted).get (.account talkingChain) = some talkingAccount ∧
      ((afterAll silencing acquainted).outboxOf talkingChain).size = 0 := by
  decide +kernel

set_option maxRecDepth 10000 in
/-- The root of the state tree would take long to compute, and it need not be. -/
theorem terminatedState_silencing :
    (afterAll silencing acquainted).get (.terminatedState silentChain) =
      some silentAccount.frozenState := by
  with_unfolding_all rfl

/-- The proof of the channel passes the check. -/
theorem verifyInit_silencing {proof : Sparse.Proof}
    (h : Sparse.includes silentState.root (Recovery.channelKey (ChainId.mainchain 0))
      (Wire.encode silentChannel) proof = true) :
    Recovery.verifyInit (afterAll silencing acquainted)
      ⟨silentChain.toList, Wire.encode silentChannel, proof⟩ =
        .ok (silentChain, silentChannel) := by
  obtain ⟨hown, -, hnone, -⟩ := after_silencing
  have hdecode : (Wire.decode (Wire.encode silentChannel) : Except WireError Channel) =
      .ok silentChannel := by
    decide +kernel
  exact Recovery.verifyInit_eq_ok_iff.mpr
    ⟨rfl, _, _, hown, terminatedState_silencing, rfl, hnone, hdecode, h⟩

/-- The calls that end with this initialization. -/
def freezingCalls (proof : Sparse.Proof) : List Call := silencing ++ [freezing proof]

/-- Nothing is sent while the outbox is frozen. -/
theorem sent_freezing (proof : Sparse.Proof) :
    collect (Call.sent silentChain) (freezingCalls proof) acquainted =
      [toSilent.encode, silentNotice.encode] := by
  have hs := consistent_afterAll isNewTo_acquainted.consistent silencing
  unfold freezingCalls
  rw [collect_concat, sent_silencing,
    Call.sent_of_isClosed hs (hs.state _ _ terminatedState_silencing)]
  rfl

/-- Nothing was recovered either. -/
theorem recoveries_freezing (proof : Sparse.Proof) :
    collect (Call.recoveries silentChain) (freezingCalls proof) acquainted = [] := by
  simp [freezingCalls, silencing, freezing, collect, Call.recoveries]

theorem frozenLeaves_freezing (proof : Sparse.Proof) :
    frozenLeaves silentChain (freezingCalls proof) acquainted =
      [toSilent.encode, silentNotice.encode] := by
  unfold frozenLeaves
  rw [sent_freezing, recoveries_freezing]
  exact withRecovered_nil _

section

variable {proof : Sparse.Proof} {frozen : TerminatedOutbox}

/-- The outbox is frozen with both messages, and nothing else changes. -/
theorem after_freezing (h : Sparse.includes silentState.root
      (Recovery.channelKey (ChainId.mainchain 0)) (Wire.encode silentChannel) proof = true) :
    ∃ frozen : TerminatedOutbox, frozen.size = 2 ∧ frozen.partnerInboxSize = 0 ∧
      afterAll (freezingCalls proof) acquainted =
        (afterAll silencing acquainted).put (.terminatedOutbox silentChain) (some frozen) := by
  obtain ⟨-, hsize, -⟩ := after_silencing
  obtain ⟨channel, hchannel, hsize⟩ := Option.map_eq_some_iff.mp hsize
  refine ⟨channel.frozenOutbox 0, hsize, rfl, ?_⟩
  unfold freezingCalls freezing
  rw [afterAll_concat, Call.after_initRecovery (verifyInit_silencing h) hchannel]
  rfl

/-- The message of the other chain and the notice of the hub are pending. -/
theorem pending_freezing (hsize : frozen.size = 2) (hpartner : frozen.partnerInboxSize = 0)
    (hafter : afterAll (freezingCalls proof) acquainted =
      (afterAll silencing acquainted).put (.terminatedOutbox silentChain) (some frozen)) :
    Pending silentChain (freezingCalls proof) acquainted (ChainId.mainchain 0) 3000000 frozen
      [0, 1] [toSilent, silentNotice] := by
  constructor
  case ne_nil => simp
  case ascending => decide
  case range =>
    rw [hsize, hpartner, List.forall_mem_cons, List.forall_mem_singleton]
    decide
  case fresh =>
    rw [recoveries_freezing]
    exact fun _ _ => List.not_mem_nil
  case leaves =>
    rw [frozenLeaves_freezing]
    exact .cons rfl (.cons rfl .nil)
  case status => decide
  case live =>
    obtain ⟨-, -, -, htalking, -⟩ := after_silencing
    rw [List.forall_mem_cons, List.forall_mem_singleton, hafter]
    refine ⟨(Store.isLive_eq_true_iff (by decide)).mpr ⟨rfl, talkingAccount, ?_, by decide⟩, rfl⟩
    exact (Store.get_put_of_ne _ _ (by simp)).trans htalking

/-- There is room for the message of the other chain. -/
theorem hasRoom_freezing (hafter : afterAll (freezingCalls proof) acquainted =
      (afterAll silencing acquainted).put (.terminatedOutbox silentChain) (some frozen)) :
    (afterAll (freezingCalls proof) acquainted).HasRoom (ChainId.mainchain 0)
      [toSilent, silentNotice] := by
  obtain ⟨-, -, -, -, hempty⟩ := after_silencing
  intro m hm hne
  rcases List.mem_cons.mp hm with rfl | hm
  · rw [hafter, Store.outboxOf_put (by simp), show toSilent.sender = talkingChain from rfl, hempty]
    decide
  · rw [List.mem_singleton.mp hm] at hne
    exact absurd rfl hne

end

/-- Both messages can be recovered, and the one of the other chain goes back to it. -/
theorem recover_pending_freezing :
    ∃ proof request response,
      silentState.prove (Recovery.channelKey (ChainId.mainchain 0)) = some proof ∧
        RecoveryRequest.ofLeaves silentChain
          (frozenLeaves silentChain (freezingCalls proof) acquainted) [0, 1] = .ok request ∧
        Call.SendsBack ⟨⟨5, 3000000⟩, [], .recover request⟩
          (afterAll (freezingCalls proof) acquainted) (ChainId.mainchain 0)
            [toSilent, silentNotice] response := by
  obtain ⟨proof, hprove, hincludes⟩ := (Sparse.Tree.holds_insert Sparse.Tree.empty
    (Recovery.channelKey (ChainId.mainchain 0)) (Wire.encode silentChannel)).includes_prove
  obtain ⟨frozen, hsize, hpartner, hafter⟩ := after_freezing hincludes
  have hown : (afterAll (freezingCalls proof) acquainted).get .own =
      some ⟨ChainId.mainchain 0, "hub", 2⟩ := by
    rw [hafter, Store.get_put_of_ne _ _ (by simp)]
    exact after_silencing.1
  have hfrozen : (afterAll (freezingCalls proof) acquainted).get (.terminatedOutbox silentChain) =
      some frozen := by
    rw [hafter]
    exact Store.get_put_self _ _ _
  have hno : ¬ Collision (recoveryInputs [toSilent.encode, silentNotice.encode] 2 []) := by
    unfold Collision
    decide +kernel
  have hroom : frozen.size.toNat + 1 < UInt64.size := by
    rw [hsize]
    decide
  have hrecover := recover_pending isNewTo_acquainted (freezingCalls proof) hown hfrozen
    ⟨5, 3000000⟩ [] (pending_freezing hsize hpartner hafter) hroom (hasRoom_freezing hafter)
  rw [sent_freezing, recoveries_freezing, hsize] at hrecover
  obtain ⟨request, response, hrequest, hsends⟩ := hrecover.resolve_left hno
  exact ⟨proof, request, response, hprove, hrequest, hsends⟩

end Run

end ChainHub
