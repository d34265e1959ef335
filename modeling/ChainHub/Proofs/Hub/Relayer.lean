import ChainHub.Proofs.Hub.Inbox
import ChainHub.Proofs.Merkle.RightWitness
import ChainHub.Proofs.Sparse.Prove

/-!
# Honest relayers

A relayer that knows the whole outbox of a chain can bring the inbox of the hub forward from where
it is to wherever it likes: by no message, by some, or by all of them. What it needs is computed
from the outbox, and from the state tree of the chain if it presents a certificate.

* `InboxUpdate.relay`: what the relayer delivers.
* `InboxUpdate.outboxRoot?_relay`: it comes to the root of the outbox.
* `Update.verifyInbox_relay`: it passes the check, with a certificate and without one.
-/

namespace ChainHub

open Merkle

/-- What a relayer delivers of an outbox to a hub that has received the first `received` messages:
those up to the first `upTo`. -/
def InboxUpdate.relay (outbox : List Bytes) (received upTo : Nat) (outboxRootProof : Sparse.Proof) :
    InboxUpdate where
  messages := (outbox.take upTo).drop received
  witness := ((Tree.ofLeaves outbox).rightWitness upTo).map (·.toList)
  outboxRootProof

section

variable {outbox : List Bytes} {received upTo : Nat}

/-- **An honest update comes to the root of the outbox**, whatever it is padded with. -/
theorem InboxUpdate.outboxRoot?_relay {inbox : Accumulator} (proof : Sparse.Proof)
    (hinbox : Accumulator.empty.appendAll? (outbox.take received) = some inbox)
    (hfrom : received ≤ upTo) (hupTo : upTo ≤ outbox.length) (hsize : upTo < UInt64.size) :
    (InboxUpdate.relay outbox received upTo proof).outboxRoot? inbox =
      some (Tree.ofLeaves outbox).root := by
  have hlen : (outbox.take upTo).length = upTo := by
    rw [List.length_take, Nat.min_eq_left hupTo]
  have hbegin : (outbox.take upTo).take received = outbox.take received := by
    rw [List.take_take, Nat.min_eq_left hfrom]
  have hafter : inbox.appendAll? ((outbox.take upTo).drop received) =
      some (Accumulator.ofLeaves (outbox.take upTo)) := by
    have hall := Accumulator.appendAll?_empty_eq_some_iff.mpr
      ⟨by rw [hlen]; exact hsize, (rfl : Accumulator.ofLeaves (outbox.take upTo) = _)⟩
    rw [← List.take_append_drop received (outbox.take upTo), hbegin,
      Accumulator.appendAll?_append, hinbox, Option.bind_some] at hall
    rw [hall, ← hbegin, List.take_append_drop]
  have hleaves : upTo ≤ (outbox.map leafHash).length := by
    rw [List.length_map]
    exact hupTo
  have hroot := Tree.rootOfRightWitness_layersFrom hleaves hsize
  rw [← List.map_take] at hroot
  refine InboxUpdate.outboxRoot?_eq_some_iff.mpr ⟨_, _, hafter, parseHashes_toList _, ?_⟩
  show rootOfRightWitness (UInt64.ofNat (outbox.take upTo).length) _ _ = _
  rw [hlen]
  exact hroot

/-- **An honest relayer is never stuck.** Let the hub have received the first messages of an outbox.
Then the update that brings it forward passes the check and gives the root of the outbox: without a
certificate if this root is the stored one, and with any certificate of a state tree that holds this
root for the hub, by the proof that the tree gives. -/
theorem Update.verifyInbox_relay {s : Store} {own id : ChainId} {channel : Channel}
    (hchannel : s.get (.channel id) = some channel)
    (hinbox : Accumulator.empty.appendAll? (outbox.take received) = some channel.inbox)
    (hfrom : received ≤ upTo) (hupTo : upTo ≤ outbox.length) (hsize : upTo < UInt64.size) :
    (channel.partnerOutboxRoot = (Tree.ofLeaves outbox).root → ∀ proof,
      verifyInbox s own id none (.relay outbox received upTo proof) =
        .ok (Tree.ofLeaves outbox).root) ∧
    ∀ (certificate : Certificate) (tree : Sparse.Tree), certificate.stateRoot = tree.root →
      tree.Holds (outboxRootKey own) (Tree.ofLeaves outbox).root.toList →
      ∃ proof, tree.prove (outboxRootKey own) = some proof ∧
        verifyInbox s own id (some certificate) (.relay outbox received upTo proof) =
          .ok (Tree.ofLeaves outbox).root := by
  have hroot := fun proof =>
    InboxUpdate.outboxRoot?_relay proof hinbox hfrom hupTo hsize
  refine ⟨fun hstored proof => ?_, fun certificate tree hstate hholds => ?_⟩
  · exact verifyInbox_eq_ok_iff.mpr ⟨channel, hchannel, hroot proof, hstored.symm⟩
  · obtain ⟨proof, hprove, hincludes⟩ := hholds.includes_prove
    refine ⟨proof, hprove, verifyInbox_eq_ok_iff.mpr ⟨channel, hchannel, hroot proof, ?_⟩⟩
    show Sparse.includes certificate.stateRoot _ _ _ = true
    rw [hstate]
    exact hincludes

end

namespace Run

/-- An outbox of three messages. -/
def threeMessages : List Bytes := [[1], [2], [3]]

/-- A channel on which the first of these messages was received. -/
def partwayChannel : Channel where
  inbox := Accumulator.ofLeaves (threeMessages.take 1)
  outbox := .empty
  partnerOutboxRoot := (Tree.ofLeaves threeMessages).root
  feeToken := default
  minFeePerByte := 0

/-- The records after a chain has registered, with this channel. -/
def partway : Store := waiting.store.put (.channel silentChain) (some partwayChannel)

/-- A state tree that holds the root of these messages, and what the chain keeps for another one. -/
def stateTree : Sparse.Tree :=
  (Sparse.Tree.empty.insert (Update.outboxRootKey (ChainId.mainchain 0))
    (Tree.ofLeaves threeMessages).root.toList).insert
      (Update.outboxRootKey silentChain) (Tree.ofLeaves []).root.toList

/-- The other two messages can be brought in, with a certificate and without one. -/
theorem verifyInbox_relay_partway :
    Update.verifyInbox partway (ChainId.mainchain 0) silentChain none
        (.relay threeMessages 1 3 default) = .ok (Tree.ofLeaves threeMessages).root ∧
      ∃ proof, stateTree.prove (Update.outboxRootKey (ChainId.mainchain 0)) = some proof ∧
        Update.verifyInbox partway (ChainId.mainchain 0) silentChain
          (some { (default : Certificate) with stateRoot := stateTree.root })
          (.relay threeMessages 1 3 proof) = .ok (Tree.ofLeaves threeMessages).root := by
  have hchannel : partway.get (.channel silentChain) = some partwayChannel :=
    Store.get_put_self _ _ _
  have hinbox : Accumulator.empty.appendAll? (threeMessages.take 1) = some partwayChannel.inbox :=
    Accumulator.appendAll?_empty_eq_some_iff.mpr ⟨by decide, rfl⟩
  obtain ⟨hwithout, hwith⟩ := Update.verifyInbox_relay hchannel hinbox (show 1 ≤ 3 by decide)
    (show 3 ≤ threeMessages.length by decide) (by decide)
  have hother : Update.outboxRootKey silentChain ≠ Update.outboxRootKey (ChainId.mainchain 0) := by
    decide +kernel
  have hholds : stateTree.Holds (Update.outboxRootKey (ChainId.mainchain 0))
      (Tree.ofLeaves threeMessages).root.toList :=
    (Sparse.Tree.holds_insert _ _ _).insert hother _
  exact ⟨hwithout rfl default, hwith _ stateTree rfl hholds⟩

end Run

end ChainHub
