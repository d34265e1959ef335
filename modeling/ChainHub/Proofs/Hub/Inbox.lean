import ChainHub.Proofs.Hub.Run
import ChainHub.Proofs.Merkle.Sketch
import Mathlib.Data.List.Induction

/-!
# What the hub receives from a chain

Every accepted inbox update proves a root of the sender's outbox. The messages that the hub has
received from the sender are then a beginning of any list of messages with that root, whoever splits
them into updates and however, unless a hash collision occurs.

* `InboxUpdate.outboxRoot?`, `InboxUpdate.inputs`: the root that an inbox update comes to, and the
  strings that are hashed for it.
* `Call.received`: what enters an inbox, call by call.
* `received_isPrefix`: it is the beginning of what the partner has sent.

The lists behind the roots need not be related in any way. Each root alone decides the beginning of
its list, and what is received later is received under a later root. The calls need not be those of
a run, either: any consistent store with an empty inbox serves as well as the one a run starts with.
-/

namespace ChainHub

open Merkle

/-! ## Inbox updates -/

/-- The root that the check of an inbox update computes: the inbox is extended by the messages and
then by the witness. -/
def InboxUpdate.outboxRoot? (u : InboxUpdate) (inbox : Accumulator) : Option Digest := do
  let after ← inbox.appendAll? u.messages
  let witness ← (parseHashes u.witness).toOption
  (rootOfRightWitness after.size after.path witness).toOption

/-- The strings that are hashed to compute it. -/
def InboxUpdate.inputs (u : InboxUpdate) (inbox : Accumulator) : List Bytes :=
  inbox.appendAllInputs u.messages ++
    (inbox.appendAll? u.messages).elim [] fun after =>
      (parseHashes u.witness).toOption.elim [] fun witness =>
        rightWitnessInputs after.size after.path witness

namespace Call

/-- The inbox update that a call delivers for a chain, if the call is accepted and the inbox update
is not empty. -/
def inboxUpdate? (id : ChainId) (k : Call) (s : Store) : Option InboxUpdate :=
  match k.request with
  | .update request =>
    if k.sender? = some id ∧ request.inbox.isEmpty = false ∧ (k.response? s).isSome then
      some request.inbox
    else none
  | _ => none

/-- What a call puts into the inbox from a chain: as many messages as the inbox grows by. -/
def received (id : ChainId) (k : Call) (s : Store) : List Bytes :=
  ((k.inboxUpdate? id s).elim [] InboxUpdate.messages).take
    (((k.after s).inboxOf id).size.toNat - (s.inboxOf id).size.toNat)

/-- The outbox root that a call proves for a chain. -/
def outboxRoots (id : ChainId) (k : Call) (s : Store) : List Digest :=
  ((k.inboxUpdate? id s).bind fun u => u.outboxRoot? (s.inboxOf id)).toList

/-- The strings that are hashed to compute it. -/
def inboxInputs (id : ChainId) (k : Call) (s : Store) : List Bytes :=
  (k.inboxUpdate? id s).elim [] fun u => u.inputs (s.inboxOf id)

end Call

/-! ## One call -/

theorem InboxUpdate.outboxRoot?_eq_some_iff {u : InboxUpdate} {inbox : Accumulator}
    {root : Digest} :
    u.outboxRoot? inbox = some root ↔
      ∃ after witness, inbox.appendAll? u.messages = some after ∧
        parseHashes u.witness = .ok witness ∧
        rootOfRightWitness after.size after.path witness = .ok root := by
  simp only [InboxUpdate.outboxRoot?, Option.bind_eq_bind, Option.bind_eq_some_iff,
    Attempt.toOption_eq_some_iff]
  constructor
  · rintro ⟨after, hafter, witness, hwitness, hroot⟩
    exact ⟨after, witness, hafter, hwitness, hroot⟩
  · rintro ⟨after, witness, hafter, hwitness, hroot⟩
    exact ⟨after, hafter, witness, hwitness, hroot⟩

/-- How a root is proven: by the certificate if there is one, else by being the stored one. -/
def InboxUpdate.Proves (u : InboxUpdate) (own : ChainId) (certificate : Option Certificate)
    (stored root : Digest) : Prop :=
  match certificate with
  | some certificate =>
    Sparse.includes certificate.stateRoot (Update.outboxRootKey own) root.toList
      u.outboxRootProof = true
  | none => root = stored

/-- **When an inbox update passes the check**: it comes to a root, and this root is proven. -/
theorem Update.verifyInbox_eq_ok_iff {s : Store} {own id : ChainId}
    {certificate : Option Certificate} {u : InboxUpdate} {root : Digest} :
    verifyInbox s own id certificate u = .ok root ↔
      ∃ channel, s.get (.channel id) = some channel ∧ u.outboxRoot? channel.inbox = some root ∧
        u.Proves own certificate channel.partnerOutboxRoot root := by
  simp only [verifyInbox, Attempt.bind_eq_ok_iff, Attempt.require_eq_ok_iff,
    Attempt.ofOption_eq_ok_iff, Attempt.lift_eq_ok_iff, Attempt.ofExcept_eq_ok_iff,
    InboxUpdate.outboxRoot?_eq_some_iff, InboxUpdate.Proves]
  cases certificate with
  | none =>
    simp only [Attempt.ite_eq_ok_iff', Attempt.pure_eq_ok_iff]
    constructor
    · rintro ⟨channel, hchannel, after, hafter, witness, hwitness, _, hroot, h, rfl⟩
      exact ⟨channel, hchannel, ⟨after, witness, hafter, hwitness, hroot⟩, h⟩
    · rintro ⟨channel, hchannel, ⟨after, witness, hafter, hwitness, hroot⟩, h⟩
      exact ⟨channel, hchannel, after, hafter, witness, hwitness, root, hroot, h, rfl⟩
  | some certificate =>
    simp only [Attempt.ite_eq_ok_iff', Attempt.pure_eq_ok_iff]
    constructor
    · rintro ⟨channel, hchannel, after, hafter, witness, hwitness, _, hroot, h, rfl⟩
      exact ⟨channel, hchannel, ⟨after, witness, hafter, hwitness, hroot⟩, h⟩
    · rintro ⟨channel, hchannel, ⟨after, witness, hafter, hwitness, hroot⟩, h⟩
      exact ⟨channel, hchannel, after, hafter, witness, hwitness, root, hroot, h, rfl⟩

namespace Call

variable {id : ChainId} {k : Call} {s : Store} {u : InboxUpdate}

/-- Several leaves that are appended are as many as the accumulator grows by. -/
theorem eq_take_of_appendAll {acc next : Accumulator} {leaves more : List Bytes}
    (h : acc.appendAll? leaves = some next) (hbegin : leaves <+: more) :
    leaves = more.take (next.size.toNat - acc.size.toNat) := by
  have hsize := Accumulator.size_of_appendAll h
  have htake := List.prefix_iff_eq_take.mp hbegin
  rw [htake]
  congr 1
  omega

/-- What enters an inbox with a call is a beginning of the messages that the call delivers. -/
theorem exists_received (hs : Consistent s) (id : ChainId) (k : Call) :
    ∃ bytes, (s.inboxOf id).appendAll? bytes = some ((k.after s).inboxOf id) ∧
      bytes <+: (k.inboxUpdate? id s).elim [] InboxUpdate.messages := by
  cases hresponse : k.response? s with
  | none =>
    rw [after_of_rejected hresponse]
    exact ⟨[], rfl, List.nil_prefix⟩
  | some response =>
    obtain ⟨acts, htrace, -, heffect⟩ := of_accepted hs hresponse
    refine ⟨Action.receivedAll id acts, htrace.inboxOf id, ?_⟩
    by_cases hsender : k.sender? = some id
    · obtain ⟨request, own, v, o, hrequest, rfl, -, hperformed⟩ := heffect.of_sender hsender
      have hbegin := hperformed.receivedBy.2
      unfold inboxUpdate?
      rw [hrequest]
      cases hempty : request.inbox.isEmpty with
      | false =>
        dsimp only
        rw [if_pos ⟨hsender, hempty, by rw [hresponse]; rfl⟩]
        exact hbegin
      | true =>
        have hnil : request.inbox.messages = [] := by
          unfold InboxUpdate.isEmpty at hempty
          simp only [Bool.and_eq_true, List.isEmpty_iff] at hempty
          exact hempty.1.1.1
        rw [hnil, List.prefix_nil] at hbegin
        rw [hbegin]
        exact List.nil_prefix
    · rw [htrace.receivedAll_eq_nil hsender]
      exact List.nil_prefix

/-- **The inbox from a chain grows by what is received from it.** -/
theorem appendAll?_received (id : ChainId) (hs : Consistent s) :
    (s.inboxOf id).appendAll? (k.received id s) = some ((k.after s).inboxOf id) := by
  obtain ⟨bytes, happend, hbegin⟩ := exists_received hs id k
  unfold received
  rwa [← eq_take_of_appendAll happend hbegin]

theorem received_isPrefix_messages (id : ChainId) (k : Call) (s : Store) :
    k.received id s <+: (k.inboxUpdate? id s).elim [] InboxUpdate.messages :=
  List.take_prefix _ _

/-- An inbox update for a chain is that of an accepted update of the chain. -/
theorem of_inboxUpdate_eq_some (h : k.inboxUpdate? id s = some u) :
    ∃ response, k.response? s = some response ∧ k.sender? = some id ∧ u.isEmpty = false ∧
      ∀ request, k.request = .update request → request.inbox = u := by
  unfold inboxUpdate? at h
  split at h
  · rename_i request hrequest
    split at h
    · rename_i hcond
      obtain ⟨hsender, hempty, haccepted⟩ := hcond
      cases h
      obtain ⟨response, hresponse⟩ := Option.isSome_iff_exists.mp haccepted
      refine ⟨response, hresponse, hsender, hempty, ?_⟩
      intro other hother
      rw [hrequest] at hother
      cases hother
      rfl
    · cases h
  · cases h

/-- An accepted inbox update proves the root that it comes to. -/
theorem exists_outboxRoot (hs : Consistent s) (h : k.inboxUpdate? id s = some u) :
    ∃ after witness root, (s.inboxOf id).appendAll? u.messages = some after ∧
      rootOfRightWitness after.size after.path witness = .ok root ∧
      k.outboxRoots id s = [root] ∧
      k.inboxInputs id s = (s.inboxOf id).appendAllInputs u.messages ++
        rightWitnessInputs after.size after.path witness := by
  obtain ⟨response, hresponse, hsender, hempty, hu⟩ := of_inboxUpdate_eq_some h
  obtain ⟨acts, -, -, heffect⟩ := of_accepted hs hresponse
  obtain ⟨request, own, v, o, hrequest, rfl, hv, -⟩ := heffect.of_sender hsender
  obtain rfl : request.inbox = u := hu request hrequest
  rcases (Update.checked_of_verify hv).inbox with ⟨hnone, -⟩ | ⟨-, root, -, hinbox⟩
  · rw [hempty] at hnone
    cases hnone
  · obtain ⟨channel, hchannel, hroot, -⟩ := Update.verifyInbox_eq_ok_iff.mp hinbox
    obtain ⟨after, witness, hafter, hwitness, hwhole⟩ :=
      InboxUpdate.outboxRoot?_eq_some_iff.mp hroot
    rw [← Store.inboxOf_eq hchannel] at hroot hafter
    refine ⟨after, witness, root, hafter, hwhole, ?_, ?_⟩
    · rw [outboxRoots, h, Option.bind_some, hroot, Option.toList_some]
    · rw [inboxInputs, h, Option.elim_some, InboxUpdate.inputs, hafter, hwitness]
      rfl

/-- Without an inbox update nothing is received and no root is proven. -/
theorem of_inboxUpdate_eq_none (h : k.inboxUpdate? id s = none) :
    k.received id s = [] ∧ k.outboxRoots id s = [] := by
  unfold received outboxRoots
  rw [h]
  exact ⟨List.take_nil, rfl⟩

/-- **An inbox update extends a beginning of the partner's messages to a longer one.** -/
theorem received_isPrefix_of_root {S : List Bytes} (hS : ¬ Collision S) (hs : Consistent s)
    {log L : List Bytes} (hlog : Sketch.Drawn S (s.inboxOf id) log)
    (hu : k.inboxUpdate? id s = some u) (hinputs : k.inboxInputs id s ⊆ S)
    (hL : treeInputs L ⊆ S) (hroots : k.outboxRoots id s = [(Tree.ofLeaves L).root]) :
    log ++ k.received id s <+: L := by
  obtain ⟨after, witness, root, hafter, hroot, hroots', hinputs'⟩ := exists_outboxRoot hs hu
  rw [hroots', List.singleton_inj] at hroots
  rw [hinputs', List.append_subset] at hinputs
  have hextended := hlog.appendAll hafter hinputs.1
  have hbegin := hextended.isPrefix hS hinputs.2 hL (hroots ▸ hroot)
  have hreceived := received_isPrefix_messages id k s
  rw [hu, Option.elim_some] at hreceived
  exact ((List.prefix_append_right_inj log).mpr hreceived).trans hbegin.1

/-- What is received is hashed in the check of the update already. -/
theorem drawn_received {S : List Bytes} (hs : Consistent s) {log : List Bytes}
    (hlog : Sketch.Drawn S (s.inboxOf id) log) (hinputs : k.inboxInputs id s ⊆ S) :
    Sketch.Drawn S ((k.after s).inboxOf id) (log ++ k.received id s) := by
  refine hlog.appendAll (appendAll?_received id hs) (List.Subset.trans ?_ hinputs)
  cases hu : k.inboxUpdate? id s with
  | none =>
    rw [(of_inboxUpdate_eq_none hu).1]
    exact List.nil_subset _
  | some u =>
    have hreceived := received_isPrefix_messages id k s
    obtain ⟨after, witness, root, -, -, -, hinputs'⟩ := exists_outboxRoot hs hu
    rw [hu, Option.elim_some] at hreceived
    rw [hinputs']
    exact List.Subset.trans (Accumulator.appendAllInputs_subset hreceived)
      (List.subset_append_left _ _)

end Call

/-! ## All calls -/

section

variable {id : ChainId} {s : Store}

/-- The invariant of the calls: the inbox is drawn over what was received, which is a beginning of the
list behind the latest root. -/
theorem collect_received_isPrefix {S : List Bytes} (hS : ¬ Collision S) (hs : Consistent s)
    (hempty : s.inboxOf id = .empty) (calls : List Call) :
    ∀ {Ls : List (List Bytes)},
      (collect (Call.outboxRoots id) calls s = Ls.map fun L => (Tree.ofLeaves L).root) →
      collect (Call.inboxInputs id) calls s ⊆ S → (∀ L ∈ Ls, treeInputs L ⊆ S) →
      Sketch.Drawn S ((afterAll calls s).inboxOf id) (collect (Call.received id) calls s) ∧
        collect (Call.received id) calls s <+: Ls.getLastD [] := by
  induction calls using List.reverseRecOn with
  | nil =>
    intro Ls hroots _ _
    rw [List.map_eq_nil_iff.mp hroots.symm]
    refine ⟨?_, List.prefix_refl []⟩
    show Sketch.Drawn S (s.inboxOf id) []
    rw [hempty]
    exact Sketch.drawn_empty S
  | append_singleton calls k ih =>
    intro Ls hroots hinputs hLs
    rw [collect_concat] at hroots
    rw [collect_concat, List.append_subset] at hinputs
    rw [collect_concat, afterAll_concat]
    have hmid := consistent_afterAll hs calls
    cases hu : k.inboxUpdate? id (afterAll calls s) with
    | none =>
      obtain ⟨hreceived, hnone⟩ := Call.of_inboxUpdate_eq_none hu
      rw [hnone, List.append_nil] at hroots
      obtain ⟨hdrawn, hbegin⟩ := ih hroots hinputs.1 hLs
      refine ⟨Call.drawn_received hmid hdrawn hinputs.2, ?_⟩
      rw [hreceived, List.append_nil]
      exact hbegin
    | some u =>
      obtain ⟨after, witness, root, -, -, hroot, -⟩ := Call.exists_outboxRoot hmid hu
      rw [hroot] at hroots
      obtain ⟨before, last, rfl, hbefore, hlast⟩ := List.append_eq_map_iff.mp hroots
      obtain ⟨L, rfl, hL⟩ := List.map_eq_singleton_iff.mp hlast
      rw [List.forall_mem_append, List.forall_mem_singleton] at hLs
      obtain ⟨hdrawn, -⟩ := ih hbefore.symm hinputs.1 hLs.1
      refine ⟨Call.drawn_received hmid hdrawn hinputs.2, ?_⟩
      rw [List.getLastD_concat]
      refine Call.received_isPrefix_of_root hS hmid hdrawn hu hinputs.2 hLs.2 ?_
      rw [hroot, hL]

/-- **What the hub has received is a beginning of what the partner has sent.** Start where nothing
was received from a chain yet, as every run does (`Run.consistent_start`, `Run.inboxOf_start`), and
make any calls. Let the roots that they prove for the chain be those of the trees over the lists
`Ls`. Then the inbox from the chain holds a beginning of the last of these lists, and of the empty
list if there is none, unless two strings hashed for these roots collide. -/
theorem received_isPrefix (hs : Consistent s) (hempty : s.inboxOf id = .empty) (calls : List Call)
    (Ls : List (List Bytes))
    (hroots : collect (Call.outboxRoots id) calls s = Ls.map fun L => (Tree.ofLeaves L).root) :
    Accumulator.empty.appendAll? (collect (Call.received id) calls s) =
        some ((afterAll calls s).inboxOf id) ∧
      (collect (Call.received id) calls s <+: Ls.getLastD [] ∨
        Collision (collect (Call.inboxInputs id) calls s ++ Ls.flatMap treeInputs)) := by
  have happend := appendAll?_collect (Call.appendAll?_received id) hs calls
  rw [hempty] at happend
  refine ⟨happend, ?_⟩
  by_cases hS : Collision (collect (Call.inboxInputs id) calls s ++ Ls.flatMap treeInputs)
  · exact Or.inr hS
  · refine Or.inl (collect_received_isPrefix hS hs hempty calls hroots
      (List.subset_append_left _ _) ?_).2
    intro L hL x hx
    exact List.mem_append_right _ (List.mem_flatMap.mpr ⟨L, hL, hx⟩)

end

/-- Two messages come in two updates. Both updates prove the root of the two, the first one by a
witness for the second message, and the inbox holds both messages in the end. -/
theorem received_isPrefix_twoDeliveries :
    collect (Call.received Run.silentChain) Run.twoDeliveries Run.trusting = Run.twoMessages ∧
      Accumulator.empty.appendAll? Run.twoMessages =
        some ((afterAll Run.twoDeliveries Run.trusting).inboxOf Run.silentChain) ∧
      (Run.twoMessages <+: [Run.twoMessages, Run.twoMessages].getLastD [] ∨
        Collision (collect (Call.inboxInputs Run.silentChain) Run.twoDeliveries Run.trusting ++
          [Run.twoMessages, Run.twoMessages].flatMap treeInputs)) := by
  have hroots : collect (Call.outboxRoots Run.silentChain) Run.twoDeliveries Run.trusting =
      [Run.twoMessages, Run.twoMessages].map fun L => (Tree.ofLeaves L).root := by
    decide +kernel
  have hreceived : collect (Call.received Run.silentChain) Run.twoDeliveries Run.trusting =
      Run.twoMessages := by
    decide +kernel
  obtain ⟨hinbox, hbegin⟩ := received_isPrefix Run.consistent_trusting Run.inboxOf_trusting
    Run.twoDeliveries [Run.twoMessages, Run.twoMessages] hroots
  rw [hreceived] at hinbox hbegin
  exact ⟨hreceived, hinbox, hbegin⟩

end ChainHub
