import ChainHub.Proofs.Hub.Run
import ChainHub.Proofs.Wire
import Mathlib.Data.List.Induction
import Mathlib.Data.List.Infix
import Mathlib.Data.List.Nodup

/-!
# What a frozen outbox says

When the outbox toward a terminated chain is frozen, its root is that of the messages that were sent
to the chain. Every accepted recovery shows some of these messages and puts their recovered forms in
their place, so the root stays that of a known list and no message is recovered a second time,
unless a hash collision occurs.

* `withRecovered`: the messages with some of them in their recovered form.
* `Call.sent`, `Call.recoveries`: what a call sends to a chain, and the recovery that it carries
  out.
* `RecoveredFrom`: what a frozen outbox has to do with the messages and the recoveries so far.
* `RecoveredFrom.append`: one more recovery.
* `Run.recoveries_sound`: the invariant holds of every run.

Nothing but the root guards against a second recovery. It does, because what is recovered has to
have status `ok`, and the recovered form that has taken its place decodes to a message with another
status.
-/

namespace ChainHub

open Merkle

/-! ## Recovered messages -/

/-- The recovered form of an encoded message. -/
def recoveredForm (bytes : Bytes) : Bytes :=
  match (Wire.decode bytes : Except WireError Message) with
  | .ok m => m.recovered.encode
  | .error _ => bytes

/-- Encoded messages, those at the given positions in their recovered form. -/
def withRecovered (sent : List Bytes) (positions : List UInt64) : List Bytes :=
  sent.mapIdx fun i bytes => if i ∈ positions.map UInt64.toNat then recoveredForm bytes else bytes

theorem recoveredForm_of_decode {bytes : Bytes} {m : Message}
    (h : (Wire.decode bytes : Except WireError Message) = .ok m) :
    recoveredForm bytes = m.recovered.encode := by
  unfold recoveredForm
  rw [h]

/-- A recovered form cannot be taken for a message that was not recovered. -/
theorem status_of_decode_recoveredForm {bytes : Bytes} {m : Message}
    (h : (Wire.decode (recoveredForm bytes) : Except WireError Message) = .ok m) :
    m.status = .recovered := by
  cases hbytes : (Wire.decode bytes : Except WireError Message) with
  | ok m' =>
    rw [recoveredForm_of_decode hbytes] at h
    exact Message.status_eq_of_decode h
  | error e =>
    unfold recoveredForm at h
    rw [hbytes] at h
    dsimp only at h
    rw [hbytes] at h
    cases h

section

variable {sent : List Bytes} {positions : List UInt64}

theorem length_withRecovered (sent : List Bytes) (positions : List UInt64) :
    (withRecovered sent positions).length = sent.length :=
  List.length_mapIdx

theorem getElem?_withRecovered (sent : List Bytes) (positions : List UInt64) (i : Nat) :
    (withRecovered sent positions)[i]? = sent[i]?.map fun bytes =>
      if i ∈ positions.map UInt64.toNat then recoveredForm bytes else bytes :=
  List.getElem?_mapIdx

theorem withRecovered_nil (sent : List Bytes) : withRecovered sent [] = sent := by
  apply List.ext_getElem?
  intro i
  rw [getElem?_withRecovered]
  simp

/-- More positions make no difference elsewhere. -/
theorem getElem?_withRecovered_append {more : List UInt64} {i : Nat}
    (hi : i ∉ more.map UInt64.toNat) :
    (withRecovered sent (positions ++ more))[i]? = (withRecovered sent positions)[i]? := by
  rw [getElem?_withRecovered, getElem?_withRecovered]
  simp only [List.map_append, List.mem_append, hi, or_false]

end

/-! ## What calls do -/

/-- The positions that recoveries cover. -/
def covered (requests : List RecoveryRequest) : List UInt64 :=
  requests.flatMap RecoveryRequest.indexes

namespace Call

/-- What a call puts into the outbox toward a chain, as its events say. -/
def sent (id : ChainId) (k : Call) (s : Store) : List Bytes :=
  (k.response? s).elim [] fun response => sentTo id response.events

/-- Whether a call freezes the outbox toward a chain. -/
def freezes (id : ChainId) (k : Call) (s : Store) : Bool :=
  match k.request with
  | .initRecovery _ => k.recovering? = some id && (k.response? s).isSome
  | _ => false

/-- The recovery that a call carries out for a chain, if there is one. -/
def recoveries (id : ChainId) (k : Call) (s : Store) : List RecoveryRequest :=
  match k.request with
  | .recover request =>
    if k.recovering? = some id ∧ (k.response? s).isSome then [request] else []
  | _ => []

/-- The strings that are hashed in the check of a recovery from a frozen outbox of that size. -/
def proofInputs (size : UInt64) (request : RecoveryRequest) : List Bytes :=
  request.messages.map leafInput ++
    (parseHashes request.siblings).toOption.elim [] fun siblings =>
      leafProofInputs size request.indexes (request.messages.map leafHash) siblings

end Call

namespace Run

/-- The recoveries that a run carries out for a chain. -/
def recoveries (id : ChainId) (r : Run) : List RecoveryRequest :=
  collect (Call.recoveries id) r.calls r.start

end Run

/-- The strings that are hashed in recoveries of messages: in their checks, and for the trees that
the frozen root stands for before, between and after them. -/
def recoveryInputs (sent : List Bytes) (size : UInt64) (requests : List RecoveryRequest) :
    List Bytes :=
  requests.flatMap (Call.proofInputs size) ++
    requests.inits.flatMap fun earlier => treeInputs (withRecovered sent (covered earlier))

/-! ## One recovery -/

/-- A frozen outbox holds what was sent, with the recovered messages replaced. Recoveries show what
was sent, behind what the chain had received, and no position twice. -/
structure RecoveredFrom (sent : List Bytes) (frozen : TerminatedOutbox)
    (requests : List RecoveryRequest) : Prop where
  size : frozen.size.toNat = sent.length
  root : frozen.root = (Tree.ofLeaves (withRecovered sent (covered requests))).root
  shown : ∀ request ∈ requests,
    List.Forall₂ (fun i bytes => sent[i.toNat]? = some bytes) request.indexes request.messages
  decoded : ∀ request ∈ requests, ∀ bytes ∈ request.messages,
    ∃ m, (Wire.decode bytes : Except WireError Message) = .ok m ∧ m.status = .ok
  range : ∀ i ∈ covered requests, frozen.partnerInboxSize ≤ i ∧ i.toNat < sent.length
  fresh : (covered requests).Nodup

namespace Recovery

section

variable {s : Store} {own : ChainId} {now : UInt64} {request : RecoveryRequest} {v : Verified}

/-- What is hashed for the messages when they have been recovered. -/
theorem Checked.recovered_eq (hv : Checked s own now request v) :
    v.messages.map (fun m => leafHash m.recovered.encode) =
      (request.messages.map recoveredForm).map leafHash := by
  rw [List.map_map]
  have hmessages := hv.messages
  generalize request.messages = messages at hmessages
  generalize v.messages = decoded at hmessages
  induction hmessages with
  | nil => rfl
  | cons hchecked _ ih =>
    rw [List.map_cons, List.map_cons, ih, Function.comp_apply,
      recoveredForm_of_decode hchecked.decoded]

/-- Every message of an accepted recovery has been checked. -/
theorem Checked.exists_checkedMessage (hv : Checked s own now request v) {bytes : Bytes}
    (hmem : bytes ∈ request.messages) : ∃ m, CheckedMessage s own now v.id bytes m := by
  obtain ⟨i, hi, hget⟩ := List.mem_iff_getElem.mp hmem
  have hi' : i < v.messages.length := by rwa [← hv.messages.length_eq]
  have hchecked := hv.messages.get hi hi'
  simp only [List.get_eq_getElem, hget] at hchecked
  exact ⟨_, hchecked⟩

/-- The messages of an accepted recovery have status `ok`. -/
theorem Checked.decoded (hv : Checked s own now request v) {bytes : Bytes}
    (hmem : bytes ∈ request.messages) :
    ∃ m, (Wire.decode bytes : Except WireError Message) = .ok m ∧ m.status = .ok := by
  obtain ⟨m, hchecked⟩ := hv.exists_checkedMessage hmem
  exact ⟨m, hchecked.decoded, hchecked.status⟩

/-- They have not been recovered before. -/
theorem Checked.recoveredForm_ne (hv : Checked s own now request v) {bytes : Bytes}
    (hmem : bytes ∈ request.messages) (original : Bytes) : recoveredForm original ≠ bytes := by
  rintro rfl
  obtain ⟨m, hdecoded, hstatus⟩ := hv.decoded hmem
  rw [status_of_decode_recoveredForm hdecoded] at hstatus
  cases hstatus

/-- The strings that are hashed in the check. -/
theorem Checked.proofInputs_eq (hv : Checked s own now request v) (size : UInt64) :
    Call.proofInputs size request = request.messages.map leafInput ++
      leafProofInputs size request.indexes (request.messages.map leafHash) v.siblings := by
  unfold Call.proofInputs
  rw [hv.siblings]
  rfl

end

end Recovery

namespace RecoveredFrom

variable {S : List Bytes} {sent : List Bytes} {frozen : TerminatedOutbox}
  {requests : List RecoveryRequest} {s : Store} {own : ChainId} {now : UInt64}
  {request : RecoveryRequest} {v : Recovery.Verified}

/-- Nothing is recovered from an outbox that was just frozen. -/
theorem start {outbox : Accumulator} (h : Accumulator.empty.appendAll? sent = some outbox)
    {partnerInboxSize : UInt64} :
    RecoveredFrom sent ⟨outbox.root, outbox.size, partnerInboxSize⟩ [] := by
  obtain ⟨hlen, rfl⟩ := Accumulator.appendAll?_empty_eq_some_iff.mp h
  constructor
  case size => exact Accumulator.size_ofLeaves hlen
  case root =>
    show (Accumulator.ofLeaves sent).root = _
    rw [show covered [] = [] from rfl, withRecovered_nil, Accumulator.root_eq_root_ofLeaves]
  case shown => exact fun _ hmem => absurd hmem (List.not_mem_nil)
  case decoded => exact fun _ hmem => absurd hmem (List.not_mem_nil)
  case range => exact fun _ hmem => absurd hmem (List.not_mem_nil)
  case fresh => exact List.nodup_nil

/-- **A recovery shows messages as they were sent, and none that has been recovered.** -/
theorem shows (h : RecoveredFrom sent frozen requests) (hS : ¬ Collision S)
    (hv : Recovery.Checked s own now request v) (hfrozen : v.outbox = frozen)
    (hin : Call.proofInputs frozen.size request ⊆ S)
    (htree : treeInputs (withRecovered sent (covered requests)) ⊆ S) :
    List.Forall₂ (fun i bytes => i ∉ covered requests ∧ sent[i.toNat]? = some bytes)
      request.indexes request.messages := by
  rw [hv.proofInputs_eq, List.append_subset] at hin
  have hproof := hv.proof
  rw [hfrozen, h.root] at hproof
  have hlen := length_withRecovered sent (covered requests)
  have hshows := rootOfLeaves_shows hS htree (h.size.trans hlen.symm) hin.1 hin.2 hproof
  rw [List.forall₂_iff_zip] at hshows ⊢
  refine ⟨hshows.1, fun {i bytes} hmem => ?_⟩
  have hget := hshows.2 hmem
  rw [getElem?_withRecovered] at hget
  obtain ⟨original, horiginal, hform⟩ := Option.map_eq_some_iff.mp hget
  by_cases hi : i.toNat ∈ (covered requests).map UInt64.toNat
  · rw [if_pos hi] at hform
    exact absurd hform (hv.recoveredForm_ne (List.of_mem_zip hmem).2 original)
  · rw [if_neg hi] at hform
    exact ⟨fun hi' => hi (List.mem_map_of_mem hi'), hform ▸ horiginal⟩

/-- **A recovery puts the recovered forms in their place.** -/
theorem root_append (h : RecoveredFrom sent frozen requests) (hS : ¬ Collision S)
    (hv : Recovery.Checked s own now request v) (hfrozen : v.outbox = frozen)
    (hin : Call.proofInputs frozen.size request ⊆ S)
    (htree : treeInputs (withRecovered sent (covered requests)) ⊆ S) {root : Digest}
    (hroot : rootOfLeaves v.outbox.size v.indexes
      (v.messages.map fun m => leafHash m.recovered.encode) v.siblings = .ok root) :
    root = (Tree.ofLeaves (withRecovered sent (covered requests ++ request.indexes))).root := by
  have hshows := h.shows hS hv hfrozen hin htree
  rw [hv.proofInputs_eq, List.append_subset] at hin
  have hproof := hv.proof
  rw [hfrozen, h.root] at hproof
  rw [hv.recovered_eq, hfrozen, hv.indexes] at hroot
  have hlen := length_withRecovered sent (covered requests)
  have hlen' := length_withRecovered sent (covered requests ++ request.indexes)
  have hsize := h.size.trans hlen.symm
  refine rootOfLeaves_replace (hlen'.trans hlen.symm) hsize hroot
    (rootOfLeaves_sound hS htree hsize hin.2 hproof).2
    (fun i hi => getElem?_withRecovered_append hi) ?_
  rintro ⟨position, hash⟩ hmem
  rw [List.map_map, List.zip_map] at hmem
  obtain ⟨⟨i, bytes⟩, hpair, heq⟩ := List.mem_map.mp hmem
  cases heq
  have hget := (List.forall₂_iff_zip.mp hshows).2 hpair
  have hi : i.toNat ∈ (covered requests ++ request.indexes).map UInt64.toNat :=
    List.mem_map_of_mem (List.mem_append_right _ (List.of_mem_zip hpair).1)
  dsimp only
  rw [List.getElem?_map, getElem?_withRecovered, hget.2, Option.map_some, if_pos hi,
    Option.map_some]
  rfl

/-- **One more recovery.** -/
theorem append (h : RecoveredFrom sent frozen requests) (hS : ¬ Collision S)
    (hv : Recovery.Checked s own now request v) (hfrozen : v.outbox = frozen)
    (hin : Call.proofInputs frozen.size request ⊆ S)
    (htree : treeInputs (withRecovered sent (covered requests)) ⊆ S) {root : Digest}
    (hroot : rootOfLeaves v.outbox.size v.indexes
      (v.messages.map fun m => leafHash m.recovered.encode) v.siblings = .ok root) :
    RecoveredFrom sent { frozen with root := root } (requests ++ [request]) := by
  obtain ⟨hnew, hshows⟩ := (List.forall₂_and_left _ _).mp
    (h.shows hS hv hfrozen hin htree)
  have hcovered : covered (requests ++ [request]) = covered requests ++ request.indexes := by
    unfold covered
    rw [List.flatMap_append, List.flatMap_singleton]
  constructor
  case size => exact h.size
  case root =>
    rw [hcovered]
    exact h.root_append hS hv hfrozen hin htree hroot
  case shown =>
    rw [List.forall_mem_append, List.forall_mem_singleton]
    exact ⟨h.shown, hshows⟩
  case decoded =>
    rw [List.forall_mem_append, List.forall_mem_singleton]
    exact ⟨h.decoded, fun _ hmem => hv.decoded hmem⟩
  case range =>
    rw [hcovered, List.forall_mem_append]
    refine ⟨h.range, fun i hi => ?_⟩
    have hrange := (Recovery.verifyIndexes_eq_ok_iff.mp hv.range).2.2 i hi
    rw [hfrozen] at hrange
    refine ⟨hrange.1, ?_⟩
    rw [← h.size]
    exact UInt64.lt_iff_toNat_lt.mp hrange.2
  case fresh =>
    rw [hcovered, List.nodup_append]
    have hnodup : request.indexes.Nodup := by
      obtain ⟨-, -, hasc⟩ := checkIndexes_eq_ok (rootOfLeaves_eq_ok_iff.mp hv.proof).1
      exact List.Nodup.of_map _ hasc.nodup
    refine ⟨h.fresh, hnodup, ?_⟩
    rintro i hi _ hj rfl
    exact hnew i hj hi

end RecoveredFrom

/-! ## One call -/

namespace Call

variable {id : ChainId} {k : Call} {s : Store}

/-- **The outbox toward a chain grows by what is sent to it.** -/
theorem appendAll?_sent (id : ChainId) (hs : Consistent s) :
    (s.outboxOf id).appendAll? (k.sent id s) = some ((k.after s).outboxOf id) := by
  unfold sent
  cases hresponse : k.response? s with
  | none =>
    rw [after_of_rejected hresponse]
    rfl
  | some response =>
    obtain ⟨acts, htrace, hevents, -⟩ := of_accepted hs hresponse
    rw [Option.elim_some, hevents, htrace.sentTo]
    exact htrace.outboxOf id

/-- What is sent is sent by the actions of an accepted call. -/
theorem exists_trace_of_mem_sent (hs : Consistent s) {bytes : Bytes} (hmem : bytes ∈ k.sent id s) :
    ∃ response acts, k.response? s = some response ∧ Trace k.cause s acts (k.after s) ∧
      bytes ∈ Action.sentAll id acts := by
  unfold sent at hmem
  cases hresponse : k.response? s with
  | none =>
    rw [hresponse] at hmem
    cases hmem
  | some response =>
    obtain ⟨acts, htrace, hevents, -⟩ := of_accepted hs hresponse
    rw [hresponse, Option.elim_some, hevents, htrace.sentTo] at hmem
    exact ⟨response, acts, rfl, htrace, hmem⟩

/-- What a call has to do with the frozen outbox of a chain. -/
inductive OnFrozen (id : ChainId) (k : Call) (s : Store) : Prop
  | untouched (hget : (k.after s).get (.terminatedOutbox id) = s.get (.terminatedOutbox id))
      (hnone : k.recoveries id s = [])
  | freeze {channel : Channel} {size : UInt64} (hfreezes : k.freezes id s = true)
      (hbefore : s.get (.terminatedOutbox id) = none)
      (hchannel : s.get (.channel id) = some channel)
      (hget : (k.after s).get (.terminatedOutbox id) = some (channel.frozenOutbox size))
      (hnone : k.recoveries id s = [])
  | recover {request : RecoveryRequest} {own : ChainId} {v : Recovery.Verified} {root : Digest}
      (hrequest : k.recoveries id s = [request])
      (hbefore : s.get (.terminatedOutbox id) = some v.outbox)
      (hchecked : Recovery.Checked s own k.header.time request v)
      (hroot : rootOfLeaves v.outbox.size v.indexes
        (v.messages.map fun m => leafHash m.recovered.encode) v.siblings = .ok root)
      (hget : (k.after s).get (.terminatedOutbox id) = some { v.outbox with root := root })

/-- **A call freezes the outbox of a chain, or recovers messages from it, or leaves it alone.** -/
theorem onFrozen (hs : Consistent s) (id : ChainId) (k : Call) : k.OnFrozen id s := by
  cases hresponse : k.response? s with
  | none =>
    refine .untouched (by rw [after_of_rejected hresponse]) ?_
    unfold recoveries
    rw [hresponse]
    split <;> simp
  | some response =>
    obtain ⟨acts, htrace, -, heffect⟩ := of_accepted hs hresponse
    by_cases hid : k.recovering? = some id
    · obtain ⟨header, funds, request⟩ := k
      cases request with
      | initRecovery request =>
        obtain ⟨id', partner, channel, hverify, hchannel, hget⟩ := heffect
        have hsame : id' = id :=
          Attempt.eq_of_toOption (Recovery.of_verifyInit hverify).1 hid
        subst hsame
        refine .freeze ?_ (Recovery.of_verifyInit hverify).2.2 hchannel hget rfl
        unfold freezes
        simp [hid, hresponse]
      | recover request =>
        obtain ⟨own, v, root, -, hverify, hroot, hget⟩ := heffect
        have hchecked := Recovery.checked_of_verify hverify
        have hsame : v.id = id := Attempt.eq_of_toOption hchecked.id hid
        rw [hsame] at hget
        refine .recover ?_ (hsame ▸ hchecked.outbox) hchecked hroot hget
        unfold recoveries
        dsimp only
        rw [if_pos ⟨hid, by rw [hresponse]; rfl⟩]
      | _ => cases hid
    · refine .untouched (htrace.terminatedOutbox_eq hid) ?_
      unfold recoveries
      split
      · rw [if_neg fun h => hid h.1]
      · rfl

end Call

/-! ## All calls of a run -/

/-- More recoveries hash more strings. -/
theorem recoveryInputs_subset (sent : List Bytes) (size : UInt64)
    (requests more : List RecoveryRequest) :
    recoveryInputs sent size requests ⊆ recoveryInputs sent size (requests ++ more) := by
  unfold recoveryInputs
  rw [List.flatMap_append]
  refine List.append_subset.mpr ⟨?_, ?_⟩
  · intro x hx
    exact List.mem_append_left _ (List.mem_append_left _ hx)
  · intro x hx
    obtain ⟨earlier, hearlier, hx⟩ := List.mem_flatMap.mp hx
    rw [List.mem_inits] at hearlier
    refine List.mem_append_right _ (List.mem_flatMap.mpr ⟨earlier, ?_, hx⟩)
    exact (List.mem_inits _ _).mpr (hearlier.trans (List.prefix_append _ _))

/-- The strings that are hashed in the check of a recovery after others. -/
theorem proofInputs_subset (sent : List Bytes) (size : UInt64) (requests : List RecoveryRequest)
    (request : RecoveryRequest) :
    Call.proofInputs size request ⊆ recoveryInputs sent size (requests ++ [request]) := by
  intro x hx
  exact List.mem_append_left _ (List.mem_flatMap.mpr ⟨request, by simp, hx⟩)

/-- The tree that the frozen root stands for before a recovery. -/
theorem treeInputs_subset (sent : List Bytes) (size : UInt64)
    (requests more : List RecoveryRequest) :
    treeInputs (withRecovered sent (covered requests)) ⊆
      recoveryInputs sent size (requests ++ more) := by
  intro x hx
  refine List.mem_append_right _ (List.mem_flatMap.mpr ⟨requests, ?_, hx⟩)
  exact (List.mem_inits _ _).mpr (List.prefix_append _ _)

/-- The invariant of a run about the frozen outbox of a chain: there is none and nothing was
recovered, or one of the calls has frozen it, and it has to do with what was sent until then and
with all recoveries. -/
def FrozenIn (id : ChainId) (s : Store) (calls : List Call) : Prop :=
  match (afterAll calls s).get (.terminatedOutbox id) with
  | none => collect (Call.recoveries id) calls s = []
  | some frozen =>
    ∃ before k later sent, calls = before ++ k :: later ∧
      k.freezes id (afterAll before s) = true ∧ sent = collect (Call.sent id) before s ∧
      Accumulator.empty.appendAll? sent = some ((afterAll before s).outboxOf id) ∧
      (RecoveredFrom sent frozen (collect (Call.recoveries id) calls s) ∨
        Collision (recoveryInputs sent frozen.size (collect (Call.recoveries id) calls s)))

theorem frozenIn {id : ChainId} {s : Store} (hs : Consistent s)
    (hempty : s.outboxOf id = .empty) (hnone : s.get (.terminatedOutbox id) = none)
    (calls : List Call) : FrozenIn id s calls := by
  induction calls using List.reverseRecOn with
  | nil =>
    unfold FrozenIn
    show match s.get (.terminatedOutbox id) with
      | none => _
      | some _ => _
    rw [hnone]
    rfl
  | append_singleton calls k ih =>
    have hmid := consistent_afterAll hs calls
    unfold FrozenIn at ih ⊢
    rw [afterAll_concat, collect_concat]
    cases Call.onFrozen hmid id k with
    | untouched hget hrecoveries =>
      rw [hget, hrecoveries, List.append_nil]
      cases hfrozen : (afterAll calls s).get (.terminatedOutbox id) with
      | none =>
        rw [hfrozen] at ih
        exact ih
      | some frozen =>
        rw [hfrozen] at ih
        obtain ⟨before, first, later, sent, rfl, hrest⟩ := ih
        exact ⟨before, first, later ++ [k], sent, by simp, hrest⟩
    | freeze hfreezes hbefore hchannel hget hrecoveries =>
      rw [hbefore] at ih
      rw [hget, hrecoveries, List.append_nil, ih]
      have hsent := appendAll?_collect (Call.appendAll?_sent id) hs calls
      rw [hempty] at hsent
      refine ⟨calls, k, [], _, rfl, hfreezes, rfl, hsent, Or.inl ?_⟩
      rw [Store.outboxOf_eq hchannel] at hsent
      exact RecoveredFrom.start hsent
    | @recover request _ v _ hrequest hbefore hchecked hroot hget =>
      rw [hbefore] at ih
      rw [hget, hrequest]
      obtain ⟨before, first, later, sent, rfl, hfreezes, hsent, happend, hrecovered⟩ := ih
      refine ⟨before, first, later ++ [k], sent, by simp, hfreezes, hsent, happend, ?_⟩
      by_cases hS : Collision (recoveryInputs sent v.outbox.size
          (collect (Call.recoveries id) (before ++ first :: later) s ++ [request]))
      · exact Or.inr hS
      · have hknown := hrecovered.resolve_right
          fun hcollision => hS (hcollision.mono (recoveryInputs_subset _ _ _ _))
        refine Or.inl (hknown.append hS hchecked rfl ?_ ?_ hroot)
        · exact proofInputs_subset _ _ _ _
        · exact treeInputs_subset _ _ _ _

/-- **No recovery is forged and none happens twice.** When a chain has a frozen outbox, one of the
calls of the run has frozen it. With what had been sent to the chain until then, the frozen root is
that of the list in which exactly the recovered messages are in their recovered form, and every
recovery has shown messages of this list, behind those that the chain had received and each for the
first time, unless two strings hashed for the recoveries collide. -/
theorem Run.recoveries_sound (r : Run) (id : ChainId) :
    match r.store.get (.terminatedOutbox id) with
    | none => r.recoveries id = []
    | some frozen =>
      ∃ before k later sent, r.calls = before ++ k :: later ∧
        k.freezes id (afterAll before r.start) = true ∧
        sent = collect (Call.sent id) before r.start ∧
        Accumulator.empty.appendAll? sent = some ((afterAll before r.start).outboxOf id) ∧
        (RecoveredFrom sent frozen (r.recoveries id) ∨
          Collision (recoveryInputs sent frozen.size (r.recoveries id))) := by
  have hempty : r.start.outboxOf id = .empty := by
    unfold Store.outboxOf
    rw [r.get_start (by simp) (by simp) (by simp) (by simp)]
    rfl
  exact frozenIn r.consistent_start hempty
    (r.get_start (by simp) (by simp) (by simp) (by simp)) r.calls

end ChainHub
