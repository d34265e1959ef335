import ChainHub.Proofs.Hub.Log
import ChainHub.Proofs.Hub.Pending

/-!
# What the hub sends is well formed

Only the hub's own messages are checked when they are sent. Those of other chains were checked when
they came in and go out as they are, or on their way back with other fields. A recovered message is
made from what anyone shows, but only what was sent can be shown, so it is well formed all the same,
unless a hash collision occurs.

* `Step.checkFormat_or_recovers`, `Call.exists_checkFormat`: what is sent keeps the format rules, or
  is the recovered form of what the call shows.
* `Run.mem_sent_of_recovery`: what a recovery shows was sent.
* `forwardedTo`, `Call.forwarded_sublist`: what is passed on, and that it is what came in.
* `Run.sends_messages`: everything that is sent in a run is a message that keeps the format rules.
-/

namespace ChainHub

open Merkle

/-! ## Format rules -/

section

variable {k : Cause} {s s' : Store} {a : Action} {m : Message}

/-- **What an action sends keeps the format rules**, or is the recovered form of what is shown. -/
theorem Step.checkFormat_or_recovers (h : Step k s a s') (hm : a.message? = some m) :
    m.checkFormat = .ok () ∨ k.Recovers m := by
  cases h with
  | relay _ _ _ _ _ hformat =>
    cases hm
    exact hformat
  | notify _ hsend =>
    cases hm
    exact Or.inl hsend.originates.format
  | close _ _ _ _ hsend =>
    cases hm
    exact Or.inl hsend.originates.format
  | register _ _ _ _ _ _ _ _ hsend =>
    cases hm
    exact Or.inl hsend.originates.format
  | _ => cases hm

end

namespace Call

variable {k : Call} {s : Store} {id : ChainId} {m : Message}

theorem exists_checkFormat (hs : Consistent s) {bytes : Bytes} (hmem : bytes ∈ k.sent id s) :
    ∃ m, m.receiver = id ∧ m.encode = bytes ∧ (m.checkFormat = .ok () ∨
      ((k.response? s).isSome = true ∧ k.cause.Recovers m)) := by
  obtain ⟨response, acts, hresponse, htrace, hsent⟩ := exists_trace_of_mem_sent hs hmem
  obtain ⟨m, a, -, s₁, s₂, hstep, -, hm, hreceiver, hencode⟩ := htrace.exists_of_mem_sentAll hsent
  refine ⟨m, hreceiver, hencode, (hstep.checkFormat_or_recovers hm).imp_right fun h => ⟨?_, h⟩⟩
  rw [hresponse]
  rfl

/-- A call that shows messages is the recovery that it carries out. -/
theorem exists_recovery (hs : Consistent s) (haccepted : (k.response? s).isSome = true)
    (h : k.cause.Recovers m) : ∃ id request, ∃ original : Message, request ∈ k.recoveries id s ∧
      original.encode ∈ request.messages ∧ original.status = .ok ∧ m = original.recovered := by
  obtain ⟨original, hshown, hstatus, rfl⟩ := h
  obtain ⟨header, funds, request⟩ := k
  cases request with
  | recover request =>
    obtain ⟨response, hresponse⟩ := Option.isSome_iff_exists.mp haccepted
    obtain ⟨acts, -, -, own, v, root, -, hverify, -⟩ := of_accepted hs hresponse
    have hid : (⟨header, funds, .recover request⟩ : Call).recovering? = some v.id :=
      Attempt.toOption_eq_some_iff.mpr (Recovery.checked_of_verify hverify).id
    refine ⟨v.id, request, original, ?_, hshown, hstatus, rfl⟩
    unfold recoveries
    dsimp only
    rw [if_pos ⟨hid, haccepted⟩]
    exact List.mem_singleton_self request
  | _ => cases hshown

end Call

/-! ## Recovered messages -/

namespace Run

/-- What the hub sends to a chain during a run. -/
def sent (id : ChainId) (r : Run) : List Bytes := collect (Call.sent id) r.calls r.start

/-- Two strings hashed for the recoveries of one chain collide. -/
def RecoveriesCollide (r : Run) : Prop :=
  ∃ id frozen, r.store.get (.terminatedOutbox id) = some frozen ∧
    Collision (recoveryInputs (r.sent id) frozen.size (r.recoveries id))

variable {r : Run} {id : ChainId}

/-- **What a recovery shows was sent.** -/
theorem mem_sent_of_recovery (hcollision : ¬ r.RecoveriesCollide) {request : RecoveryRequest}
    (hrequest : request ∈ r.recoveries id) {bytes : Bytes} (hbytes : bytes ∈ request.messages) :
    bytes ∈ r.sent id := by
  have hsound := r.recoveries_sound id
  cases hfrozen : r.store.get (.terminatedOutbox id) with
  | none =>
    rw [hfrozen] at hsound
    rw [hsound] at hrequest
    cases hrequest
  | some frozen =>
    have hrecovered := recoveredFrom_afterAll (r.isNewTo_start id) hfrozen
      fun h => hcollision ⟨id, frozen, hfrozen, h⟩
    obtain ⟨i, hi, rfl⟩ := List.mem_iff_getElem.mp hbytes
    have hshown := hrecovered.shown request hrequest
    have hi' : i < request.indexes.length := by rwa [hshown.length_eq]
    exact List.mem_of_getElem? (hshown.get hi' hi)

/-- **What is sent in a run keeps the format rules.** A message on its way out does so when it
enters an outbox, and its recovered form has the same names and parameters. -/
theorem exists_checkFormat (hcollision : ¬ r.RecoveriesCollide) {bytes : Bytes}
    (hmem : bytes ∈ r.sent id) :
    ∃ m : Message, m.receiver = id ∧ m.encode = bytes ∧ m.checkFormat = .ok () := by
  obtain ⟨before, k, later, hcalls, hsent⟩ := exists_of_mem_collect hmem
  have hmid := consistent_afterAll r.consistent_start before
  obtain ⟨m, hreceiver, hencode, hformat | ⟨haccepted, hrecovers⟩⟩ :=
    Call.exists_checkFormat hmid hsent
  · exact ⟨m, hreceiver, hencode, hformat⟩
  · obtain ⟨chain, request, original, hrequest, hshown, hstatus, rfl⟩ :=
      Call.exists_recovery hmid haccepted hrecovers
    have hrequest' : request ∈ r.recoveries chain := by
      unfold recoveries
      rw [hcalls, collect_append]
      exact List.mem_append_right _ (List.mem_append_left _ hrequest)
    have horiginal := mem_sent_of_recovery hcollision hrequest' hshown
    have horiginates := (originates_of_mem_sent r.consistent_start horiginal hstatus).2
    exact ⟨_, hreceiver, hencode, Message.checkFormat_recovered horiginates.format⟩

end Run

/-! ## Messages that are passed on -/

/-- The bytes of a message that an event says was passed on to the chain. -/
def Event.forwardedTo? (id : ChainId) : Event → Option Bytes
  | .processed m .forwarded _ => if m.receiver = id then some m.encode else none
  | _ => none

/-- What events say was passed on to a chain. -/
def forwardedTo (id : ChainId) (events : List Event) : List Bytes :=
  events.filterMap (Event.forwardedTo? id)

theorem forwardedTo_append (id : ChainId) (events more : List Event) :
    forwardedTo id (events ++ more) = forwardedTo id events ++ forwardedTo id more :=
  List.filterMap_append

/-- Only events that account for inbound messages say what was passed on. -/
theorem forwardedTo_filter (id : ChainId) (events : List Event) :
    forwardedTo id (events.filter Event.isProcessed) = forwardedTo id events :=
  filterMap_isProcessed (fun event h => by cases event <;> first | rfl | cases h) events

namespace Update

variable {k : Cause} {id dest : ChainId} {bytes : Bytes} {messages : List Bytes} {m : Message}
  {d : Disposition} {o o' : Outcome} {s s' : Store} {acts : List Action}

/-- A message is passed on as it came in, and only if it is put into the outbox. -/
theorem Delivered.forwarded_sublist (h : Delivered k id bytes m d s acts s') (dest : ChainId) :
    (forwardedTo dest (Action.reportsAll (.receive id bytes :: acts))).Sublist [bytes] ∧
      (forwardedTo dest (Action.reportsAll (.receive id bytes :: acts))).Sublist
        (Action.sentAll dest (.receive id bytes :: acts)) := by
  obtain ⟨code, hreports⟩ := h.exists_report
  rw [hreports]
  by_cases hdest : d = .forwarded ∧ m.receiver = dest
  · obtain ⟨rfl, hreceiver⟩ := hdest
    have hencode : bytes = m.encode := Wire.eq_encode_of_decode h.decoded
    have hforwarded : forwardedTo dest [.processed m .forwarded code] = [bytes] := by
      simp [forwardedTo, Event.forwardedTo?, hreceiver, hencode]
    have hsent : bytes ∈ Action.sent dest (.relay m) :=
      Message.mem_bytesTo_iff.mpr ⟨hreceiver, hencode.symm⟩
    rw [hforwarded]
    refine ⟨List.Sublist.refl _, List.singleton_sublist.mpr (List.mem_flatMap.mpr ?_)⟩
    exact ⟨.relay m, List.mem_cons_of_mem _ (h.deals.forwarded rfl), hsent⟩
  · have hnone : forwardedTo dest [.processed m d code] = [] := by
      cases d <;> simp_all [forwardedTo, Event.forwardedTo?]
    rw [hnone]
    exact ⟨List.nil_sublist _, List.nil_sublist _⟩

/-- What is rejected is not passed on. -/
theorem Rejected.forwardedTo_eq_nil (h : Rejected k id bytes s acts s') (dest : ChainId) :
    forwardedTo dest (Action.reportsAll acts) = [] := by
  obtain ⟨event, hreports, hresult, -⟩ := h.reports
  rw [hreports]
  cases event with
  | processed m d code =>
    cases hresult
    rfl
  | _ => rfl

/-- **What is passed on are messages of the update, in their order, and they are sent.** -/
theorem Handled.forwarded_sublist (h : Handled k id messages o s acts o' s') (dest : ChainId) :
    (forwardedTo dest (Action.reportsAll acts)).Sublist messages ∧
      (forwardedTo dest (Action.reportsAll acts)).Sublist (Action.sentAll dest acts) := by
  induction h with
  | done => exact ⟨List.nil_sublist _, List.nil_sublist _⟩
  | reject h =>
    rw [h.forwardedTo_eq_nil]
    exact ⟨List.nil_sublist _, List.nil_sublist _⟩
  | stop h =>
    obtain ⟨hmessages, hsent⟩ := h.forwarded_sublist dest
    exact ⟨hmessages.trans (List.singleton_sublist.mpr List.mem_cons_self), hsent⟩
  | next h _ _ ih =>
    obtain ⟨hmessages, hsent⟩ := h.forwarded_sublist dest
    rw [Action.reportsAll_append, forwardedTo_append, Action.sentAll_append]
    exact ⟨hmessages.append ih.1, hsent.append ih.2⟩

theorem Performed.forwarded_sublist {v : Verified}
    (h : Performed k v messages s o acts s') (dest : ChainId) :
    (forwardedTo dest (Action.reportsAll acts)).Sublist messages ∧
      (forwardedTo dest (Action.reportsAll acts)).Sublist (Action.sentAll dest acts) := by
  obtain ⟨-, -, hsilent, -, hhandled, -⟩ := h
  obtain ⟨hmessages, hsent⟩ := hhandled.forwarded_sublist dest
  rw [Action.reportsAll_append, Action.reportsAll_append, hsilent, v.reportsAll_proof,
    List.nil_append, List.append_nil, Action.sentAll_append, Action.sentAll_append]
  refine ⟨hmessages, hsent.trans ?_⟩
  exact (List.sublist_append_right _ _).trans (List.sublist_append_left _ _)

end Update

/-- **An update passes messages on as they came in**, in their order. -/
theorem Call.forwarded_sublist {k : Call} {s : Store} (hs : Consistent s)
    {request : UpdateRequest} (hrequest : k.request = .update request) (dest : ChainId) :
    (forwardedTo dest (k.events s)).Sublist request.inbox.messages ∧
      (forwardedTo dest (k.events s)).Sublist (k.sent dest s) := by
  unfold events sent
  cases hresponse : k.response? s with
  | none => exact ⟨List.nil_sublist _, List.nil_sublist _⟩
  | some response =>
    obtain ⟨acts, htrace, hevents, heffect⟩ := of_accepted hs hresponse
    unfold Effect at heffect
    rw [hrequest] at heffect
    obtain ⟨own, v, o, -, -, hperformed⟩ := heffect
    have hforwarded := hperformed.forwarded_sublist dest
    rwa [Action.reportsAll_eq_filter, forwardedTo_filter, ← hevents, ← htrace.sentTo,
      ← hevents] at hforwarded

/-! ## All calls of a run -/

/-- **What the hub sends is well formed.** In every run the outbox toward a chain is what was
appended to it, and every string of this is the encoding of a message for the chain that keeps the
format rules, unless two strings hashed for the recoveries of a chain collide. What an update passes
on are strings that it delivers, as they are and in their order. -/
theorem Run.sends_messages (r : Run) :
    (∀ id, Accumulator.empty.appendAll? (r.sent id) = some (r.store.outboxOf id)) ∧
      (r.RecoveriesCollide ∨ ∀ id, ∀ bytes ∈ r.sent id, ∃ m : Message,
        Wire.decode bytes = .ok m ∧ m.checkFormat = .ok () ∧ m.receiver = id) ∧
      ∀ before k later request, r.calls = before ++ k :: later → k.request = .update request →
        ∀ id, (forwardedTo id (k.events (afterAll before r.start))).Sublist
            request.inbox.messages ∧
          (forwardedTo id (k.events (afterAll before r.start))).Sublist
            (k.sent id (afterAll before r.start)) := by
  refine ⟨fun id => ?_, ?_, ?_⟩
  · have happend := appendAll?_collect (Call.appendAll?_sent id) r.consistent_start r.calls
    rwa [r.outboxOf_start] at happend
  · by_cases hcollision : r.RecoveriesCollide
    · exact Or.inl hcollision
    · refine Or.inr fun id bytes hmem => ?_
      obtain ⟨m, hreceiver, rfl, hformat⟩ := exists_checkFormat hcollision hmem
      have hlen : m.encode.length < UInt32.size :=
        Nat.lt_of_le_of_lt (Message.checkFormat_eq_ok_iff.mp hformat).2.2.1 (by decide)
      exact ⟨m, Message.decode_encode hlen, hformat, hreceiver⟩
  · intro before k later request _ hrequest id
    exact Call.forwarded_sublist (consistent_afterAll r.consistent_start before) hrequest id

/-- The silent chain gets its handshake and the notice that it is terminated. Nothing was recovered
from it, so that no collision could have spoiled them. -/
theorem Run.sends_messages_silent :
    (silent.sent silentChain).length = 2 ∧ ∀ bytes ∈ silent.sent silentChain, ∃ m : Message,
      Wire.decode bytes = .ok m ∧ m.checkFormat = .ok () ∧ m.receiver = silentChain := by
  refine ⟨by decide +kernel, silent.sends_messages.2.1.resolve_left ?_ silentChain⟩
  rintro ⟨id, frozen, hfrozen, -⟩
  have hempty : silent.store.terminatedOutboxes = ∅ :=
    Std.ExtTreeMap.isEmpty_iff.mp (by decide +kernel)
  have hnone : silent.store.get (.terminatedOutbox id) = none := by
    show silent.store.terminatedOutboxes[id]? = none
    rw [hempty, Std.ExtTreeMap.getElem?_empty]
  rw [hnone] at hfrozen
  cases hfrozen

end ChainHub
