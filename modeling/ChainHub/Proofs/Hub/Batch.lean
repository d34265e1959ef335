import ChainHub.Hub.Handlers
import ChainHub.Proofs.Hub.Delivery

/-!
# The messages of an update

The messages of an update are dealt with one by one, until one of them terminates their sender. A
message that the sender may deliver is received and then delivered; anything else is rejected.
`Update.Handled` tells message by message what happened and counts it, so that what is said of all
messages is said by induction on it.

* `Event.ReportsOn`: whether an event is a report on some bytes.
* `Update.passes`: whether a chain may deliver some bytes.
* `Update.Delivered`, `Update.Rejected`: what happens about one message.
* `Update.Handled`: what happens about all of them, with the outcome that is counted.
* `Update.ends_processMessages`: the messages of an update are handled, whatever they contain.
-/

namespace ChainHub

open HubM

/-- The event is a report on the bytes from the chain `id`: it shows the message that they are, or
that they are none. -/
def Event.ReportsOn (id : ChainId) (bytes : Bytes) : Event → Prop
  | .processed m _ _ => (Wire.decode bytes : Except WireError Message) = .ok m
  | .undecodable hash sender code =>
    (∃ e, (Wire.decode bytes : Except WireError Message) = .error e) ∧
      hash = keccak256 bytes ∧ sender = id ∧ code = .malformed
  | _ => False

namespace Update

/-- Whether the chain `id` may deliver the bytes: they are a message that names the chain as its
sender and keeps the format rules. -/
def passes (id : ChainId) (bytes : Bytes) : Bool :=
  match (Wire.decode bytes : Except WireError Message) with
  | .ok m => m.sender == id && m.checkFormat.isOk
  | .error _ => false

section

variable {k : Cause} {id : ChainId} {bytes : Bytes} {m : Message}

/-- A message breaks no rule when it names its sender and keeps the format rules. -/
theorem violation?_eq_none_iff :
    violation? id m = none ↔ m.sender = id ∧ m.checkFormat = .ok () := by
  unfold violation?
  by_cases hsender : m.sender = id
  · cases hformat : m.checkFormat with
    | ok u => simp [hsender, Except.mapError, isRefused]
    | error e => simp [hsender, Except.mapError, isRefused]
  · simp [hsender]

theorem passes_eq_true (hm : (Wire.decode bytes : Except WireError Message) = .ok m)
    (h : violation? id m = none) : passes id bytes = true := by
  obtain ⟨hsender, hformat⟩ := violation?_eq_none_iff.mp h
  simp [passes, hm, hsender, hformat, Except.isOk, Except.toBool]

theorem passes_eq_false {code : ProcessedCode}
    (hm : (Wire.decode bytes : Except WireError Message) = .ok m)
    (h : violation? id m = some code) : passes id bytes = false := by
  have hbroken : ¬ (m.sender = id ∧ m.checkFormat = .ok ()) := by
    rw [← violation?_eq_none_iff, h]
    simp
  by_cases hsender : m.sender = id
  · cases hformat : m.checkFormat with
    | ok u => exact absurd ⟨hsender, hformat⟩ hbroken
    | error e => simp [passes, hm, hformat, Except.isOk, Except.toBool]
  · simp [passes, hm, hsender]

end

/-! ## One message -/

/-- A message that its sender may deliver is delivered after it was received. The actions are those
of the delivery. -/
structure Delivered (k : Cause) (id : ChainId) (bytes : Bytes) (m : Message) (d : Disposition)
    (s : Store) (acts : List Action) (s' : Store) : Prop where
  decoded : (Wire.decode bytes : Except WireError Message) = .ok m
  allowed : violation? id m = none
  trace : Trace k s (.receive id bytes :: acts) s'
  deals : Action.DealsWith Action.isDelivery m d acts

/-- Something that the sender may not deliver is discarded, and the sender is terminated. -/
structure Rejected (k : Cause) (id : ChainId) (bytes : Bytes) (s : Store) (acts : List Action)
    (s' : Store) : Prop where
  fails : passes id bytes = false
  trace : Trace k s acts s'
  kinds : ∀ a ∈ acts, a.isDelivery = true
  reports : ∃ event, Action.reportsAll acts = [event] ∧ event.result? = some .discarded ∧
    event.ReportsOn id bytes
  closed : s'.IsClosed id

section

variable {k : Cause} {c : Context} {id : ChainId} {bytes : Bytes} {m : Message} {d : Disposition}
  {s s' : Store} {acts : List Action}

theorem Delivered.passes (h : Delivered k id bytes m d s acts s') : passes id bytes = true :=
  passes_eq_true h.decoded h.allowed

/-- One message is received and one report is made. -/
theorem Delivered.receivedAll (h : Delivered k id bytes m d s acts s') :
    Action.receivedAll id (.receive id bytes :: acts) = [bytes] := by
  have hnone := Action.receivedAll_of_isDelivery h.deals.kinds id
  unfold Action.receivedAll at hnone ⊢
  rw [List.flatMap_cons, hnone]
  simp [Action.received]

theorem Delivered.exists_report (h : Delivered k id bytes m d s acts s') :
    ∃ code, Action.reportsAll (.receive id bytes :: acts) = [.processed m d code] :=
  h.deals.exists_report

/-- So the report is on what was delivered, and it says what became of it. -/
theorem Delivered.reports (h : Delivered k id bytes m d s acts s') :
    ∃ event, Action.reportsAll (.receive id bytes :: acts) = [event] ∧ event.result? = some d ∧
      event.ReportsOn id bytes := by
  obtain ⟨code, hreports⟩ := h.exists_report
  exact ⟨_, hreports, rfl, h.decoded⟩

/-- A message enters the inbox from an active chain. -/
theorem ends_appendToInbox (hc : Sound k c) (hcause : k.sender = some id)
    (hactive : c.store.IsActive id) (bytes : Bytes) :
    Ends (appendToInbox id bytes) c fun _ c' => Reaches k c [.receive id bytes] c' := by
  obtain ⟨channel, hchannel⟩ := hc.store.exists_channel hactive.isOpen
  unfold appendToInbox
  refine ends_load hchannel ?_
  cases happend : channel.inbox.append? bytes with
  | none =>
    exact Or.inr ⟨id, channel, hchannel,
      Or.inl ((hc.store.built id channel hchannel).1.append_eq_none happend)⟩
  | some inbox =>
    exact ⟨.single (.receive hcause hactive hchannel happend), by simp [Action.events,
      Context.write], rfl, rfl⟩

/-- It is always so that a message was discarded. -/
theorem reaches_emit_of_discarded (hc : Sound k c) {event : Event}
    (h : event.result? = some .discarded) :
    Reaches k c [.report event] (c.emit event) ∧ Action.reportsAll [.report event] = [event] := by
  cases event with
  | processed m d code =>
    cases h
    exact ⟨reaches_emit hc rfl ⟨nofun, nofun⟩ trivial, rfl⟩
  | undecodable => exact ⟨reaches_emit hc rfl trivial trivial, rfl⟩
  | _ => cases h

/-- A sender that delivers something else than a message of its own is terminated. -/
theorem ends_reject (hc : Sound k c) (hcause : k.sender = some id) (hactive : c.store.IsActive id)
    (hbytes : passes id bytes = false) {event : Event} (hevent : event.result? = some .discarded)
    (hreports : event.ReportsOn id bytes) (o : Outcome) :
    Ends (do
      terminateChain id
      emit event
      return o.recordRejected) c fun o' c' =>
        o' = o.recordRejected ∧
          ∃ acts, Reaches k c acts c' ∧ Rejected k id bytes c.store acts c'.store := by
  obtain ⟨account, hget, -⟩ := hactive
  refine (ends_terminateChain hc hget (Or.inr (Or.inl hcause))).bind ?_
  intro _ c₁ hclosed
  have hreach : ReachesBy k Action.isDelivery [] c c₁ ∧ c₁.store.IsClosed id := by
    rcases hclosed with ⟨hstatus, rfl⟩ | ⟨-, notice, hreach⟩
    · exact ⟨.refl k _ _, account, hget, hstatus⟩
    · exact ⟨reachesBy_close hreach, hreach.trace.isClosed_of_close⟩
  obtain ⟨⟨acts, hreach, hkinds, hsilent⟩, hclosed₁⟩ := hreach
  obtain ⟨hemit, hreport⟩ := reaches_emit_of_discarded (hc.reaches hreach) hevent
  have hall := hreach.append hemit
  refine ends_emit (ends_pure ⟨rfl, _, hall, hbytes, hall.trace, ?_,
    ⟨event, ?_, hevent, hreports⟩, hclosed₁⟩)
  · rw [List.forall_mem_append]
    exact ⟨hkinds, by simp [Action.isDelivery]⟩
  · rw [Action.reportsAll_append, hsilent, hreport, List.nil_append]

end

/-! ## All messages -/

/-- What happens about the messages of a chain's update, one after the other: each is delivered or
rejected, and none is dealt with any more when the sender is terminated. The outcome before the
messages is `o`, and the one after them `o'`. -/
inductive Handled (k : Cause) (id : ChainId) :
    List Bytes → Outcome → Store → List Action → Outcome → Store → Prop
  | done {o : Outcome} {s : Store} : Handled k id [] o s [] o s
  | reject {bytes : Bytes} {rest : List Bytes} {o : Outcome} {s s' : Store} {acts : List Action}
      (h : Rejected k id bytes s acts s') :
      Handled k id (bytes :: rest) o s acts o.recordRejected s'
  | stop {bytes : Bytes} {rest : List Bytes} {m : Message} {d : Disposition} {o : Outcome}
      {s s' : Store} {acts : List Action} (h : Delivered k id bytes m d s acts s')
      (hclosed : s'.IsClosed id) :
      Handled k id (bytes :: rest) o s (.receive id bytes :: acts)
        { o.record d with senderTerminated := true } s'
  | next {bytes : Bytes} {rest : List Bytes} {m : Message} {d : Disposition} {o o' : Outcome}
      {s s₁ s' : Store} {acts more : List Action} (h : Delivered k id bytes m d s acts s₁)
      (hkept : s₁.get (.account id) = s.get (.account id))
      (hrest : Handled k id rest (o.record d) s₁ more o' s') :
      Handled k id (bytes :: rest) o s ((.receive id bytes :: acts) ++ more) o' s'

theorem Outcome.senderTerminated_record (o : Outcome) (d : Disposition) :
    (o.record d).senderTerminated = o.senderTerminated := by
  cases d <;> rfl

namespace Handled

variable {k : Cause} {id : ChainId} {messages : List Bytes} {o o' : Outcome} {s s' : Store}
  {acts : List Action}

/-- One report is made on each message that is dealt with, and those that the sender may deliver are
received. -/
theorem received (h : Handled k id messages o s acts o' s') :
    Action.receivedAll id acts =
      (messages.take (Action.reportsAll acts).length).filter (passes id) := by
  induction h with
  | done => rfl
  | reject h =>
    obtain ⟨event, hreports, -⟩ := h.reports
    rw [Action.receivedAll_of_isDelivery h.kinds, hreports]
    simp [h.fails]
  | stop h =>
    obtain ⟨code, hreports⟩ := h.exists_report
    rw [h.receivedAll, hreports]
    simp [h.passes]
  | next h _ _ ih =>
    obtain ⟨code, hreports⟩ := h.exists_report
    rw [Action.receivedAll_append, h.receivedAll, Action.reportsAll_append, hreports, ih,
      List.length_append, List.length_singleton, Nat.add_comm, List.take_succ_cons,
      List.filter_cons_of_pos h.passes]
    rfl

/-- What is received is a beginning of the messages. -/
theorem receivedAll_isPrefix (h : Handled k id messages o s acts o' s') :
    Action.receivedAll id acts <+: messages := by
  induction h with
  | done => exact List.nil_prefix
  | reject h =>
    rw [Action.receivedAll_of_isDelivery h.kinds]
    exact List.nil_prefix
  | stop h =>
    rw [h.receivedAll]
    exact List.prefix_append [_] _
  | next h _ _ ih =>
    rw [Action.receivedAll_append, h.receivedAll]
    exact (List.prefix_append_right_inj [_]).mpr ih

/-- All messages are received unless the sender is terminated. -/
theorem received_eq (h : Handled k id messages o s acts o' s')
    (hopen : o'.senderTerminated = false) : Action.receivedAll id acts = messages := by
  induction h with
  | done => rfl
  | reject => cases hopen
  | stop => cases hopen
  | next h _ _ ih => rw [Action.receivedAll_append, h.receivedAll, ih hopen, List.singleton_append]

/-- The account of a sender that is not terminated stays as it is. -/
theorem account_eq (h : Handled k id messages o s acts o' s')
    (hopen : o'.senderTerminated = false) : s'.get (.account id) = s.get (.account id) := by
  induction h with
  | done => rfl
  | reject => cases hopen
  | stop => cases hopen
  | next _ hkept _ ih => exact (ih hopen).trans hkept

/-- A sender that is not terminated by its messages stays active. -/
theorem isActive (h : Handled k id messages o s acts o' s') (hactive : s.IsActive id)
    (hopen : o'.senderTerminated = false) : s'.IsActive id := by
  obtain ⟨account, hget, hstatus⟩ := hactive
  exact ⟨account, (h.account_eq hopen).trans hget, hstatus⟩

/-- The outcome says that the sender is terminated only if it is. -/
theorem isClosed (h : Handled k id messages o s acts o' s') (ho : o.senderTerminated = false)
    (hclosed : o'.senderTerminated = true) : s'.IsClosed id := by
  induction h with
  | done => exact absurd hclosed (by simp [ho])
  | reject h => exact h.closed
  | stop _ hterminated => exact hterminated
  | next _ _ _ ih => exact ih ((Outcome.senderTerminated_record _ _).trans ho) hclosed

end Handled

/-- **The messages of an update are dealt with one by one**, whatever they contain. -/
theorem ends_processMessages {k : Cause} {id : ChainId} (hcause : k.sender = some id) :
    ∀ {messages : List Bytes} {o : Outcome} {c : Context}, Sound k c → c.store.IsActive id →
      Ends (processMessages .default id messages o) c fun o' c' =>
        ∃ acts, Reaches k c acts c' ∧ Handled k id messages o c.store acts o' c'.store
  | [], o, c, _, _ => ends_pure ⟨[], .refl k c, .done⟩
  | bytes :: rest, o, c, hc, hactive => by
    have hreject : passes id bytes = false → ∀ {event : Event},
        event.result? = some .discarded → event.ReportsOn id bytes → Ends (do
          terminateChain id
          emit event
          return o.recordRejected) c fun o' c' => ∃ acts, Reaches k c acts c' ∧
            Handled k id (bytes :: rest) o c.store acts o' c'.store := by
      intro hbytes event hevent hreports
      refine (ends_reject hc hcause hactive hbytes hevent hreports o).mono ?_
      rintro _ c' ⟨rfl, acts, hreach, hrejected⟩
      exact ⟨acts, hreach, .reject hrejected⟩
    unfold processMessages
    cases hm : (Wire.decode bytes : Except WireError Message) with
    | error e => exact hreject (by simp [passes, hm]) rfl ⟨⟨e, hm⟩, rfl, rfl, rfl⟩
    | ok m =>
      dsimp only
      cases hviolation : violation? id m with
      | some code => exact hreject (passes_eq_false hm hviolation) rfl hm
      | none =>
        obtain ⟨hsender, hformat⟩ := violation?_eq_none_iff.mp hviolation
        refine (ends_appendToInbox hc hcause hactive bytes).bind ?_
        intro _ c₁ hreceive
        obtain ⟨account, hget, hstatus⟩ := hactive
        have hget₁ : c₁.store.get (.account id) = some account := by
          rw [hreceive.trace.account_eq (by simp [Action.account?]), hget]
        refine (ends_deliver (hc.reaches hreceive) hformat (hsender ▸ hcause) (hsender ▸ hget₁)
          hstatus).bind ?_
        rintro d c₂ ⟨acts, hreach, hdeals⟩
        have hboth : Reaches k c (.receive id bytes :: acts) c₂ := hreceive.append hreach
        have hdelivered : Delivered k id bytes m d c.store acts c₂.store :=
          ⟨hm, hviolation, hboth.trace, hdeals⟩
        -- the delivery has either left the account alone or closed it
        rcases hreach.trace.account_of_isDelivery hdeals.kinds id with
          heq | ⟨account₂, hget₂, hclosed⟩
        · have hget₂ := heq.trans hget₁
          refine ends_load hget₂ ?_
          simp only [hstatus, reduceCtorEq, if_false]
          refine (ends_processMessages hcause (hc.reaches hboth) ⟨account, hget₂, hstatus⟩).mono ?_
          rintro o' c' ⟨more, hmore, hrest⟩
          exact ⟨_, hboth.append hmore, .next hdelivered (hget₂.trans hget.symm) hrest⟩
        · refine ends_load hget₂ ?_
          simp only [hclosed, if_true]
          exact ends_pure ⟨_, hboth, .stop hdelivered ⟨account₂, hget₂, hclosed⟩⟩

end Update

end ChainHub
