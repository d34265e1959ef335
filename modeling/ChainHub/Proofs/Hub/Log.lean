import ChainHub.Proofs.Hex
import ChainHub.Proofs.Hub.LogKeeping
import ChainHub.Proofs.Hub.Run

/-!
# The log determines the channels

Relayers see what the hub sends in its events only. What they read there comes to the outboxes that
the hub stores, and the messages of a chain's updates that were dealt with come to its inbox.

* `messagesTo?`: what is read in events as they are shown.
* `Run.log`, `Run.passed`: the events of a run, and what a chain has delivered in it.
* `Logged`: what the events and the deliveries of some calls add to a channel.
* `Run.log_determines_channels`: both come to what is stored, and no rollback separates a message
  from the event that tells of it.
-/

namespace ChainHub

namespace Event

/-- Whether the event is shown as one that tells of a message to the chain. -/
def isSentTo (id : ChainId) (e : Event) : Bool :=
  e.isSent && e.attributes.lookup "receiving_chain_id" == some id.toHex

/-- The bytes of the message that the event is shown with. -/
def ccm? (e : Event) : Option Bytes := (e.attributes.lookup "ccm").bind Hex.decode?

/-- An event that is shown as one that tells of a message does tell of one. Modules may emit events
of any type. -/
def IsGenuine (e : Event) : Prop := e.isSent = true → ∃ m, e = .sent m

theorem isSentTo_sent (id : ChainId) (m : Message) :
    (sent m).isSentTo id = decide (m.receiver = id) := by
  have hlookup : (sent m).attributes.lookup "receiving_chain_id" = some m.receiver.toHex := by
    simp [attributes, List.lookup_cons]
  have htype : (sent m).isSent = true := rfl
  unfold isSentTo
  rw [hlookup, htype, Bool.true_and, Option.some_beq_some]
  by_cases hid : m.receiver = id
  · simp [hid]
  · simp [hid, ChainId.toHex_injective.ne hid]

theorem ccm?_sent (m : Message) : (sent m).ccm? = some m.encode := by
  have hlookup : (sent m).attributes.lookup "ccm" = some (Hex.encode m.encode) := by
    simp [attributes, List.lookup_cons]
  unfold ccm?
  rw [hlookup, Option.bind_some, Hex.decode?_encode]

end Event

/-- The messages to a chain that are read in events as they are shown, unless one cannot be read. -/
def messagesTo? (id : ChainId) (log : List Event) : Option (List Bytes) :=
  (log.filter (Event.isSentTo id)).mapM Event.ccm?

/-- What is read in genuine events is what was sent. -/
theorem messagesTo?_eq (id : ChainId) {log : List Event} (h : ∀ e ∈ log, e.IsGenuine) :
    messagesTo? id log = some (sentTo id log) := by
  unfold messagesTo?
  induction log with
  | nil => rfl
  | cons e log ih =>
    rw [List.forall_mem_cons] at h
    have hcons : sentTo id (e :: log) = sentTo id [e] ++ sentTo id log := sentTo_append id [e] log
    rw [hcons]
    cases hsent : e.isSent with
    | false =>
      have hother : ¬ e.isSentTo id = true := by simp [Event.isSentTo, hsent]
      rw [List.filter_cons_of_neg hother, ih h.2, sentTo_of_isSent_eq_false hsent]
      rfl
    | true =>
      obtain ⟨m, rfl⟩ := h.1 hsent
      rw [sentTo_sent]
      unfold Message.bytesTo
      by_cases hid : m.receiver = id
      · have hto : (Event.sent m).isSentTo id = true := by simp [Event.isSentTo_sent, hid]
        rw [List.filter_cons_of_pos hto, List.mapM_cons, Event.ccm?_sent, ih h.2, if_pos hid]
        rfl
      · have hother : ¬ (Event.sent m).isSentTo id = true := by simp [Event.isSentTo_sent, hid]
        rw [List.filter_cons_of_neg hother, ih h.2, if_neg hid]
        rfl

section

variable {k : Cause} {s s' : Store} {a : Action} {acts : List Action}

/-- The events of actions are genuine. -/
theorem Step.isGenuine (h : Step k s a s') : ∀ e ∈ a.events, e.IsGenuine := by
  have hsent : ∀ m, (Event.sent m).IsGenuine := fun m _ => ⟨m, rfl⟩
  have hother : ∀ {e : Event}, e.isSent = false → e.IsGenuine := fun h htrue => by
    rw [h] at htrue
    cases htrue
  cases h with
  | report hreport => simp [Action.events, hother hreport]
  | relay => simp [Action.events, hsent]
  | notify => simp [Action.events, hsent]
  | close =>
    simp only [Action.events, List.forall_mem_cons]
    exact ⟨hsent _, hother rfl, hother rfl, by simp⟩
  | register =>
    simp only [Action.events, List.forall_mem_cons]
    exact ⟨hother rfl, hsent _, by simp⟩
  | freeze =>
    simp only [Action.events, List.forall_mem_cons]
    exact ⟨hother rfl, by simp⟩
  | replace =>
    simp only [Action.events, List.forall_mem_cons]
    exact ⟨hother rfl, by simp⟩
  | _ => simp [Action.events]

theorem Trace.isGenuine (h : Trace k s acts s') :
    ∀ e ∈ acts.flatMap Action.events, e.IsGenuine := by
  induction h with
  | nil => simp
  | cons h _ ih =>
    rw [List.flatMap_cons, List.forall_mem_append]
    exact ⟨h.isGenuine, ih⟩

end

/-! ## Calls -/

namespace Call

/-- The events of a call; a call that fails has none. -/
def events (k : Call) (s : Store) : List Event := (k.response? s).elim [] Response.events

/-- The messages of a chain's update that it may deliver, up to the last one that was dealt with:
every one that was dealt with is accounted for by one event. -/
def passed (id : ChainId) (k : Call) (s : Store) : List Bytes :=
  match k.request with
  | .update request =>
    if k.sender? = some id then
      (request.inbox.messages.take ((k.events s).filter Event.isProcessed).length).filter
        (Update.passes id)
    else []
  | _ => []

variable {k : Call} {s : Store}

theorem exists_trace_events (hs : Consistent s) (k : Call) :
    ∃ acts, Trace k.cause s acts (k.after s) ∧ k.events s = acts.flatMap Action.events := by
  unfold events
  cases hresponse : k.response? s with
  | none =>
    rw [after_of_rejected hresponse]
    exact ⟨[], .nil s, rfl⟩
  | some response =>
    obtain ⟨acts, htrace, hevents, -⟩ := of_accepted hs hresponse
    exact ⟨acts, htrace, hevents⟩

theorem isGenuine_events (hs : Consistent s) : ∀ e ∈ k.events s, e.IsGenuine := by
  obtain ⟨acts, htrace, hevents⟩ := exists_trace_events hs k
  rw [hevents]
  exact htrace.isGenuine

/-- **An outbox grows by what the events tell.** -/
theorem appendAll?_events (id : ChainId) (hs : Consistent s) :
    (s.outboxOf id).appendAll? (sentTo id (k.events s)) = some ((k.after s).outboxOf id) := by
  obtain ⟨acts, htrace, hevents⟩ := exists_trace_events hs k
  rw [hevents, htrace.sentTo, htrace.outboxOf]

/-- What the actions of an update have received is what its sender may deliver. -/
theorem passed_eq_receivedAll (id : ChainId) {response : Response} {acts : List Action}
    (hresponse : k.response? s = some response) (htrace : Trace k.cause s acts (k.after s))
    (hevents : response.events = acts.flatMap Action.events)
    (heffect : k.Effect s acts (k.after s)) : k.passed id s = Action.receivedAll id acts := by
  unfold passed events
  by_cases hsender : k.sender? = some id
  · obtain ⟨request, own, v, o, hrequest, rfl, -, hperformed⟩ := heffect.of_sender hsender
    rw [hrequest]
    dsimp only
    rw [if_pos hsender, hresponse, Option.elim_some, hevents, hperformed.receivedBy.1,
      Action.reportsAll_eq_filter]
  · rw [htrace.receivedAll_eq_nil hsender]
    split
    · rw [if_neg hsender]
    · rfl

theorem passed_of_rejected (id : ChainId) (h : k.response? s = none) : k.passed id s = [] := by
  unfold passed events
  rw [h]
  split
  · simp
  · rfl

/-- **An inbox grows by what its chain delivers and may deliver.** -/
theorem appendAll?_passed (id : ChainId) (hs : Consistent s) :
    (s.inboxOf id).appendAll? (k.passed id s) = some ((k.after s).inboxOf id) := by
  cases hresponse : k.response? s with
  | none =>
    rw [passed_of_rejected id hresponse, after_of_rejected hresponse]
    rfl
  | some response =>
    obtain ⟨acts, htrace, hevents, heffect⟩ := of_accepted hs hresponse
    rw [passed_eq_receivedAll id hresponse htrace hevents heffect, htrace.inboxOf]

end Call

/-! ## Runs -/

theorem isGenuine_collect {s : Store} (hs : Consistent s) (calls : List Call) :
    ∀ e ∈ collect Call.events calls s, e.IsGenuine := by
  induction calls generalizing s with
  | nil => simp [collect]
  | cons k rest ih =>
    rw [collect, List.forall_mem_append]
    exact ⟨Call.isGenuine_events hs, ih (Call.consistent_after hs)⟩

theorem sentTo_collect (id : ChainId) (calls : List Call) (s : Store) :
    sentTo id (collect Call.events calls s) =
      collect (fun k s => sentTo id (k.events s)) calls s := by
  induction calls generalizing s with
  | nil => rfl
  | cons k rest ih => rw [collect, sentTo_append, ih, collect]

/-- A channel after some calls is the one before them with what the events of the calls tell that was
sent, and with what its chain has delivered in them. -/
structure Logged (id : ChainId) (calls : List Call) (s : Store) (channel : Channel) : Prop where
  outbox : (messagesTo? id (collect Call.events calls s)).bind (s.outboxOf id).appendAll? =
    some channel.outbox
  inbox : (s.inboxOf id).appendAll? (collect (Call.passed id) calls s) = some channel.inbox

/-- **The log of some calls determines the channels after them.** -/
theorem exists_logged {s : Store} (hs : Consistent s) (calls : List Call) {id : ChainId}
    {account : ChainAccount} (hget : (afterAll calls s).get (.account id) = some account) :
    ∃ channel, (afterAll calls s).get (.channel id) = some channel ∧ Logged id calls s channel := by
  obtain ⟨channel, hchannel⟩ := (consistent_afterAll hs calls).channel id account hget
  have houtbox := appendAll?_collect (Call.appendAll?_events id) hs calls
  have hinbox := appendAll?_collect (Call.appendAll?_passed id) hs calls
  rw [← sentTo_collect, Store.outboxOf_eq hchannel] at houtbox
  rw [Store.inboxOf_eq hchannel] at hinbox
  refine ⟨channel, hchannel, ?_, hinbox⟩
  rw [messagesTo?_eq id (isGenuine_collect hs calls)]
  exact houtbox

namespace Run

/-- The events of a run in the order in which they are emitted. -/
def log (r : Run) : List Event := collect Call.events r.calls r.start

/-- The messages that a chain has delivered in a run, as far as they were dealt with and it may
deliver them. -/
def passed (id : ChainId) (r : Run) : List Bytes := collect (Call.passed id) r.calls r.start

/-- **The log determines the channels.** In every reachable store the outbox toward a chain is what
the messages come to that are read in the log, and the inbox from it is what the messages come to
that it has delivered. Calls from any other consistent store on add to its channels in the same way.
Whatever modules there are, if they keep the log themselves, then everything that is done about
messages can be taken back, and messages go and stay with their events. -/
theorem log_determines_channels (r : Run) {id : ChainId} {account : ChainAccount}
    (hget : r.store.get (.account id) = some account) {modules : Registry}
    (hmodules : modules.Logs) :
    (∃ channel, r.store.get (.channel id) = some channel ∧
      (messagesTo? id r.log).bind Accumulator.empty.appendAll? = some channel.outbox ∧
        Accumulator.empty.appendAll? (r.passed id) = some channel.inbox) ∧
      (∀ (s : Store) (calls : List Call) (account : ChainAccount), Consistent s →
        (afterAll calls s).get (.account id) = some account →
          ∃ channel, (afterAll calls s).get (.channel id) = some channel ∧
            Logged id calls s channel) ∧
      (∀ m, HubM.Logs (HubM.deliver modules m)) ∧
        (∀ messages v, HubM.Logs (Update.perform modules messages v)) ∧
          ∀ v, HubM.Logs (Recovery.perform modules v) := by
  obtain ⟨channel, hchannel, hlogged⟩ := exists_logged r.consistent_start r.calls hget
  have houtbox := hlogged.outbox
  have hinbox := hlogged.inbox
  rw [r.outboxOf_start] at houtbox
  rw [r.inboxOf_start] at hinbox
  exact ⟨⟨channel, hchannel, houtbox, hinbox⟩, fun _ calls _ hs => exists_logged hs calls,
    HubM.logs_deliver hmodules, Update.logs_perform hmodules, Recovery.logs_perform hmodules⟩

/-- A module that lets no command stand and no message pass. -/
def reluctant : TracingModule := ⟨"reluctant", ["ping"], [.afterExecute, .beforeForward]⟩

/-- All that the silent chain was sent is in the log, and it has delivered nothing. Once it has been
heard of, two messages of it reach its inbox and are bounced into its outbox, which was empty
before. Nothing is lost when a module refuses. -/
theorem log_determines_channels_silent :
    (∃ channel, silent.store.get (.channel silentChain) = some channel ∧
      (messagesTo? silentChain silent.log).bind Accumulator.empty.appendAll? =
        some channel.outbox ∧
      Accumulator.empty.appendAll? (silent.passed silentChain) = some channel.inbox ∧
      channel.outbox.size = 2) ∧
    (∃ channel, (afterAll twoDeliveries trusting).get (.channel silentChain) = some channel ∧
      (messagesTo? silentChain (collect Call.events twoDeliveries trusting)).bind
        Accumulator.empty.appendAll? = some channel.outbox ∧
      Accumulator.empty.appendAll? twoMessages = some channel.inbox ∧
      channel.outbox.size = 2) ∧
    ∀ m, HubM.Logs (HubM.deliver (Registry.default.insert reluctant.toModule) m) := by
  obtain ⟨account, hget, -⟩ := isClosed_silentChain
  obtain ⟨⟨channel, hchannel, houtbox, hinbox⟩, hlater, hdeliver, -⟩ :=
    silent.log_determines_channels hget (Registry.logs_default.insert reluctant.logs_toModule)
  have hsize : (silent.store.outboxOf silentChain).size = 2 := by decide +kernel
  refine ⟨⟨channel, hchannel, houtbox, hinbox, ?_⟩, ?_, hdeliver⟩
  · rwa [Store.outboxOf_eq hchannel] at hsize
  · have hknown : ((afterAll twoDeliveries trusting).get (.account silentChain)).isSome = true := by
      decide +kernel
    have hpassed : collect (Call.passed silentChain) twoDeliveries trusting = twoMessages := by
      decide +kernel
    have hbounced : ((afterAll twoDeliveries trusting).outboxOf silentChain).size = 2 := by
      decide +kernel
    obtain ⟨heard, hheard⟩ := Option.isSome_iff_exists.mp hknown
    obtain ⟨channel, hchannel, hsent, hdelivered⟩ :=
      hlater trusting twoDeliveries heard consistent_trusting hheard
    rw [outboxOf_trusting] at hsent
    rw [inboxOf_trusting, hpassed] at hdelivered
    rw [Store.outboxOf_eq hchannel] at hbounced
    exact ⟨channel, hchannel, hsent, hdelivered, hbounced⟩

end Run

end ChainHub
