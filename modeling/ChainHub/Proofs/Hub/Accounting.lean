import ChainHub.Proofs.Hub.Split

/-!
# The messages of an update are accounted for

Dealing with the messages of an update ends in one of four ways, and what has become of them is kept
in four places: in the outcome that is counted, in the events, in the inbox and in the status of the
sender. All of them tell the same.

* `Update.Outcome.count`: how many messages have come to a given end.
* `Update.Outcome.Counts`: what is added to an outcome is what events report.
* `Update.Reported`: events report on the first messages, one on each.
* `Update.Accounts`: what an accepted update tells of its messages.
* `Update.StoresRoot`: which root of the partner's outbox is stored in the end.
* `Call.accounts_for_messages`: every message of an accepted update is accounted for once.

The messages that are dealt with are the first ones, as many as the outcome counts. That no more is
reported, and no less, although deliveries take events back, is due to `Update.Handled`, which tells
of each message which report is left.
-/

namespace ChainHub

namespace Update

/-! ## The outcome -/

namespace Outcome

/-- How many messages have come to the given end. -/
def count (o : Outcome) : Disposition → Nat
  | .applied => o.applied
  | .forwarded => o.forwarded
  | .bounced => o.bounced
  | .discarded => o.discarded

/-- What the second outcome counts more than the first one is what the events report. -/
structure Counts (o : Outcome) (events : List Event) (o' : Outcome) : Prop where
  processed : o'.processed = o.processed + events.length
  count : ∀ d, o'.count d = o.count d + events.countP fun e => e.result? = some d

theorem Counts.refl (o : Outcome) : o.Counts [] o := ⟨rfl, fun _ => rfl⟩

/-- One more message is counted for one report, whether it terminates its sender or not. -/
theorem Counts.single (o : Outcome) {event : Event} {d : Disposition}
    (h : event.result? = some d) (terminated : Bool) :
    o.Counts [event] { o.record d with senderTerminated := terminated } where
  processed := by
    cases d <;> simp only [Outcome.processed, record, List.length_singleton] <;> omega
  count d' := by
    rw [List.countP_singleton, h]
    cases d <;> cases d' <;> rfl

theorem Counts.append {o o₁ o₂ : Outcome} {events more : List Event} (h : o.Counts events o₁)
    (hmore : o₁.Counts more o₂) : o.Counts (events ++ more) o₂ where
  processed := by rw [hmore.processed, h.processed, List.length_append, Nat.add_assoc]
  count d := by rw [hmore.count, h.count, List.countP_append, Nat.add_assoc]

end Outcome

/-! ## The reports -/

/-- The events report on the first messages, in their order, and only the last of these may be one
that the chain may not deliver. -/
structure Reported (id : ChainId) (messages : List Bytes) (events : List Event) : Prop where
  each : List.Forall₂ (Event.ReportsOn id) (messages.take events.length) events
  allowed : ∀ bytes ∈ (messages.take events.length).dropLast, passes id bytes = true

namespace Reported

variable {id : ChainId} {bytes : Bytes} {rest : List Bytes} {event : Event} {events : List Event}

theorem nil (id : ChainId) (messages : List Bytes) : Reported id messages [] where
  each := .nil
  allowed := nofun

theorem single (h : event.ReportsOn id bytes) (rest : List Bytes) :
    Reported id (bytes :: rest) [event] where
  each := .cons h .nil
  allowed := nofun

theorem cons (h : event.ReportsOn id bytes) (hpasses : passes id bytes = true)
    (hrest : Reported id rest events) : Reported id (bytes :: rest) (event :: events) where
  each := .cons h hrest.each
  allowed x hx := by
    rw [List.length_cons, List.take_succ_cons] at hx
    cases hmore : rest.take events.length with
    | nil =>
      rw [hmore] at hx
      cases hx
    | cons y more =>
      rw [hmore, List.dropLast_cons_cons, List.mem_cons, ← hmore] at hx
      rcases hx with rfl | hx
      · exact hpasses
      · exact hrest.allowed x hx

/-- There are no more reports than messages. -/
theorem length_le {messages : List Bytes} (h : Reported id messages events) :
    events.length ≤ messages.length := by
  have hlength := h.each.length_eq
  rw [List.length_take] at hlength
  omega

end Reported

namespace Handled

variable {k : Cause} {id : ChainId} {messages : List Bytes} {o o' : Outcome} {s s' : Store}
  {acts : List Action}

/-- **One report is made on each message that is dealt with.** -/
theorem reported (h : Handled k id messages o s acts o' s') :
    Reported id messages (Action.reportsAll acts) := by
  induction h with
  | done => exact .nil id []
  | reject h =>
    obtain ⟨event, hreports, -, hon⟩ := h.reports
    rw [hreports]
    exact .single hon _
  | stop h =>
    obtain ⟨event, hreports, -, hon⟩ := h.reports
    rw [hreports]
    exact .single hon _
  | next h _ _ ih =>
    obtain ⟨event, hreports, -, hon⟩ := h.reports
    rw [Action.reportsAll_append, hreports]
    exact .cons hon h.passes ih

/-- **The reports are counted.** -/
theorem counts (h : Handled k id messages o s acts o' s') :
    o.Counts (Action.reportsAll acts) o' := by
  induction h with
  | done => exact .refl _
  | reject h =>
    obtain ⟨event, hreports, hresult, -⟩ := h.reports
    rw [hreports]
    exact .single _ hresult true
  | stop h =>
    obtain ⟨event, hreports, hresult, -⟩ := h.reports
    rw [hreports]
    exact .single _ hresult true
  | next h _ _ ih =>
    obtain ⟨event, hreports, hresult, -⟩ := h.reports
    rw [Action.reportsAll_append, hreports]
    exact (Outcome.Counts.single _ hresult _).append ih

/-- All messages are dealt with unless the sender is terminated. -/
theorem length_reportsAll (h : Handled k id messages o s acts o' s')
    (hopen : o'.senderTerminated = false) : (Action.reportsAll acts).length = messages.length := by
  have hall := h.received.symm.trans (h.received_eq hopen)
  have hle := List.length_filter_le (passes id) (messages.take (Action.reportsAll acts).length)
  rw [hall, List.length_take] at hle
  have hno := h.reported.length_le
  omega

/-- Messages prove nothing about the outbox of their sender. -/
theorem provedAll_eq_nil (h : Handled k id messages o s acts o' s') :
    Action.provedAll id acts = [] := by
  have hreceive : ∀ {bytes : Bytes} {acts : List Action}, (∀ a ∈ acts, a.isDelivery = true) →
      Action.provedAll id (.receive id bytes :: acts) = [] := fun hacts =>
    Action.provedAll_of_isDelivery hacts id
  induction h with
  | done => rfl
  | reject h => exact Action.provedAll_of_isDelivery h.kinds id
  | stop h => exact hreceive h.deals.kinds
  | next h _ _ ih => rw [Action.provedAll_append, hreceive h.deals.kinds, ih, List.append_nil]

end Handled

/-! ## The account of an update -/

/-- What the outcome `o` of an update, its events and the records of its sender tell of its
messages. The messages that are dealt with are the first `o.processed` ones. -/
structure Accounts (id : ChainId) (messages : List Bytes) (s : Store) (o : Outcome)
    (events : List Event) (s' : Store) : Prop where
  le : o.processed ≤ messages.length
  /-- Only the termination of the sender leaves messages aside. -/
  whole : ¬ s'.IsClosed id → o.processed = messages.length
  /-- There is one report on each message that is dealt with, in their order. -/
  reports : List.Forall₂ (Event.ReportsOn id) (messages.take o.processed)
    (events.filter Event.isProcessed)
  /-- The counters agree with the reports. -/
  count : ∀ d, o.count d =
    (events.filter Event.isProcessed).countP fun e => e.result? = some d
  /-- Only the last message that is dealt with may be one that the sender may not deliver. -/
  allowed : ∀ bytes ∈ (messages.take o.processed).dropLast, passes id bytes = true
  /-- The inbox grows by the messages that are dealt with, without such a last one. -/
  received : (s.inboxOf id).appendAll? ((messages.take o.processed).filter (passes id)) =
    some (s'.inboxOf id)
  /-- The outcome tells the status of the sender. -/
  terminated : o.senderTerminated = true ↔ s'.IsClosed id

/-- Which root of the partner's outbox is stored in the end: the one that the inbox update comes to
and that is proven, unless there is no inbox update or the sender is terminated. -/
def StoresRoot (own : ChainId) (request : UpdateRequest) (v : Verified) (s : Store) (o : Outcome)
    (s' : Store) : Prop :=
  ∃ channel next, s.get (.channel v.sender) = some channel ∧
    s'.get (.channel v.sender) = some next ∧
    if request.inbox.isEmpty || o.senderTerminated then
      next.partnerOutboxRoot = channel.partnerOutboxRoot
    else
      request.inbox.outboxRoot? channel.inbox = some next.partnerOutboxRoot ∧
        request.inbox.Proves own v.certificate channel.partnerOutboxRoot next.partnerOutboxRoot

section

variable {k : Cause} {v : Verified} {messages : List Bytes} {s s' : Store} {o : Outcome}
  {acts : List Action}

/-- The proven root is stored without the status of the sender being touched. -/
theorem Verified.account_of_proof (h : Trace k s (v.proof o) s') :
    s'.get (.account v.sender) = s.get (.account v.sender) := by
  refine h.account_eq fun a ha => ?_
  unfold Verified.proof at ha
  cases hterminated : o.senderTerminated <;> cases hroot : v.partnerOutboxRoot <;>
    simp_all [Action.account?]

/-- **The outcome of an update tells whether its sender is terminated.** -/
theorem Performed.terminated_iff (h : Performed k v messages s o acts s') :
    o.senderTerminated = true ↔ s'.IsClosed v.sender := by
  obtain ⟨-, -, -, hactive, hhandled, hproof, -⟩ := h
  have hsame := Verified.account_of_proof hproof
  constructor
  · intro hterminated
    obtain ⟨account, hget, hstatus⟩ := hhandled.isClosed rfl hterminated
    exact ⟨account, hsame.trans hget, hstatus⟩
  · rintro ⟨account, hget, hstatus⟩
    by_contra hopen
    rw [Bool.not_eq_true] at hopen
    exact (hhandled.isActive hactive hopen).isOpen.not_isClosed
      ⟨account, hsame.symm.trans hget, hstatus⟩

/-- **What an update tells of its messages is what its actions have done.** -/
theorem Performed.accounts (h : Performed k v messages s o acts s') (htrace : Trace k s acts s') :
    Accounts v.sender messages s o (acts.flatMap Action.events) s' := by
  have hterminated := h.terminated_iff
  obtain ⟨handled, s₁, s₂, hhandled, hreports⟩ : ∃ handled s₁ s₂,
      Handled k v.sender messages {} s₁ handled o s₂ ∧
        Action.reportsAll acts = Action.reportsAll handled := by
    obtain ⟨-, -, hsilent, -, hhandled, -, -⟩ := h
    refine ⟨_, _, _, hhandled, ?_⟩
    rw [Action.reportsAll_append, Action.reportsAll_append, hsilent, v.reportsAll_proof,
      List.nil_append, List.append_nil]
  have hcounts := hhandled.counts
  have hreported := hhandled.reported
  have hwhole := hhandled.length_reportsAll
  rw [← hreports] at hcounts hreported hwhole
  have hprocessed : o.processed = (Action.reportsAll acts).length :=
    hcounts.processed.trans (Nat.zero_add _)
  constructor
  case le => exact hprocessed ▸ hreported.length_le
  case whole =>
    intro hopen
    exact hprocessed.trans (hwhole (Bool.eq_false_iff.mpr (hterminated.not.mpr hopen)))
  case reports =>
    rw [hprocessed, ← Action.reportsAll_eq_filter]
    exact hreported.each
  case count =>
    intro d
    rw [← Action.reportsAll_eq_filter, hcounts.count d]
    cases d <;> exact Nat.zero_add _
  case allowed =>
    rw [hprocessed]
    exact hreported.allowed
  case received => rw [hprocessed, ← h.receivedBy.1, htrace.inboxOf]
  case terminated => exact hterminated

/-- **The root that an update stores** is the one that its check has found. -/
theorem Performed.root (h : Performed k v messages s o acts s') (htrace : Trace k s acts s')
    {channel : Channel} (hchannel : s.get (.channel v.sender) = some channel) :
    ∃ next, s'.get (.channel v.sender) = some next ∧
      next.partnerOutboxRoot = if o.senderTerminated then channel.partnerOutboxRoot
        else v.partnerOutboxRoot.getD channel.partnerOutboxRoot := by
  obtain ⟨next, hnext, hroot⟩ := htrace.channel hchannel
  refine ⟨next, hnext, ?_⟩
  obtain ⟨-, -, -, -, hhandled, -, hunproven⟩ := h
  rw [hroot, Action.provedAll_append, Action.provedAll_append, hunproven,
    hhandled.provedAll_eq_nil, v.provedAll_proof]
  cases o.senderTerminated <;> cases v.partnerOutboxRoot <;> rfl

end

end Update

/-- **Every message of an accepted update is accounted for once.** The messages that are dealt with
are the first ones, all of them unless the sender is terminated; each has one report among the
events, and the outcome, which the response shows, counts these. The inbox, the status of the sender
and the stored root of its outbox agree with it. Reachable stores are consistent
(`Run.consistent`). -/
theorem Call.accounts_for_messages {s : Store} (hs : Consistent s) {header : BlockHeader}
    {funds : List Coin} {request : UpdateRequest} {response : Response}
    (h : (ofUpdate header funds request).response? s = some response) :
    ∃ own v o c, s.get .own = some own ∧
      Update.verify s own.chainId header.time request = .ok v ∧
      Update.perform .default request.inbox.messages v (.start s header own.chainId) = .ok o c ∧
      response = Update.response v.sender o c.events ∧
      (ofUpdate header funds request).after s = c.store ∧
      Update.Accounts v.sender request.inbox.messages s o c.events c.store ∧
      Update.StoresRoot own.chainId request v s o c.store := by
  obtain ⟨own, v, o, c, hown, hv, hperform, hresponse, hafter⟩ :=
    run_update_eq_ok_iff.mp (run_of_accepted h)
  refine ⟨own, v, o, c, hown, hv, hperform, hresponse, hafter, ?_⟩
  have hchecked := Update.checked_of_verify hv
  have hcause : (ofUpdate header funds request).cause.sender = some v.sender :=
    Attempt.toOption_eq_some_iff.mpr hchecked.sender
  have hsound : HubM.Sound (ofUpdate header funds request).cause (.start s header own.chainId) :=
    sound_start hs hown rfl
  obtain ⟨acts, hreach, hperformed⟩ := (Update.ends_perform hsound hchecked
    (hs.ne_own hchecked.account hown) hcause hchecked.certificate.symm _).of_ok hperform
  have hevents : c.events = acts.flatMap Action.events := hreach.events.trans (List.nil_append _)
  rw [hevents]
  refine ⟨hperformed.accounts hreach.trace, ?_⟩
  obtain ⟨channel, hchannel⟩ := hs.channel _ _ hchecked.account
  obtain ⟨next, hnext, hroot⟩ := hperformed.root hreach.trace hchannel
  refine ⟨channel, next, hchannel, hnext, ?_⟩
  rcases hchecked.inbox with ⟨hempty, hnone⟩ | ⟨hempty, root, hsome, hinbox⟩
  · rw [hnone] at hroot
    rw [if_pos (by simp [hempty]), hroot]
    exact ite_self _
  · rw [hempty, Bool.false_or, hroot, hsome]
    cases o.senderTerminated with
    | true => rfl
    | false =>
      obtain ⟨channel', hchannel', hcomputed, hproves⟩ := Update.verifyInbox_eq_ok_iff.mp hinbox
      obtain rfl := Option.some.inj (hchannel.symm.trans hchannel')
      exact ⟨hcomputed, hproves⟩

namespace Run

/-- Between two messages of the silent chain there is something else. -/
def spoiledMessages : List Bytes := [(toNobody 0).encode, [0xde, 0xad], (toNobody 1).encode]

/-- The records with the root of these messages. -/
def misled : Store :=
  trusting.put (.channel silentChain)
    (some { announced with partnerOutboxRoot := (Merkle.Tree.ofLeaves spoiledMessages).root })

theorem consistent_misled : Consistent misled :=
  consistent_trusting.put_channel ⟨heardOf, by rfl⟩
    ⟨Accumulator.built_empty, Accumulator.built_empty⟩

/-- The silent chain delivers all three. -/
def spoiledDelivery : Call :=
  .ofUpdate ⟨3, 100⟩ [] (silentUpdate.delivering (.relay spoiledMessages 0 3 default))

/-- The delivery is accepted, and two of the messages are accounted for: the second one terminates
the chain. -/
theorem accounts_for_messages_spoiled :
    ∃ response, spoiledDelivery.response? misled = some response ∧
      response.attributes.lookup "processed" = some "2" ∧
      ∃ (v : Update.Verified) (o : Update.Outcome) (c : Context),
        response = Update.response v.sender o c.events ∧
        Update.Accounts v.sender spoiledMessages misled o c.events c.store := by
  have hprocessed : ((spoiledDelivery.response? misled).bind fun response =>
      response.attributes.lookup "processed") = some "2" := by
    decide +kernel
  obtain ⟨response, hresponse, hprocessed⟩ := Option.bind_eq_some_iff.mp hprocessed
  obtain ⟨own, v, o, c, -, -, -, hshown, -, haccounts, -⟩ :=
    Call.accounts_for_messages consistent_misled hresponse
  exact ⟨response, hresponse, hprocessed, v, o, c, hshown, haccounts⟩

end Run

end ChainHub
