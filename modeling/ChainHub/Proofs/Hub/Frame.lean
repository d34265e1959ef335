import ChainHub.Proofs.Hub.Consistent

/-!
# What actions change and what they leave alone

For every kind of record there is one lemma on single actions, by cases, and one on sequences.

* `Trace.account_eq`: the account of a chain that no action is about stays as it is.
* `Trace.inboxOf`, `Trace.outboxOf`: inboxes and outboxes grow by what is received and sent, and by
  nothing else.
* `Trace.sentTo`: the events of a sequence of actions say what was sent.
* `Trace.get_of_isClosed`: nothing about a terminated chain changes, its frozen outbox apart.
* `Step.terminatedOutbox_cases`: all that happens to frozen outboxes.
-/

namespace ChainHub

namespace Action

/-- What several actions put into the inbox from a chain. -/
def receivedAll (id : ChainId) (acts : List Action) : List Bytes := acts.flatMap (received id)

/-- What several actions put into the outbox toward a chain. -/
def sentAll (id : ChainId) (acts : List Action) : List Bytes := acts.flatMap (sent id)

/-- The roots of a chain's own outbox that several actions store. -/
def provedAll (id : ChainId) (acts : List Action) : List Digest := acts.flatMap (proved id)

/-- The events of several actions that account for inbound messages. -/
def reportsAll (acts : List Action) : List Event := acts.flatMap reports

variable {acts more : List Action}

theorem receivedAll_append (id : ChainId) (acts more : List Action) :
    receivedAll id (acts ++ more) = receivedAll id acts ++ receivedAll id more :=
  List.flatMap_append

theorem provedAll_append (id : ChainId) (acts more : List Action) :
    provedAll id (acts ++ more) = provedAll id acts ++ provedAll id more :=
  List.flatMap_append

theorem sentAll_append (id : ChainId) (acts more : List Action) :
    sentAll id (acts ++ more) = sentAll id acts ++ sentAll id more :=
  List.flatMap_append

theorem reportsAll_append (acts more : List Action) :
    reportsAll (acts ++ more) = reportsAll acts ++ reportsAll more :=
  List.flatMap_append

theorem reportsAll_eq_filter (acts : List Action) :
    reportsAll acts = (acts.flatMap events).filter Event.isProcessed := by
  rw [List.filter_flatMap]
  rfl

end Action

/-- What is read only in events that account for inbound messages is read in these alone. -/
theorem filterMap_isProcessed {α : Type} {f : Event → Option α}
    (h : ∀ event, event.isProcessed = false → f event = none) (events : List Event) :
    (events.filter Event.isProcessed).filterMap f = events.filterMap f := by
  rw [List.filterMap_filter]
  congr 1
  funext event
  cases hprocessed : event.isProcessed with
  | true => rfl
  | false => rw [if_neg (by simp), h event hprocessed]

/-- What events say has entered the outbox toward a chain. -/
def sentTo (id : ChainId) (events : List Event) : List Bytes := events.filterMap (Event.sentTo? id)

section

variable {k : Cause} {s s' : Store} {a : Action} {acts : List Action} {id : ChainId}

/-! ## Accounts -/

theorem Step.account_eq (h : Step k s a s') (hother : a.account? ≠ some id) :
    s'.get (.account id) = s.get (.account id) := by
  have hne : ∀ {id'}, (some id' : Option ChainId) ≠ some id → ¬ id = id' :=
    fun hne heq => hne (congrArg some heq.symm)
  cases h with
  | report => rfl
  | relay _ _ _ hpost => exact hpost.get_of_ne (by simp)
  | notify _ hsend => exact hsend.get_of_ne (by simp) (by simp)
  | close _ _ _ _ hsend =>
    rw [Store.get_put_of_ne _ _ (by simp), Store.get_put_account, if_neg (hne hother),
      hsend.get_of_ne (by simp) (by simp)]
  | certify => rw [Store.get_put_of_ne _ _ (by simp), Store.get_put_account, if_neg (hne hother)]
  | register _ _ _ _ _ _ _ _ hsend =>
    rw [hsend.get_of_ne (by simp) (by simp), Store.get_registered_account, if_neg (hne hother)]
  | _ => exact Store.get_put_of_ne _ _ (by simp)

theorem Trace.account_eq (h : Trace k s acts s') (hother : ∀ a ∈ acts, a.account? ≠ some id) :
    s'.get (.account id) = s.get (.account id) := by
  induction h with
  | nil => rfl
  | cons h _ ih =>
    rw [List.forall_mem_cons] at hother
    rw [ih hother.2, h.account_eq hother.1]

/-- A chain gets its account when it registers. -/
theorem Step.register_of_new (h : Step k s a s') (hnew : s.get (.account id) = none)
    {account : ChainAccount} (hget : s'.get (.account id) = some account) :
    ∃ name handshake, a = .register id name handshake := by
  by_cases haccount : a.account? = some id
  · cases h with
    | close hget' =>
      cases haccount
      rw [hnew] at hget'
      cases hget'
    | certify _ _ hget' =>
      cases haccount
      rw [hnew] at hget'
      cases hget'
    | register =>
      cases haccount
      exact ⟨_, _, rfl⟩
    | _ => cases haccount
  · rw [h.account_eq haccount, hnew] at hget
    cases hget

/-- Validators are written with the account only. -/
theorem Step.validators_eq (h : Step k s a s') (hother : a.account? ≠ some id) :
    s'.get (.validators id) = s.get (.validators id) := by
  have hne : ∀ {id'}, (some id' : Option ChainId) ≠ some id → ¬ id = id' :=
    fun hne heq => hne (congrArg some heq.symm)
  cases h with
  | report => rfl
  | relay _ _ _ hpost => exact hpost.get_of_ne (by simp)
  | notify _ hsend => exact hsend.get_of_ne (by simp) (by simp)
  | close _ _ _ _ hsend =>
    rw [Store.get_put_of_ne _ _ (by simp), Store.get_put_of_ne _ _ (by simp),
      hsend.get_of_ne (by simp) (by simp)]
  | certify =>
    rw [Store.get_put_validators, if_neg (hne hother), Store.get_put_of_ne _ _ (by simp)]
  | register _ _ _ _ _ _ _ _ hsend =>
    rw [hsend.get_of_ne (by simp) (by simp), Store.get_registered_validators, if_neg (hne hother)]
  | _ => exact Store.get_put_of_ne _ _ (by simp)

/-! ## Channels -/

/-- **The inbox from a chain grows by what is received**, and by nothing else. -/
theorem Step.inboxOf (h : Step k s a s') (id : ChainId) :
    (s.inboxOf id).appendAll? (a.received id) = some (s'.inboxOf id) := by
  cases h with
  | report => rfl
  | receive _ _ hchannel happend => exact Store.appendAll?_inboxOf hchannel happend id
  | relay _ _ _ hpost => exact congrArg some (hpost.inboxOf id).symm
  | notify _ hsend => exact congrArg some (hsend.inboxOf id).symm
  | close _ _ _ _ hsend =>
    rw [Store.inboxOf_put (by simp), Store.inboxOf_put (by simp), hsend.inboxOf]
    rfl
  | certify =>
    rw [Store.inboxOf_put (by simp), Store.inboxOf_put (by simp)]
    rfl
  | prove _ _ hchannel =>
    refine congrArg some (Store.inboxOf_eq_put_channel hchannel ?_ id).symm
    rfl
  | register _ _ _ _ _ hnone _ _ hsend =>
    rw [hsend.inboxOf, Store.inboxOf_registered]
    split
    · rename_i hid
      rw [hid, Store.inboxOf, hnone]
      rfl
    · rfl
  | freeze =>
    rw [Store.inboxOf_put (by simp)]
    rfl
  | replace =>
    rw [Store.inboxOf_put (by simp)]
    rfl

/-- **The outbox toward a chain grows by what is sent**, and by nothing else. -/
theorem Step.outboxOf (h : Step k s a s') (id : ChainId) :
    (s.outboxOf id).appendAll? (a.sent id) = some (s'.outboxOf id) := by
  cases h with
  | report => rfl
  | receive _ _ hchannel =>
    refine congrArg some (Store.outboxOf_eq_put_channel hchannel ?_ id).symm
    rfl
  | relay _ _ _ hpost => exact hpost.outboxOf id
  | notify _ hsend => exact hsend.outboxOf id
  | close _ _ _ _ hsend =>
    rw [Store.outboxOf_put (by simp), Store.outboxOf_put (by simp)]
    exact hsend.outboxOf id
  | certify =>
    rw [Store.outboxOf_put (by simp), Store.outboxOf_put (by simp)]
    rfl
  | prove _ _ hchannel =>
    refine congrArg some (Store.outboxOf_eq_put_channel hchannel ?_ id).symm
    rfl
  | @register id' name set config _ _ _ _ _ _ _ hnone _ _ hsend =>
    have hnew : (s.registered id' (Registration.account name set k.now)
        (.fresh config.feeToken config.minFeePerByte) set).outboxOf id = s.outboxOf id := by
      rw [Store.outboxOf_registered]
      split
      · rename_i hid
        rw [hid, Store.outboxOf, hnone]
        rfl
      · rfl
    rw [← hnew]
    exact hsend.outboxOf id
  | freeze =>
    rw [Store.outboxOf_put (by simp)]
    rfl
  | replace =>
    rw [Store.outboxOf_put (by simp)]
    rfl

/-- An action that is not about a chain proves nothing for it. -/
theorem Action.proved_of_subject_ne (h : a.subject? ≠ some id) : a.proved id = [] := by
  cases a with
  | prove id' root =>
    have hne : ¬ id' = id := fun heq => h (congrArg some heq)
    rw [proved, if_neg hne]
  | _ => rfl

/-- **A channel keeps its token**, and the root of the partner's outbox until one is proven. -/
theorem Step.channel (h : Step k s a s') {channel : Channel}
    (hget : s.get (.channel id) = some channel) :
    ∃ next, s'.get (.channel id) = some next ∧ next.feeToken = channel.feeToken ∧
      next.partnerOutboxRoot = (a.proved id).getLast?.getD channel.partnerOutboxRoot := by
  by_cases hsubject : a.subject? = some id
  · cases h with
    | report => exact ⟨channel, hget, rfl, rfl⟩
    | receive _ _ hchannel =>
      cases hsubject
      obtain rfl := Option.some.inj (hget.symm.trans hchannel)
      exact ⟨_, Store.get_put_self _ _ _, rfl, rfl⟩
    | relay _ _ _ hpost =>
      cases hsubject
      obtain ⟨outbox, -, hnext⟩ := hpost.channel hget
      exact ⟨_, hnext, rfl, rfl⟩
    | notify _ hsend =>
      cases hsubject
      obtain ⟨outbox, -, hnext⟩ := hsend.channel hget
      exact ⟨_, hnext, rfl, rfl⟩
    | close _ _ _ hreceiver hsend =>
      cases hsubject
      subst hreceiver
      obtain ⟨outbox, -, hnext⟩ := hsend.channel hget
      refine ⟨{ channel with outbox := outbox }, ?_, rfl, rfl⟩
      rw [Store.get_put_of_ne _ _ (by simp), Store.get_put_of_ne _ _ (by simp), hnext]
    | prove _ _ hchannel =>
      cases hsubject
      obtain rfl := Option.some.inj (hget.symm.trans hchannel)
      refine ⟨_, Store.get_put_self _ _ _, rfl, ?_⟩
      rw [Action.proved, if_pos rfl]
      rfl
    | register _ _ _ _ _ hnone =>
      cases hsubject
      rw [hnone] at hget
      cases hget
    | _ =>
      refine ⟨channel, ?_, rfl, rfl⟩
      simpa [Store.get_put_of_ne] using hget
  · rw [Action.proved_of_subject_ne hsubject]
    exact ⟨channel, (h.get_eq rfl hsubject).trans hget, rfl, rfl⟩

/-- The root of the partner's outbox in a channel is the last one that was proven. -/
theorem Trace.channel (h : Trace k s acts s') {channel : Channel}
    (hget : s.get (.channel id) = some channel) :
    ∃ next, s'.get (.channel id) = some next ∧
      next.partnerOutboxRoot =
        (Action.provedAll id acts).getLast?.getD channel.partnerOutboxRoot := by
  induction h generalizing channel with
  | nil => exact ⟨channel, hget, rfl⟩
  | cons h _ ih =>
    obtain ⟨middle, hmiddle, -, hproved⟩ := h.channel hget
    obtain ⟨next, hnext, hrest⟩ := ih hmiddle
    refine ⟨next, hnext, ?_⟩
    unfold Action.provedAll at hrest ⊢
    rw [hrest, hproved, List.flatMap_cons, List.getLast?_append, Option.getD_or]

theorem Trace.inboxOf (h : Trace k s acts s') (id : ChainId) :
    (s.inboxOf id).appendAll? (Action.receivedAll id acts) = some (s'.inboxOf id) := by
  induction h with
  | nil => rfl
  | cons h _ ih =>
    unfold Action.receivedAll at ih ⊢
    rw [List.flatMap_cons, Accumulator.appendAll?_append, h.inboxOf, Option.bind_some, ih]

theorem Trace.outboxOf (h : Trace k s acts s') (id : ChainId) :
    (s.outboxOf id).appendAll? (Action.sentAll id acts) = some (s'.outboxOf id) := by
  induction h with
  | nil => rfl
  | cons h _ ih =>
    unfold Action.sentAll at ih ⊢
    rw [List.flatMap_cons, Accumulator.appendAll?_append, h.outboxOf, Option.bind_some, ih]

/-- What is sent to a chain is a message for it, which one of the actions puts into its outbox. -/
theorem Trace.exists_of_mem_sentAll (h : Trace k s acts s') {bytes : Bytes}
    (hmem : bytes ∈ Action.sentAll id acts) :
    ∃ m a later s₁ s₂, Step k s₁ a s₂ ∧ Trace k s₂ later s' ∧ a.message? = some m ∧
      m.receiver = id ∧ m.encode = bytes := by
  induction h with
  | nil => cases hmem
  | @cons s s₁ s₂ a acts h hrest ih =>
    rcases List.mem_append.mp hmem with hfirst | hlater
    · unfold Action.sent at hfirst
      cases hm : a.message? with
      | none =>
        rw [hm] at hfirst
        cases hfirst
      | some m =>
        rw [hm] at hfirst
        exact ⟨m, a, acts, s, s₁, h, hrest, hm, Message.mem_bytesTo_iff.mp hfirst⟩
    · exact ih hlater

/-! ## Events -/

theorem sentTo_append (id : ChainId) (events more : List Event) :
    sentTo id (events ++ more) = sentTo id events ++ sentTo id more :=
  List.filterMap_append

theorem sentTo_sent (id : ChainId) (m : Message) : sentTo id [.sent m] = m.bytesTo id := by
  unfold sentTo Message.bytesTo
  by_cases hid : m.receiver = id <;> simp [Event.sentTo?, hid]

/-- An event that is not shown as such does not say that a message was sent. -/
theorem sentTo_of_isSent_eq_false {event : Event} (h : event.isSent = false) (id : ChainId) :
    sentTo id [event] = [] := by
  cases event with
  | sent m =>
    have hsent : (Event.sent m).isSent = true := rfl
    rw [hsent] at h
    cases h
  | _ => rfl

/-- The events of an action say what it sends. -/
theorem Step.sentTo (h : Step k s a s') (id : ChainId) :
    ChainHub.sentTo id a.events = a.sent id := by
  cases h with
  | report hsent => exact sentTo_of_isSent_eq_false hsent id
  | @relay m => exact sentTo_sent id m
  | @notify m => exact sentTo_sent id m
  | @close _ _ notice =>
    refine (sentTo_append id [.sent notice] _).trans ?_
    rw [sentTo_sent]
    exact List.append_nil _
  | register => exact (sentTo_append id [_] [_]).trans (sentTo_sent id _)
  | _ => rfl

/-- **The events of a request say what was sent.** -/
theorem Trace.sentTo (h : Trace k s acts s') (id : ChainId) :
    ChainHub.sentTo id (acts.flatMap Action.events) = Action.sentAll id acts := by
  induction h with
  | nil => rfl
  | cons h _ ih =>
    unfold Action.sentAll at *
    rw [List.flatMap_cons, sentTo_append, List.flatMap_cons, ih, h.sentTo]

/-! ## Terminated chains -/

/-- What is kept of a terminated chain. -/
def Slot.IsAbout (id : ChainId) (slot : Slot) : Prop :=
  slot = .account id ∨ slot = .validators id ∨ slot = .channel id ∨ slot = .terminatedState id

/-- **Nothing but the frozen outbox of a terminated chain is ever acted upon.** -/
theorem Step.of_subject_isClosed (h : Step k s a s') (hclosed : s.IsClosed id)
    (hsubject : a.subject? = some id) :
    (∃ outbox, a = .freeze id outbox) ∨ ∃ root, a = .replace id root := by
  cases h with
  | report => cases hsubject
  | receive _ hactive =>
    cases hsubject
    exact absurd hclosed hactive.isOpen.not_isClosed
  | relay _ _ hactive =>
    cases hsubject
    exact absurd hclosed hactive.isOpen.not_isClosed
  | notify hactive =>
    cases hsubject
    exact absurd hclosed hactive.isOpen.not_isClosed
  | close hget hopen =>
    cases hsubject
    exact absurd hclosed (Store.IsOpen.not_isClosed ⟨_, hget, hopen⟩)
  | certify _ _ hget hopen =>
    cases hsubject
    exact absurd hclosed (Store.IsOpen.not_isClosed ⟨_, hget, hopen⟩)
  | prove _ hactive =>
    cases hsubject
    exact absurd hclosed hactive.isOpen.not_isClosed
  | register _ _ _ _ hnew =>
    cases hsubject
    exact absurd rfl (hclosed.ne_of_new hnew)
  | freeze =>
    cases hsubject
    exact Or.inl ⟨_, rfl⟩
  | replace =>
    cases hsubject
    exact Or.inr ⟨_, rfl⟩

/-- **No action changes what is kept of a terminated chain.** -/
theorem Step.get_of_isClosed (h : Step k s a s') (hclosed : s.IsClosed id) {slot : Slot}
    (hslot : slot.IsAbout id) : s'.get slot = s.get slot := by
  by_cases hsubject : a.subject? = some id
  · have hne : Slot.terminatedOutbox id ≠ slot := by
      rcases hslot with rfl | rfl | rfl | rfl <;> simp
    rcases h.of_subject_isClosed hclosed hsubject with ⟨outbox, rfl⟩ | ⟨root, rfl⟩
    · cases h
      exact Store.get_put_of_ne _ _ hne
    · cases h
      exact Store.get_put_of_ne _ _ hne
  · refine h.get_eq ?_ hsubject
    rcases hslot with rfl | rfl | rfl | rfl <;> rfl

/-- A terminated chain stays terminated. -/
theorem Step.isClosed (h : Step k s a s') (hclosed : s.IsClosed id) : s'.IsClosed id := by
  have hslot : (Slot.account id).IsAbout id := Or.inl rfl
  have heq := h.get_of_isClosed hclosed hslot
  obtain ⟨account, hget, hstatus⟩ := hclosed
  exact ⟨account, heq.trans hget, hstatus⟩

theorem Trace.isClosed (h : Trace k s acts s') (hclosed : s.IsClosed id) : s'.IsClosed id :=
  h.induction Step.isClosed hclosed

/-- A chain that is closed is terminated. -/
theorem Trace.isClosed_of_close {notice : Message} {stateRoot : Digest}
    (h : Trace k s [.close id notice stateRoot] s') : s'.IsClosed id := by
  cases h.step with
  | @close _ account =>
    refine ⟨account.closed, ?_, rfl⟩
    rw [Store.get_put_of_ne _ _ (by simp)]
    exact Store.get_put_self _ _ _

theorem Trace.get_of_isClosed (h : Trace k s acts s') (hclosed : s.IsClosed id) {slot : Slot}
    (hslot : slot.IsAbout id) : s'.get slot = s.get slot := by
  induction h with
  | nil => rfl
  | cons h _ ih =>
    rw [ih (h.isClosed hclosed), h.get_of_isClosed hclosed hslot]

/-! ## Frozen outboxes -/

/-- **What happens to frozen outboxes**: they stay, or a recovery of their chain makes them or
replaces their root. -/
theorem Step.terminatedOutbox_cases (h : Step k s a s') (id : ChainId) :
    s'.get (.terminatedOutbox id) = s.get (.terminatedOutbox id) ∨
      (k.recovering = some id ∧
        ((s.get (.terminatedOutbox id) = none ∧ s.IsClosed id ∧
          ∃ channel size, s.get (.channel id) = some channel ∧
            s'.get (.terminatedOutbox id) = some (channel.frozenOutbox size)) ∨
          ∃ outbox root, s.get (.terminatedOutbox id) = some outbox ∧
            s'.get (.terminatedOutbox id) = some { outbox with root := root })) := by
  by_cases hsubject : a.subject? = some id
  · cases h with
    | report => exact Or.inl rfl
    | relay _ _ _ hpost => exact Or.inl (hpost.get_of_ne (by simp))
    | notify _ hsend => exact Or.inl (hsend.get_of_ne (by simp) (by simp))
    | close _ _ _ _ hsend =>
      refine Or.inl ?_
      rw [Store.get_put_of_ne _ _ (by simp), Store.get_put_of_ne _ _ (by simp),
        hsend.get_of_ne (by simp) (by simp)]
    | register _ _ _ _ _ _ _ _ hsend =>
      refine Or.inl ?_
      rw [hsend.get_of_ne (by simp) (by simp)]
      simp [Store.registered, Store.get_put_of_ne]
    | freeze hcause hclosed hnone hchannel =>
      cases hsubject
      exact Or.inr ⟨hcause, Or.inl ⟨hnone, hclosed, _, _, hchannel, Store.get_put_self _ _ _⟩⟩
    | replace hcause hget =>
      cases hsubject
      exact Or.inr ⟨hcause, Or.inr ⟨_, _, hget, Store.get_put_self _ _ _⟩⟩
    | _ => exact Or.inl (by simp [Store.get_put_of_ne])
  · exact Or.inl (h.get_eq rfl hsubject)

/-- **A frozen outbox stays**, and only its root changes. -/
theorem Step.terminatedOutbox (h : Step k s a s') {outbox : TerminatedOutbox}
    (hget : s.get (.terminatedOutbox id) = some outbox) :
    ∃ root, s'.get (.terminatedOutbox id) = some { outbox with root := root } := by
  rcases h.terminatedOutbox_cases id with
    heq | ⟨-, ⟨hnone, -⟩ | ⟨outbox', root, hget', hnext⟩⟩
  · exact ⟨outbox.root, heq.trans hget⟩
  · rw [hget] at hnone
    cases hnone
  · rw [hget] at hget'
    cases hget'
    exact ⟨root, hnext⟩

theorem Trace.terminatedOutbox (h : Trace k s acts s') {outbox : TerminatedOutbox}
    (hget : s.get (.terminatedOutbox id) = some outbox) :
    ∃ root, s'.get (.terminatedOutbox id) = some { outbox with root := root } := by
  induction h generalizing outbox with
  | nil => exact ⟨outbox.root, hget⟩
  | cons h _ ih =>
    obtain ⟨root, hroot⟩ := h.terminatedOutbox hget
    obtain ⟨root', hroot'⟩ := ih hroot
    exact ⟨root', hroot'⟩

/-- Only a recovery touches the frozen outbox of its chain. -/
theorem Trace.terminatedOutbox_eq (h : Trace k s acts s') (hcause : k.recovering ≠ some id) :
    s'.get (.terminatedOutbox id) = s.get (.terminatedOutbox id) := by
  induction h with
  | nil => rfl
  | cons h _ ih =>
    rcases h.terminatedOutbox_cases id with heq | ⟨hrecovering, -⟩
    · rw [ih, heq]
    · exact absurd hrecovering hcause

/-- Only an update fills the inbox from its sender. -/
theorem Step.received_eq_nil (h : Step k s a s') (hcause : k.sender ≠ some id) :
    a.received id = [] := by
  cases h with
  | @receive id' _ _ _ hsender =>
    have hid : ¬ id' = id := by
      rintro rfl
      exact hcause hsender
    rw [Action.received, if_neg hid]
  | _ => rfl

theorem Trace.receivedAll_eq_nil (h : Trace k s acts s') (hcause : k.sender ≠ some id) :
    Action.receivedAll id acts = [] := by
  induction h with
  | nil => rfl
  | cons h _ ih =>
    unfold Action.receivedAll at *
    rw [List.flatMap_cons, h.received_eq_nil hcause, ih]
    rfl

end

end ChainHub
