import ChainHub.Proofs.Hub.Run

/-!
# Chains do not hurt each other

Messages name chains freely, and the hub terminates chains that are named in messages. Still, only
the sender of an update is terminated for what the update contains. Any other chain is terminated
because it is stale, and nothing that comes from it is touched: all that a request which is not its
own update can do to it besides is to send it messages.

* `Spared`: what becomes of a chain in a request that is not an update from it.
* `Step.spared`, `Trace.spared`: no action does more, and no sequence of actions does.
* `Run.spares`: what a call does to the chains that the hub knew before.
-/

namespace ChainHub

/-! ## Actions -/

/-- What becomes of a chain with the given records in a request that is not an update from it: the
given messages are sent to it, and it may be terminated if the request has a reason for that. -/
structure Spared (k : Cause) (id : ChainId) (account : ChainAccount) (channel : Channel)
    (set : ValidatorSet) (sent : List Bytes) (s' : Store) : Prop where
  account : s'.get (.account id) = some account ∨
    (k.Closes id account ∧ s'.get (.account id) = some account.closed)
  channel : ∃ outbox, channel.outbox.appendAll? sent = some outbox ∧
    s'.get (.channel id) = some { channel with outbox := outbox }
  validators : s'.get (.validators id) = some set

/-- An action sends its message to the receiver. -/
theorem Action.sent_receiver {a : Action} {m : Message} (h : a.message? = some m) :
    a.sent m.receiver = [m.encode] := by
  unfold sent
  rw [h]
  exact if_pos rfl

section

variable {k : Cause} {s s' : Store} {a : Action} {acts : List Action} {id : ChainId}
  {account : ChainAccount} {channel : Channel} {set : ValidatorSet}

/-- An action sends messages to no chain but the one that it is about. -/
theorem Step.sent_eq_nil (h : Step k s a s') (hsubject : a.subject? ≠ some id) :
    a.sent id = [] := by
  have hother : ∀ {m : Message}, some m.receiver ≠ some id → m.bytesTo id = [] :=
    fun hne => if_neg fun heq => hne (congrArg some heq)
  cases h with
  | relay => exact hother hsubject
  | notify => exact hother hsubject
  | close _ _ _ hreceiver =>
    subst hreceiver
    exact hother hsubject
  | register => exact hother hsubject
  | _ => rfl

/-- **An action spares all chains but the sender of the update that it is part of.** -/
theorem Step.spared (h : Step k s a s') (hget : s.get (.account id) = some account)
    (hchannel : s.get (.channel id) = some channel) (hset : s.get (.validators id) = some set)
    (hsender : k.sender ≠ some id) : Spared k id account channel set (a.sent id) s' := by
  by_cases hsubject : a.subject? = some id
  · cases h with
    | report => cases hsubject
    | receive hsender' =>
      cases hsubject
      exact absurd hsender' hsender
    | relay _ _ _ hpost =>
      cases hsubject
      obtain ⟨outbox, happend, hnext⟩ := hpost.channel hchannel
      rw [Action.sent_receiver rfl]
      exact ⟨Or.inl ((hpost.get_of_ne (by simp)).trans hget), ⟨outbox, happend, hnext⟩,
        (hpost.get_of_ne (by simp)).trans hset⟩
    | notify _ hsend =>
      cases hsubject
      obtain ⟨outbox, happend, hnext⟩ := hsend.channel hchannel
      rw [Action.sent_receiver rfl]
      exact ⟨Or.inl ((hsend.get_of_ne (by simp) (by simp)).trans hget), ⟨outbox, happend, hnext⟩,
        (hsend.get_of_ne (by simp) (by simp)).trans hset⟩
    | close hget' _ hcause hreceiver hsend =>
      cases hsubject
      rw [hget] at hget'
      cases hget'
      subst hreceiver
      obtain ⟨outbox, happend, hnext⟩ := hsend.channel hchannel
      rw [Action.sent_receiver rfl]
      refine ⟨Or.inr ⟨hcause, ?_⟩, ⟨outbox, happend, ?_⟩, ?_⟩
      · rw [Store.get_put_of_ne _ _ (by simp), Store.get_put_self]
      · rw [Store.get_put_of_ne _ _ (by simp), Store.get_put_of_ne _ _ (by simp), hnext]
      · rw [Store.get_put_of_ne _ _ (by simp), Store.get_put_of_ne _ _ (by simp),
          hsend.get_of_ne (by simp) (by simp), hset]
    | certify hsender' =>
      cases hsubject
      exact absurd hsender' hsender
    | prove hsender' =>
      cases hsubject
      exact absurd hsender' hsender
    | register _ _ _ _ hnew =>
      cases hsubject
      rw [hget] at hnew
      cases hnew
    | freeze =>
      exact ⟨Or.inl ((Store.get_put_of_ne _ _ (by simp)).trans hget),
        ⟨channel.outbox, rfl, (Store.get_put_of_ne _ _ (by simp)).trans hchannel⟩,
        (Store.get_put_of_ne _ _ (by simp)).trans hset⟩
    | replace =>
      exact ⟨Or.inl ((Store.get_put_of_ne _ _ (by simp)).trans hget),
        ⟨channel.outbox, rfl, (Store.get_put_of_ne _ _ (by simp)).trans hchannel⟩,
        (Store.get_put_of_ne _ _ (by simp)).trans hset⟩
  · rw [h.sent_eq_nil hsubject]
    exact ⟨Or.inl ((h.get_eq rfl hsubject).trans hget),
      ⟨channel.outbox, rfl, (h.get_eq rfl hsubject).trans hchannel⟩,
      (h.get_eq rfl hsubject).trans hset⟩

/-- **So does a sequence of actions.** -/
theorem Trace.spared (h : Trace k s acts s') (hget : s.get (.account id) = some account)
    (hchannel : s.get (.channel id) = some channel) (hset : s.get (.validators id) = some set)
    (hsender : k.sender ≠ some id) :
    Spared k id account channel set (Action.sentAll id acts) s' := by
  induction h generalizing account channel with
  | nil => exact ⟨Or.inl hget, ⟨channel.outbox, rfl, hchannel⟩, hset⟩
  | cons h _ ih =>
    obtain ⟨haccount, ⟨outbox, happend, hnext⟩, hset₁⟩ := h.spared hget hchannel hset hsender
    have happend' : ∀ {outbox' : Accumulator} {more : List Bytes},
        outbox.appendAll? more = some outbox' →
          channel.outbox.appendAll? (_ ++ more) = some outbox' := fun hmore => by
      rw [Accumulator.appendAll?_append, happend, Option.bind_some, hmore]
    rcases haccount with hsame | ⟨hcause, hclosed⟩
    · obtain ⟨haccount', ⟨outbox', hmore, hnext'⟩, hset'⟩ := ih hsame hnext hset₁
      exact ⟨haccount', ⟨outbox', happend' hmore, hnext'⟩, hset'⟩
    · obtain ⟨haccount', ⟨outbox', hmore, hnext'⟩, hset'⟩ := ih hclosed hnext hset₁
      refine ⟨Or.inr ⟨hcause, ?_⟩, ⟨outbox', happend' hmore, hnext'⟩, hset'⟩
      rcases haccount' with hsame | ⟨-, hclosed'⟩
      · exact hsame
      · exact hclosed'

end

/-! ## Calls -/

/-- A chain whose last certificate is older than the limit when the call is made. A chain that is
not active yet is looked at only when the call names it. -/
def Call.FindsStale (k : Call) (id : ChainId) (account : ChainAccount) : Prop :=
  livenessLimit < account.age k.header.time ∧
    (account.status = .active ∨ (account.status = .registered ∧ k.accused? = some id))

theorem Call.closes_iff {k : Call} {id : ChainId} {account : ChainAccount} :
    k.cause.Closes id account ↔ k.sender? = some id ∨ k.FindsStale id account := by
  have hstale : account.isStale k.header.time = true ↔
      account.status ≠ .terminated ∧ livenessLimit < account.age k.header.time := by
    unfold ChainAccount.isStale ChainAccount.isLive
    cases account.status <;> simp
  refine or_congr Iff.rfl ?_
  show account.isStale k.header.time = true ∧
    (account.status = .active ∨ k.accused? = some id) ↔ _
  unfold FindsStale
  rw [hstale]
  cases account.status <;> simp

/-- What a call may do to a chain that was known before it. -/
structure Call.Spares (k : Call) (id : ChainId) (account : ChainAccount) (s s' : Store) : Prop where
  /-- The chain is terminated by its own update, or because it is stale. -/
  terminated : account.status ≠ .terminated → s'.IsClosed id →
    k.sender? = some id ∨ k.FindsStale id account
  /-- Its last certificate changes with its own update only. -/
  last : k.sender? ≠ some id →
    ∃ next, s'.get (.account id) = some next ∧ next.last = account.last
  /-- So do its validators. -/
  validators : k.sender? ≠ some id → s'.get (.validators id) = s.get (.validators id)
  /-- Of its channel, only the outbox changes otherwise, and it is extended. -/
  channel : k.sender? ≠ some id → ∃ channel outbox sent, s.get (.channel id) = some channel ∧
    channel.outbox.appendAll? sent = some outbox ∧
      s'.get (.channel id) = some { channel with outbox := outbox }

theorem Call.spares_of_consistent {k : Call} {s : Store} (hs : Consistent s) {id : ChainId}
    {account : ChainAccount} (hget : s.get (.account id) = some account) :
    k.Spares id account s (k.after s) := by
  obtain ⟨acts, htrace⟩ := k.exists_trace hs
  obtain ⟨channel, hchannel⟩ := hs.channel id account hget
  obtain ⟨set, hset⟩ := hs.validators id account hget
  have hspared : k.sender? ≠ some id →
      Spared k.cause id account channel set (Action.sentAll id acts) (k.after s) :=
    htrace.spared hget hchannel hset
  refine ⟨?_, ?_, ?_, ?_⟩
  · rintro hopen ⟨next, hnext, hterminated⟩
    rw [← Call.closes_iff]
    by_cases hsender : k.sender? = some id
    · exact Or.inl hsender
    · rcases (hspared hsender).account with hsame | ⟨hcause, -⟩
      · rw [hnext] at hsame
        cases hsame
        exact absurd hterminated hopen
      · exact hcause
  · intro hsender
    rcases (hspared hsender).account with hsame | ⟨-, hclosed⟩
    · exact ⟨account, hsame, rfl⟩
    · exact ⟨account.closed, hclosed, rfl⟩
  · intro hsender
    rw [(hspared hsender).validators, hset]
  · intro hsender
    obtain ⟨outbox, happend, hnext⟩ := (hspared hsender).channel
    exact ⟨channel, outbox, _, hchannel, happend, hnext⟩

/-- **A chain is hurt only by itself or by being stale.** In every reachable store no call but its
own update touches what comes from a chain, and none terminates it unless it is stale. -/
theorem Run.spares (r : Run) (k : Call) {id : ChainId} {account : ChainAccount}
    (hget : r.store.get (.account id) = some account) :
    k.Spares id account r.store (k.after r.store) :=
  Call.spares_of_consistent r.consistent hget

/-- The silent chain is not terminated before its registration is older than the limit. -/
theorem Run.spares_waiting :
    ∃ account, waiting.store.get (.account silentChain) = some account ∧
      account.status = .registered ∧ livenessLimit < account.age 3000000 := by
  obtain ⟨account, hget, hstatus⟩ := registered_silentChain
  have hspares := waiting.spares
    ⟨⟨2, 3000000⟩, [], .terminateForLiveness silentChain.toList⟩ hget
  refine ⟨account, hget, hstatus, ?_⟩
  rcases hspares.terminated (by simp [hstatus]) isClosed_silentChain with hsender | hstale
  · cases hsender
  · exact hstale.1

end ChainHub
