import ChainHub.Proofs.Hub.Run

/-!
# The registry of chains only moves forward

* `ChainAccount.Advances`: an account keeps its chain, its status moves toward termination, and its
  last certificate is replaced by newer ones only.
* `Step.account_advances`, `Trace.account_advances`: every action moves accounts forward.
* `Settled`: nothing about a terminated chain changes, apart from its frozen outbox.
* `Call.SettlesAtOnce`: not even for the rest of the call that terminates it.
* `Run.chain_advances`: what a call does to a chain that the hub knew before.

Not all that appends to an outbox asks whether its chain is terminated. That the rest of a call
still leaves alone what it has terminated lies in the actions: apart from its frozen outbox none of
them touches a terminated chain (`Step.get_of_isClosed`).
-/

namespace ChainHub

/-! ## Moving forward -/

/-- How a status changes. -/
inductive ChainStatus.Moves : ChainStatus → ChainStatus → Prop
  | stay (status : ChainStatus) : Moves status status
  | activate : Moves .registered .active
  | terminate {status : ChainStatus} (h : status ≠ .terminated) : Moves status .terminated

theorem ChainStatus.Moves.trans {a b c : ChainStatus} (hab : a.Moves b) (hbc : b.Moves c) :
    a.Moves c := by
  cases hab with
  | stay => exact hbc
  | activate =>
    cases hbc with
    | stay => exact .activate
    | terminate => exact .terminate (by simp)
  | terminate h =>
    cases hbc with
    | stay => exact .terminate h
    | terminate h' => exact absurd rfl h'

/-- A chain that has certified something is not registered anew. -/
theorem ChainStatus.Moves.ne_registered {status next : ChainStatus} (h : status.Moves next)
    (hstatus : status ≠ .registered) : next ≠ .registered := by
  cases h with
  | stay => exact hstatus
  | activate => nofun
  | terminate => nofun

/-- A certificate is newer than another one and not from the future. -/
structure CertificateSummary.IsNewer (next last : CertificateSummary) (now : UInt64) : Prop where
  height : last.height < next.height
  timestamp : last.timestamp < next.timestamp
  past : next.timestamp ≤ now

theorem CertificateSummary.IsNewer.trans {a b c : CertificateSummary} {now now' : UInt64}
    (hcb : c.IsNewer b now) (hba : b.IsNewer a now') : c.IsNewer a now where
  height := UInt64.lt_trans hba.height hcb.height
  timestamp := UInt64.lt_trans hba.timestamp hcb.timestamp
  past := hcb.past

/-- A verified certificate is newer than the last one. -/
theorem Certificate.isNewer_of_verify {certificate : Certificate} {id : ChainId}
    {last : CertificateSummary} {set : ValidatorSet} {now : UInt64} {expected : Digest}
    (h : certificate.verify id last set now expected = .ok ()) :
    certificate.summary.IsNewer last now := by
  unfold Certificate.verify at h
  dsimp only at h
  simp only [Attempt.throw_bind, Attempt.ite_throw_eq_ok_iff] at h
  obtain ⟨hheight, htimestamp, -⟩ := h
  rw [not_or] at htimestamp
  exact {
    height := UInt64.not_le.mp hheight
    timestamp := UInt64.not_le.mp htimestamp.1
    past := UInt64.not_lt.mp htimestamp.2 }

/-- How an account changes while a request is carried out. -/
structure ChainAccount.Advances (k : Cause) (id : ChainId) (account next : ChainAccount) :
    Prop where
  status : account.status.Moves next.status
  last : next.last = account.last ∨
    (k.sender = some id ∧ next.last.IsNewer account.last k.now)

section

variable {k : Cause} {s s' : Store} {a : Action} {acts : List Action} {id : ChainId}

theorem ChainAccount.Advances.refl (k : Cause) (id : ChainId) (account : ChainAccount) :
    account.Advances k id account :=
  ⟨.stay _, Or.inl rfl⟩

theorem ChainAccount.Advances.trans {a b c : ChainAccount} (hab : a.Advances k id b)
    (hbc : b.Advances k id c) : a.Advances k id c := by
  refine ⟨hab.status.trans hbc.status, ?_⟩
  rcases hbc.last with heq | ⟨hsender, hnewer⟩
  · rw [heq]
    exact hab.last
  · rcases hab.last with heq | ⟨-, hnewer'⟩
    · exact Or.inr ⟨hsender, heq ▸ hnewer⟩
    · exact Or.inr ⟨hsender, hnewer.trans hnewer'⟩

/-- **Every action moves accounts forward.** -/
theorem Step.account_advances (h : Step k s a s') {account : ChainAccount}
    (hget : s.get (.account id) = some account) :
    ∃ next, s'.get (.account id) = some next ∧ account.Advances k id next := by
  by_cases hother : a.account? = some id
  · cases h with
    | close hget' hopen =>
      cases hother
      rw [hget] at hget'
      cases hget'
      refine ⟨account.closed, ?_, .terminate hopen, Or.inl rfl⟩
      rw [Store.get_put_of_ne _ _ (by simp)]
      exact Store.get_put_self _ _ _
    | @certify _ _ certificate _ _ _ hsender _ hget' hopen _ _ hverify =>
      cases hother
      rw [hget] at hget'
      cases hget'
      refine ⟨account.certified certificate, ?_, ?_,
        Or.inr ⟨hsender, Certificate.isNewer_of_verify hverify⟩⟩
      · rw [Store.get_put_of_ne _ _ (by simp)]
        exact Store.get_put_self _ _ _
      show account.status.Moves .active
      cases hstatus : account.status with
      | registered => exact .activate
      | active => exact .stay _
      | terminated => exact absurd hstatus hopen
    | register _ _ _ _ hnew =>
      cases hother
      rw [hget] at hnew
      cases hnew
    | _ => cases hother
  · refine ⟨account, ?_, .refl k id account⟩
    rw [h.account_eq hother, hget]

theorem Trace.account_advances (h : Trace k s acts s') {account : ChainAccount}
    (hget : s.get (.account id) = some account) :
    ∃ next, s'.get (.account id) = some next ∧ account.Advances k id next := by
  induction h generalizing account with
  | nil => exact ⟨account, hget, .refl k id account⟩
  | cons h _ ih =>
    obtain ⟨account₁, hget₁, hadvances₁⟩ := h.account_advances hget
    obtain ⟨account₂, hget₂, hadvances₂⟩ := ih hget₁
    exact ⟨account₂, hget₂, hadvances₁.trans hadvances₂⟩

/-- The inbox from a chain and the outbox toward it only grow. -/
theorem Trace.size_le (h : Trace k s acts s') (id : ChainId) :
    (s.inboxOf id).size ≤ (s'.inboxOf id).size ∧ (s.outboxOf id).size ≤ (s'.outboxOf id).size := by
  have hinbox := Accumulator.size_of_appendAll (h.inboxOf id)
  have houtbox := Accumulator.size_of_appendAll (h.outboxOf id)
  rw [UInt64.le_iff_toNat_le, UInt64.le_iff_toNat_le]
  omega

end

/-! ## Terminated chains -/

/-- What stays of a terminated chain: all its records, and its frozen outbox up to the root. -/
structure Settled (id : ChainId) (s s' : Store) : Prop where
  kept : ∀ slot : Slot, slot.IsAbout id → s'.get slot = s.get slot
  frozen : ∀ outbox, s.get (.terminatedOutbox id) = some outbox →
    ∃ root, s'.get (.terminatedOutbox id) = some { outbox with root := root }

theorem Settled.refl (id : ChainId) (s : Store) : Settled id s s :=
  ⟨fun _ _ => rfl, fun outbox h => ⟨outbox.root, h⟩⟩

theorem Settled.trans {id : ChainId} {s s' s'' : Store} (h : Settled id s s')
    (h' : Settled id s' s'') : Settled id s s'' where
  kept slot hslot := (h'.kept slot hslot).trans (h.kept slot hslot)
  frozen outbox hget := by
    obtain ⟨root, hroot⟩ := h.frozen outbox hget
    obtain ⟨root', hroot'⟩ := h'.frozen _ hroot
    exact ⟨root', hroot'⟩

theorem Trace.settled {k : Cause} {s s' : Store} {acts : List Action} {id : ChainId}
    (h : Trace k s acts s') (hclosed : s.IsClosed id) : Settled id s s' :=
  ⟨fun _ hslot => h.get_of_isClosed hclosed hslot, fun _ hget => h.terminatedOutbox hget⟩

/-- **No later call changes anything about a terminated chain.** -/
theorem settled_afterAll {s : Store} (hs : Consistent s) {id : ChainId} (hclosed : s.IsClosed id)
    (calls : List Call) : Settled id s (afterAll calls s) := by
  induction calls generalizing s with
  | nil => exact .refl id s
  | cons k rest ih =>
    obtain ⟨acts, htrace⟩ := k.exists_trace hs
    exact (htrace.settled hclosed).trans
      (ih (Call.consistent_after hs) (htrace.isClosed hclosed))

/-! ## Calls -/

/-- What a call does to a chain that was known before it. -/
structure Call.Advances (k : Call) (id : ChainId) (account : ChainAccount) (channel : Channel)
    (s s' : Store) : Prop where
  status : ∃ next, s'.get (.account id) = some next ∧ account.status.Moves next.status
  last : ∀ next, s'.get (.account id) = some next → next.last ≠ account.last →
    k.sender? = some id ∧ next.last.IsNewer account.last k.header.time
  channel : ∃ next, s'.get (.channel id) = some next ∧
    channel.inbox.size ≤ next.inbox.size ∧ channel.outbox.size ≤ next.outbox.size
  nonce : ∃ own next, s.get .own = some own ∧ s'.get .own = some next ∧ own.nonce ≤ next.nonce

theorem Call.advances {k : Call} {s : Store} (hs : Consistent s) {id : ChainId}
    {account : ChainAccount} {channel : Channel} (hget : s.get (.account id) = some account)
    (hchannel : s.get (.channel id) = some channel) :
    k.Advances id account channel s (k.after s) := by
  obtain ⟨acts, htrace⟩ := k.exists_trace hs
  obtain ⟨next, hnext, hadvances⟩ := htrace.account_advances hget
  obtain ⟨channel', hchannel'⟩ := (htrace.consistent hs).channel id next hnext
  have hsize := htrace.size_le id
  rw [Store.inboxOf_eq hchannel, Store.inboxOf_eq hchannel', Store.outboxOf_eq hchannel,
    Store.outboxOf_eq hchannel'] at hsize
  obtain ⟨own, hown, -⟩ := hs.own
  obtain ⟨nonce, hnonce, hown'⟩ := htrace.own hown
  refine ⟨⟨next, hnext, hadvances.status⟩, ?_, ⟨channel', hchannel', hsize⟩,
    ⟨own, _, hown, hown', hnonce⟩⟩
  intro next' hnext' hne
  rw [hnext] at hnext'
  cases hnext'
  rcases hadvances.last with heq | hlast
  · exact absurd heq hne
  · exact hlast

/-- The actions that carry a call out leave a chain alone as soon as one of them has terminated it:
wherever they are split, nothing about the chain changes in the second part if it is terminated
after the first. -/
structure Call.SettlesAtOnce (k : Call) (id : ChainId) (s : Store) (acts : List Action) :
    Prop where
  carriedOut : Trace k.cause s acts (k.after s)
  settled : ∀ before later mid, acts = before ++ later → Trace k.cause s before mid →
    Trace k.cause mid later (k.after s) → mid.IsClosed id → Settled id mid (k.after s)

theorem Call.settlesAtOnce {k : Call} {s : Store} (hs : Consistent s) (id : ChainId)
    {response : Response} (h : k.response? s = some response) :
    ∃ acts, response.events = acts.flatMap Action.events ∧ k.SettlesAtOnce id s acts := by
  obtain ⟨acts, htrace, hevents, -⟩ := of_accepted hs h
  exact ⟨acts, hevents, htrace, fun _ _ _ _ _ hlater hclosed => hlater.settled hclosed⟩

/-- **Chains move forward, and terminated chains stay as they are.** What a call does to a chain
with an account, and that neither the rest of the call that terminates it nor any later call does
anything to it. -/
theorem Run.chain_advances (r : Run) (k : Call) {id : ChainId} {account : ChainAccount}
    (hget : r.store.get (.account id) = some account) :
    (∃ channel, r.store.get (.channel id) = some channel ∧
      k.Advances id account channel r.store (k.after r.store)) ∧
      (account.status = .terminated →
        ∀ calls, Settled id r.store (afterAll calls r.store)) ∧
      ∀ response, k.response? r.store = some response →
        ∃ acts, response.events = acts.flatMap Action.events ∧
          k.SettlesAtOnce id r.store acts := by
  obtain ⟨channel, hchannel⟩ := r.consistent.channel id account hget
  refine ⟨⟨channel, hchannel, Call.advances r.consistent hget hchannel⟩, ?_,
    fun _ => Call.settlesAtOnce r.consistent id⟩
  intro hterminated calls
  exact settled_afterAll r.consistent ⟨account, hget, hterminated⟩ calls

/-- The silent chain moves forward when it is terminated: its status does, and the notice goes into
its outbox. After that another chain registers without any effect on it. -/
theorem Run.chain_advances_silent :
    (∃ account channel response acts,
      waiting.store.get (.account silentChain) = some account ∧ account.status = .registered ∧
      waiting.store.get (.channel silentChain) = some channel ∧
      closing.response? waiting.store = some response ∧
      closing.Advances silentChain account channel waiting.store silent.store ∧
      response.events = acts.flatMap Action.events ∧
      closing.SettlesAtOnce silentChain waiting.store acts) ∧
    ∃ account, silent.store.get (.account silentChain) = some account ∧
      account.status = .terminated ∧
      (registeringBeta.response? silent.store).isSome = true ∧
      Settled silentChain silent.store (afterAll [registeringBeta] silent.store) := by
  have haccepted : (closing.response? waiting.store).isSome = true := by decide +kernel
  constructor
  · obtain ⟨account, hget, hstatus⟩ := registered_silentChain
    obtain ⟨response, hresponse⟩ := Option.isSome_iff_exists.mp haccepted
    obtain ⟨⟨channel, hchannel, hadvances⟩, -, hcarried⟩ := waiting.chain_advances closing hget
    obtain ⟨acts, hevents, hsettles⟩ := hcarried response hresponse
    exact ⟨account, channel, response, acts, hget, hstatus, hchannel, hresponse, hadvances,
      hevents, hsettles⟩
  · obtain ⟨account, hget, hterminated⟩ := isClosed_silentChain
    refine ⟨account, hget, hterminated, by decide +kernel, ?_⟩
    exact (silent.chain_advances registeringBeta hget).2.1 hterminated [registeringBeta]

end ChainHub
