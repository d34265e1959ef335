import ChainHub.Proofs.Hub.Step

/-!
# Consistent stores

The records of a store belong together: every chain with an account has a channel and validators,
only terminated chains have frozen records, and inboxes and outboxes are what appending makes them.

* `Consistent`: what holds of every store of the hub.
* `Trace.consistent`: actions keep a store consistent.
-/

namespace ChainHub

/-- What holds of every store of the hub. -/
structure Consistent (s : Store) : Prop where
  config : ∃ config, s.get .config = some config
  own : ∃ own, s.get .own = some own ∧ own.chainId.isMainchain = true
  side : ∀ id account, s.get (.account id) = some account → id.isMainchain = false
  channel : ∀ id account, s.get (.account id) = some account →
    ∃ channel, s.get (.channel id) = some channel
  validators : ∀ id account, s.get (.account id) = some account →
    ∃ set, s.get (.validators id) = some set
  account : ∀ id channel, s.get (.channel id) = some channel →
    ∃ account, s.get (.account id) = some account
  built : ∀ id channel, s.get (.channel id) = some channel →
    channel.inbox.Built ∧ channel.outbox.Built
  state : ∀ id state, s.get (.terminatedState id) = some state → s.IsClosed id
  outbox : ∀ id outbox, s.get (.terminatedOutbox id) = some outbox → s.IsClosed id

/-! ## Consistent stores stay consistent -/

namespace Consistent

variable {s : Store} {id : ChainId}

/-- A chain with an account is not the hub. -/
theorem ne_own (hs : Consistent s) {account : ChainAccount} {own : OwnAccount}
    (hget : s.get (.account id) = some account) (hown : s.get .own = some own) :
    id ≠ own.chainId := by
  rintro rfl
  obtain ⟨own', hown', hmain⟩ := hs.own
  rw [hown] at hown'
  cases hown'
  have := hs.side _ _ hget
  rw [hmain] at this
  cases this

theorem exists_channel (hs : Consistent s) (hopen : s.IsOpen id) :
    ∃ channel, s.get (.channel id) = some channel := by
  obtain ⟨account, hget, -⟩ := hopen
  exact hs.channel id account hget

/-- A chain without an account has no channel. -/
theorem channel_eq_none (hs : Consistent s) (hnew : s.get (.account id) = none) :
    s.get (.channel id) = none := by
  cases hchannel : s.get (.channel id) with
  | none => rfl
  | some channel =>
    obtain ⟨account, haccount⟩ := hs.account _ _ hchannel
    rw [hnew] at haccount
    cases haccount

/-- A chain with an account has a channel, and its outbox has room if it is not full. -/
theorem exists_hasRoom (hs : Consistent s) {account : ChainAccount}
    (hget : s.get (.account id) = some account)
    (hsize : (s.outboxOf id).size.toNat + 1 < UInt64.size) :
    ∃ channel, s.get (.channel id) = some channel ∧ channel.outbox.HasRoom := by
  obtain ⟨channel, hchannel⟩ := hs.channel id account hget
  rw [Store.outboxOf_eq hchannel] at hsize
  exact ⟨channel, hchannel, (hs.built id channel hchannel).2.hasRoom hsize⟩

theorem put_own (hs : Consistent s) (own : OwnAccount)
    (hmain : own.chainId.isMainchain = true) : Consistent (s.put .own (some own)) where
  config := by simpa [Store.get_put_of_ne] using hs.config
  own := ⟨own, by simp, hmain⟩
  side := by simpa [Store.get_put_of_ne] using hs.side
  channel := by simpa [Store.get_put_of_ne] using hs.channel
  validators := by simpa [Store.get_put_of_ne] using hs.validators
  account := by simpa [Store.get_put_of_ne] using hs.account
  built := by simpa [Store.get_put_of_ne] using hs.built
  state := by simpa [Store.get_put_of_ne, Store.isClosed_put] using hs.state
  outbox := by simpa [Store.get_put_of_ne, Store.isClosed_put] using hs.outbox

theorem put_channel (hs : Consistent s) {channel : Channel}
    (hknown : ∃ account, s.get (.account id) = some account)
    (hbuilt : channel.inbox.Built ∧ channel.outbox.Built) :
    Consistent (s.put (.channel id) (some channel)) where
  config := by simpa [Store.get_put_of_ne] using hs.config
  own := by simpa [Store.get_put_of_ne] using hs.own
  side := by simpa [Store.get_put_of_ne] using hs.side
  channel := by
    intro other account hget
    rw [Store.get_put_channel]
    split
    · exact ⟨channel, rfl⟩
    · exact hs.channel other account (by simpa [Store.get_put_of_ne] using hget)
  validators := by simpa [Store.get_put_of_ne] using hs.validators
  account := by
    intro other channel' hget
    rw [Store.get_put_of_ne _ _ (by simp)]
    rw [Store.get_put_channel] at hget
    split at hget
    · rename_i h
      rw [h]
      exact hknown
    · exact hs.account other channel' hget
  built := by
    intro other channel' hget
    rw [Store.get_put_channel] at hget
    split at hget
    · cases hget
      exact hbuilt
    · exact hs.built other channel' hget
  state := by simpa [Store.get_put_of_ne, Store.isClosed_put] using hs.state
  outbox := by simpa [Store.get_put_of_ne, Store.isClosed_put] using hs.outbox

theorem put_validators (hs : Consistent s) {set : ValidatorSet} :
    Consistent (s.put (.validators id) (some set)) where
  config := by simpa [Store.get_put_of_ne] using hs.config
  own := by simpa [Store.get_put_of_ne] using hs.own
  side := by simpa [Store.get_put_of_ne] using hs.side
  channel := by simpa [Store.get_put_of_ne] using hs.channel
  validators := by
    intro other account hget
    rw [Store.get_put_validators]
    split
    · exact ⟨set, rfl⟩
    · exact hs.validators other account (by simpa [Store.get_put_of_ne] using hget)
  account := by simpa [Store.get_put_of_ne] using hs.account
  built := by simpa [Store.get_put_of_ne] using hs.built
  state := by simpa [Store.get_put_of_ne, Store.isClosed_put] using hs.state
  outbox := by simpa [Store.get_put_of_ne, Store.isClosed_put] using hs.outbox

theorem put_account (hs : Consistent s) {account next : ChainAccount}
    (hget : s.get (.account id) = some account)
    (hmono : account.status = .terminated → next.status = .terminated) :
    Consistent (s.put (.account id) (some next)) := by
  have hknown : ∀ other account', (s.put (.account id) (some next)).get (.account other) =
      some account' → ∃ account'', s.get (.account other) = some account'' := by
    intro other account' h
    rw [Store.get_put_account] at h
    split at h
    · rename_i heq
      exact ⟨account, heq ▸ hget⟩
    · exact ⟨account', h⟩
  constructor
  case config => simpa [Store.get_put_of_ne] using hs.config
  case own => simpa [Store.get_put_of_ne] using hs.own
  case side =>
    intro other account' h
    obtain ⟨account'', h⟩ := hknown other account' h
    exact hs.side other account'' h
  case channel =>
    intro other account' h
    obtain ⟨account'', h⟩ := hknown other account' h
    simpa [Store.get_put_of_ne] using hs.channel other account'' h
  case validators =>
    intro other account' h
    obtain ⟨account'', h⟩ := hknown other account' h
    simpa [Store.get_put_of_ne] using hs.validators other account'' h
  case account =>
    intro other channel h
    rw [Store.get_put_account]
    split
    · exact ⟨next, rfl⟩
    · exact hs.account other channel (by simpa [Store.get_put_of_ne] using h)
  case built => simpa [Store.get_put_of_ne] using hs.built
  case state =>
    intro other state h
    exact Store.isClosed_put_account hget hmono
      (hs.state other state (by simpa [Store.get_put_of_ne] using h))
  case outbox =>
    intro other outbox h
    exact Store.isClosed_put_account hget hmono
      (hs.outbox other outbox (by simpa [Store.get_put_of_ne] using h))

theorem put_terminatedState (hs : Consistent s) {state : TerminatedState}
    (hclosed : s.IsClosed id) : Consistent (s.put (.terminatedState id) (some state)) where
  config := by simpa [Store.get_put_of_ne] using hs.config
  own := by simpa [Store.get_put_of_ne] using hs.own
  side := by simpa [Store.get_put_of_ne] using hs.side
  channel := by simpa [Store.get_put_of_ne] using hs.channel
  validators := by simpa [Store.get_put_of_ne] using hs.validators
  account := by simpa [Store.get_put_of_ne] using hs.account
  built := by simpa [Store.get_put_of_ne] using hs.built
  state := by
    intro other state' hget
    rw [Store.isClosed_put (by simp)]
    rw [Store.get_put_terminatedState] at hget
    split at hget
    · rename_i h
      rw [h]
      exact hclosed
    · exact hs.state other state' hget
  outbox := by simpa [Store.get_put_of_ne, Store.isClosed_put] using hs.outbox

theorem put_terminatedOutbox (hs : Consistent s) {outbox : TerminatedOutbox}
    (hclosed : s.IsClosed id) : Consistent (s.put (.terminatedOutbox id) (some outbox)) where
  config := by simpa [Store.get_put_of_ne] using hs.config
  own := by simpa [Store.get_put_of_ne] using hs.own
  side := by simpa [Store.get_put_of_ne] using hs.side
  channel := by simpa [Store.get_put_of_ne] using hs.channel
  validators := by simpa [Store.get_put_of_ne] using hs.validators
  account := by simpa [Store.get_put_of_ne] using hs.account
  built := by simpa [Store.get_put_of_ne] using hs.built
  state := by simpa [Store.get_put_of_ne, Store.isClosed_put] using hs.state
  outbox := by
    intro other outbox' hget
    rw [Store.isClosed_put (by simp)]
    rw [Store.get_put_terminatedOutbox] at hget
    split at hget
    · rename_i h
      rw [h]
      exact hclosed
    · exact hs.outbox other outbox' hget

/-- A new chain has all its records. -/
theorem registered (hs : Consistent s) {account : ChainAccount} {channel : Channel}
    {set : ValidatorSet} (hside : id.isMainchain = false) (hnew : s.get (.account id) = none)
    (hbuilt : channel.inbox.Built ∧ channel.outbox.Built) :
    Consistent (s.registered id account channel set) := by
  have hclosed : ∀ other, s.IsClosed other →
      (s.registered id account channel set).IsClosed other := by
    intro other hclosed
    have hne := hclosed.ne_of_new hnew
    obtain ⟨account', hget, hstatus⟩ := hclosed
    refine ⟨account', ?_, hstatus⟩
    rw [Store.get_registered_account, if_neg hne]
    exact hget
  constructor
  case config => simpa [Store.registered, Store.get_put_of_ne] using hs.config
  case own => simpa [Store.registered, Store.get_put_of_ne] using hs.own
  case side =>
    intro other account' hget
    rw [Store.get_registered_account] at hget
    split at hget
    · rename_i h
      rw [h]
      exact hside
    · exact hs.side other account' hget
  case channel =>
    intro other account' hget
    rw [Store.get_registered_account] at hget
    rw [Store.get_registered_channel]
    split
    · exact ⟨channel, rfl⟩
    · rename_i h
      exact hs.channel other account' (by rwa [if_neg h] at hget)
  case validators =>
    intro other account' hget
    rw [Store.get_registered_account] at hget
    rw [Store.get_registered_validators]
    split
    · exact ⟨set, rfl⟩
    · rename_i h
      exact hs.validators other account' (by rwa [if_neg h] at hget)
  case account =>
    intro other channel' hget
    rw [Store.get_registered_channel] at hget
    rw [Store.get_registered_account]
    split
    · exact ⟨account, rfl⟩
    · rename_i h
      exact hs.account other channel' (by rwa [if_neg h] at hget)
  case built =>
    intro other channel' hget
    rw [Store.get_registered_channel] at hget
    split at hget
    · cases hget
      exact hbuilt
    · exact hs.built other channel' hget
  case state =>
    intro other state hget
    exact hclosed other
      (hs.state other state (by simpa [Store.registered, Store.get_put_of_ne] using hget))
  case outbox =>
    intro other outbox hget
    exact hclosed other
      (hs.outbox other outbox (by simpa [Store.registered, Store.get_put_of_ne] using hget))


/-- A message that enters an outbox keeps the channel in order. -/
theorem posts (hs : Consistent s) {m : Message} {s' : Store} (h : s.Posts m s') :
    Consistent s' := by
  obtain ⟨hchannel, happend⟩ := h
  obtain ⟨hinbox, houtbox⟩ := hs.built _ _ hchannel
  have houtbox' := houtbox.append happend
  exact hs.put_channel (hs.account _ _ hchannel) ⟨hinbox, houtbox'⟩

theorem sends (hs : Consistent s) {m : Message} {s' : Store} (h : s.Sends m s') :
    Consistent s' := by
  obtain ⟨hown, -, -, -, -, hpost⟩ := h
  obtain ⟨own, hget, hmain⟩ := hs.own
  obtain rfl := Option.some.inj (hget.symm.trans hown)
  exact (hs.put_own own.next hmain).posts hpost

/-- An account that is closed together with the state that its chain certified last. -/
theorem closes (hs : Consistent s) {account : ChainAccount}
    (hget : s.get (.account id) = some account) :
    Consistent ((s.put (.account id) (some account.closed)).put (.terminatedState id)
      (some account.frozenState)) :=
  (hs.put_account hget fun _ => rfl).put_terminatedState ⟨_, Store.get_put_self _ _ _, rfl⟩

end Consistent

/-- **An action keeps a store consistent.** -/
theorem Step.consistent {k : Cause} {s s' : Store} {a : Action} (h : Step k s a s')
    (hs : Consistent s) : Consistent s' := by
  cases h with
  | report => exact hs
  | receive _ hactive hchannel happend =>
    obtain ⟨hinbox, houtbox⟩ := hs.built _ _ hchannel
    exact hs.put_channel hactive.isOpen.known ⟨hinbox.append happend, houtbox⟩
  | relay _ _ _ hpost => exact hs.posts hpost
  | notify _ hsend => exact hs.sends hsend
  | close hget _ _ _ hsend =>
    exact (hs.sends hsend).closes ((hsend.get_of_ne (by simp) (by simp)).trans hget)
  | certify _ _ hget hopen =>
    exact (hs.put_account hget fun h => absurd h hopen).put_validators
  | prove _ hactive hchannel =>
    have hbuilt := hs.built _ _ hchannel
    exact hs.put_channel hactive.isOpen.known hbuilt
  | register _ _ _ hside hnew _ _ _ hsend =>
    refine (hs.registered hside hnew ?_).sends hsend
    exact ⟨Accumulator.built_empty, Accumulator.built_empty⟩
  | freeze _ hclosed => exact hs.put_terminatedOutbox hclosed
  | replace _ hget => exact hs.put_terminatedOutbox (hs.outbox _ _ hget)

/-- **Requests keep the store consistent**, as far as they are made of actions. -/
theorem Trace.consistent {k : Cause} {s s' : Store} {acts : List Action}
    (h : Trace k s acts s') (hs : Consistent s) : Consistent s' :=
  h.induction Step.consistent hs

end ChainHub
