import ChainHub.Proofs.Hub.Phase

/-!
# The registry of chains is coherent

The records of all chains fit together and with those of the hub, whichever requests have been
carried out.

* `Store.Bears`: whether a name is that of the hub or of a chain.
* `Store.IndexesNames`, `Step.indexesNames`: the index of names holds the names that are borne, and
  no others. A name is taken when a chain registers and is never given back.
* `Coherent`: how the records of chains fit together.
* `Run.coherent`: every reachable store is coherent.
-/

namespace ChainHub

/-! ## Names -/

/-- Whether the name is that of the hub, or of a chain, with the given id. -/
def Store.Bears (s : Store) (name : String) (id : ChainId) : Prop :=
  (∃ own, s.get .own = some own ∧ own.name = name ∧ own.chainId = id) ∨
    ∃ account, s.get (.account id) = some account ∧ account.name = name

/-- The index of names holds the names that are borne. -/
def Store.IndexesNames (s : Store) : Prop :=
  ∀ name id, s.get (.name name) = some id ↔ s.Bears name id

/-- The chains are on the network of the hub. -/
def Store.OnNetwork (s : Store) : Prop :=
  ∀ id account own, s.get (.account id) = some account → s.get .own = some own →
    id.network = own.chainId.network

section

variable {k : Cause} {s s' : Store} {a : Action} {acts : List Action} {id : ChainId}

/-- An action that is not a registration leaves the index of names alone. -/
theorem Step.name_eq (h : Step k s a s') (hother : ∀ id name m, a ≠ .register id name m)
    (name : String) : s'.get (.name name) = s.get (.name name) := by
  cases h with
  | report => rfl
  | relay _ _ _ hpost => exact hpost.get_of_ne (by simp)
  | notify _ hsend => exact hsend.get_of_ne (by simp) (by simp)
  | close _ _ _ _ hsend =>
    rw [Store.get_put_of_ne _ _ (by simp), Store.get_put_of_ne _ _ (by simp),
      hsend.get_of_ne (by simp) (by simp)]
  | register => exact absurd rfl (hother _ _ _)
  | _ => simp [Store.get_put_of_ne]

/-- Nor does it rename a chain. -/
theorem Step.accountName_eq (h : Step k s a s') (hother : ∀ id name m, a ≠ .register id name m)
    (id : ChainId) :
    (s'.get (.account id)).map ChainAccount.name = (s.get (.account id)).map ChainAccount.name := by
  by_cases haccount : a.account? = some id
  · cases h with
    | close hget _ _ _ hsend =>
      cases haccount
      rw [Store.get_put_of_ne _ _ (by simp), Store.get_put_self, hget]
      rfl
    | certify _ _ hget =>
      cases haccount
      rw [Store.get_put_of_ne _ _ (by simp), Store.get_put_self, hget]
      rfl
    | register => exact absurd rfl (hother _ _ _)
    | _ => cases haccount
  · rw [h.account_eq haccount]

theorem Store.bears_iff {name : String} {own : OwnAccount} (hown : s.get .own = some own) :
    s.Bears name id ↔ (own.name = name ∧ own.chainId = id) ∨
      (s.get (.account id)).map ChainAccount.name = some name := by
  unfold Bears
  rw [Option.map_eq_some_iff, hown]
  simp

/-- A name that is free is taken by the chain that registers under it. -/
theorem Step.indexesNames_register {id : ChainId} {name : String} {m : Message}
    (h : Step k s (.register id name m) s') {own : OwnAccount} (hown : s.get .own = some own)
    (hnames : s.IndexesNames) : s'.IndexesNames := by
  intro other bearer
  obtain ⟨nonce, -, hown'⟩ := h.own hown
  have hbefore := hnames other bearer
  rw [Store.bears_iff hown] at hbefore
  rw [Store.bears_iff hown']
  cases h with
  | @register _ _ set _ _ _ _ _ _ _ hnew _ hfree _ hsend =>
    rw [hsend.get_of_ne (by simp) (by simp), hsend.get_of_ne (by simp) (by simp),
      Store.get_registered_account, Store.get_registered_name]
    by_cases hname : other = name
    · -- nobody else bears the name, since it was not in the index
      rw [hname, hfree] at hbefore
      obtain ⟨hhub, hchain⟩ := not_or.mp (hbefore.not.mp nofun)
      subst hname
      by_cases hid : bearer = id
      · simp [hid, Registration.account]
      · simp [Registration.account, Ne.symm hid, hid, hhub, hchain]
    · have hother : other ≠ (Registration.account name set k.now).name := hname
      rw [if_neg hother, hbefore]
      by_cases hid : bearer = id
      · rw [hid, if_pos rfl, hnew]
        simp [Registration.account, Ne.symm hname]
      · rw [if_neg hid]

/-- **The index of names follows every action.** -/
theorem Step.indexesNames (h : Step k s a s') (hs : Consistent s) (hnames : s.IndexesNames) :
    s'.IndexesNames := by
  obtain ⟨own, hown, -⟩ := hs.own
  by_cases hregister : ∃ id name m, a = .register id name m
  · obtain ⟨id, name, m, rfl⟩ := hregister
    exact h.indexesNames_register hown hnames
  · have hother : ∀ id name m, a ≠ .register id name m :=
      fun id name m heq => hregister ⟨id, name, m, heq⟩
    obtain ⟨nonce, -, hown'⟩ := h.own hown
    intro name id
    rw [Store.bears_iff hown', h.name_eq hother, h.accountName_eq hother, hnames,
      Store.bears_iff hown]

/-- A chain registers on the network of the hub. -/
theorem Step.onNetwork (h : Step k s a s') (hs : Consistent s) (hnetwork : s.OnNetwork) :
    s'.OnNetwork := by
  intro id account' own' hget' hown'
  obtain ⟨own, hown, -⟩ := hs.own
  obtain ⟨nonce, -, hnext⟩ := h.own hown
  rw [hown'] at hnext
  cases hnext
  show id.network = own.chainId.network
  cases hget : s.get (.account id) with
  | some account => exact hnetwork id account own hget hown
  | none =>
    obtain ⟨name, handshake, rfl⟩ := h.register_of_new hget hget'
    cases h with
    | register _ hown'' hplace =>
      rw [hown] at hown''
      cases hown''
      exact hplace

end

/-! ## Coherence -/

/-- How the records of chains fit together and with those of the hub. -/
structure Coherent (s : Store) : Prop where
  /-- Chains have an account, a channel and validators together or not at all. -/
  together : ∀ id,
    ((∃ account, s.get (.account id) = some account) ↔
      ∃ channel, s.get (.channel id) = some channel) ∧
    ((∃ account, s.get (.account id) = some account) ↔ ∃ set, s.get (.validators id) = some set)
  /-- Chains are on the network of the hub, and none has the id of a hub. -/
  place : ∀ id account, s.get (.account id) = some account →
    ∃ own, s.get .own = some own ∧ id.network = own.chainId.network ∧ id.isMainchain = false
  /-- The index of names holds the names of the hub and of the chains, and no others. -/
  names : ∀ name id, s.get (.name name) = some id ↔ s.Bears name id
  /-- No chain has the name of another one. -/
  distinct : ∀ id id' account account', s.get (.account id) = some account →
    s.get (.account id') = some account' → account.name = account'.name → id = id'
  /-- No chain has the name of the hub. -/
  distinctOwn : ∀ id account own, s.get (.account id) = some account → s.get .own = some own →
    account.name ≠ own.name
  /-- A chain that is not active yet has certified nothing, nothing has come from it, and nothing
  but its handshake has been sent to it. -/
  registered : ∀ id account, s.get (.account id) = some account → account.status = .registered →
    account.last.height = 0 ∧
      ∃ channel handshake, s.get (.channel id) = some channel ∧ channel.inbox = .empty ∧
        channel.partnerOutboxRoot = emptyRoot ∧ s.Greets id account.name handshake ∧
          Accumulator.empty.appendAll? [handshake.encode] = some channel.outbox
  /-- The state of a chain is frozen if the chain is terminated. -/
  state : ∀ id, (∃ state, s.get (.terminatedState id) = some state) ↔ s.IsClosed id
  /-- It is the state that the chain has certified last. -/
  stateRoot : ∀ id state, s.get (.terminatedState id) = some state → state.initialized = true ∧
    ∃ account, s.get (.account id) = some account ∧ state.stateRoot = account.last.stateRoot
  /-- The outbox toward a chain is frozen only if the chain is terminated, with the size that it
  has. -/
  outbox : ∀ id outbox, s.get (.terminatedOutbox id) = some outbox → s.IsClosed id ∧
    ∃ channel, s.get (.channel id) = some channel ∧ outbox.size = channel.outbox.size

/-- What every action keeps, so that stores are coherent. -/
structure Store.IsOrdered (s : Store) : Prop where
  consistent : Consistent s
  phases : s.InPhases
  names : s.IndexesNames
  network : s.OnNetwork

theorem Step.isOrdered {k : Cause} {s s' : Store} {a : Action} (h : Step k s a s')
    (hs : s.IsOrdered) : s'.IsOrdered where
  consistent := h.consistent hs.consistent
  phases id := h.inPhase (hs.phases id)
  names := h.indexesNames hs.consistent hs.names
  network := h.onNetwork hs.consistent hs.network

theorem isOrdered_afterAll {s : Store} (hs : s.IsOrdered) (calls : List Call) :
    (afterAll calls s).IsOrdered := by
  induction calls generalizing s with
  | nil => exact hs
  | cons k rest ih =>
    obtain ⟨acts, htrace⟩ := k.exists_trace hs.consistent
    exact ih (htrace.induction Step.isOrdered hs)

/-- **Stores in which every chain is in its phase and bears its name are coherent.** -/
theorem Store.coherent_of_isOrdered {s : Store} (hs : s.IsOrdered) : Coherent s := by
  obtain ⟨own, hown, hmain⟩ := hs.consistent.own
  have hside := hs.consistent.side
  have hlisted : ∀ {id account}, s.get (.account id) = some account →
      s.get (.name account.name) = some id := fun hget => (hs.names _ _).mpr (Or.inr ⟨_, hget, rfl⟩)
  constructor
  case together => exact fun id => (hs.phases id).together
  case place =>
    intro id account hget
    exact ⟨own, hown, hs.network id account own hget hown, hside id account hget⟩
  case names => exact hs.names
  case distinct =>
    intro id id' account account' hget hget' hname
    have hid := hlisted hget
    rw [hname, hlisted hget'] at hid
    exact (Option.some.inj hid).symm
  case distinctOwn =>
    intro id account own' hget hown' hname
    have hid := hlisted hget
    rw [hname, (hs.names _ _).mpr (Or.inl ⟨own', hown', rfl, rfl⟩)] at hid
    exact hs.consistent.ne_own hget hown' (Option.some.inj hid).symm
  case registered => exact fun id account hget hstatus => (hs.phases id).of_registered hget hstatus
  case state =>
    intro id
    constructor
    · rintro ⟨state, hget⟩
      exact hs.consistent.state id state hget
    · rintro ⟨account, hget, hstatus⟩
      obtain ⟨channel, set, outbox, hrecords, -⟩ := (hs.phases id).of_closed hget hstatus
      exact ⟨_, congrArg ChainRecords.state hrecords⟩
  case stateRoot =>
    intro id state hget
    obtain ⟨account, haccount, -, rfl⟩ := (hs.phases id).of_state hget
    exact ⟨rfl, account, haccount, rfl⟩
  case outbox => exact fun id outbox hget => (hs.phases id).of_outbox hget

/-- The hub starts without chains, and with its own name in the index. -/
theorem Run.isOrdered_start (r : Run) : r.start.IsOrdered := by
  have hnew : ∀ id, r.start.get (.account id) = none := fun id =>
    r.get_start (by simp) (by simp) (by simp) (by simp)
  obtain ⟨hub, config, -, hstart⟩ := r.start_eq
  constructor
  case consistent => exact r.consistent_start
  case phases =>
    intro id
    have hrecords : r.start.recordsOf id = ⟨none, none, none, none, none⟩ := by
      simp [hstart, Store.recordsOf, Store.get_put_of_ne, Store.get_empty]
    rw [hrecords]
    exact .unknown
  case names =>
    intro name id
    have hown : r.start.get .own = some ⟨hub, r.setup.ownName, 0⟩ := by
      simp [hstart, Store.get_put_of_ne]
    rw [Store.bears_iff hown, hnew, hstart, Store.get_put_name]
    by_cases hname : name = r.setup.ownName
    · simp [hname]
    · simp [hname, Ne.symm hname, Store.get_put_of_ne, Store.get_empty]
  case network =>
    intro id account own hget
    rw [hnew] at hget
    cases hget

/-- **Every reachable store is coherent.** -/
theorem Run.coherent (r : Run) : Coherent r.store :=
  Store.coherent_of_isOrdered (isOrdered_afterAll r.isOrdered_start r.calls)

end ChainHub
