import ChainHub.Proofs.Hub.Run

/-!
# The life of a chain

The hub keeps up to five records of a chain. They are written in different places, but together they
can only be in one of four phases: nothing is known of the chain, it is registered and its handshake
waits for it, it is active, or it is terminated.

* `ChainRecords`, `Store.recordsOf`: the records of one chain, read together.
* `ChainRecords.InPhase`: the four phases.
* `Step.inPhase`: every action leads from one phase to another.
-/

namespace ChainHub

/-! ## Records of a chain -/

/-- What the hub has stored about a chain. -/
structure ChainRecords where
  account : Option ChainAccount
  channel : Option Channel
  validators : Option ValidatorSet
  state : Option TerminatedState
  outbox : Option TerminatedOutbox

/-- The phases that the records of a chain can be in. What makes a message the handshake of a chain
with a given name is a parameter. -/
inductive ChainRecords.InPhase (greets : String → Message → Prop) : ChainRecords → Prop
  | unknown : InPhase greets ⟨none, none, none, none, none⟩
  | registered {account : ChainAccount} {channel : Channel} {set : ValidatorSet}
      {handshake : Message} (hstatus : account.status = .registered)
      (hheight : account.last.height = 0) (hinbox : channel.inbox = .empty)
      (hroot : channel.partnerOutboxRoot = emptyRoot) (hgreets : greets account.name handshake)
      (houtbox : Accumulator.empty.appendAll? [handshake.encode] = some channel.outbox) :
      InPhase greets ⟨some account, some channel, some set, none, none⟩
  | active {account : ChainAccount} {channel : Channel} {set : ValidatorSet}
      (hstatus : account.status = .active) :
      InPhase greets ⟨some account, some channel, some set, none, none⟩
  | terminated {account : ChainAccount} {channel : Channel} {set : ValidatorSet}
      {outbox : Option TerminatedOutbox} (hstatus : account.status = .terminated)
      (houtbox : ∀ frozen, outbox = some frozen → frozen.size = channel.outbox.size) :
      InPhase greets ⟨some account, some channel, some set, some account.frozenState, outbox⟩

namespace ChainRecords.InPhase

variable {greets greets' : String → Message → Prop} {r : ChainRecords} {account : ChainAccount}

theorem mono (h : r.InPhase greets) (hgreets : ∀ name m, greets name m → greets' name m) :
    r.InPhase greets' := by
  cases h with
  | unknown => exact .unknown
  | registered hstatus hheight hinbox hroot hgreets' houtbox =>
    exact .registered hstatus hheight hinbox hroot (hgreets _ _ hgreets') houtbox
  | active hstatus => exact .active hstatus
  | terminated hstatus houtbox => exact .terminated hstatus houtbox

/-- Nothing is stored about a chain without an account. -/
theorem of_new (h : r.InPhase greets) (hnew : r.account = none) :
    r = ⟨none, none, none, none, none⟩ := by
  cases h with
  | unknown => rfl
  | _ => cases hnew

/-- A chain that is not terminated has no frozen records. -/
theorem of_open (h : r.InPhase greets) (hget : r.account = some account)
    (hopen : account.status ≠ .terminated) :
    ∃ channel set, r = ⟨some account, some channel, some set, none, none⟩ := by
  cases h with
  | unknown => cases hget
  | registered =>
    cases hget
    exact ⟨_, _, rfl⟩
  | active =>
    cases hget
    exact ⟨_, _, rfl⟩
  | terminated hstatus =>
    cases hget
    exact absurd hstatus hopen

/-- A terminated chain has a frozen state. -/
theorem of_closed (h : r.InPhase greets) (hget : r.account = some account)
    (hclosed : account.status = .terminated) :
    ∃ channel set outbox, r = ⟨some account, some channel, some set, some account.frozenState,
      outbox⟩ ∧ ∀ frozen, outbox = some frozen → frozen.size = channel.outbox.size := by
  cases h with
  | unknown => cases hget
  | registered hstatus =>
    cases hget
    rw [hclosed] at hstatus
    cases hstatus
  | active hstatus =>
    cases hget
    rw [hclosed] at hstatus
    cases hstatus
  | terminated _ houtbox =>
    cases hget
    exact ⟨_, _, _, rfl, houtbox⟩

/-- A chain has an account, a channel and validators together or not at all. -/
theorem together (h : r.InPhase greets) :
    ((∃ account, r.account = some account) ↔ ∃ channel, r.channel = some channel) ∧
      ((∃ account, r.account = some account) ↔ ∃ set, r.validators = some set) := by
  cases h <;> simp

/-- Only the handshake waits for a chain that is registered. -/
theorem of_registered (h : r.InPhase greets) (hget : r.account = some account)
    (hstatus : account.status = .registered) :
    account.last.height = 0 ∧ ∃ channel handshake, r.channel = some channel ∧
      channel.inbox = .empty ∧ channel.partnerOutboxRoot = emptyRoot ∧
        greets account.name handshake ∧
          Accumulator.empty.appendAll? [handshake.encode] = some channel.outbox := by
  cases h with
  | unknown => cases hget
  | registered _ hheight hinbox hroot hgreets houtbox =>
    cases hget
    exact ⟨hheight, _, _, rfl, hinbox, hroot, hgreets, houtbox⟩
  | active hactive =>
    cases hget
    rw [hstatus] at hactive
    cases hactive
  | terminated hclosed =>
    cases hget
    rw [hstatus] at hclosed
    cases hclosed

/-- A frozen state is that of the last certificate. -/
theorem of_state (h : r.InPhase greets) {state : TerminatedState} (hget : r.state = some state) :
    ∃ account, r.account = some account ∧ account.status = .terminated ∧
      state = account.frozenState := by
  cases h with
  | terminated hstatus =>
    cases hget
    exact ⟨_, rfl, hstatus, rfl⟩
  | _ => cases hget

/-- A frozen outbox has the size of the outbox. -/
theorem of_outbox (h : r.InPhase greets) {outbox : TerminatedOutbox}
    (hget : r.outbox = some outbox) :
    (∃ account, r.account = some account ∧ account.status = .terminated) ∧
      ∃ channel, r.channel = some channel ∧ outbox.size = channel.outbox.size := by
  cases h with
  | terminated hstatus houtbox => exact ⟨⟨_, rfl, hstatus⟩, _, rfl, houtbox outbox hget⟩
  | _ => cases hget

/-- The channel of an active chain may change in any way. -/
theorem put_channel (h : r.InPhase greets) (hget : r.account = some account)
    (hactive : account.status = .active) (channel : Channel) :
    ChainRecords.InPhase greets { r with channel := some channel } := by
  obtain ⟨channel', set, rfl⟩ := h.of_open hget (by simp [hactive])
  exact .active hactive

/-- A certificate makes a chain active. -/
theorem certify (h : r.InPhase greets) (hget : r.account = some account)
    (hopen : account.status ≠ .terminated) (certificate : Certificate) (set : ValidatorSet) :
    ChainRecords.InPhase greets
      { r with account := some (account.certified certificate), validators := some set } := by
  obtain ⟨channel, set', rfl⟩ := h.of_open hget hopen
  exact .active rfl

/-- The state of a chain is frozen when the chain is terminated. -/
theorem close (h : r.InPhase greets) (hget : r.account = some account)
    (hopen : account.status ≠ .terminated) (channel : Channel) :
    ChainRecords.InPhase greets { r with
      account := some account.closed
      channel := some channel
      state := some account.frozenState } := by
  obtain ⟨channel', set, rfl⟩ := h.of_open hget hopen
  exact .terminated rfl nofun

/-- The outbox toward a terminated chain may be frozen with the size that it has. -/
theorem freeze (h : r.InPhase greets) (hget : r.account = some account)
    (hclosed : account.status = .terminated) {channel : Channel}
    (hchannel : r.channel = some channel) {outbox : TerminatedOutbox}
    (hsize : outbox.size = channel.outbox.size) :
    ChainRecords.InPhase greets { r with outbox := some outbox } := by
  obtain ⟨channel', set, outbox', rfl, -⟩ := h.of_closed hget hclosed
  cases hchannel
  refine .terminated hclosed fun frozen hfrozen => ?_
  cases hfrozen
  exact hsize

/-- The root of a frozen outbox may change. -/
theorem replace (h : r.InPhase greets) {outbox : TerminatedOutbox} (hget : r.outbox = some outbox)
    (root : Digest) :
    ChainRecords.InPhase greets { r with outbox := some { outbox with root := root } } := by
  cases h with
  | terminated hstatus houtbox =>
    refine .terminated hstatus fun frozen hfrozen => ?_
    cases hfrozen
    exact houtbox outbox hget
  | _ => cases hget

end ChainRecords.InPhase

namespace Store

/-- The records of a chain. -/
def recordsOf (s : Store) (id : ChainId) : ChainRecords where
  account := s.get (.account id)
  channel := s.get (.channel id)
  validators := s.get (.validators id)
  state := s.get (.terminatedState id)
  outbox := s.get (.terminatedOutbox id)

section

variable (s : Store) (id : ChainId)

theorem recordsOf_put_account (value : Option ChainAccount) :
    (s.put (.account id) value).recordsOf id = { s.recordsOf id with account := value } := by
  simp [recordsOf, get_put_of_ne]

theorem recordsOf_put_channel (value : Option Channel) :
    (s.put (.channel id) value).recordsOf id = { s.recordsOf id with channel := value } := by
  simp [recordsOf, get_put_of_ne]

theorem recordsOf_put_validators (value : Option ValidatorSet) :
    (s.put (.validators id) value).recordsOf id = { s.recordsOf id with validators := value } := by
  simp [recordsOf, get_put_of_ne]

theorem recordsOf_put_terminatedState (value : Option TerminatedState) :
    (s.put (.terminatedState id) value).recordsOf id = { s.recordsOf id with state := value } := by
  simp [recordsOf, get_put_of_ne]

theorem recordsOf_put_terminatedOutbox (value : Option TerminatedOutbox) :
    (s.put (.terminatedOutbox id) value).recordsOf id =
      { s.recordsOf id with outbox := value } := by
  simp [recordsOf, get_put_of_ne]

theorem recordsOf_registered (account : ChainAccount) (channel : Channel) (set : ValidatorSet) :
    (s.registered id account channel set).recordsOf id =
      { s.recordsOf id with
        account := some account
        channel := some channel
        validators := some set } := by
  simp [recordsOf, registered, get_put_of_ne]

end

variable {s s' : Store} {m : Message} {id : ChainId}

theorem Posts.recordsOf (h : s.Posts m s') (hreceiver : m.receiver = id) :
    ∃ channel, s'.recordsOf id = { s.recordsOf id with channel := some channel } := by
  subst hreceiver
  cases h
  exact ⟨_, recordsOf_put_channel _ _ _⟩

/-- A message of the hub enters the channel that there is. -/
theorem Sends.recordsOf (h : s.Sends m s') (hreceiver : m.receiver = id) {channel : Channel}
    (hget : s.get (.channel id) = some channel) :
    ∃ outbox, channel.outbox.appendAll? [m.encode] = some outbox ∧
      s'.recordsOf id =
        { s.recordsOf id with channel := some { channel with outbox := outbox } } := by
  subst hreceiver
  obtain ⟨outbox, happend, hnext⟩ := h.channel hget
  refine ⟨outbox, happend, ?_⟩
  unfold Store.recordsOf
  rw [hnext, h.get_of_ne (by simp) (by simp), h.get_of_ne (by simp) (by simp),
    h.get_of_ne (by simp) (by simp), h.get_of_ne (by simp) (by simp)]

/-- The handshake for a chain of the given id and name. -/
def Greets (s : Store) (id : ChainId) (name : String) (m : Message) : Prop :=
  ∃ config own nonce, s.get .config = some config ∧ s.get .own = some own ∧
    m = (Registration.handshake config id name).message { own with nonce := nonce }

end Store

section

variable {k : Cause} {s s' : Store} {a : Action} {id : ChainId}

/-- The hub would send the same handshake later, but for the nonce. -/
theorem Step.greets (h : Step k s a s') {name : String} {m : Message} (hm : s.Greets id name m) :
    s'.Greets id name m := by
  obtain ⟨config, own, nonce, hconfig, hown, rfl⟩ := hm
  obtain ⟨nonce', -, hown'⟩ := h.own hown
  exact ⟨config, _, nonce, h.config.trans hconfig, hown', rfl⟩

theorem Step.recordsOf_eq (h : Step k s a s') (hsubject : a.subject? ≠ some id) :
    s'.recordsOf id = s.recordsOf id := by
  unfold Store.recordsOf
  rw [h.get_eq rfl hsubject, h.get_eq rfl hsubject, h.get_eq rfl hsubject, h.get_eq rfl hsubject,
    h.get_eq rfl hsubject]

/-! ## Phases -/

/-- Every chain is in one of the four phases. -/
def Store.InPhases (s : Store) : Prop := ∀ id, (s.recordsOf id).InPhase (s.Greets id)

/-- **Every action leads from one phase to another.** -/
theorem Step.inPhase (h : Step k s a s') (hs : (s.recordsOf id).InPhase (s.Greets id)) :
    (s'.recordsOf id).InPhase (s'.Greets id) := by
  refine ChainRecords.InPhase.mono ?_ fun _ _ => h.greets
  by_cases hsubject : a.subject? = some id
  · cases h with
    | report => cases hsubject
    | receive _ hactive =>
      cases hsubject
      obtain ⟨account, hget, hstatus⟩ := hactive
      rw [Store.recordsOf_put_channel]
      exact hs.put_channel hget hstatus _
    | relay _ _ hactive hpost =>
      cases hsubject
      obtain ⟨account, hget, hstatus⟩ := hactive
      obtain ⟨channel, hrecords⟩ := hpost.recordsOf rfl
      rw [hrecords]
      exact hs.put_channel hget hstatus channel
    | notify hactive hsend =>
      cases hsubject
      obtain ⟨account, hget, hstatus⟩ := hactive
      obtain ⟨channel, set, hrecords⟩ := hs.of_open hget (by simp [hstatus])
      obtain ⟨outbox, -, hrecords'⟩ := hsend.recordsOf rfl (congrArg ChainRecords.channel hrecords)
      rw [hrecords']
      exact hs.put_channel hget hstatus _
    | close hget hopen _ hreceiver hsend =>
      cases hsubject
      obtain ⟨channel, set, hrecords⟩ := hs.of_open hget hopen
      obtain ⟨outbox, -, hrecords'⟩ :=
        hsend.recordsOf hreceiver (congrArg ChainRecords.channel hrecords)
      rw [Store.recordsOf_put_terminatedState, Store.recordsOf_put_account, hrecords']
      exact hs.close hget hopen _
    | certify _ _ hget hopen =>
      cases hsubject
      rw [Store.recordsOf_put_validators, Store.recordsOf_put_account]
      exact hs.certify hget hopen _ _
    | prove _ hactive =>
      cases hsubject
      obtain ⟨account, hget, hstatus⟩ := hactive
      rw [Store.recordsOf_put_channel]
      exact hs.put_channel hget hstatus _
    | @register _ name set config own _ hconfig hown _ _ hnew _ _ _ hsend =>
      cases hsubject
      have hreceiver : ((Registration.handshake config id name).message own).receiver = id := rfl
      obtain ⟨outbox, happend, hrecords⟩ := hsend.recordsOf hreceiver
        ((Store.get_registered_channel _ _ _ _ _ _).trans (if_pos rfl))
      rw [hrecords, Store.recordsOf_registered, hs.of_new hnew]
      exact .registered rfl rfl rfl rfl ⟨config, own, own.nonce, hconfig, hown, rfl⟩ happend
    | freeze _ hclosed _ hchannel =>
      cases hsubject
      obtain ⟨account, hget, hstatus⟩ := hclosed
      rw [Store.recordsOf_put_terminatedOutbox]
      exact hs.freeze hget hstatus hchannel rfl
    | replace _ hget =>
      cases hsubject
      rw [Store.recordsOf_put_terminatedOutbox]
      exact hs.replace hget _
  · rw [h.recordsOf_eq hsubject]
    exact hs

end

end ChainHub
