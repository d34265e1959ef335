import ChainHub.Proofs.Hub.Records

/-!
# What can happen to the store

Every request changes the store by a sequence of the same few actions. An action carries the data
that it is about, and `Step` says when it can happen and what it does. The rest of the development
looks at the code once, to find the actions of a request, and then argues by induction on them.

* `Action`, `Step`, `Trace`: single actions and sequences of them.
* `Action.subject?`, `Step.get_eq`: an action is about one chain and leaves the records of all
  others alone.
* `Trace.induction`: what every action keeps, a sequence keeps.

An action is what has to happen together: a chain is told that it is terminated and terminated, a
certificate is stored with the validators that it commits to, a chain is registered and the
handshake waits for it. So whatever holds of the store between two actions is an invariant.

A message enters an outbox only while its receiver is active, apart from the handshake of a new
chain and the last notice to a chain that is terminated. This is the guard that the code does not
check where it appends, and the reason why a terminated chain never changes again. A message of
another chain that is not on its way back comes from an active chain, and one that does not keep the
format rules by itself is the recovered form of a message that the request shows.
-/

namespace ChainHub

/-- Something that happens while a request is carried out. -/
inductive Action
  /-- An event that is not about a message being sent. -/
  | report (event : Event)
  /-- A message from a chain enters its inbox. -/
  | receive (id : ChainId) (bytes : Bytes)
  /-- A message of another chain enters the outbox of its receiver. -/
  | relay (m : Message)
  /-- The hub sends a message to an active chain. -/
  | notify (m : Message)
  /-- A chain is told that it is terminated, and terminated with its last state root. -/
  | close (id : ChainId) (notice : Message) (stateRoot : Digest)
  /-- A certificate of a chain is stored, with the validators that it commits to. -/
  | certify (id : ChainId) (certificate : Certificate)
  /-- The root of a chain's own outbox is stored. -/
  | prove (id : ChainId) (root : Digest)
  /-- A chain is registered under a name, and the handshake is sent to it. -/
  | register (id : ChainId) (name : String) (handshake : Message)
  /-- The outbox toward a terminated chain is frozen. -/
  | freeze (id : ChainId) (outbox : TerminatedOutbox)
  /-- The root of a frozen outbox changes. -/
  | replace (id : ChainId) (root : Digest)

/-- The request that an action is part of, as far as actions depend on it. -/
structure Cause where
  /-- The time of the block. -/
  now : UInt64
  /-- The chain whose update is carried out, if it is an update. -/
  sender : Option ChainId
  /-- The certificate of that update, if it has one. -/
  certificate : Option Certificate
  /-- The chain that is to be terminated as stale, if that is the request. -/
  accused : Option ChainId
  /-- The terminated chain that a recovery is about, if it is one. -/
  recovering : Option ChainId
  /-- The encoded messages that are to be recovered, if it is a recovery of messages. -/
  recovered : List Bytes

/-- Why a request may terminate a chain: it is the chain's own update, or the chain is stale. A
chain that is not active yet has to be named for that. -/
def Cause.Closes (k : Cause) (id : ChainId) (account : ChainAccount) : Prop :=
  k.sender = some id ∨
    (account.isStale k.now = true ∧ (account.status = .active ∨ k.accused = some id))

/-- The message is the recovered form of one on its way out that is to be recovered. -/
def Cause.Recovers (k : Cause) (m : Message) : Prop :=
  ∃ original : Message, original.encode ∈ k.recovered ∧ original.status = .ok ∧
    m = original.recovered

/-- It cannot be taken for one that is on its way out. -/
theorem Cause.Recovers.status {k : Cause} {m : Message} (h : k.Recovers m) :
    m.status = .recovered := by
  obtain ⟨original, -, -, rfl⟩ := h
  rfl

/-- The message is on its way out and names the hub and the fee token of its sender's channel, as a
handshake has to. -/
def Store.Opens (s : Store) (m : Message) : Prop :=
  m.status = .ok ∧ ∃ params own channel,
    (Wire.decode m.params : Except WireError RegistrationParams) = .ok params ∧
      s.get .own = some own ∧ s.get (.channel m.sender) = some channel ∧
      params.chainId = own.chainId ∧ params.name = own.name ∧ params.feeToken = channel.feeToken

namespace Event

/-- Whether the event is shown as one that says that a message entered an outbox. -/
def isSent (e : Event) : Bool := e.type == "ccm_send_success"

/-- Whether the event is shown as one that accounts for an inbound message. -/
def isProcessed (e : Event) : Bool := e.type == "ccm_processed"

/-- The bytes that an event says have entered the outbox toward a chain. -/
def sentTo? (id : ChainId) : Event → Option Bytes
  | .sent m => if m.receiver = id then some m.encode else none
  | _ => none

/-- What became of an inbound message, if the event accounts for one. -/
def result? : Event → Option Disposition
  | .processed _ d _ => some d
  | .undecodable _ _ _ => some .discarded
  | _ => none

/-- What a report says is so. An applied message has terminated its sender, unless it is the first
message of this chain and opens its channel. That a chain is terminated is told with the notice to
it only. -/
def Holds (k : Cause) (s : Store) : Event → Prop
  | .processed m .applied _ => s.IsClosed m.sender ∨
      (k.sender = some m.sender ∧ s.Opens m ∧ (s.inboxOf m.sender).size = 1)
  | .accountUpdated _ status => status ≠ .terminated
  | _ => True

/-- No message that names the hub as its sender is reported as passed on, and none that would do so
on its way back as sent back. -/
def SparesHub (hub : ChainId) : Event → Prop
  | .processed m d _ => (d = .forwarded → m.sender ≠ hub) ∧ (d = .bounced → m.receiver ≠ hub)
  | _ => True

end Event

namespace Action

/-- The events of an action. -/
def events : Action → List Event
  | report event => [event]
  | relay m => [.sent m]
  | notify m => [.sent m]
  | close id notice stateRoot =>
    [.sent notice, .accountUpdated id .terminated, .terminatedStateCreated id stateRoot]
  | register id _ handshake => [.accountUpdated id .registered, .sent handshake]
  | freeze id outbox => [.terminatedOutboxCreated id outbox]
  | replace id root => [.terminatedOutboxUpdated id root]
  | _ => []

/-- The events of an action that account for inbound messages. -/
def reports (a : Action) : List Event := a.events.filter Event.isProcessed

/-- The chain whose records an action writes. -/
def subject? : Action → Option ChainId
  | report _ => none
  | receive id _ => some id
  | relay m => some m.receiver
  | notify m => some m.receiver
  | close id _ _ => some id
  | certify id _ => some id
  | prove id _ => some id
  | register id _ _ => some id
  | freeze id _ => some id
  | replace id _ => some id

/-- The chain whose account an action writes. -/
def account? : Action → Option ChainId
  | close id _ _ => some id
  | certify id _ => some id
  | register id _ _ => some id
  | _ => none

/-- The message that an action puts into an outbox. -/
def message? : Action → Option Message
  | relay m => some m
  | notify m => some m
  | close _ notice _ => some notice
  | register _ _ handshake => some handshake
  | _ => none

/-- Whether the action can happen while a message is delivered. -/
def isDelivery : Action → Bool
  | report _ => true
  | relay _ => true
  | notify _ => true
  | close _ _ _ => true
  | _ => false

/-- The bytes that an action puts into the inbox from a chain. -/
def received (id : ChainId) : Action → List Bytes
  | receive id' bytes => if id' = id then [bytes] else []
  | _ => []

/-- The root of a chain's own outbox that an action stores. -/
def proved (id : ChainId) : Action → List Digest
  | prove id' root => if id' = id then [root] else []
  | _ => []

/-- The bytes that an action puts into the outbox toward a chain. -/
def sent (id : ChainId) (a : Action) : List Bytes := a.message?.elim [] fun m => m.bytesTo id

end Action

/-- The account of a chain after its termination. -/
def ChainAccount.closed (account : ChainAccount) : ChainAccount :=
  { account with status := .terminated }

/-- The account of a chain after a certificate. -/
def ChainAccount.certified (account : ChainAccount) (certificate : Certificate) : ChainAccount :=
  { account with status := .active, last := certificate.summary }

/-- The state that is frozen when a chain is terminated. -/
def ChainAccount.frozenState (account : ChainAccount) : TerminatedState where
  stateRoot := account.last.stateRoot
  mainchainStateRoot := FixedBytes.zero 32
  initialized := true

/-- What is frozen of the outbox of a channel. -/
def Channel.frozenOutbox (channel : Channel) (partnerInboxSize : UInt64) : TerminatedOutbox where
  root := channel.outbox.root
  size := channel.outbox.size
  partnerInboxSize := partnerInboxSize

/-- The validators after a certificate and the commitment to them that it has to carry: the present
ones with the present commitment, or legal new ones. -/
inductive ValidatorSet.Succeeds (set : ValidatorSet) (committed : Digest) :
    ValidatorSet → Digest → Prop
  | keep : Succeeds set committed set committed
  | renew {next : ValidatorSet} (hcheck : next.check = .ok ()) :
      Succeeds set committed next next.hash

/-- One action, with the store before and after it. -/
inductive Step (k : Cause) (s : Store) : Action → Store → Prop
  | report {event : Event} {own : OwnAccount} (h : event.isSent = false)
      (hown : s.get .own = some own) (hspares : event.SparesHub own.chainId)
      (hholds : event.Holds k s) : Step k s (.report event) s
  | receive {id : ChainId} {bytes : Bytes} {channel : Channel} {inbox : Accumulator}
      (hsender : k.sender = some id) (hactive : s.IsActive id)
      (hchannel : s.get (.channel id) = some channel)
      (happend : channel.inbox.append? bytes = some inbox) :
      Step k s (.receive id bytes)
        (s.put (.channel id) (some { channel with inbox := inbox }))
  | relay {m : Message} {own : OwnAccount} {s' : Store} (hown : s.get .own = some own)
      (hsender : m.sender ≠ own.chainId) (hactive : s.IsActive m.receiver)
      (hpost : s.Posts m s') (horigin : m.status = .ok → s.IsActive m.sender)
      (hformat : m.checkFormat = .ok () ∨ k.Recovers m) : Step k s (.relay m) s'
  | notify {m : Message} {s' : Store} (hactive : s.IsActive m.receiver) (hsend : s.Sends m s') :
      Step k s (.notify m) s'
  | close {id : ChainId} {account : ChainAccount} {notice : Message} {s' : Store}
      (hget : s.get (.account id) = some account) (hopen : account.status ≠ .terminated)
      (hcause : k.Closes id account) (hreceiver : notice.receiver = id)
      (hsend : s.Sends notice s') :
      Step k s (.close id notice account.last.stateRoot)
        ((s'.put (.account id) (some account.closed)).put (.terminatedState id)
          (some account.frozenState))
  | certify {id : ChainId} {account : ChainAccount} {certificate : Certificate}
      {set next : ValidatorSet} {expected : Digest} (hsender : k.sender = some id)
      (hcertificate : k.certificate = some certificate)
      (hget : s.get (.account id) = some account) (hopen : account.status ≠ .terminated)
      (hset : s.get (.validators id) = some set)
      (hnext : set.Succeeds account.last.validatorsHash next expected)
      (hverify : certificate.verify id account.last set k.now expected = .ok ()) :
      Step k s (.certify id certificate)
        ((s.put (.account id) (some (account.certified certificate))).put (.validators id)
          (some next))
  | prove {id : ChainId} {root : Digest} {channel : Channel} (hsender : k.sender = some id)
      (hactive : s.IsActive id) (hchannel : s.get (.channel id) = some channel) :
      Step k s (.prove id root)
        (s.put (.channel id) (some { channel with partnerOutboxRoot := root }))
  | register {id : ChainId} {name : String} {set : ValidatorSet} {config : Config}
      {own : OwnAccount} {s' : Store} (hconfig : s.get .config = some config)
      (hown : s.get .own = some own) (hnetwork : id.network = own.chainId.network)
      (hside : id.isMainchain = false) (hnew : s.get (.account id) = none)
      (hnone : s.get (.channel id) = none) (hname : s.get (.name name) = none)
      (hcheck : set.check = .ok ())
      (hsend : (s.registered id (Registration.account name set k.now)
        (.fresh config.feeToken config.minFeePerByte) set).Sends
          ((Registration.handshake config id name).message own) s') :
      Step k s (.register id name ((Registration.handshake config id name).message own)) s'
  | freeze {id : ChainId} {channel : Channel} {size : UInt64} (hcause : k.recovering = some id)
      (hclosed : s.IsClosed id)
      (hnone : s.get (.terminatedOutbox id) = none)
      (hchannel : s.get (.channel id) = some channel) :
      Step k s (.freeze id (channel.frozenOutbox size))
        (s.put (.terminatedOutbox id) (some (channel.frozenOutbox size)))
  | replace {id : ChainId} {outbox : TerminatedOutbox} {root : Digest}
      (hcause : k.recovering = some id) (hget : s.get (.terminatedOutbox id) = some outbox) :
      Step k s (.replace id root)
        (s.put (.terminatedOutbox id) (some { outbox with root := root }))

/-- Actions one after the other. -/
inductive Trace (k : Cause) : Store → List Action → Store → Prop
  | nil (s : Store) : Trace k s [] s
  | cons {s s₁ s₂ : Store} {a : Action} {acts : List Action} (h : Step k s a s₁)
      (rest : Trace k s₁ acts s₂) : Trace k s (a :: acts) s₂

namespace Trace

variable {k : Cause} {s s₁ s₂ : Store} {a : Action} {acts more : List Action}

theorem single (h : Step k s a s₁) : Trace k s [a] s₁ := .cons h (.nil _)

theorem append (h : Trace k s acts s₁) (hmore : Trace k s₁ more s₂) :
    Trace k s (acts ++ more) s₂ := by
  induction h with
  | nil => exact hmore
  | cons h _ ih => exact .cons h (ih hmore)

/-- A sequence of one action is that action. -/
theorem step (h : Trace k s [a] s₁) : Step k s a s₁ := by
  cases h with
  | cons hstep hrest =>
    cases hrest
    exact hstep

/-- A sequence in two parts passes through a store. -/
theorem exists_append (h : Trace k s (acts ++ more) s₂) :
    ∃ s₁, Trace k s acts s₁ ∧ Trace k s₁ more s₂ := by
  induction acts generalizing s with
  | nil => exact ⟨s, .nil s, h⟩
  | cons a acts ih =>
    rw [List.cons_append] at h
    cases h with
    | cons hstep hrest =>
      obtain ⟨s₁, hacts, hmore⟩ := ih hrest
      exact ⟨s₁, .cons hstep hacts, hmore⟩

/-- What every action keeps, a sequence keeps. -/
theorem induction {P : Store → Prop} (hstep : ∀ {s a s'}, Step k s a s' → P s → P s')
    (h : Trace k s acts s₁) (hs : P s) : P s₁ := by
  induction h with
  | nil => exact hs
  | cons h _ ih => exact ih (hstep h hs)

end Trace

section

variable {k : Cause} {s s' : Store} {a : Action} {acts : List Action} {id : ChainId}

/-! ## The subject of an action -/

/-- Records about other chains stay when a new chain gets its own. -/
theorem Store.get_registered_of_ne {slot : Slot} {other : ChainId} (hslot : slot.chain? = some id)
    (hne : other ≠ id) (s : Store) (account : ChainAccount) (channel : Channel)
    (set : ValidatorSet) : (s.registered other account channel set).get slot = s.get slot := by
  have hslots : ∀ {written : Slot}, written.chain? ≠ some id → written ≠ slot :=
    fun h => (Slot.ne_of_chain? hslot h).symm
  unfold Store.registered
  rw [get_put_of_ne _ _ (hslots (by simp [Slot.chain?])),
    get_put_of_ne _ _ (hslots (by simp [Slot.chain?])),
    get_put_of_ne _ _ (hslots (by simp [Slot.chain?, hne])),
    get_put_of_ne _ _ (hslots (by simp [Slot.chain?, hne])),
    get_put_of_ne _ _ (hslots (by simp [Slot.chain?, hne]))]

/-- **An action leaves the records of all chains but its subject alone.** -/
theorem Step.get_eq (h : Step k s a s') {slot : Slot} (hslot : slot.chain? = some id)
    (hne : a.subject? ≠ some id) : s'.get slot = s.get slot := by
  have hread : ∀ {written : Slot}, written.chain? ≠ some id → slot ≠ written :=
    Slot.ne_of_chain? hslot
  have hwritten : ∀ {written : Slot}, written.chain? ≠ some id → written ≠ slot :=
    fun h => (hread h).symm
  cases h with
  | report => rfl
  | receive => exact Store.get_put_of_ne _ _ (hwritten hne)
  | relay _ _ _ hpost => exact hpost.get_of_ne (hread hne)
  | notify _ hsend => exact hsend.get_of_ne (hread hne) (hread (by simp [Slot.chain?]))
  | @close id' _ _ _ _ _ _ hreceiver hsend =>
    have haccount : Slot.account id' ≠ slot := hwritten hne
    have hstate : Slot.terminatedState id' ≠ slot := hwritten hne
    rw [Store.get_put_of_ne _ _ hstate, Store.get_put_of_ne _ _ haccount]
    subst hreceiver
    exact hsend.get_of_ne (hread hne) (hread (by simp [Slot.chain?]))
  | @certify id' =>
    have haccount : Slot.account id' ≠ slot := hwritten hne
    have hvalidators : Slot.validators id' ≠ slot := hwritten hne
    rw [Store.get_put_of_ne _ _ hvalidators, Store.get_put_of_ne _ _ haccount]
  | prove => exact Store.get_put_of_ne _ _ (hwritten hne)
  | register _ _ _ _ _ _ _ _ hsend =>
    rw [hsend.get_of_ne (hread hne) (hread (by simp [Slot.chain?]))]
    exact Store.get_registered_of_ne hslot (fun h => hne (congrArg some h)) _ _ _ _
  | freeze => exact Store.get_put_of_ne _ _ (hwritten hne)
  | replace => exact Store.get_put_of_ne _ _ (hwritten hne)

/-! ## The hub itself -/

theorem Step.config (h : Step k s a s') : s'.get .config = s.get .config := by
  cases h with
  | report => rfl
  | relay _ _ _ hpost => exact hpost.get_of_ne (by simp)
  | notify _ hsend => exact hsend.get_of_ne (by simp) (by simp)
  | close _ _ _ _ hsend =>
    rw [Store.get_put_of_ne _ _ (by simp), Store.get_put_of_ne _ _ (by simp),
      hsend.get_of_ne (by simp) (by simp)]
  | register _ _ _ _ _ _ _ _ hsend =>
    rw [hsend.get_of_ne (by simp) (by simp)]
    simp [Store.registered, Store.get_put_of_ne]
  | _ => simp [Store.get_put_of_ne]

/-- **Only the nonce of the hub changes**, and it does not decrease. -/
theorem Step.own (h : Step k s a s') {own : OwnAccount} (hown : s.get .own = some own) :
    ∃ nonce, own.nonce ≤ nonce ∧ s'.get .own = some { own with nonce := nonce } := by
  have hsends : ∀ {s s' : Store} {m : Message}, s.get .own = some own → s.Sends m s' →
      ∃ nonce, own.nonce ≤ nonce ∧ s'.get .own = some { own with nonce := nonce } := by
    intro s s' m hown hsend
    obtain ⟨hroom, hown'⟩ := hsend.own hown
    refine ⟨own.next.nonce, ?_, hown'⟩
    rw [UInt64.le_iff_toNat_le, OwnAccount.toNat_nonce_next hroom]
    omega
  cases h with
  | report => exact ⟨own.nonce, UInt64.le_refl _, hown⟩
  | relay _ _ _ hpost => exact ⟨own.nonce, UInt64.le_refl _, (hpost.get_of_ne (by simp)).trans hown⟩
  | notify _ hsend => exact hsends hown hsend
  | close _ _ _ _ hsend =>
    rw [Store.get_put_of_ne _ _ (by simp), Store.get_put_of_ne _ _ (by simp)]
    exact hsends hown hsend
  | register _ _ _ _ _ _ _ _ hsend =>
    refine hsends ?_ hsend
    simpa [Store.registered, Store.get_put_of_ne] using hown
  | _ =>
    refine ⟨own.nonce, UInt64.le_refl _, ?_⟩
    simpa [Store.get_put_of_ne] using hown

theorem Trace.own (h : Trace k s acts s') {own : OwnAccount} (hown : s.get .own = some own) :
    ∃ nonce, own.nonce ≤ nonce ∧ s'.get .own = some { own with nonce := nonce } := by
  induction h generalizing own with
  | nil => exact ⟨own.nonce, UInt64.le_refl _, hown⟩
  | cons h _ ih =>
    obtain ⟨nonce, hle, hown₁⟩ := h.own hown
    obtain ⟨nonce', hle', hown₂⟩ := ih hown₁
    exact ⟨nonce', UInt64.le_trans hle hle', hown₂⟩

end

end ChainHub
