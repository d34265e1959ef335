import ChainHub.Proofs.Hub.Frame
import ChainHub.Proofs.Wire

/-!
# How computations end

Once a request has passed its checks, nothing refuses it any more. `HubM.Ends x c Q` says that the
computation `x` ends with a result and a context of which `Q` holds, or is aborted because a counter
is at its limit; a refusal is excluded. The rules follow the ways in which computations are put
together, and each function that sends or terminates has one lemma that names its actions.

* `Store.AtLimit`: a counter cannot be increased any more.
* `EndsIn`, `HubM.Ends`: the outcome of a computation.
* `HubM.Reaches`: a context is reached from another one by actions.
* `HubM.Sent`: a context is reached from another one by a message of the hub.
* `HubM.ends_sendNotice`, `HubM.ends_terminateChain`: what the two building blocks do.
-/

namespace ChainHub

/-- The nonce of the hub or the size of an inbox or outbox is the largest 64-bit number. -/
def Store.AtLimit (s : Store) : Prop :=
  (∃ own, s.get .own = some own ∧ own.nonce.toNat + 1 = UInt64.size) ∨
    ∃ id channel, s.get (.channel id) = some channel ∧
      (channel.inbox.size.toNat + 1 = UInt64.size ∨ channel.outbox.size.toNat + 1 = UInt64.size)

/-! ## Formats -/

/-- A message keeps the format rules when each of them holds. -/
theorem Message.checkFormat_eq_ok_iff {m : Message} :
    m.checkFormat = .ok () ↔ isServiceName m.module = true ∧ isServiceName m.command = true ∧
      m.encode.length ≤ maxMessageSize ∧ m.sender ≠ m.receiver := by
  unfold checkFormat
  by_cases hmodule : isServiceName m.module = true
  · by_cases hcommand : isServiceName m.command = true
    · by_cases hsize : maxMessageSize < m.encode.length
      · simp [hmodule, hcommand, hsize]
      · by_cases hsame : m.sender = m.receiver
        · simp [hmodule, hcommand, hsize, hsame]
        · simp [hmodule, hcommand, hsize, hsame]
          omega
    · simp [hmodule, hcommand]
  · simp [hmodule]

/-- The names, the parameters and the chains decide whether a message keeps the format rules. -/
theorem Message.checkFormat_turned {m back : Message} (h : m.checkFormat = .ok ())
    (hmodule : back.module = m.module) (hcommand : back.command = m.command)
    (hparams : back.params = m.params) (hsender : back.sender = m.receiver)
    (hreceiver : back.receiver = m.sender) : back.checkFormat = .ok () := by
  rw [checkFormat_eq_ok_iff, length_encode] at h ⊢
  rw [hmodule, hcommand, hparams, hsender, hreceiver]
  exact ⟨h.1, h.2.1, h.2.2.1, h.2.2.2.symm⟩

/-- A message keeps the format rules on its way back. -/
theorem Message.checkFormat_bounced {m : Message} (h : m.checkFormat = .ok ())
    (status : MessageStatus) : (m.bounced status).checkFormat = .ok () :=
  checkFormat_turned h rfl rfl rfl rfl rfl

theorem Message.checkFormat_recovered {m : Message} (h : m.checkFormat = .ok ()) :
    m.recovered.checkFormat = .ok () :=
  checkFormat_turned h rfl rfl rfl rfl rfl

theorem utf8ByteSize_of_isServiceName {name : String} (h : isServiceName name = true) :
    name.utf8ByteSize ≤ maxNameLength := by
  simp only [isServiceName, Bool.and_eq_true, decide_eq_true_eq] at h
  exact h.1.2

/-- The draft can be sent: its names are right and its parameters are short. -/
structure Draft.Sendable (draft : Draft) : Prop where
  module : isServiceName draft.module = true
  command : isServiceName draft.command = true
  params : draft.params.length ≤ 10000

theorem Draft.Sendable.checkFormat {draft : Draft} (h : draft.Sendable) {own : OwnAccount}
    (hne : draft.receiver ≠ own.chainId) : (draft.message own).checkFormat = .ok () := by
  refine Message.checkFormat_eq_ok_iff.mpr ⟨h.module, h.command, ?_, hne.symm⟩
  have hmodule := utf8ByteSize_of_isServiceName h.module
  have hcommand := utf8ByteSize_of_isServiceName h.command
  have hparams := h.params
  rw [Message.length_encode]
  simp only [Draft.message, maxMessageSize, maxNameLength] at *
  omega

theorem isServiceName_interoperability : isServiceName interoperabilityModule = true := by decide

theorem sendable_channelTerminated (id : ChainId) : (channelTerminatedDraft id).Sendable where
  module := isServiceName_interoperability
  command := by
    show isServiceName channelTerminatedCommand = true
    decide
  params := by simp [channelTerminatedDraft]

theorem sendable_sidechainTerminated (receiver terminated : ChainId) (stateRoot : Digest) :
    (sidechainTerminatedDraft receiver terminated stateRoot).Sendable where
  module := isServiceName_interoperability
  command := by
    show isServiceName sidechainTerminatedCommand = true
    decide
  params := by
    show (Wire.encode terminated ++ Wire.encode stateRoot).length ≤ 10000
    simp

theorem utf8ByteSize_of_isChainName {name : String} (h : isChainName name = true) :
    name.utf8ByteSize ≤ maxChainNameLength := by
  simp only [isChainName, Bool.and_eq_true, decide_eq_true_eq] at h
  exact h.1.2

theorem sendable_handshake (config : Config) (id : ChainId) {name : String}
    (hname : isChainName name = true) : (Registration.handshake config id name).Sendable where
  module := isServiceName_interoperability
  command := by
    show isServiceName registrationCommand = true
    decide
  params := by
    have hlen := utf8ByteSize_of_isChainName hname
    show (Wire.encode name ++ Wire.encode id ++ Wire.encode config.feeToken
      ++ Wire.encode config.minFeePerByte).length ≤ 10000
    simp only [List.length_append, Wire.length_encode_string, Wire.length_encode_fixed,
      Wire.length_encode_uint64, maxChainNameLength] at *
    omega

/-! ## Outcomes -/

section

variable {σ α β : Type} {store : σ → Store} {s s' : σ} {Q : α → σ → Prop} {R : β → σ → Prop}

/-- The computation ends as `Q` says, or is aborted at a limit; it is not refused. -/
def EndsIn (store : σ → Store) (x : EStateM (Failure HubError) σ α) (s : σ) (Q : α → σ → Prop) :
    Prop :=
  match x s with
  | .ok a s' => Q a s'
  | .error .abort s' => (store s').AtLimit
  | .error (.error _) _ => False

theorem bind_of_ok {x : EStateM (Failure HubError) σ α}
    {f : α → EStateM (Failure HubError) σ β} {a : α} (h : x s = .ok a s') :
    (x >>= f) s = f a s' := by
  show EStateM.bind x f s = _
  unfold EStateM.bind
  rw [h]

theorem bind_of_error {x : EStateM (Failure HubError) σ α}
    {f : α → EStateM (Failure HubError) σ β} {failure : Failure HubError}
    (h : x s = .error failure s') : (x >>= f) s = .error failure s' := by
  show EStateM.bind x f s = _
  unfold EStateM.bind
  rw [h]

/-- A sequence of two computations has a result when both have. -/
theorem bind_eq_ok_iff {x : EStateM (Failure HubError) σ α}
    {f : α → EStateM (Failure HubError) σ β} {b : β} :
    (x >>= f) s = .ok b s' ↔ ∃ a s₁, x s = .ok a s₁ ∧ f a s₁ = .ok b s' := by
  constructor
  · intro h
    cases hx : x s with
    | ok a s₁ =>
      rw [bind_of_ok hx] at h
      exact ⟨a, s₁, rfl, h⟩
    | error failure s₁ =>
      rw [bind_of_error hx] at h
      cases h
  · rintro ⟨a, s₁, hx, hf⟩
    rw [bind_of_ok hx, hf]

/-- A sequence succeeds when its first part does and the rest does after it. -/
theorem exists_ok_bind {x : EStateM (Failure HubError) σ α}
    {f : α → EStateM (Failure HubError) σ β} {a : α} (hx : x s = .ok a s')
    (hf : ∃ b s'', f a s' = .ok b s'') : ∃ b s'', (x >>= f) s = .ok b s'' := by
  rwa [bind_of_ok hx]

theorem EndsIn.of_ok {x : EStateM (Failure HubError) σ α} {a : α} (h : EndsIn store x s Q)
    (hx : x s = .ok a s') : Q a s' := by
  unfold EndsIn at h
  rw [hx] at h
  exact h

theorem EndsIn.mono {x : EStateM (Failure HubError) σ α} {Q' : α → σ → Prop}
    (h : EndsIn store x s Q) (hQ : ∀ a s', Q a s' → Q' a s') : EndsIn store x s Q' := by
  unfold EndsIn at *
  split
  · rename_i heq
    rw [heq] at h
    exact hQ _ _ h
  · rename_i heq
    rwa [heq] at h
  · rename_i heq
    rwa [heq] at h

theorem EndsIn.bind {x : EStateM (Failure HubError) σ α}
    {f : α → EStateM (Failure HubError) σ β} (hx : EndsIn store x s Q)
    (hf : ∀ a s', Q a s' → EndsIn store (f a) s' R) : EndsIn store (x >>= f) s R := by
  unfold EndsIn at hx ⊢
  cases hs : x s with
  | ok a s' =>
    rw [hs] at hx
    rw [bind_of_ok hs]
    exact hf a s' hx
  | error failure s' =>
    rw [hs] at hx
    rw [bind_of_error hs]
    cases failure with
    | error e => exact hx.elim
    | abort => exact hx

theorem endsIn_bind_of_ok {x : EStateM (Failure HubError) σ α}
    {f : α → EStateM (Failure HubError) σ β} {a : α} (hx : x s = .ok a s')
    (h : EndsIn store (f a) s' R) : EndsIn store (x >>= f) s R := by
  unfold EndsIn
  rw [bind_of_ok hx]
  exact h

end

/-- The account of a chain is closed, and the state that it certified last is kept. -/
def Context.close (c : Context) (id : ChainId) (account : ChainAccount) : Context :=
  (((c.write (.account id) (some account.closed)).write (.terminatedState id)
    (some account.frozenState)).emit (.accountUpdated id .terminated)).emit
      (.terminatedStateCreated id account.last.stateRoot)

theorem Context.get_close (c : Context) {id : ChainId} (account : ChainAccount) {slot : Slot}
    (haccount : slot ≠ .account id) (hstate : slot ≠ .terminatedState id) :
    (c.close id account).store.get slot = c.store.get slot :=
  (Store.get_put_of_ne _ _ hstate.symm).trans (Store.get_put_of_ne _ _ haccount.symm)

theorem Context.isClosed_close (c : Context) (id : ChainId) (account : ChainAccount) :
    (c.close id account).store.IsClosed id := by
  have hput := Store.get_put_self c.store (.account id) (some account.closed)
  have hne : Slot.terminatedState id ≠ .account id := by simp
  exact ⟨account.closed, (Store.get_put_of_ne _ (some account.frozenState) hne).trans hput, rfl⟩

namespace HubM

/-- The computation on a context ends as `Q` says, or is aborted at a limit. -/
abbrev Ends {α : Type} (x : HubM α) (c : Context) (Q : α → Context → Prop) : Prop :=
  EndsIn Context.store x c Q

section Rules

variable {α β : Type} {c : Context} {Q : α → Context → Prop} {R : β → Context → Prop}

theorem ends_pure {a : α} (h : Q a c) : Ends (pure a) c Q := h

theorem ends_get {f : Context → HubM β} (h : Ends (f c) c R) :
    Ends ((get : HubM Context) >>= f) c R := h

theorem ends_get? {slot : Slot} {f : Option slot.Value → HubM β}
    (h : Ends (f (c.store.get slot)) c R) : Ends (get? slot >>= f) c R := h

theorem load_eq {slot : Slot} {value : slot.Value} (hget : c.store.get slot = some value) :
    load slot c = .ok value c := by
  unfold load
  refine (bind_of_ok (show get? slot c = .ok (c.store.get slot) c from rfl)).trans ?_
  rw [hget]
  rfl

theorem load_eq_error {slot : Slot} (hget : c.store.get slot = none) :
    load slot c = .error (.error (.host .recordMissing)) c := by
  unfold load
  refine (bind_of_ok (show get? slot c = .ok (c.store.get slot) c from rfl)).trans ?_
  rw [hget]
  rfl

theorem ends_load {slot : Slot} {value : slot.Value} {f : slot.Value → HubM β}
    (hget : c.store.get slot = some value) (h : Ends (f value) c R) :
    Ends (load slot >>= f) c R :=
  endsIn_bind_of_ok (load_eq hget) h

theorem ends_save {slot : Slot} {value : slot.Value} {f : Unit → HubM β}
    (h : Ends (f ()) (c.write slot (some value)) R) : Ends (save slot value >>= f) c R := h

theorem ends_emit {event : Event} {f : Unit → HubM β} (h : Ends (f ()) (c.emit event) R) :
    Ends (emit event >>= f) c R := h

end Rules

/-! ## Contexts reached by actions -/

/-- The context `c'` is reached from `c` by the given actions. -/
structure Reaches (k : Cause) (c : Context) (acts : List Action) (c' : Context) : Prop where
  trace : Trace k c.store acts c'.store
  events : c'.events = c.events ++ acts.flatMap Action.events
  header : c'.header = c.header
  ownChain : c'.ownChain = c.ownChain

/-- The context `c'` is reached from `c` when the hub sends the message `m` that it has drafted. -/
structure Sent (c : Context) (draft : Draft) (m : Message) (c' : Context) : Prop where
  message : ∃ own, c.store.get .own = some own ∧ m = draft.message own
  store : c.store.Sends m c'.store
  events : c'.events = c.events ++ [.sent m]
  header : c'.header = c.header
  ownChain : c'.ownChain = c.ownChain

/-- A context that a request can be in: its store is consistent, and it knows the hub and the
time. -/
structure Sound (k : Cause) (c : Context) : Prop where
  store : Consistent c.store
  own : ∃ own, c.store.get .own = some own ∧ own.chainId = c.ownChain
  now : c.header.time = k.now

section

variable {k : Cause} {c c₁ c₂ : Context} {a : Action} {acts more : List Action} {draft : Draft}
  {m : Message}

theorem Reaches.refl (k : Cause) (c : Context) : Reaches k c [] c :=
  ⟨.nil _, by simp, rfl, rfl⟩

theorem Reaches.append (h : Reaches k c acts c₁) (hmore : Reaches k c₁ more c₂) :
    Reaches k c (acts ++ more) c₂ where
  trace := h.trace.append hmore.trace
  events := by rw [hmore.events, h.events, List.flatMap_append, List.append_assoc]
  header := hmore.header.trans h.header
  ownChain := hmore.ownChain.trans h.ownChain

theorem Sent.receiver (h : Sent c draft m c₁) : m.receiver = draft.receiver := by
  obtain ⟨own, -, rfl⟩ := h.message
  rfl

/-- What the hub sends to an active chain is an action. -/
theorem Sent.reaches (h : Sent c draft m c₁) (hactive : c.store.IsActive draft.receiver) :
    Reaches k c [.notify m] c₁ where
  trace := .single (.notify (h.receiver ▸ hactive) h.store)
  events := h.events
  header := h.header
  ownChain := h.ownChain

theorem Sound.reaches (hc : Sound k c) (h : Reaches k c acts c') : Sound k c' where
  store := h.trace.consistent hc.store
  own := by
    obtain ⟨own, hown, hid⟩ := hc.own
    obtain ⟨nonce, -, hown'⟩ := h.trace.own hown
    exact ⟨_, hown', by rw [hid, h.ownChain]⟩
  now := by rw [h.header, hc.now]

/-- A request reports what is so, as long as it spares the hub. -/
theorem reaches_emit (hc : Sound k c) {event : Event} (h : event.isSent = false)
    (hspares : event.SparesHub c.ownChain) (hholds : event.Holds k c.store) :
    Reaches k c [.report event] (c.emit event) := by
  obtain ⟨own, hown, hid⟩ := hc.own
  exact ⟨.single (.report h hown (hid ▸ hspares) hholds), rfl, rfl, rfl⟩

/-- A chain with an account is not the hub. -/
theorem Sound.ne_own (hc : Sound k c) {id : ChainId} {account : ChainAccount}
    (hget : c.store.get (.account id) = some account) : id ≠ c.ownChain := by
  obtain ⟨own, hown, hid⟩ := hc.own
  rw [← hid]
  exact hc.store.ne_own hget hown

end

/-! ## Sending -/

section Sending

variable {k : Cause} {c : Context}

theorem atLimit_of_append_eq_none {s : Store} (hs : Consistent s) {id : ChainId}
    {channel : Channel} (hchannel : s.get (.channel id) = some channel) {bytes : Bytes}
    (h : channel.outbox.append? bytes = none) : s.AtLimit :=
  Or.inr ⟨id, channel, hchannel, Or.inr ((hs.built id channel hchannel).2.append_eq_none h)⟩

/-- A message enters the outbox of its receiver. -/
theorem ends_post (hc : Consistent c.store) {m : Message}
    (hchannel : ∃ channel, c.store.get (.channel m.receiver) = some channel) :
    Ends (post m) c fun _ c' => c.store.Posts m c'.store ∧ c'.events = c.events ++ [.sent m] ∧
      c'.header = c.header ∧ c'.ownChain = c.ownChain := by
  obtain ⟨channel, hchannel⟩ := hchannel
  unfold post appendToOutbox
  rw [bind_assoc]
  refine ends_load hchannel ?_
  cases happend : channel.outbox.append? m.encode with
  | none => exact atLimit_of_append_eq_none hc hchannel happend
  | some outbox => exact ⟨.intro hchannel happend, rfl, rfl, rfl⟩

/-- A message of another chain goes to an active chain. -/
theorem ends_relay (hc : Sound k c) {m : Message} (hsender : m.sender ≠ c.ownChain)
    (hactive : c.store.IsActive m.receiver) (horigin : m.status = .ok → c.store.IsActive m.sender)
    (hformat : m.checkFormat = .ok () ∨ k.Recovers m) :
    Ends (post m) c fun _ c' => Reaches k c [.relay m] c' := by
  obtain ⟨own, hown, hid⟩ := hc.own
  refine (ends_post hc.store (hc.store.exists_channel hactive.isOpen)).mono ?_
  rintro - c' ⟨hpost, hevents, hheader, hownChain⟩
  exact ⟨.single (.relay hown (hid ▸ hsender) hactive hpost horigin hformat), hevents, hheader,
    hownChain⟩

theorem ends_address {draft : Draft} {own : OwnAccount} (hown : c.store.get .own = some own)
    (hformat : (draft.message own).checkFormat = .ok ()) :
    Ends (address draft) c fun m c' => m = draft.message own ∧
      own.nonce.toNat + 1 < UInt64.size ∧ c' = c.write .own (some own.next) := by
  unfold address
  refine ends_load hown ?_
  dsimp only
  rw [hformat]
  by_cases hroom : own.nonce.toNat + 1 < UInt64.size
  · simp only [if_pos hroom]
    exact ⟨rfl, hroom, rfl⟩
  · simp only [if_neg hroom]
    refine Or.inl ⟨own, hown, ?_⟩
    have := own.nonce.toNat_lt
    simp only [UInt64.size] at *
    omega

/-- **A notice to a chain that is not terminated is sent.** -/
theorem ends_sendNotice (hc : Sound k c) {draft : Draft} (hdraft : draft.Sendable)
    (hopen : c.store.IsOpen draft.receiver) :
    Ends (sendNotice draft) c fun m c' => Sent c draft m c' := by
  obtain ⟨channel, hchannel⟩ := hc.store.exists_channel hopen
  obtain ⟨own, hown, hmain⟩ := hc.store.own
  obtain ⟨account, haccount⟩ := hopen.known
  have hformat := hdraft.checkFormat (hc.store.ne_own haccount hown)
  unfold sendNotice
  refine (ends_address hown hformat).bind ?_
  rintro _ _ ⟨rfl, hroom, rfl⟩
  have hstore : Consistent (c.write .own (some own.next)).store := hc.store.put_own own.next hmain
  have hchannel' : (c.write .own (some own.next)).store.get
      (.channel (draft.message own).receiver) = some channel :=
    (Store.get_put_of_ne _ _ (by simp)).trans hchannel
  refine (ends_post hstore ⟨channel, hchannel'⟩).bind ?_
  rintro - c' ⟨hpost, hevents, hheader, hownChain⟩
  refine ends_pure ⟨⟨own, hown, rfl⟩, ?_, hevents, hheader, hownChain⟩
  exact .intro hown rfl rfl hroom hformat hpost

/-- An active chain is told by the hub what it has to know, and a new one gets the handshake. -/
theorem ends_sendInternal (hc : Sound k c) {draft : Draft} (hdraft : draft.Sendable)
    {account : ChainAccount} (hget : c.store.get (.account draft.receiver) = some account)
    (hstatus : account.status = .active ∨
      account.status = .registered ∧ draft.command = registrationCommand) :
    Ends (sendInternal draft) c fun m c' => Sent c draft m c' := by
  have hopen : c.store.IsOpen draft.receiver := by
    refine ⟨account, hget, fun h => ?_⟩
    rcases hstatus with hactive | ⟨hregistered, -⟩
    · rw [h] at hactive
      cases hactive
    · rw [h] at hregistered
      cases hregistered
  unfold sendInternal
  refine ends_get? ?_
  rw [hget]
  rcases hstatus with hactive | ⟨hregistered, hcommand⟩
  · simp only [hactive]
    exact ends_sendNotice hc hdraft hopen
  · simp only [hregistered, if_pos hcommand]
    exact ends_sendNotice hc hdraft hopen

/-- **Termination tells the chain and closes its account**, unless it is terminated already. -/
theorem ends_terminateChain (hc : Sound k c) {id : ChainId} {account : ChainAccount}
    (hget : c.store.get (.account id) = some account)
    (hcause : account.status = .terminated ∨ k.Closes id account) :
    Ends (terminateChain id) c fun _ c' =>
      (account.status = .terminated ∧ c' = c) ∨
        (account.status ≠ .terminated ∧
          ∃ notice, Reaches k c [.close id notice account.last.stateRoot] c') := by
  unfold terminateChain
  refine ends_get? ?_
  rw [hget]
  by_cases hstatus : account.status = .terminated
  · simp only [if_pos hstatus]
    exact Or.inl ⟨hstatus, rfl⟩
  · have hopen : c.store.IsOpen id := ⟨account, hget, hstatus⟩
    obtain ⟨channel, hchannel⟩ := hc.store.exists_channel hopen
    simp only [if_neg hstatus]
    refine ends_get? ?_
    rw [hchannel]
    simp only [Option.isSome_some, if_true]
    refine (ends_sendNotice hc (sendable_channelTerminated id) hopen).bind ?_
    intro notice c₁ hnotice
    have hclose : Reaches k c [.close id notice account.last.stateRoot] (c₁.close id account) := by
      refine ⟨.single (.close hget hstatus (hcause.resolve_left hstatus) hnotice.receiver
        hnotice.store), ?_, hnotice.header, hnotice.ownChain⟩
      simp [Action.events, Context.close, Context.emit, Context.write, hnotice.events]
    exact ends_save (ends_save (ends_emit (Or.inr ⟨hstatus, notice, hclose⟩)))

end Sending

/-! ## Sending with room -/

section Room

variable {c : Context} {draft : Draft} {own : OwnAccount}

/-- A message enters an outbox that has room. -/
theorem post_eq_ok {m : Message} {channel : Channel}
    (hchannel : c.store.get (.channel m.receiver) = some channel)
    (hroom : channel.outbox.HasRoom) :
    ∃ c', post m c = .ok () c' ∧ c.store.Posts m c'.store ∧ c'.events = c.events ++ [.sent m] ∧
      c'.header = c.header ∧ c'.ownChain = c.ownChain := by
  obtain ⟨outbox, happend⟩ := hroom.exists_append m.encode
  unfold post appendToOutbox
  rw [bind_assoc, bind_of_ok (load_eq hchannel), happend]
  exact ⟨_, rfl, .intro hchannel happend, rfl, rfl, rfl⟩

/-- A draft is addressed while the hub has nonces left. -/
theorem address_eq_ok (hown : c.store.get .own = some own)
    (hformat : (draft.message own).checkFormat = .ok ())
    (hroom : own.nonce.toNat + 1 < UInt64.size) :
    address draft c = .ok (draft.message own) (c.write .own (some own.next)) := by
  unfold address
  rw [bind_of_ok (load_eq hown), hformat]
  exact congrFun (if_pos hroom) c

/-- **A notice is sent**, if there is a nonce and room for it. -/
theorem sendNotice_eq_ok (hdraft : draft.Sendable) (hown : c.store.get .own = some own)
    (hne : draft.receiver ≠ own.chainId) (hnonce : own.nonce.toNat + 1 < UInt64.size)
    {channel : Channel} (hchannel : c.store.get (.channel draft.receiver) = some channel)
    (hroom : channel.outbox.HasRoom) :
    ∃ c', sendNotice draft c = .ok (draft.message own) c' ∧
      Sent c draft (draft.message own) c' := by
  have hformat := hdraft.checkFormat hne
  have hchannel' : (c.write .own (some own.next)).store.get
      (.channel (draft.message own).receiver) = some channel :=
    (Store.get_put_of_ne _ _ (by simp)).trans hchannel
  obtain ⟨c', hpost, hposts, hevents, hheader, hownChain⟩ := post_eq_ok hchannel' hroom
  refine ⟨c', ?_, ⟨own, hown, rfl⟩, .intro hown rfl rfl hnonce hformat hposts, hevents, hheader,
    hownChain⟩
  unfold sendNotice
  rw [bind_of_ok (address_eq_ok hown hformat hnonce), bind_of_ok hpost]
  rfl

/-- A terminated chain is not terminated again. -/
theorem terminateChain_of_isClosed {id : ChainId} (h : c.store.IsClosed id) :
    terminateChain id c = .ok () c := by
  obtain ⟨account, hget, hstatus⟩ := h
  unfold terminateChain
  refine (bind_of_ok (show get? _ c = .ok (c.store.get _) c from rfl)).trans ?_
  rw [hget]
  dsimp only
  rw [if_pos hstatus]
  rfl

/-- **Any other chain is told and its account closed**, if there is a nonce and room for the
notice. -/
theorem terminateChain_eq_ok {id : ChainId} {account : ChainAccount} {channel : Channel}
    (hget : c.store.get (.account id) = some account) (hopen : account.status ≠ .terminated)
    (hown : c.store.get .own = some own) (hne : id ≠ own.chainId)
    (hnonce : own.nonce.toNat + 1 < UInt64.size)
    (hchannel : c.store.get (.channel id) = some channel) (hroom : channel.outbox.HasRoom) :
    ∃ c₁, Sent c (channelTerminatedDraft id) ((channelTerminatedDraft id).message own) c₁ ∧
      terminateChain id c = .ok () (c₁.close id account) := by
  obtain ⟨c₁, hsend, hsent⟩ :=
    sendNotice_eq_ok (sendable_channelTerminated id) hown hne hnonce hchannel hroom
  refine ⟨c₁, hsent, ?_⟩
  unfold terminateChain
  refine (bind_of_ok (show get? _ c = .ok (c.store.get _) c from rfl)).trans ?_
  rw [hget]
  dsimp only
  rw [if_neg hopen]
  refine (bind_of_ok (show get? _ c = .ok (c.store.get _) c from rfl)).trans ?_
  rw [hchannel]
  exact (bind_of_ok hsend).trans rfl

end Room

end HubM

end ChainHub
