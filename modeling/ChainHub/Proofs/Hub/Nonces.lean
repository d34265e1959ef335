import ChainHub.Proofs.Hub.Frozen
import ChainHub.Proofs.Hub.Log

/-!
# The numbers of the hub's messages

The hub numbers its own messages, whichever chain they are for. A number is taken when a message is
drafted, and the message enters an outbox later; but nothing comes between, and no draft is lost.

* `sentBy`: the messages of a chain that events tell of.
* `Numbered`: messages that take all numbers from one to another.
* `Step.numbered`: an action of the hub takes the next number, and no other action takes one.
* `Run.nonces_gapless`: in every run the hub has used each number below its nonce once, in order.

That relayed messages do not interfere is the other half: no message that is passed on, sent back or
recovered names the hub as its sender.
-/

namespace ChainHub

/-- The message that an event tells of, if it tells that one has entered an outbox. -/
def Event.sent? : Event → Option Message
  | .sent m => some m
  | _ => none

/-- The messages of a chain that events tell of, to whichever receiver. -/
def sentBy (id : ChainId) (events : List Event) : List Message :=
  (events.filterMap Event.sent?).filter fun m => m.sender = id

section

variable {id : ChainId} {event : Event} {m : Message}

theorem sentBy_append (id : ChainId) (events more : List Event) :
    sentBy id (events ++ more) = sentBy id events ++ sentBy id more := by
  unfold sentBy
  rw [List.filterMap_append, List.filter_append]

theorem sentBy_sent (h : m.sender = id) : sentBy id [.sent m] = [m] := by
  simp [sentBy, Event.sent?, h]

theorem sentBy_sent_of_ne (h : m.sender ≠ id) : sentBy id [.sent m] = [] := by
  simp [sentBy, Event.sent?, h]

theorem sentBy_of_isSent_eq_false (h : event.isSent = false) : sentBy id [event] = [] := by
  cases event with
  | sent m => cases h
  | _ => rfl

end

/-! ## Numbers -/

/-- The messages are numbered from `first` on, and `next` is the number after theirs. -/
structure Numbered (messages : List Message) (first next : UInt64) : Prop where
  nonces : messages.map (fun m => m.nonce.toNat) = List.range' first.toNat messages.length
  next_eq : next.toNat = first.toNat + messages.length

namespace Numbered

variable {messages more : List Message} {first middle next : UInt64}

theorem nil (first : UInt64) : Numbered [] first first := ⟨rfl, rfl⟩

theorem append (h : Numbered messages first middle) (hmore : Numbered more middle next) :
    Numbered (messages ++ more) first next where
  nonces := by
    rw [List.map_append, h.nonces, hmore.nonces, h.next_eq, List.length_append,
      ← List.range'_append_1]
  next_eq := by
    rw [hmore.next_eq, h.next_eq, List.length_append]
    omega

/-- From zero on, the numbers are all those below the next one. -/
theorem eq_range (h : Numbered messages 0 next) :
    messages.map (fun m => m.nonce.toNat) = List.range next.toNat := by
  have hnext : next.toNat = messages.length := h.next_eq.trans (Nat.zero_add _)
  rw [h.nonces, hnext, List.range_eq_range']
  rfl

end Numbered

/-- A message that the hub sends has the next number. -/
theorem Store.Sends.numbered {s s' : Store} {m : Message} (h : s.Sends m s') {own : OwnAccount}
    (hown : s.get .own = some own) :
    Numbered (sentBy own.chainId [.sent m]) own.nonce own.next.nonce := by
  obtain ⟨hown', hsender, hnonce, hroom, -, -⟩ := h
  obtain rfl := Option.some.inj (hown.symm.trans hown')
  rw [sentBy_sent hsender]
  exact ⟨by simp [hnonce], OwnAccount.toNat_nonce_next hroom⟩

section

variable {k : Cause} {s s' : Store} {a : Action} {acts : List Action} {own : OwnAccount}

/-- **An action takes the numbers of the messages that it sends for the hub**, one or none. -/
theorem Step.numbered (h : Step k s a s') (hown : s.get .own = some own) :
    ∃ own', s'.get .own = some own' ∧ own'.chainId = own.chainId ∧
      Numbered (sentBy own.chainId a.events) own.nonce own'.nonce := by
  have hkept : ∀ {s' : Store} {events : List Event}, s'.get .own = s.get .own →
      sentBy own.chainId events = [] → ∃ own', s'.get .own = some own' ∧
        own'.chainId = own.chainId ∧ Numbered (sentBy own.chainId events) own.nonce own'.nonce := by
    intro s' events heq hnone
    refine ⟨own, heq.trans hown, rfl, ?_⟩
    rw [hnone]
    exact .nil own.nonce
  cases h with
  | report hsent => exact hkept rfl (sentBy_of_isSent_eq_false hsent)
  | relay hown' hsender _ hpost =>
    obtain rfl := Option.some.inj (hown.symm.trans hown')
    exact hkept (hpost.get_of_ne (by simp)) (sentBy_sent_of_ne hsender)
  | notify _ hsend => exact ⟨own.next, (hsend.own hown).2, rfl, hsend.numbered hown⟩
  | close _ _ _ _ hsend =>
    refine ⟨own.next, ?_, rfl, hsend.numbered hown⟩
    rw [Store.get_put_of_ne _ _ (by simp), Store.get_put_of_ne _ _ (by simp), (hsend.own hown).2]
  | @register id name set config _ _ _ _ _ _ _ _ _ _ hsend =>
    have hown' : (s.registered id (Registration.account name set k.now)
        (.fresh config.feeToken config.minFeePerByte) set).get .own = some own :=
      (Store.get_registered_own s id _ _ set).trans hown
    exact ⟨own.next, (hsend.own hown').2, rfl, hsend.numbered hown'⟩
  | certify => exact hkept (by simp [Store.get_put_of_ne]) rfl
  | _ => exact hkept (Store.get_put_of_ne _ _ (by simp)) rfl

theorem Trace.numbered (h : Trace k s acts s') (hown : s.get .own = some own) :
    ∃ own', s'.get .own = some own' ∧ own'.chainId = own.chainId ∧
      Numbered (sentBy own.chainId (acts.flatMap Action.events)) own.nonce own'.nonce := by
  induction h generalizing own with
  | nil => exact ⟨own, hown, rfl, .nil own.nonce⟩
  | cons h _ ih =>
    obtain ⟨own₁, hown₁, hid₁, hfirst⟩ := h.numbered hown
    obtain ⟨own₂, hown₂, hid₂, hrest⟩ := ih hown₁
    rw [hid₁] at hid₂ hrest
    refine ⟨own₂, hown₂, hid₂, ?_⟩
    rw [List.flatMap_cons, sentBy_append]
    exact hfirst.append hrest

/-! ## Relayed messages -/

/-- The reports of an action spare the hub. -/
theorem Step.sparesHub (h : Step k s a s') (hown : s.get .own = some own) :
    ∀ e ∈ a.events, e.SparesHub own.chainId := by
  have hspares : ∀ {event : Event} {rest : List Event}, event.SparesHub own.chainId →
      (∀ e ∈ rest, e.SparesHub own.chainId) → ∀ e ∈ event :: rest, e.SparesHub own.chainId :=
    fun hevent hrest => List.forall_mem_cons.mpr ⟨hevent, hrest⟩
  have hnil : ∀ e ∈ ([] : List Event), e.SparesHub own.chainId := by simp
  cases h with
  | report _ hown' hevent =>
    obtain rfl := Option.some.inj (hown.symm.trans hown')
    exact hspares hevent hnil
  | receive => exact hnil
  | certify => exact hnil
  | prove => exact hnil
  | close => exact hspares trivial (hspares trivial (hspares trivial hnil))
  | register => exact hspares trivial (hspares trivial hnil)
  | _ => exact hspares trivial hnil

theorem Trace.sparesHub (h : Trace k s acts s') (hown : s.get .own = some own) :
    ∀ e ∈ acts.flatMap Action.events, e.SparesHub own.chainId := by
  induction h generalizing own with
  | nil => simp
  | cons h _ ih =>
    obtain ⟨own₁, hown₁, hid, -⟩ := h.numbered hown
    rw [List.flatMap_cons, List.forall_mem_append]
    exact ⟨h.sparesHub hown, hid ▸ ih hown₁⟩

end

/-! ## Runs -/

section

variable {s : Store} {own : OwnAccount}

/-- The identity of the hub, and the numbers that it has used in several calls. -/
theorem numbered_collect (hs : Consistent s) (hown : s.get .own = some own) (calls : List Call) :
    ∃ own', (afterAll calls s).get .own = some own' ∧ own'.chainId = own.chainId ∧
      Numbered (sentBy own.chainId (collect Call.events calls s)) own.nonce own'.nonce := by
  induction calls generalizing s own with
  | nil => exact ⟨own, hown, rfl, .nil own.nonce⟩
  | cons k rest ih =>
    obtain ⟨acts, htrace, hevents⟩ := Call.exists_trace_events hs k
    obtain ⟨own₁, hown₁, hid₁, hfirst⟩ := htrace.numbered hown
    obtain ⟨own₂, hown₂, hid₂, hrest⟩ := ih (Call.consistent_after hs) hown₁
    rw [hid₁] at hid₂ hrest
    refine ⟨own₂, hown₂, hid₂, ?_⟩
    rw [collect, sentBy_append, hevents]
    exact hfirst.append hrest

theorem sparesHub_collect (hs : Consistent s) (hown : s.get .own = some own) (calls : List Call) :
    ∀ e ∈ collect Call.events calls s, e.SparesHub own.chainId := by
  induction calls generalizing s own with
  | nil => simp [collect]
  | cons k rest ih =>
    obtain ⟨acts, htrace, hevents⟩ := Call.exists_trace_events hs k
    obtain ⟨own₁, hown₁, hid, -⟩ := htrace.numbered hown
    rw [collect, List.forall_mem_append, hevents]
    exact ⟨htrace.sparesHub hown, hid ▸ ih (Call.consistent_after hs) hown₁⟩

/-- A message that is recovered comes back from a terminated chain. -/
theorem Call.sender_recovered_ne (hs : Consistent s) (hown : s.get .own = some own) {k : Call}
    {id : ChainId} {request : RecoveryRequest} (hrequest : request ∈ k.recoveries id s)
    {bytes : Bytes} (hbytes : bytes ∈ request.messages) {m : Message}
    (hm : (Wire.decode bytes : Except WireError Message) = .ok m) :
    m.recovered.sender ≠ own.chainId := by
  cases k.onFrozen hs id with
  | untouched _ hnone => simp [hnone] at hrequest
  | freeze _ _ _ _ hnone => simp [hnone] at hrequest
  | recover hrecoveries _ hchecked =>
    rw [hrecoveries, List.mem_singleton] at hrequest
    subst hrequest
    obtain ⟨m', hmessage⟩ := hchecked.exists_checkedMessage hbytes
    rw [hmessage.decoded] at hm
    obtain rfl := Except.ok.inj hm
    obtain ⟨account, haccount, -⟩ := hs.outbox _ _ hchecked.outbox
    rw [← hmessage.receiver] at haccount
    exact hs.ne_own haccount hown

end

namespace Run

/-- The hub starts with its first number. -/
theorem exists_own_start (r : Run) : ∃ own, r.start.get .own = some own ∧ own.nonce = 0 := by
  obtain ⟨id, config, -, hstart⟩ := r.start_eq
  refine ⟨⟨id, r.setup.ownName, 0⟩, ?_, rfl⟩
  rw [hstart, Store.get_put_of_ne _ _ (by simp), Store.get_put_self]

/-- **The hub uses every number once.** The messages of the hub that the log tells of, over all
receivers and in the order of the log, have the numbers from zero up to its nonce without a gap. No
message that is passed on, sent back or recovered names the hub as its sender. -/
theorem nonces_gapless (r : Run) :
    ∃ own, r.store.get .own = some own ∧
      (sentBy own.chainId r.log).map (fun m => m.nonce.toNat) = List.range own.nonce.toNat ∧
      (∀ m d code, Event.processed m d code ∈ r.log →
        (d = .forwarded → m.sender ≠ own.chainId) ∧
          (d = .bounced → ∀ status, (m.bounced status).sender ≠ own.chainId)) ∧
      ∀ id, ∀ request ∈ r.recoveries id, ∀ bytes ∈ request.messages, ∀ m,
        (Wire.decode bytes : Except WireError Message) = .ok m →
          m.recovered.sender ≠ own.chainId := by
  obtain ⟨first, hfirst, hzero⟩ := r.exists_own_start
  obtain ⟨own, hown, hid, hnumbered⟩ := numbered_collect r.consistent_start hfirst r.calls
  rw [hzero] at hnumbered
  refine ⟨own, hown, ?_, ?_, ?_⟩
  · rw [hid]
    exact hnumbered.eq_range
  · intro m d code hmem
    have hspares := sparesHub_collect r.consistent_start hfirst r.calls _ hmem
    rw [← hid] at hspares
    exact ⟨hspares.1, fun hd status => hspares.2 hd⟩
  · intro id request hrequest bytes hbytes m hm
    obtain ⟨before, k, later, -, hmem⟩ := exists_of_mem_collect hrequest
    have hmid := consistent_afterAll r.consistent_start before
    obtain ⟨own', hown', hid', -⟩ := numbered_collect r.consistent_start hfirst before
    rw [hid, ← hid']
    exact Call.sender_recovered_ne hmid hown' hmem hbytes hm

end Run

end ChainHub
