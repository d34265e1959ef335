import ChainHub.Hub.Recovery
import ChainHub.Hub.Registration
import ChainHub.Hub.Update
import ChainHub.Proofs.Attempt
import ChainHub.Proofs.Merkle.Layers

/-!
# What a store says about a chain

* `Store.IsOpen`, `Store.IsActive`, `Store.IsClosed`: where a chain stands.
* `Store.inboxOf`, `Store.outboxOf`: what was received from a chain and sent to it.
* `Store.Posts`, `Store.Sends`: how a store changes when a message enters an outbox, and when the
  hub sends a message of its own.
* `Slot.chain?`: the chain that a record is about.
-/

namespace ChainHub

namespace Store

variable {s : Store} {slot : Slot} {value : Option slot.Value} {id : ChainId}

/-! ## Reading after writing -/

theorem get_empty (slot : Slot) : empty.get slot = none := by
  cases slot <;> simp [empty, get]

/-- **A store is what its places hold.** -/
theorem ext_get {s t : Store} (h : ∀ slot, s.get slot = t.get slot) : s = t := by
  cases s
  cases t
  congr
  · exact h .version
  · exact h .config
  · exact h .own
  · exact Std.ExtTreeMap.ext_getElem? fun id => h (.account id)
  · exact Std.ExtTreeMap.ext_getElem? fun id => h (.channel id)
  · exact Std.ExtTreeMap.ext_getElem? fun id => h (.validators id)
  · exact Std.ExtTreeMap.ext_getElem? fun name => h (.name name)
  · exact Std.ExtTreeMap.ext_getElem? fun id => h (.escrow id)
  · exact Std.ExtTreeMap.ext_getElem? fun id => h (.terminatedState id)
  · exact Std.ExtTreeMap.ext_getElem? fun id => h (.terminatedOutbox id)
  · exact Std.ExtTreeMap.ext_getElem? fun key => h (.cell key)

/-- A table in which the record of a key is written again. -/
theorem putIn_eq_self {κ ν : Type} [Ord κ] [Std.TransOrd κ] [Std.LawfulEqOrd κ] [DecidableEq κ]
    {table : Table κ ν} {key : κ} {record : ν} (h : table[key]? = some record) :
    putIn table key (some record) = table := by
  apply Std.ExtTreeMap.ext_getElem?
  intro other
  rw [getElem?_putIn]
  split
  · rename_i heq
    rw [← heq, h]
  · rfl

/-- Writing what is there already changes nothing. -/
theorem put_eq_self {record : slot.Value} (h : s.get slot = some record) :
    s.put slot (some record) = s := by
  cases slot with
  | version | config | own =>
    rw [← h]
    rfl
  | _ => simp [put, putIn_eq_self h]

/-- Records of one kind, written under one key and read under another. -/
theorem get_put_of_injective {κ : Type} [DecidableEq κ] {f : κ → Slot}
    (hf : Function.Injective f) (s : Store) (key other : κ) {value : Option (f key).Value}
    {value' : Option (f other).Value} (hvalue : HEq value value') :
    (s.put (f key) value).get (f other) = if other = key then value' else s.get (f other) := by
  by_cases h : other = key
  · subst h
    rw [if_pos rfl, get_put_self]
    exact eq_of_heq hvalue
  · rw [if_neg h]
    exact get_put_of_ne _ _ fun heq => h (hf heq).symm

theorem get_put_account (s : Store) (id other : ChainId) (value : Option ChainAccount) :
    (s.put (.account id) value).get (.account other) =
      if other = id then value else s.get (.account other) :=
  get_put_of_injective (f := .account) (fun _ _ => Slot.account.inj) s id other HEq.rfl

theorem get_put_channel (s : Store) (id other : ChainId) (value : Option Channel) :
    (s.put (.channel id) value).get (.channel other) =
      if other = id then value else s.get (.channel other) :=
  get_put_of_injective (f := .channel) (fun _ _ => Slot.channel.inj) s id other HEq.rfl

theorem get_put_validators (s : Store) (id other : ChainId) (value : Option ValidatorSet) :
    (s.put (.validators id) value).get (.validators other) =
      if other = id then value else s.get (.validators other) :=
  get_put_of_injective (f := .validators) (fun _ _ => Slot.validators.inj) s id other HEq.rfl

theorem get_put_name (s : Store) (name other : String) (value : Option ChainId) :
    (s.put (.name name) value).get (.name other) =
      if other = name then value else s.get (.name other) :=
  get_put_of_injective (f := .name) (fun _ _ => Slot.name.inj) s name other HEq.rfl

theorem get_put_terminatedState (s : Store) (id other : ChainId) (value : Option TerminatedState) :
    (s.put (.terminatedState id) value).get (.terminatedState other) =
      if other = id then value else s.get (.terminatedState other) :=
  get_put_of_injective (f := .terminatedState) (fun _ _ => Slot.terminatedState.inj) s id other
    HEq.rfl

theorem get_put_terminatedOutbox (s : Store) (id other : ChainId)
    (value : Option TerminatedOutbox) :
    (s.put (.terminatedOutbox id) value).get (.terminatedOutbox other) =
      if other = id then value else s.get (.terminatedOutbox other) :=
  get_put_of_injective (f := .terminatedOutbox) (fun _ _ => Slot.terminatedOutbox.inj) s id other
    HEq.rfl

/-! ## Where chains stand -/

/-- A chain that has an account and is not terminated. -/
def IsOpen (s : Store) (id : ChainId) : Prop :=
  ∃ account, s.get (.account id) = some account ∧ account.status ≠ .terminated

/-- A chain that has certified something and is not terminated. -/
def IsActive (s : Store) (id : ChainId) : Prop :=
  ∃ account, s.get (.account id) = some account ∧ account.status = .active

/-- A terminated chain. -/
def IsClosed (s : Store) (id : ChainId) : Prop :=
  ∃ account, s.get (.account id) = some account ∧ account.status = .terminated

theorem IsOpen.known (h : s.IsOpen id) : ∃ account, s.get (.account id) = some account := by
  obtain ⟨account, hget, -⟩ := h
  exact ⟨account, hget⟩

theorem IsActive.isOpen (h : s.IsActive id) : s.IsOpen id := by
  obtain ⟨account, hget, hstatus⟩ := h
  refine ⟨account, hget, ?_⟩
  rw [hstatus]
  simp

theorem IsOpen.not_isClosed (h : s.IsOpen id) : ¬ s.IsClosed id := by
  rintro ⟨account, hget, hstatus⟩
  obtain ⟨account', hget', hstatus'⟩ := h
  rw [hget'] at hget
  cases hget
  exact hstatus' hstatus

/-- A chain without an account is not terminated. -/
theorem IsClosed.ne_of_new (hclosed : s.IsClosed id) {other : ChainId}
    (hnew : s.get (.account other) = none) : id ≠ other := by
  rintro rfl
  obtain ⟨account, hget, -⟩ := hclosed
  rw [hnew] at hget
  cases hget

/-- A chain other than the hub is live when the hub has a live account of it. -/
theorem isLive_eq_true_iff {own : ChainId} (hne : id ≠ own) {now : UInt64} :
    s.isLive own id now = true ↔ own.isMainchain = true ∧
      ∃ account, s.get (.account id) = some account ∧ account.isLive now = true := by
  unfold isLive
  rw [if_neg hne]
  cases hmain : own.isMainchain with
  | false => simp
  | true => cases s.get (.account id) <;> simp

theorem isClosed_put (h : slot ≠ .account id) : (s.put slot value).IsClosed id ↔ s.IsClosed id := by
  unfold IsClosed
  rw [get_put_of_ne s value h]

/-- An account that is written again keeps its chain terminated if it was. -/
theorem isClosed_put_account {account next : ChainAccount}
    (hget : s.get (.account id) = some account)
    (hmono : account.status = .terminated → next.status = .terminated) {other : ChainId}
    (h : s.IsClosed other) : (s.put (.account id) (some next)).IsClosed other := by
  obtain ⟨account', hget', hstatus⟩ := h
  unfold IsClosed
  rw [get_put_account]
  split
  · rename_i heq
    rw [heq, hget] at hget'
    cases hget'
    exact ⟨next, rfl, hmono hstatus⟩
  · exact ⟨account', hget', hstatus⟩

/-! ## Inboxes and outboxes -/

/-- What the hub has received from a chain; nothing from an unknown one. -/
def inboxOf (s : Store) (id : ChainId) : Accumulator :=
  ((s.get (.channel id)).map Channel.inbox).getD .empty

/-- What the hub has sent to a chain; nothing to an unknown one. -/
def outboxOf (s : Store) (id : ChainId) : Accumulator :=
  ((s.get (.channel id)).map Channel.outbox).getD .empty

theorem inboxOf_eq {channel : Channel} (h : s.get (.channel id) = some channel) :
    s.inboxOf id = channel.inbox := by
  unfold inboxOf
  rw [h]
  rfl

theorem outboxOf_eq {channel : Channel} (h : s.get (.channel id) = some channel) :
    s.outboxOf id = channel.outbox := by
  unfold outboxOf
  rw [h]
  rfl

theorem inboxOf_put (h : slot ≠ .channel id) : (s.put slot value).inboxOf id = s.inboxOf id := by
  unfold inboxOf
  rw [get_put_of_ne s value h]

theorem outboxOf_put (h : slot ≠ .channel id) : (s.put slot value).outboxOf id = s.outboxOf id := by
  unfold outboxOf
  rw [get_put_of_ne s value h]

theorem inboxOf_put_channel (s : Store) (id other : ChainId) (channel : Channel) :
    (s.put (.channel id) (some channel)).inboxOf other =
      if other = id then channel.inbox else s.inboxOf other := by
  unfold inboxOf
  rw [get_put_channel]
  split <;> rfl

theorem outboxOf_put_channel (s : Store) (id other : ChainId) (channel : Channel) :
    (s.put (.channel id) (some channel)).outboxOf other =
      if other = id then channel.outbox else s.outboxOf other := by
  unfold outboxOf
  rw [get_put_channel]
  split <;> rfl

/-- A channel that is written with the inbox it has. -/
theorem inboxOf_eq_put_channel {channel next : Channel}
    (hget : s.get (.channel id) = some channel) (hinbox : next.inbox = channel.inbox)
    (other : ChainId) : (s.put (.channel id) (some next)).inboxOf other = s.inboxOf other := by
  rw [inboxOf_put_channel]
  split
  · rename_i hid
    rw [hid, inboxOf_eq hget, hinbox]
  · rfl

/-- A channel that is written with the outbox it has. -/
theorem outboxOf_eq_put_channel {channel next : Channel}
    (hget : s.get (.channel id) = some channel) (houtbox : next.outbox = channel.outbox)
    (other : ChainId) : (s.put (.channel id) (some next)).outboxOf other = s.outboxOf other := by
  rw [outboxOf_put_channel]
  split
  · rename_i hid
    rw [hid, outboxOf_eq hget, houtbox]
  · rfl

/-- A channel that is written with one more message in its inbox. -/
theorem appendAll?_inboxOf {channel next : Channel} {bytes : Bytes}
    (hget : s.get (.channel id) = some channel)
    (happend : channel.inbox.append? bytes = some next.inbox) (other : ChainId) :
    (s.inboxOf other).appendAll? (if id = other then [bytes] else []) =
      some ((s.put (.channel id) (some next)).inboxOf other) := by
  rw [inboxOf_put_channel]
  by_cases hid : id = other
  · subst hid
    rw [if_pos rfl, if_pos rfl, inboxOf_eq hget]
    exact Accumulator.appendAll?_singleton happend
  · rw [if_neg hid, if_neg (Ne.symm hid)]
    rfl

/-- A channel that is written with one more message in its outbox. -/
theorem appendAll?_outboxOf {channel next : Channel} {bytes : Bytes}
    (hget : s.get (.channel id) = some channel)
    (happend : channel.outbox.append? bytes = some next.outbox) (other : ChainId) :
    (s.outboxOf other).appendAll? (if id = other then [bytes] else []) =
      some ((s.put (.channel id) (some next)).outboxOf other) := by
  rw [outboxOf_put_channel]
  by_cases hid : id = other
  · subst hid
    rw [if_pos rfl, if_pos rfl, outboxOf_eq hget]
    exact Accumulator.appendAll?_singleton happend
  · rw [if_neg hid, if_neg (Ne.symm hid)]
    rfl

/-! ## Registration -/

/-- The store after the records of a new chain have been written. -/
def registered (s : Store) (id : ChainId) (account : ChainAccount) (channel : Channel)
    (set : ValidatorSet) : Store :=
  ((((s.put (.account id) (some account)).put (.channel id) (some channel)).put (.validators id)
    (some set)).put (.name account.name) (some id)).put (.escrow ⟨id, channel.feeToken⟩)
      (some Amount.zero)

section

variable (s : Store) (id other : ChainId) (account : ChainAccount) (channel : Channel)
  (set : ValidatorSet)

theorem get_registered_account :
    (s.registered id account channel set).get (.account other) =
      if other = id then some account else s.get (.account other) := by
  simp [registered, get_put_of_ne, get_put_account]

theorem get_registered_channel :
    (s.registered id account channel set).get (.channel other) =
      if other = id then some channel else s.get (.channel other) := by
  simp [registered, get_put_of_ne, get_put_channel]

theorem get_registered_validators :
    (s.registered id account channel set).get (.validators other) =
      if other = id then some set else s.get (.validators other) := by
  simp [registered, get_put_of_ne, get_put_validators]

theorem get_registered_name (name : String) :
    (s.registered id account channel set).get (.name name) =
      if name = account.name then some id else s.get (.name name) := by
  simp [registered, get_put_of_ne, get_put_name]

theorem get_registered_own : (s.registered id account channel set).get .own = s.get .own := by
  simp [registered, get_put_of_ne]

theorem inboxOf_registered :
    (s.registered id account channel set).inboxOf other =
      if other = id then channel.inbox else s.inboxOf other := by
  unfold inboxOf
  rw [get_registered_channel]
  split <;> rfl

theorem outboxOf_registered :
    (s.registered id account channel set).outboxOf other =
      if other = id then channel.outbox else s.outboxOf other := by
  unfold outboxOf
  rw [get_registered_channel]
  split <;> rfl

end

end Store

/-! ## Messages that are sent -/

/-- The bytes of a message, if it is for the given chain. -/
def Message.bytesTo (m : Message) (id : ChainId) : List Bytes :=
  if m.receiver = id then [m.encode] else []

theorem Message.mem_bytesTo_iff {m : Message} {id : ChainId} {bytes : Bytes} :
    bytes ∈ m.bytesTo id ↔ m.receiver = id ∧ m.encode = bytes := by
  unfold Message.bytesTo
  split <;> simp_all [eq_comm]

/-- The hub's own identity after one more message. -/
def OwnAccount.next (own : OwnAccount) : OwnAccount := { own with nonce := own.nonce + 1 }

namespace Store

/-- A message enters the outbox of its receiver. -/
inductive Posts (s : Store) (m : Message) : Store → Prop
  | intro {channel : Channel} {outbox : Accumulator}
      (hchannel : s.get (.channel m.receiver) = some channel)
      (happend : channel.outbox.append? m.encode = some outbox) :
      Posts s m (s.put (.channel m.receiver) (some { channel with outbox := outbox }))

/-- A message of the hub takes the next nonce and enters the outbox of its receiver. -/
inductive Sends (s : Store) (m : Message) (s' : Store) : Prop
  | intro {own : OwnAccount} (hown : s.get .own = some own) (hsender : m.sender = own.chainId)
      (hnonce : m.nonce = own.nonce) (hroom : own.nonce.toNat + 1 < UInt64.size)
      (hformat : m.checkFormat = .ok ()) (hpost : (s.put .own (some own.next)).Posts m s')

variable {s s' : Store} {m : Message} {slot : Slot} {id : ChainId}

theorem Posts.get_of_ne (h : s.Posts m s') (hslot : slot ≠ .channel m.receiver) :
    s'.get slot = s.get slot := by
  cases h
  exact get_put_of_ne _ _ hslot.symm

/-- Nothing but the outbox of the receiver's channel changes. -/
theorem Posts.channel (h : s.Posts m s') {channel : Channel}
    (hget : s.get (.channel m.receiver) = some channel) :
    ∃ outbox, channel.outbox.appendAll? [m.encode] = some outbox ∧
      s'.get (.channel m.receiver) = some { channel with outbox := outbox } := by
  obtain ⟨hchannel, happend⟩ := h
  rw [hget] at hchannel
  cases hchannel
  exact ⟨_, Accumulator.appendAll?_singleton happend, get_put_self _ _ _⟩

theorem Posts.inboxOf (h : s.Posts m s') (id : ChainId) : s'.inboxOf id = s.inboxOf id := by
  obtain ⟨hchannel, happend⟩ := h
  refine inboxOf_eq_put_channel hchannel ?_ id
  rfl

theorem Posts.outboxOf (h : s.Posts m s') (id : ChainId) :
    (s.outboxOf id).appendAll? (m.bytesTo id) = some (s'.outboxOf id) := by
  obtain ⟨hchannel, happend⟩ := h
  exact appendAll?_outboxOf hchannel happend id

theorem Sends.get_of_ne (h : s.Sends m s') (hslot : slot ≠ .channel m.receiver)
    (hown : slot ≠ .own) : s'.get slot = s.get slot := by
  obtain ⟨-, -, -, -, -, hpost⟩ := h
  rw [hpost.get_of_ne hslot, get_put_of_ne _ _ hown.symm]

theorem Sends.channel (h : s.Sends m s') {channel : Channel}
    (hget : s.get (.channel m.receiver) = some channel) :
    ∃ outbox, channel.outbox.appendAll? [m.encode] = some outbox ∧
      s'.get (.channel m.receiver) = some { channel with outbox := outbox } := by
  obtain ⟨-, -, -, -, -, hpost⟩ := h
  exact hpost.channel ((get_put_of_ne _ _ (by simp)).trans hget)

theorem Sends.inboxOf (h : s.Sends m s') (id : ChainId) : s'.inboxOf id = s.inboxOf id := by
  obtain ⟨-, -, -, -, -, hpost⟩ := h
  rw [hpost.inboxOf, inboxOf_put (by simp)]

theorem Sends.outboxOf (h : s.Sends m s') (id : ChainId) :
    (s.outboxOf id).appendAll? (m.bytesTo id) = some (s'.outboxOf id) := by
  obtain ⟨-, -, -, -, -, hpost⟩ := h
  have houtbox := hpost.outboxOf id
  rwa [outboxOf_put (by simp)] at houtbox

/-- The hub counts its messages. -/
theorem Sends.own (h : s.Sends m s') {own : OwnAccount} (hget : s.get .own = some own) :
    own.nonce.toNat + 1 < UInt64.size ∧ s'.get .own = some own.next := by
  obtain ⟨hown, -, -, hroom, -, hpost⟩ := h
  rw [hget] at hown
  cases hown
  refine ⟨hroom, ?_⟩
  rw [hpost.get_of_ne (by simp), get_put_self]

end Store

theorem OwnAccount.toNat_nonce_next {own : OwnAccount} (h : own.nonce.toNat + 1 < UInt64.size) :
    own.next.nonce.toNat = own.nonce.toNat + 1 := by
  show (own.nonce + 1).toNat = _
  rw [UInt64.toNat_add]
  exact Nat.mod_eq_of_lt h

/-! ## Records of one chain -/

/-- The chain that a record is about, if it is one of those that are kept of every chain. -/
def Slot.chain? : Slot → Option ChainId
  | account id => some id
  | channel id => some id
  | validators id => some id
  | terminatedState id => some id
  | terminatedOutbox id => some id
  | _ => none

/-- Records about a chain differ from all that are not about it. -/
theorem Slot.ne_of_chain? {slot other : Slot} {id : ChainId} (h : slot.chain? = some id)
    (hother : other.chain? ≠ some id) : slot ≠ other := by
  rintro rfl
  exact hother h

end ChainHub
