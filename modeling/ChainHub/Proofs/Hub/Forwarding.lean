import ChainHub.Proofs.Hub.Pending

/-!
# A message that is forwarded is neither lost nor doubled

A message for another chain enters the outbox of its receiver, or goes back to its sender, or is
discarded because it was on its way back already. Which of these it is depends on the receiver, on
the hooks and on the status of the message; that exactly one of them happens does not.

* `Registry.ForwardsAside`: what is asked of the hooks.
* `Message.back`, `Message.fate`: what goes back of a message that cannot be forwarded.
* `HubM.Settles`: the last step, in which the message enters at most one outbox and is reported.
* `HubM.Forwards`: what is sent in each situation, and the context in which the message is settled.
  After a hook has refused, that is the context before the hooks.
* `HubM.SettledBy`: a computation deals with the message in one of these ways.
* `HubM.forwardMessage_settles`: a message of an active chain is always settled so.
-/

namespace ChainHub

/-- A place that holds neither the account nor the channel of a chain. -/
def Slot.IsAside (slot : Slot) : Prop := (∀ id, slot ≠ .account id) ∧ ∀ id, slot ≠ .channel id

/-- The hooks for messages that are forwarded write neither accounts nor channels, and none of them
is aborted. -/
structure Registry.ForwardsAside (r : Registry) : Prop where
  aside : ∀ mod ∈ r.modules, ∀ m, HubM.Leads (Context.Follows Slot.IsAside) (mod.beforeForward m)
  returns : ∀ mod ∈ r.modules, ∀ m c c', mod.beforeForward m c ≠ .error .abort c'

namespace Message

/-- What goes back to the sender of a message that cannot be forwarded: nothing if the message is on
its way back itself. -/
def back (m : Message) (status : MessageStatus) : List Message :=
  if m.status = .ok then [m.bounced status] else []

/-- What becomes of a message that cannot be forwarded. -/
def fate (m : Message) : Disposition := if m.status = .ok then .bounced else .discarded

end Message

/-! ## What outboxes gain -/

/-- The outboxes of `c'` are those of `c` with the given messages, each in the outbox of its
receiver, and nothing else. -/
def Context.Gains (c : Context) (sent : List Message) (c' : Context) : Prop :=
  ∀ id, (c.store.outboxOf id).appendAll? (sent.flatMap fun m => m.bytesTo id) =
    some (c'.store.outboxOf id)

namespace Context.Gains

variable {c c₁ c₂ : Context} {sent more : List Message} {m : Message}

theorem of_eq (h : ∀ id, c₁.store.outboxOf id = c.store.outboxOf id) : c.Gains [] c₁ :=
  fun id => congrArg some (h id).symm

theorem append (h : c.Gains sent c₁) (hmore : c₁.Gains more c₂) : c.Gains (sent ++ more) c₂ := by
  intro id
  rw [List.flatMap_append, Accumulator.appendAll?_append, h id, Option.bind_some, hmore id]

theorem of_posts (h : c.store.Posts m c₁.store) : c.Gains [m] c₁ := by
  intro id
  rw [List.flatMap_singleton]
  exact h.outboxOf id

theorem of_sends (h : c.store.Sends m c₁.store) : c.Gains [m] c₁ := by
  intro id
  rw [List.flatMap_singleton]
  exact h.outboxOf id

/-- Closing a chain leaves the outboxes alone. -/
theorem close (h : c.Gains sent c₁) (id : ChainId) (account : ChainAccount) :
    c.Gains sent (c₁.close id account) := by
  intro other
  rw [h other]
  show _ = some (((c₁.store.put (.account id) _).put (.terminatedState id) _).outboxOf other)
  rw [Store.outboxOf_put (by simp), Store.outboxOf_put (by simp)]

end Context.Gains

namespace HubM

variable {r : Registry} {m : Message} {c c₁ : Context} {own : OwnAccount}

/-! ## The hooks -/

/-- The hooks for a message that is forwarded, in order. -/
def hooksForward (r : Registry) (m : Message) : List (HubM Unit) :=
  r.modules.map fun mod => mod.beforeForward m

/-- What is not aborted runs through or is refused. -/
theorem runs_or_refusedIn {xs : List (HubM Unit)}
    (h : ∀ x ∈ xs, ∀ c c', x c ≠ .error .abort c') (c : Context) :
    (∃ c₁, Runs xs c c₁) ∨ ∃ c₁, RefusedIn xs c c₁ := by
  induction xs generalizing c with
  | nil => exact Or.inl ⟨c, .nil c⟩
  | cons x rest ih =>
    rw [List.forall_mem_cons] at h
    cases hx : x c with
    | ok u c₁ =>
      rcases ih h.2 c₁ with ⟨c₂, hrest⟩ | ⟨c₂, hrest⟩
      · exact Or.inl ⟨c₂, .cons hx hrest⟩
      · exact Or.inr ⟨c₂, .tail hx hrest⟩
    | error failure c₁ =>
      cases failure with
      | error e => exact Or.inr ⟨c₁, .head hx⟩
      | abort => exact absurd hx (h.1 c c₁)

section

variable (hr : r.ForwardsAside)

include hr

theorem follows_hooksForward (m : Message) :
    ∀ x ∈ hooksForward r m, Leads (Context.Follows Slot.IsAside) x := by
  intro x hx
  obtain ⟨mod, hmem, rfl⟩ := List.mem_map.mp hx
  exact hr.aside mod hmem m

theorem hooksForward_returns (m : Message) (c : Context) :
    (∃ c₁, Runs (hooksForward r m) c c₁) ∨ ∃ c₁, RefusedIn (hooksForward r m) c c₁ := by
  refine runs_or_refusedIn (fun x hx => ?_) c
  obtain ⟨mod, hmem, rfl⟩ := List.mem_map.mp hx
  exact hr.returns mod hmem m

/-- **A failing hook leaves nothing**: the message goes back from the context before the hooks. -/
theorem passOn_of_refusedIn (hrefused : RefusedIn (hooksForward r m) c c₁) :
    passOn r m c = bounceMessage m .failed .failed c := by
  have hpassed := allSucceed_eq_false_iff.mpr hrefused
  have hreverts := ((leads_allSucceed (follows_hooksForward hr m)).of_ok hpassed).revertsTo
  exact (bind_of_ok hpassed).trans ((bind_of_ok (restore_of_revertsTo hreverts)).trans rfl)

/-- Hooks that run through leave the channels as they are. -/
theorem Runs.channel_eq (hruns : Runs (hooksForward r m) c c₁) (id : ChainId) :
    c₁.store.get (.channel id) = c.store.get (.channel id) := by
  have hfollows := (leads_allSucceed (follows_hooksForward hr m)).of_ok
    (allSucceed_eq_true_iff.mpr hruns)
  exact hfollows.get_eq fun haside => haside.2 id rfl

end

theorem passOn_of_runs (hruns : Runs (hooksForward r m) c c₁) :
    passOn r m c = (do
      post m
      emit (.processed m .forwarded .success)
      return .forwarded : HubM Disposition) c₁ :=
  (bind_of_ok (allSucceed_eq_true_iff.mpr hruns)).trans rfl

/-! ## Settling a message -/

/-- The last thing that is done about a message: it enters at most one outbox, nothing else is
written, and it is reported. -/
structure Settles (m : Message) (leaf : List Message) (d : Disposition) (code : ProcessedCode)
    (c c' : Context) : Prop where
  gains : c.Gains leaf c'
  store : ∀ slot, (∀ sent ∈ leaf, slot ≠ .channel sent.receiver) →
    c'.store.get slot = c.store.get slot
  events : c'.events = c.events ++ leaf.map Event.sent ++ [.processed m d code]

/-- A message that is posted and reported. -/
theorem exists_settles_of_post {sent : Message} {channel : Channel}
    (hchannel : c.store.get (.channel sent.receiver) = some channel)
    (hroom : channel.outbox.HasRoom) (m : Message) (d : Disposition) (code : ProcessedCode) :
    ∃ c', (do
        post sent
        emit (.processed m d code)
        return d : HubM Disposition) c = .ok d c' ∧ Settles m [sent] d code c c' := by
  obtain ⟨c₁, hpost, hposts, hevents, -⟩ := post_eq_ok hchannel hroom
  refine ⟨c₁.emit (.processed m d code), (bind_of_ok hpost).trans rfl, ?_⟩
  constructor
  case gains => exact .of_posts hposts
  case store => exact fun slot hslot => hposts.get_of_ne (hslot sent (List.mem_singleton_self sent))
  case events =>
    show c₁.events ++ [_] = _
    rw [hevents]
    rfl

/-- **A message that cannot be forwarded goes back**, or is discarded if it is on its way back. -/
theorem exists_settles_of_bounce {channel : Channel}
    (hchannel : c.store.get (.channel m.sender) = some channel) (hroom : channel.outbox.HasRoom)
    (status : MessageStatus) (code : ProcessedCode) :
    ∃ c', bounceMessage m status code c = .ok m.fate c' ∧
      Settles m (m.back status) m.fate code c c' := by
  unfold bounceMessage Message.back Message.fate
  by_cases hstatus : m.status = .ok
  · rw [if_neg (not_not_intro hstatus), if_pos hstatus, if_pos hstatus]
    have hbounced : c.store.get (.channel (m.bounced status).receiver) = some channel := hchannel
    exact exists_settles_of_post hbounced hroom m .bounced code
  · rw [if_pos hstatus, if_neg hstatus, if_neg hstatus]
    refine ⟨_, rfl, .of_eq fun _ => rfl, fun _ _ => rfl, ?_⟩
    rw [List.map_nil, List.append_nil]
    rfl

/-! ## A stale receiver -/

/-- The notices that a stale receiver and the sender of a message get. -/
def staleNotices (own : OwnAccount) (m : Message) (receiver : ChainAccount) : List Message :=
  [(channelTerminatedDraft m.receiver).message own,
    (sidechainTerminatedDraft m.sender m.receiver receiver.last.stateRoot).message own.next]

/-- A notice is sent to an active chain. -/
theorem sendInternal_of_active {draft : Draft} {account : ChainAccount}
    (hget : c.store.get (.account draft.receiver) = some account)
    (hactive : account.status = .active) : sendInternal draft c = sendNotice draft c := by
  unfold sendInternal
  refine (bind_of_ok (show get? _ c = .ok (c.store.get _) c from rfl)).trans ?_
  rw [hget]
  dsimp only
  rw [hactive]

/-- There are nonces and there is room for all that forwarding a message can send. -/
structure RoomToForward (c : Context) (own : OwnAccount) (m : Message) : Prop where
  nonce : own.nonce.toNat + 2 < UInt64.size
  receiver : (c.store.outboxOf m.receiver).size.toNat + 1 < UInt64.size
  sender : (c.store.outboxOf m.sender).size.toNat + 2 < UInt64.size

/-- **A stale receiver is terminated**, it is told so, and so is the sender. -/
theorem terminateReceiver_eq_ok (hc : Consistent c.store) (hown : c.store.get .own = some own)
    (hroom : RoomToForward c own m) (hne : m.sender ≠ m.receiver) {receiver sender : ChainAccount}
    (hreceiver : c.store.get (.account m.receiver) = some receiver)
    (hopen : receiver.status ≠ .terminated)
    (hsender : c.store.get (.account m.sender) = some sender) (hactive : sender.status = .active) :
    ∃ c₁, terminateReceiver m receiver c = .ok () c₁ ∧ c.Gains (staleNotices own m receiver) c₁ ∧
      c₁.store.IsClosed m.receiver ∧
      ∃ channel, c₁.store.get (.channel m.sender) = some channel ∧ channel.outbox.HasRoom := by
  obtain ⟨outward, houtward, hfits⟩ := hc.exists_hasRoom hreceiver hroom.receiver
  obtain ⟨inward, hinward⟩ := hc.channel m.sender sender hsender
  have hnonce := hroom.nonce
  obtain ⟨c₁, hsent, hterminate⟩ := terminateChain_eq_ok hreceiver hopen hown
    (hc.ne_own hreceiver hown) (by omega) houtward hfits
  have hnotice := hsent.store
  obtain ⟨-, hown₁⟩ := hnotice.own hown
  have hreceiver₁ := (hnotice.get_of_ne (by simp) (by simp)).trans hreceiver
  have hc₂ : Consistent (c₁.close m.receiver receiver).store :=
    (hc.sends hnotice).closes hreceiver₁
  -- Neither the nonce nor anything of the sender is touched when the receiver is closed.
  have hown₂ : (c₁.close m.receiver receiver).store.get .own = some own.next :=
    (c₁.get_close receiver (by simp) (by simp)).trans hown₁
  have hsender₂ : (c₁.close m.receiver receiver).store.get (.account m.sender) = some sender :=
    (c₁.get_close receiver (by simpa using hne) (by simp)).trans
      ((hnotice.get_of_ne (by simp) (by simp)).trans hsender)
  have hinward₂ : (c₁.close m.receiver receiver).store.get (.channel m.sender) = some inward :=
    (c₁.get_close receiver (by simp) (by simp)).trans
      ((hnotice.get_of_ne (by simpa [channelTerminatedDraft, Draft.message] using hne)
        (by simp)).trans hinward)
  have hsize : inward.outbox.size.toNat + 2 < UInt64.size := by
    rw [← Store.outboxOf_eq hinward]
    exact hroom.sender
  have hnonce₂ : own.next.nonce.toNat + 1 < UInt64.size := by
    rw [OwnAccount.toNat_nonce_next (by omega)]
    omega
  have hsendable := sendable_sidechainTerminated m.sender m.receiver receiver.last.stateRoot
  obtain ⟨c₃, hsend₃, hsent₃⟩ := sendNotice_eq_ok hsendable hown₂ (hc₂.ne_own hsender₂ hown₂)
    hnonce₂ hinward₂ ((hc₂.built _ _ hinward₂).2.hasRoom (by omega))
  have hnotice₃ := hsent₃.store
  refine ⟨c₃, ?_, ?_, ?_, ?_⟩
  · unfold terminateReceiver
    rw [bind_of_ok hterminate, bind_of_ok ((sendInternal_of_active hsender₂ hactive).trans hsend₃)]
    rfl
  · exact ((Context.Gains.of_sends hnotice).close m.receiver receiver).append (.of_sends hnotice₃)
  · obtain ⟨account, hget, hclosed⟩ := c₁.isClosed_close m.receiver receiver
    exact ⟨account, (hnotice₃.get_of_ne (by simp) (by simp)).trans hget, hclosed⟩
  · obtain ⟨outbox, happend, hchannel⟩ := hnotice₃.channel hinward₂
    have hgrown : outbox.size.toNat = inward.outbox.size.toNat + 1 :=
      Accumulator.size_of_appendAll happend
    refine ⟨_, hchannel, ((hc₂.sends hnotice₃).built _ _ hchannel).2.hasRoom ?_⟩
    show outbox.size.toNat + 1 < UInt64.size
    omega

/-! ## Forwarding -/

/-- What is done about a message that is to be forwarded: the notices of the hub, what is sent of
the message itself, what becomes of it and the code of that, and the context in which it is
settled. -/
inductive Forwards (r : Registry) (own : OwnAccount) (m : Message) (c : Context) :
    List Message → List Message → Disposition → ProcessedCode → Context → Prop
  /-- The receiver is active and live, and no hook refuses: the message is passed on as it is, after
  what the hooks did. -/
  | passed {receiver : ChainAccount} {c₁ : Context}
    (hreceiver : c.store.get (.account m.receiver) = some receiver)
    (hactive : receiver.status = .active) (hlive : receiver.isLive c.now = true)
    (hhooks : Runs (hooksForward r m) c c₁) : Forwards r own m c [] [m] .forwarded .success c₁
  /-- The receiver is active and live, and a hook refuses: the hooks leave nothing. -/
  | hookRefused {receiver : ChainAccount} {c₁ : Context}
    (hreceiver : c.store.get (.account m.receiver) = some receiver)
    (hactive : receiver.status = .active) (hlive : receiver.isLive c.now = true)
    (hrefused : RefusedIn (hooksForward r m) c c₁) :
    Forwards r own m c [] (m.back .failed) m.fate .failed c
  /-- The receiver is unknown, or registered only, or terminated. -/
  | unavailable (hreceiver : ∀ receiver, c.store.get (.account m.receiver) = some receiver →
      receiver.status ≠ .active) :
    Forwards r own m c [] (m.back .channelUnavailable) m.fate .channelUnavailable c
  /-- The receiver is active and stale: it is terminated on the way. -/
  | stale {receiver : ChainAccount} {c₁ : Context}
    (hreceiver : c.store.get (.account m.receiver) = some receiver)
    (hactive : receiver.status = .active) (hlive : receiver.isLive c.now = false)
    (hclosed : c₁.store.IsClosed m.receiver) :
    Forwards r own m c (staleNotices own m receiver) (m.back .channelUnavailable) m.fate
      .channelUnavailable c₁

/-- A message is dealt with by one of these ways, and it is settled at their end. Apart from the
notices on a stale receiver, no outbox but the one that the message enters has changed, and that one
has grown by this message alone. -/
def SettledBy (r : Registry) (own : OwnAccount) (m : Message) (c : Context)
    (x : HubM Disposition) : Prop :=
  ∃ notices leaf d code c₁ c', x c = .ok d c' ∧ Forwards r own m c notices leaf d code c₁ ∧
    Settles m leaf d code c₁ c' ∧ c.Gains (notices ++ leaf) c'

section

variable {receiver sender : ChainAccount} {channel : Channel}

/-- A message whose receiver is not active. -/
theorem settledBy_unavailable (hchannel : c.store.get (.channel m.sender) = some channel)
    (hfits : channel.outbox.HasRoom)
    (hreceiver : ∀ receiver, c.store.get (.account m.receiver) = some receiver →
      receiver.status ≠ .active) : SettledBy r own m c (bounceUnavailable m) := by
  obtain ⟨c', hbounce, hsettles⟩ :=
    exists_settles_of_bounce hchannel hfits .channelUnavailable .channelUnavailable
  exact ⟨_, _, _, _, c, c', hbounce, .unavailable hreceiver, hsettles, hsettles.gains⟩

/-- A message whose receiver is stale. -/
theorem settledBy_stale (hc : Consistent c.store) (hown : c.store.get .own = some own)
    (hroom : RoomToForward c own m) (hne : m.sender ≠ m.receiver)
    (hreceiver : c.store.get (.account m.receiver) = some receiver)
    (hstatus : receiver.status = .active) (hlive : receiver.isLive c.now = false)
    (hsender : c.store.get (.account m.sender) = some sender) (hactive : sender.status = .active) :
    SettledBy r own m c (terminateReceiver m receiver >>= fun _ => bounceUnavailable m) := by
  have hopen : receiver.status ≠ .terminated := by simp [hstatus]
  obtain ⟨c₁, hterminate, hgains, hclosed, inward, hinward, hfits⟩ :=
    terminateReceiver_eq_ok hc hown hroom hne hreceiver hopen hsender hactive
  obtain ⟨c', hbounce, hsettles⟩ :=
    exists_settles_of_bounce hinward hfits .channelUnavailable .channelUnavailable
  exact ⟨_, _, _, _, c₁, c', (bind_of_ok hterminate).trans hbounce,
    .stale hreceiver hstatus hlive hclosed, hsettles, hgains.append hsettles.gains⟩

/-- A message whose receiver is active and live. -/
theorem settledBy_passOn (hr : r.ForwardsAside) {outward : Channel}
    (houtward : c.store.get (.channel m.receiver) = some outward)
    (hroom : outward.outbox.HasRoom)
    (hchannel : c.store.get (.channel m.sender) = some channel) (hfits : channel.outbox.HasRoom)
    (hreceiver : c.store.get (.account m.receiver) = some receiver)
    (hstatus : receiver.status = .active) (hlive : receiver.isLive c.now = true) :
    SettledBy r own m c (passOn r m) := by
  rcases hooksForward_returns hr m c with ⟨c₁, hruns⟩ | ⟨c₁, hrefused⟩
  · have houtward₁ := (hruns.channel_eq hr m.receiver).trans houtward
    obtain ⟨c', hpass, hsettles⟩ := exists_settles_of_post houtward₁ hroom m .forwarded .success
    have hkept : c.Gains [] c₁ := .of_eq fun id => by
      unfold Store.outboxOf
      rw [hruns.channel_eq hr id]
    exact ⟨_, _, _, _, c₁, c', (passOn_of_runs hruns).trans hpass,
      .passed hreceiver hstatus hlive hruns, hsettles, hkept.append hsettles.gains⟩
  · obtain ⟨c', hbounce, hsettles⟩ := exists_settles_of_bounce hchannel hfits .failed .failed
    exact ⟨_, _, _, _, c, c', (passOn_of_refusedIn hr hrefused).trans hbounce,
      .hookRefused hreceiver hstatus hlive hrefused, hsettles, hsettles.gains⟩

end

/-- **A message of an active chain is forwarded, sent back or discarded**, whatever the hooks are
that leave accounts and channels alone, in any consistent store, and so in any that can be reached
(`Run.consistent`). -/
theorem forwardMessage_settles (hr : r.ForwardsAside) (hc : Consistent c.store)
    (hown : c.store.get .own = some own) (hformat : m.checkFormat = .ok ())
    {sender : ChainAccount} (hsender : c.store.get (.account m.sender) = some sender)
    (hactive : sender.status = .active) (hroom : RoomToForward c own m) :
    SettledBy r own m c (forwardMessage r m) := by
  have hne : m.sender ≠ m.receiver := (Message.checkFormat_eq_ok_iff.mp hformat).2.2.2
  have hsize := hroom.sender
  obtain ⟨inward, hinward, hfits⟩ := hc.exists_hasRoom hsender (by omega)
  unfold SettledBy
  rw [forwardMessage_eq]
  cases hreceiver : c.store.get (.account m.receiver) with
  | none =>
    refine settledBy_unavailable hinward hfits fun receiver hget => ?_
    cases hreceiver.symm.trans hget
  | some receiver =>
    have hnone (hstatus : receiver.status ≠ .active) : ∀ other,
        c.store.get (.account m.receiver) = some other → other.status ≠ .active := by
      intro other hget
      rwa [← Option.some.inj (hreceiver.symm.trans hget)]
    dsimp only
    cases hstatus : receiver.status with
    | registered => exact settledBy_unavailable hinward hfits (hnone (by simp [hstatus]))
    | terminated => exact settledBy_unavailable hinward hfits (hnone (by simp [hstatus]))
    | active =>
      dsimp only
      cases hlive : receiver.isLive c.now with
      | false => exact settledBy_stale hc hown hroom hne hreceiver hstatus hlive hsender hactive
      | true =>
        obtain ⟨outward, houtward, hroom'⟩ := hc.exists_hasRoom hreceiver hroom.receiver
        exact settledBy_passOn hr houtward hroom' hinward hfits hreceiver hstatus hlive

end HubM

/-! ## A message that comes too late -/

theorem Registry.forwardsAside_default : Registry.default.ForwardsAside where
  aside mod hmem m := by
    obtain rfl := List.mem_singleton.mp hmem
    exact HubM.leads_pure ()
  returns mod hmem m c c' h := by
    obtain rfl := List.mem_singleton.mp hmem
    cases h

/-- Tracing modules write to cells of their own. -/
theorem Registry.ForwardsAside.insert_toModule {r : Registry} (hr : r.ForwardsAside)
    (t : TracingModule) : (r.insert t.toModule).ForwardsAside := by
  have hcases : ∀ mod ∈ (r.insert t.toModule).modules, mod ∈ r.modules ∨ mod = t.toModule := by
    simp [Registry.insert]
  constructor
  · intro mod hmem m
    rcases hcases mod hmem with hmem | rfl
    · exact hr.aside mod hmem m
    · intro c
      have htraced : Context.Follows Slot.IsAside c (t.traced "forward" m c) :=
        (Context.Follows.refl.write ⟨by simp, by simp⟩ _).emit _
      show Context.Follows _ c (HubM.endOf (t.hook .beforeForward m) c)
      unfold HubM.endOf
      rw [t.hook_eq]
      cases t.refusals.contains .beforeForward with
      | true => exact htraced
      | false => exact htraced
  · intro mod hmem m c c' h
    rcases hcases mod hmem with hmem | rfl
    · exact hr.returns mod hmem m c c' h
    · have hhook : t.hook .beforeForward m c = .error .abort c' := h
      rw [t.hook_eq] at hhook
      split at hhook
      · cases hhook
      · cases hhook

namespace Run

open HubM

/-- A module that lets no message pass. -/
def guarding : TracingModule := ⟨"guarding", [], [.beforeForward]⟩

/-- A message to the silent chain comes too late: the chain is terminated, and the message goes back
behind the notice of that. -/
theorem forwardMessage_toSilent :
    ∃ c', forwardMessage (Registry.default.insert guarding.toModule) toSilent
        (.start acquainted ⟨3, 3000000⟩ (.mainchain 0)) = .ok .bounced c' ∧
      Context.Gains (.start acquainted ⟨3, 3000000⟩ (.mainchain 0))
        (staleNotices ⟨.mainchain 0, "hub", 1⟩ toSilent silentAccount ++
          [toSilent.bounced .channelUnavailable]) c' := by
  let c : Context := .start acquainted ⟨3, 3000000⟩ (.mainchain 0)
  let own : OwnAccount := ⟨.mainchain 0, "hub", 1⟩
  have hown : c.store.get .own = some own := by rfl
  have hsilent : c.store.get (.account toSilent.receiver) = some silentAccount := by rfl
  have htalking : c.store.get (.account toSilent.sender) = some talkingAccount := by rfl
  have hroom : RoomToForward c own toSilent := by
    constructor <;> decide +kernel
  have hformat : toSilent.checkFormat = .ok () := by decide +kernel
  obtain ⟨notices, leaf, d, code, c₁, c', hforward, hforwards, -, hgains⟩ :=
    forwardMessage_settles (Registry.forwardsAside_default.insert_toModule guarding)
      isNewTo_acquainted.consistent hown hformat htalking rfl hroom
  have hdead : silentAccount.isLive c.now ≠ true := by decide
  cases hforwards with
  | passed hreceiver _ hlive =>
    obtain rfl := Option.some.inj (hsilent.symm.trans hreceiver)
    exact absurd hlive hdead
  | hookRefused hreceiver _ hlive =>
    obtain rfl := Option.some.inj (hsilent.symm.trans hreceiver)
    exact absurd hlive hdead
  | unavailable hreceiver => exact absurd rfl (hreceiver silentAccount hsilent)
  | stale hreceiver =>
    obtain rfl := Option.some.inj (hsilent.symm.trans hreceiver)
    exact ⟨c', hforward, hgains⟩

end Run

end ChainHub
