import ChainHub.Proofs.Hub.Outcome
import ChainHub.Proofs.Hub.Registry

/-!
# Delivery is never refused

With the default registry every way through the delivery of a message ends with a disposition. The
sender of a delivered message is either active, in an update, or terminated, in a recovery; in both
cases every outbox that is written belongs to an active chain, apart from that of a chain which is
terminated on the way. What became of the message is reported by one event.

* `Action.isQuiet`: the actions that delivery is made of, terminations apart.
* `Action.DealsWith`: what the actions about one message have in common.
* `HubM.Delivers`: a context is reached by dealing with a message.
* `HubM.ends_execute`: the two commands of the default registry.
* `HubM.forwardMessage_eq`: the situations in which the receiver of a message can be.
* `HubM.ends_deliver`: delivery of a message of an active chain.
* `HubM.ends_deliver_recovered`: delivery of a recovered message, which touches no account.
-/

namespace ChainHub

/-! ## The default registry -/

/-- The default registry serves two commands. -/
theorem Registry.command?_default {module name : String} {command : Command}
    (h : Registry.default.command? module name = some command) :
    command = registration ∨ command = channelTerminated := by
  rcases of_command?_insert h with hmem | hget
  · simpa [interoperability] using hmem
  · simp [empty, command?] at hget

namespace Action

/-- Whether the action is a report or a message that is sent. -/
def isQuiet : Action → Bool
  | report _ => true
  | relay _ => true
  | notify _ => true
  | _ => false

theorem isDelivery_of_isQuiet {a : Action} (h : a.isQuiet = true) : a.isDelivery = true := by
  cases a <;> first | rfl | cases h

theorem account?_of_isQuiet {a : Action} (h : a.isQuiet = true) : a.account? = none := by
  cases a <;> first | rfl | cases h

theorem received_of_isDelivery {a : Action} (h : a.isDelivery = true) (id : ChainId) :
    a.received id = [] := by
  cases a <;> first | rfl | cases h

/-- The actions deal with a message. They end with the one report that they make on inbound
messages, and a message that is passed on enters an outbox as it is. -/
structure DealsWith (kind : Action → Bool) (m : Message) (d : Disposition) (acts : List Action) :
    Prop where
  kinds : ∀ a ∈ acts, kind a = true
  reports : ∃ before code, acts = before ++ [.report (.processed m d code)] ∧
    reportsAll before = []
  forwarded : d = .forwarded → .relay m ∈ acts

theorem DealsWith.exists_report {kind : Action → Bool} {m : Message} {d : Disposition}
    {acts : List Action} (h : DealsWith kind m d acts) :
    ∃ code, reportsAll acts = [.processed m d code] := by
  obtain ⟨before, code, rfl, hsilent⟩ := h.reports
  exact ⟨code, by rw [reportsAll_append, hsilent]; rfl⟩

theorem DealsWith.isDelivery {m : Message} {d : Disposition} {acts : List Action}
    (h : DealsWith isQuiet m d acts) : DealsWith isDelivery m d acts where
  kinds a ha := isDelivery_of_isQuiet (h.kinds a ha)
  reports := h.reports
  forwarded := h.forwarded

/-- What is done before about the same message. -/
theorem DealsWith.append {kind : Action → Bool} {m : Message} {d : Disposition}
    {acts last : List Action} (hkinds : ∀ a ∈ acts, kind a = true) (hsilent : reportsAll acts = [])
    (h : DealsWith kind m d last) : DealsWith kind m d (acts ++ last) where
  kinds := List.forall_mem_append.mpr ⟨hkinds, h.kinds⟩
  reports := by
    obtain ⟨before, code, rfl, hbefore⟩ := h.reports
    refine ⟨acts ++ before, code, (List.append_assoc _ _ _).symm, ?_⟩
    rw [reportsAll_append, hsilent, hbefore, List.nil_append]
  forwarded hd := List.mem_append_right acts (h.forwarded hd)

end Action

/-! ## Accounts during delivery -/

/-- A chain that is live and has certified something is active. -/
theorem ChainAccount.active_of_isLive {account : ChainAccount} {now : UInt64}
    (hlive : account.isLive now = true) (hstatus : account.status ≠ .registered) :
    account.status = .active := by
  unfold isLive at hlive
  cases h : account.status with
  | registered => exact absurd h hstatus
  | active => rfl
  | terminated =>
    rw [h] at hlive
    cases hlive

/-- An active chain is live or stale. -/
theorem ChainAccount.isStale_of_active {account : ChainAccount} {now : UInt64}
    (hstatus : account.status = .active) (hlive : account.isLive now ≠ true) :
    account.isStale now = true := by
  unfold isStale
  rw [hstatus]
  simpa using hlive

section

variable {k : Cause} {s s' : Store} {a : Action} {acts : List Action} {id : ChainId}

/-- While messages are delivered, an account can only be closed. -/
theorem Step.account_of_isDelivery (h : Step k s a s') (ha : a.isDelivery = true) (id : ChainId) :
    s'.get (.account id) = s.get (.account id) ∨ s'.IsClosed id := by
  by_cases hother : a.account? = some id
  · cases h with
    | @close id' account =>
      cases hother
      refine Or.inr ⟨account.closed, ?_, rfl⟩
      rw [Store.get_put_of_ne _ _ (by simp)]
      exact Store.get_put_self _ _ _
    | certify => cases ha
    | register => cases ha
    | _ => cases hother
  · exact Or.inl (h.account_eq hother)

theorem Trace.account_of_isDelivery (h : Trace k s acts s')
    (hacts : ∀ a ∈ acts, a.isDelivery = true) (id : ChainId) :
    s'.get (.account id) = s.get (.account id) ∨ s'.IsClosed id := by
  induction h with
  | nil => exact Or.inl rfl
  | cons h hrest ih =>
    rw [List.forall_mem_cons] at hacts
    rcases h.account_of_isDelivery hacts.1 id with heq | hclosed
    · rcases ih hacts.2 with heq' | hclosed'
      · exact Or.inl (heq'.trans heq)
      · exact Or.inr hclosed'
    · exact Or.inr (hrest.isClosed hclosed)

theorem Action.provedAll_of_isDelivery (hacts : ∀ a ∈ acts, a.isDelivery = true)
    (id : ChainId) : Action.provedAll id acts = [] := by
  unfold Action.provedAll
  rw [List.flatMap_eq_nil_iff]
  intro a ha
  have hdelivery := hacts a ha
  cases a with
  | prove => cases hdelivery
  | _ => rfl

theorem Action.receivedAll_of_isDelivery (hacts : ∀ a ∈ acts, a.isDelivery = true)
    (id : ChainId) : Action.receivedAll id acts = [] := by
  unfold Action.receivedAll
  rw [List.flatMap_eq_nil_iff]
  exact fun a ha => Action.received_of_isDelivery (hacts a ha) id

end

namespace HubM

section

variable {k : Cause} {c : Context} {m : Message}

/-- The context is reached by actions of the given kind, which make the given reports on inbound
messages. -/
def ReachesBy (k : Cause) (kind : Action → Bool) (reports : List Event) (c c' : Context) : Prop :=
  ∃ acts, Reaches k c acts c' ∧ (∀ a ∈ acts, kind a = true) ∧ Action.reportsAll acts = reports

/-- The context is reached by dealing with a message. -/
def Delivers (k : Cause) (kind : Action → Bool) (m : Message) (c : Context) (d : Disposition)
    (c' : Context) : Prop :=
  ∃ acts, Reaches k c acts c' ∧ Action.DealsWith kind m d acts

theorem ReachesBy.refl (k : Cause) (kind : Action → Bool) (c : Context) :
    ReachesBy k kind [] c c :=
  ⟨[], .refl k c, by simp, rfl⟩

theorem ReachesBy.append {kind : Action → Bool} {reports more : List Event} {c₁ c₂ : Context}
    (h : ReachesBy k kind reports c c₁) (hmore : ReachesBy k kind more c₁ c₂) :
    ReachesBy k kind (reports ++ more) c c₂ := by
  obtain ⟨acts, hreach, hacts, rfl⟩ := h
  obtain ⟨acts', hreach', hacts', rfl⟩ := hmore
  refine ⟨acts ++ acts', hreach.append hreach', fun a ha => ?_, Action.reportsAll_append _ _⟩
  rcases List.mem_append.mp ha with ha | ha
  · exact hacts a ha
  · exact hacts' a ha

theorem ReachesBy.sound {kind : Action → Bool} {reports : List Event} {c' : Context}
    (hc : Sound k c) (h : ReachesBy k kind reports c c') : Sound k c' := by
  obtain ⟨acts, hreach, -⟩ := h
  exact hc.reaches hreach

theorem ReachesBy.isDelivery {reports : List Event} {c' : Context}
    (h : ReachesBy k Action.isQuiet reports c c') :
    ReachesBy k Action.isDelivery reports c c' := by
  obtain ⟨acts, hreach, hacts, hreports⟩ := h
  exact ⟨acts, hreach, fun a ha => Action.isDelivery_of_isQuiet (hacts a ha), hreports⟩

theorem reachesBy_emit (hc : Sound k c) {event : Event} (h : event.isSent = false)
    (hspares : event.SparesHub c.ownChain) (hholds : event.Holds k c.store) :
    ReachesBy k Action.isQuiet ([event].filter Event.isProcessed) c (c.emit event) :=
  ⟨_, reaches_emit hc h hspares hholds, by simp [Action.isQuiet], List.append_nil _⟩

theorem reachesBy_relay {c' : Context} (h : Reaches k c [.relay m] c') :
    ReachesBy k Action.isQuiet [] c c' :=
  ⟨_, h, by simp [Action.isQuiet], rfl⟩

theorem reachesBy_close {id : ChainId} {notice : Message} {stateRoot : Digest} {c' : Context}
    (h : Reaches k c [.close id notice stateRoot] c') : ReachesBy k Action.isDelivery [] c c' :=
  ⟨_, h, by simp [Action.isDelivery], rfl⟩

/-- The report on a message is the last thing that is done about it. -/
theorem ReachesBy.delivers {kind : Action → Bool} {c₁ c₂ : Context} {d : Disposition}
    (h : ReachesBy k kind [] c c₁) (hlast : Delivers k kind m c₁ d c₂) :
    Delivers k kind m c d c₂ := by
  obtain ⟨acts, hreach, hacts, hsilent⟩ := h
  obtain ⟨last, hreach', hdeals⟩ := hlast
  exact ⟨acts ++ last, hreach.append hreach', hdeals.append hacts hsilent⟩

theorem Delivers.isDelivery {d : Disposition} {c' : Context}
    (h : Delivers k Action.isQuiet m c d c') : Delivers k Action.isDelivery m c d c' := by
  obtain ⟨acts, hreach, hdeals⟩ := h
  exact ⟨acts, hreach, hdeals.isDelivery⟩

/-- A message that is not passed on is dealt with by the report on it. -/
theorem delivers_emit (hc : Sound k c) {d : Disposition} {code : ProcessedCode}
    (hd : d ≠ .forwarded) (hspares : (Event.processed m d code).SparesHub c.ownChain)
    (hholds : (Event.processed m d code).Holds k c.store) :
    Delivers k Action.isQuiet m c d (c.emit (.processed m d code)) :=
  ⟨_, reaches_emit hc rfl hspares hholds, by simp [Action.isQuiet], ⟨[], code, rfl, rfl⟩,
    fun h => absurd h hd⟩

/-! ## Messages for the hub -/

theorem ends_snapshot {β : Type} {f : Snapshot → HubM β} {R : β → Context → Prop}
    (h : Ends (f c.snapshot) c R) : Ends (snapshot >>= f) c R := h

/-- What is not refused is not refused when refusals are caught. -/
theorem ends_attempt {α : Type} {x : HubM α} {Q : α → Context → Prop} (h : Ends x c Q) :
    Ends (attempt x) c fun r c' => ∃ a, r = .ok a ∧ Q a c' := by
  unfold Ends EndsIn at h
  unfold Ends EndsIn attempt
  cases hx : x c with
  | ok a c' =>
    rw [hx] at h
    exact ⟨a, rfl, h⟩
  | error failure c' =>
    rw [hx] at h
    cases failure with
    | error e => exact h.elim
    | abort => exact h

theorem ends_succeeds {x : HubM Unit} {Q : Unit → Context → Prop} (h : Ends x c Q) :
    Ends (succeeds x) c fun b c' => b = true ∧ Q () c' := by
  unfold succeeds
  refine (ends_attempt h).bind ?_
  rintro _ c' ⟨⟨⟩, rfl, hQ⟩
  exact ⟨rfl, hQ⟩

theorem ends_discard (hc : Sound k c) (m : Message) (code : ProcessedCode) :
    Ends (discard m code) c (Delivers k Action.isQuiet m c) :=
  delivers_emit hc nofun ⟨nofun, nofun⟩ trivial

/-- A command that is not refused leaves its own traces and a report. -/
theorem ends_runCommand {command : Command} {Q : Context → Prop}
    (h : Ends (command.execute m) c fun _ c' => Q c') (hsound : ∀ c', Q c' → Sound k c')
    (hholds : ∀ c', Q c' → (Event.processed m .applied .success).Holds k c'.store) :
    Ends (runCommand .default command m) c fun d c' =>
      ∃ c₁, Q c₁ ∧ Delivers k Action.isQuiet m c₁ d c' := by
  unfold runCommand
  refine ends_snapshot ?_
  show Ends (pure true >>= _) c _
  rw [pure_bind]
  refine ends_snapshot ?_
  refine (ends_succeeds h).bind ?_
  rintro _ c₁ ⟨rfl, hQ⟩
  exact ⟨c₁, hQ, delivers_emit (hsound c₁ hQ) nofun ⟨nofun, nofun⟩ (hholds c₁ hQ)⟩

/-- The commands of the interoperability module terminate the sender, or do nothing about a proper
handshake. -/
theorem ends_execute (hc : Sound k c) {account : ChainAccount}
    (hget : c.store.get (.account m.sender) = some account)
    (hcause : account.status = .terminated ∨ k.sender = some m.sender) {command : Command}
    (hcommand : command = registration ∨ command = channelTerminated)
    (hverify : isRefused (command.verify c m) = false) :
    Ends (command.execute m) c fun _ c' =>
      (c' = c ∨ (account.status ≠ .terminated ∧ ReachesBy k Action.isDelivery [] c c')) ∧
        (Event.processed m .applied .success).Holds k c'.store := by
  have hterminate : Ends (terminateChain m.sender) c fun _ c' =>
      (c' = c ∨ (account.status ≠ .terminated ∧ ReachesBy k Action.isDelivery [] c c')) ∧
        (Event.processed m .applied .success).Holds k c'.store := by
    refine (ends_terminateChain hc hget (hcause.imp_right Or.inl)).mono ?_
    rintro - c' (⟨hstatus, rfl⟩ | ⟨hstatus, notice, hreach⟩)
    · exact ⟨Or.inl rfl, Or.inl ⟨account, hget, hstatus⟩⟩
    · exact ⟨Or.inr ⟨hstatus, reachesBy_close hreach⟩, Or.inl hreach.trace.isClosed_of_close⟩
  rcases hcommand with rfl | rfl
  · obtain ⟨channel, hchannel⟩ := hc.store.channel _ _ hget
    obtain ⟨own, hown, -⟩ := hc.own
    unfold registration at hverify ⊢
    dsimp only at hverify ⊢
    cases hparams : (Wire.decode m.params : Except WireError RegistrationParams) with
    | error e =>
      rw [hparams] at hverify
      cases hverify
    | ok params =>
      dsimp only
      refine ends_load hown (ends_load hchannel ?_)
      split
      · rename_i hvalid
        obtain ⟨hstatus, hid, hname, htoken, hsize⟩ := hvalid
        refine ends_pure ⟨Or.inl rfl, ?_⟩
        rcases hcause with hterminated | hsender
        · exact Or.inl ⟨account, hget, hterminated⟩
        · refine Or.inr ⟨hsender, ⟨hstatus, params, own, channel, hparams, hown, hchannel, hid,
            hname, htoken⟩, ?_⟩
          rw [Store.inboxOf_eq hchannel]
          exact hsize
      · exact hterminate
  · exact hterminate

/-- **A message for the hub is applied or discarded.** Only a sender that is not terminated yet can
be terminated by it. -/
theorem ends_applyMessage (hc : Sound k c) {account : ChainAccount}
    (hget : c.store.get (.account m.sender) = some account)
    (hcause : account.status = .terminated ∨ k.sender = some m.sender) :
    Ends (applyMessage .default m) c fun d c' =>
      Delivers k Action.isQuiet m c d c' ∨
        (account.status ≠ .terminated ∧ Delivers k Action.isDelivery m c d c') := by
  unfold applyMessage
  split
  · exact (ends_discard hc m _).mono fun _ _ h => Or.inl h
  · cases hcommand : Registry.default.command? m.module m.command with
    | none => exact (ends_discard hc m _).mono fun _ _ h => Or.inl h
    | some command =>
      dsimp only
      refine ends_get ?_
      have hverify : (Registry.default.modules.any fun mod => isRefused (mod.verify c m)) = false :=
        rfl
      rw [hverify]
      simp only [Bool.false_eq_true, if_false]
      split
      · exact (ends_discard hc m _).mono fun _ _ h => Or.inl h
      · rename_i hverify
        have hexecute := ends_execute hc hget hcause (Registry.command?_default hcommand)
          (Bool.eq_false_iff.mpr hverify)
        refine (ends_runCommand hexecute ?_ fun c' h => h.2).mono ?_
        · rintro c' ⟨rfl | ⟨-, hreach⟩, -⟩
          · exact hc
          · exact hreach.sound hc
        · rintro d c' ⟨c₁, ⟨hc₁ | ⟨hstatus, hreach⟩, -⟩, hreport⟩
          · rw [hc₁] at hreport
            exact Or.inl hreport
          · exact Or.inr ⟨hstatus, hreach.delivers hreport.isDelivery⟩

/-! ## Messages for other chains -/

/-- A message is sent back, or discarded when it is on its way back already. -/
theorem ends_bounceMessage (hc : Sound k c) (hreceiver : m.receiver ≠ c.ownChain)
    (hactive : m.status = .ok → c.store.IsActive m.sender ∧ m.checkFormat = .ok ())
    {status : MessageStatus} (hfailed : status ≠ .ok) (code : ProcessedCode) :
    Ends (bounceMessage m status code) c (Delivers k Action.isQuiet m c) := by
  unfold bounceMessage
  split
  · exact ends_discard hc m code
  · rename_i hstatus
    obtain ⟨hsender, hformat⟩ := hactive (Classical.not_not.mp hstatus)
    have hrelay := ends_relay hc (m := m.bounced status) hreceiver hsender
      (fun h => absurd h hfailed) (Or.inl (Message.checkFormat_bounced hformat status))
    refine hrelay.bind ?_
    intro _ c₁ hreach
    have hspares : (Event.processed m .bounced code).SparesHub c₁.ownChain :=
      ⟨nofun, fun _ => by rwa [hreach.ownChain]⟩
    exact (reachesBy_relay hreach).delivers
      (delivers_emit (hc.reaches hreach) nofun hspares trivial)

/-- A message enters the outbox of an active receiver. -/
theorem ends_passOn (hc : Sound k c) (hsender : m.sender ≠ c.ownChain)
    (hactive : c.store.IsActive m.receiver) (horigin : m.status = .ok → c.store.IsActive m.sender)
    (hformat : m.checkFormat = .ok () ∨ k.Recovers m) :
    Ends (passOn .default m) c (Delivers k Action.isQuiet m c) := by
  unfold passOn
  refine ends_snapshot ?_
  show Ends (pure true >>= _) c _
  rw [pure_bind]
  refine (ends_relay hc hsender hactive horigin hformat).bind ?_
  intro _ c₁ hreach
  have hspares : (Event.processed m .forwarded .success).SparesHub c₁.ownChain :=
    ⟨fun _ => by rwa [hreach.ownChain], nofun⟩
  have hreport := reaches_emit (hc.reaches hreach) rfl hspares trivial
  exact ⟨_, hreach.append hreport, by simp [Action.isQuiet], ⟨[.relay m], .success, rfl, rfl⟩,
    fun _ => by simp⟩

/-- A stale receiver is terminated, and the active sender is told. -/
theorem ends_terminateReceiver (hc : Sound k c) (hne : m.sender ≠ m.receiver)
    {sender receiver : ChainAccount} (hsender : c.store.get (.account m.sender) = some sender)
    (hactive : sender.status = .active)
    (hreceiver : c.store.get (.account m.receiver) = some receiver)
    (hstatus : receiver.status = .active) (hlive : receiver.isLive k.now ≠ true) :
    Ends (terminateReceiver m receiver) c fun _ c' =>
      ReachesBy k Action.isDelivery [] c c' ∧
        c'.store.get (.account m.sender) = some sender := by
  have hcause : k.Closes m.receiver receiver :=
    Or.inr ⟨ChainAccount.isStale_of_active hstatus hlive, Or.inl hstatus⟩
  unfold terminateReceiver
  refine (ends_terminateChain hc hreceiver (Or.inr hcause)).bind ?_
  intro _ c₁ hclosed
  have hreach : ReachesBy k Action.isDelivery [] c c₁ ∧
      c₁.store.get (.account m.sender) = some sender := by
    rcases hclosed with ⟨-, rfl⟩ | ⟨-, notice, hreach⟩
    · exact ⟨.refl k _ _, hsender⟩
    · refine ⟨reachesBy_close hreach, ?_⟩
      rw [hreach.trace.account_eq (by simp [Action.account?, hne.symm]), hsender]
  obtain ⟨acts, hacts, -⟩ := hreach.1
  refine (ends_sendInternal (hc.reaches hacts) (sendable_sidechainTerminated _ _ _) hreach.2
    (Or.inl hactive)).bind ?_
  intro notice c₂ hsent
  have hnotice := hsent.reaches (k := k) ⟨sender, hreach.2, hactive⟩
  refine ends_pure ⟨hreach.1.append ⟨_, hnotice, by simp [Action.isDelivery], rfl⟩, ?_⟩
  rw [hnotice.trace.account_eq (by simp [Action.account?]), hreach.2]

/-- **The situations in which the receiver of a message can be.** -/
theorem forwardMessage_eq (r : Registry) (m : Message) (c : Context) :
    forwardMessage r m c =
      match c.store.get (.account m.receiver) with
      | none => bounceUnavailable m c
      | some receiver =>
        match receiver.status with
        | .registered => bounceUnavailable m c
        | .terminated => bounceUnavailable m c
        | .active =>
          if receiver.isLive c.now then passOn r m c
          else (terminateReceiver m receiver >>= fun _ => bounceUnavailable m) c := by
  unfold forwardMessage
  refine (bind_of_ok (show get? _ c = .ok (c.store.get _) c from rfl)).trans ?_
  cases c.store.get (.account m.receiver) with
  | none => rfl
  | some receiver =>
    refine (bind_of_ok (show (get : HubM Context) c = .ok c c from rfl)).trans ?_
    dsimp only
    unfold ChainAccount.isStale
    cases hstatus : receiver.status with
    | registered =>
      have hlive : receiver.isLive c.now = true := by
        unfold ChainAccount.isLive
        rw [hstatus]
      rw [hlive]
      rfl
    | terminated =>
      have hlive : receiver.isLive c.now = false := by
        unfold ChainAccount.isLive
        rw [hstatus]
      rw [hlive]
      rfl
    | active =>
      cases receiver.isLive c.now with
      | true => rfl
      | false => rfl

/-- **A message of an active chain is forwarded or sent back.** -/
theorem ends_forwardMessage (hc : Sound k c) (hformat : m.checkFormat = .ok ())
    (hreceiver : m.receiver ≠ c.ownChain)
    {sender : ChainAccount} (hsender : c.store.get (.account m.sender) = some sender)
    (hactive : sender.status = .active) :
    Ends (forwardMessage .default m) c (Delivers k Action.isDelivery m c) := by
  have hne : m.sender ≠ m.receiver := (Message.checkFormat_eq_ok_iff.mp hformat).2.2.2
  have hunavailable : MessageStatus.channelUnavailable ≠ .ok := nofun
  have hbounce := ends_bounceMessage hc hreceiver (fun _ => ⟨⟨sender, hsender, hactive⟩, hformat⟩)
    hunavailable .channelUnavailable
  have hback := hbounce.mono fun _ _ h => h.isDelivery
  unfold Ends EndsIn
  rw [forwardMessage_eq]
  cases hget : c.store.get (.account m.receiver) with
  | none => exact hback
  | some receiver =>
    dsimp only
    cases hstatus : receiver.status with
    | registered => exact hback
    | terminated => exact hback
    | active =>
      have hnow : c.now = k.now := hc.now
      dsimp only
      rw [hnow]
      by_cases hlive : receiver.isLive k.now = true
      · rw [if_pos hlive]
        exact (ends_passOn hc (hc.ne_own hsender) ⟨receiver, hget, hstatus⟩
          (fun _ => ⟨sender, hsender, hactive⟩) (Or.inl hformat)).mono fun _ _ h => h.isDelivery
      · rw [if_neg hlive]
        refine (ends_terminateReceiver hc hne hsender hactive hget hstatus hlive).bind ?_
        rintro - c₁ ⟨hreach, hsender₁⟩
        obtain ⟨acts, hreach₁, -⟩ := id hreach
        refine (ends_bounceMessage (hc.reaches hreach₁) (by rwa [hreach₁.ownChain])
          (fun _ => ⟨⟨sender, hsender₁, hactive⟩, hformat⟩) hunavailable _).mono ?_
        exact fun _ _ h => hreach.delivers h.isDelivery

/-- **A recovered message is forwarded or discarded.** Its receiver is live, and its sender is not
told anything. -/
theorem ends_forwardMessage_recovered (hc : Sound k c) (hrecovers : k.Recovers m)
    (hreceiver : m.receiver ≠ c.ownChain) (hsender : m.sender ≠ c.ownChain)
    {receiver : ChainAccount} (hget : c.store.get (.account m.receiver) = some receiver)
    (hlive : receiver.isLive k.now = true) :
    Ends (forwardMessage .default m) c (Delivers k Action.isQuiet m c) := by
  have hback : m.status ≠ .ok := by simp [hrecovers.status]
  unfold Ends EndsIn
  rw [forwardMessage_eq, hget]
  dsimp only
  cases hstatus : receiver.status with
  | registered =>
    have hunavailable : MessageStatus.channelUnavailable ≠ .ok := nofun
    exact ends_bounceMessage hc hreceiver (fun h => absurd h hback) hunavailable _
  | terminated => simp [ChainAccount.isLive, hstatus] at hlive
  | active =>
    have hnow : c.now = k.now := hc.now
    dsimp only
    rw [hnow, if_pos hlive]
    exact ends_passOn hc hsender ⟨receiver, hget, hstatus⟩ (fun h => absurd h hback)
      (Or.inr hrecovers)

/-! ## Delivery -/

/-- **A message of an active chain is delivered.** -/
theorem ends_deliver (hc : Sound k c) (hformat : m.checkFormat = .ok ())
    (hcause : k.sender = some m.sender) {sender : ChainAccount}
    (hsender : c.store.get (.account m.sender) = some sender) (hactive : sender.status = .active) :
    Ends (deliver .default m) c (Delivers k Action.isDelivery m c) := by
  unfold deliver
  refine ends_get ?_
  by_cases hreceiver : m.receiver = c.ownChain
  · rw [if_pos hreceiver]
    refine (ends_applyMessage hc hsender (Or.inr hcause)).mono ?_
    rintro d c' (h | ⟨-, h⟩)
    · exact h.isDelivery
    · exact h
  · rw [if_neg hreceiver]
    exact ends_forwardMessage hc hformat hreceiver hsender hactive

/-- **A message from a terminated chain to a live one is delivered**, and no account changes. -/
theorem ends_deliver_recovered (hc : Sound k c) (hrecovers : k.Recovers m)
    (hsender : c.store.IsClosed m.sender)
    (hlive : c.store.isLive c.ownChain m.receiver k.now = true) :
    Ends (deliver .default m) c (Delivers k Action.isQuiet m c) := by
  obtain ⟨sender, hget, hclosed⟩ := hsender
  unfold deliver
  refine ends_get ?_
  by_cases hreceiver : m.receiver = c.ownChain
  · rw [if_pos hreceiver]
    refine (ends_applyMessage hc hget (Or.inl hclosed)).mono ?_
    rintro d c' (h | ⟨hopen, -⟩)
    · exact h
    · exact absurd hclosed hopen
  · rw [if_neg hreceiver]
    obtain ⟨-, receiver, hget', hlive⟩ := (Store.isLive_eq_true_iff hreceiver).mp hlive
    exact ends_forwardMessage_recovered hc hrecovers hreceiver (hc.ne_own hget) hget' hlive

end

end HubM

end ChainHub
