import ChainHub.Proofs.Hub.Alike
import ChainHub.Proofs.Hub.Recovered

/-!
# Recovered messages reach their origin

A recovered message goes back to its sender. When the sender is an active chain that is live and its
outbox has room, nothing is left that could keep the message from entering this outbox; when the
sender is the hub itself, the message is applied or discarded on the spot.

* `recoveredTo`: what a chain gets of recovered messages.
* `Store.CanReturn`, `Store.HasRoom`: when messages can go back.
* `HubM.Returns`: a context is reached by sending messages back, each of them once.
* `Recovery.recoverMessages_eq_ok`: messages that can go back do so.
* `Call.recover_returns`: so do the messages of a recovery that passes its check.

A command terminates at most the chain that a message comes from. Here this is a chain that is
terminated already, so no command changes anything and a message for the hub leaves but a report.
-/

namespace ChainHub

open HubM

/-! ## What is sent back -/

/-- What a chain gets of messages that are recovered: the recovered forms of its own, in order. -/
def recoveredTo (origin : ChainId) (messages : List Message) : List Bytes :=
  (messages.filter fun m => m.sender = origin).map fun m => m.recovered.encode

theorem recoveredTo_append (origin : ChainId) (messages more : List Message) :
    recoveredTo origin (messages ++ more) =
      recoveredTo origin messages ++ recoveredTo origin more := by
  simp [recoveredTo]

theorem recoveredTo_singleton (origin : ChainId) (m : Message) :
    recoveredTo origin [m] = m.recovered.bytesTo origin := by
  unfold recoveredTo Message.bytesTo
  by_cases h : m.sender = origin <;> simp [Message.recovered, h]

/-- Whether the event accounts for an inbound message that was not discarded. -/
def Event.isDelivered : Event → Bool
  | .processed _ d _ => d != .discarded
  | _ => false

/-- The event accounts for a recovered message. The message of another chain than the hub was
forwarded. -/
def Message.ReturnedBy (hub : ChainId) (m : Message) (event : Event) : Prop :=
  ∃ d code, event = .processed m.recovered d code ∧
    (m.sender ≠ hub → d = .forwarded ∧ code = .success)

namespace Store

/-- The message can go back: its receiver is terminated, and its sender is the hub or an active
chain that is live. -/
structure CanReturn (s : Store) (hub : ChainId) (now : UInt64) (m : Message) : Prop where
  closed : s.IsClosed m.receiver
  origin : m.sender ≠ hub → ∃ account, s.get (.account m.sender) = some account ∧
    account.status = .active ∧ account.isLive now = true

/-- The outboxes toward the senders of the messages have room for their recovered forms. -/
def HasRoom (s : Store) (hub : ChainId) (messages : List Message) : Prop :=
  ∀ m ∈ messages, m.sender ≠ hub →
    (s.outboxOf m.sender).size.toNat + (recoveredTo m.sender messages).length < UInt64.size

variable {s s' : Store} {hub : ChainId} {now : UInt64} {m : Message} {rest : List Message}

/-- Whether a message can go back depends on accounts only. -/
theorem CanReturn.congr (h : s.CanReturn hub now m)
    (haccounts : ∀ id, s'.get (.account id) = s.get (.account id)) : s'.CanReturn hub now m where
  closed := by
    obtain ⟨account, hget, hstatus⟩ := h.closed
    exact ⟨account, (haccounts _).trans hget, hstatus⟩
  origin hne := by
    obtain ⟨account, hget, hstatus⟩ := h.origin hne
    exact ⟨account, (haccounts _).trans hget, hstatus⟩

/-- The first message finds room. -/
theorem HasRoom.head (h : s.HasRoom hub (m :: rest)) (hne : m.sender ≠ hub) :
    (s.outboxOf m.sender).size.toNat + 1 < UInt64.size := by
  have hroom := h m List.mem_cons_self hne
  have hmine : 0 < (recoveredTo m.sender (m :: rest)).length := by simp [recoveredTo]
  omega

/-- The first message leaves room for the others. -/
theorem HasRoom.tail (h : s.HasRoom hub (m :: rest))
    (hsent : ∀ id, id ≠ hub →
      (s.outboxOf id).appendAll? (recoveredTo id [m]) = some (s'.outboxOf id)) :
    s'.HasRoom hub rest := by
  intro other hother hne
  have hroom := h other (List.mem_cons_of_mem m hother) hne
  have hsize := Accumulator.size_of_appendAll (hsent _ hne)
  have hsplit := congrArg List.length (recoveredTo_append other.sender [m] rest)
  rw [List.singleton_append, List.length_append] at hsplit
  omega

end Store

namespace HubM

variable {k : Cause} {c c₁ c' : Context} {m : Message} {messages more : List Message}

/-! ## One message -/

/-- No command does anything about a message of a terminated chain. -/
theorem execute_of_isClosed (hc : Sound k c) (hclosed : c.store.IsClosed m.sender)
    {command : Command} (hcommand : command = registration ∨ command = channelTerminated)
    (hverify : isRefused (command.verify c m) = false) : command.execute m c = .ok () c := by
  rcases hcommand with rfl | rfl
  · obtain ⟨account, hget, -⟩ := id hclosed
    obtain ⟨channel, hchannel⟩ := hc.store.channel _ _ hget
    obtain ⟨own, hown, -⟩ := hc.own
    unfold registration at hverify ⊢
    dsimp only at hverify ⊢
    cases hparams : (Wire.decode m.params : Except WireError RegistrationParams) with
    | error e =>
      rw [hparams] at hverify
      cases hverify
    | ok params =>
      dsimp only
      refine (bind_of_ok (load_eq hown)).trans ((bind_of_ok (load_eq hchannel)).trans ?_)
      split
      · rfl
      · exact terminateChain_of_isClosed hclosed
  · exact terminateChain_of_isClosed hclosed

/-- **A message of a terminated chain for the hub leaves but a report.** -/
theorem applyMessage_of_isClosed (hc : Sound k c) (hclosed : c.store.IsClosed m.sender) :
    ∃ d code, applyMessage .default m c = .ok d (c.emit (.processed m d code)) ∧
      (d = .applied ∨ d = .discarded) := by
  unfold applyMessage
  split
  · exact ⟨_, _, rfl, Or.inr rfl⟩
  · cases hcommand : Registry.default.command? m.module m.command with
    | none => exact ⟨_, _, rfl, Or.inr rfl⟩
    | some command =>
      dsimp only
      rw [bind_of_ok (show (get : HubM Context) c = .ok c c from rfl)]
      have hmodules : (Registry.default.modules.any fun mod => isRefused (mod.verify c m)) =
        false := rfl
      rw [hmodules]
      simp only [Bool.false_eq_true, if_false]
      split
      · exact ⟨_, _, rfl, Or.inr rfl⟩
      · rename_i hverify
        have hexecute := execute_of_isClosed hc hclosed (Registry.command?_default hcommand)
          (Bool.eq_false_iff.mpr hverify)
        refine ⟨.applied, .success, ?_, Or.inl rfl⟩
        rw [runCommand_default (Registry.logs_default.commands _ _ _ hcommand m), hexecute]

/-- **A message for a live active chain is forwarded**, if there is room for it. -/
theorem forwardMessage_eq_ok (hc : Sound k c) {account : ChainAccount}
    (hget : c.store.get (.account m.receiver) = some account) (hactive : account.status = .active)
    (hlive : account.isLive k.now = true)
    (hroom : (c.store.outboxOf m.receiver).size.toNat + 1 < UInt64.size) :
    ∃ c₁, post m c = .ok () c₁ ∧ forwardMessage .default m c =
      .ok .forwarded (c₁.emit (.processed m .forwarded .success)) := by
  obtain ⟨channel, hchannel, hfits⟩ := hc.store.exists_hasRoom hget hroom
  obtain ⟨c₁, hpost, -⟩ := post_eq_ok hchannel hfits
  refine ⟨c₁, hpost, ?_⟩
  have hpass : passOn .default m c = .ok .forwarded (c₁.emit (.processed m .forwarded .success)) :=
    (bind_of_ok hpost).trans rfl
  have hnow : c.now = k.now := hc.now
  rw [forwardMessage_eq, hget]
  dsimp only
  rw [hactive, hnow, hlive]
  exact hpass

/-! ## Sending messages back -/

/-- The context is reached by sending messages back. There is one report on each message, in order;
other chains than the hub get what is theirs and nothing else; and so many messages are not
discarded. -/
def Returns (k : Cause) (messages : List Message) (n : Nat) (c c' : Context) : Prop :=
  ∃ acts, Reaches k c acts c' ∧ (∀ a ∈ acts, a.isQuiet = true) ∧
    List.Forall₂ (Message.ReturnedBy c.ownChain) messages (Action.reportsAll acts) ∧
    (∀ id, id ≠ c.ownChain → Action.sentAll id acts = recoveredTo id messages) ∧
    (Action.reportsAll acts).countP Event.isDelivered = n

theorem Returns.refl (k : Cause) (c : Context) : Returns k [] 0 c c :=
  ⟨[], .refl k c, by simp, .nil, fun _ _ => rfl, rfl⟩

theorem Returns.append {n n' : Nat} (h : Returns k messages n c c₁)
    (hmore : Returns k more n' c₁ c') : Returns k (messages ++ more) (n + n') c c' := by
  obtain ⟨acts, hreach, hquiet, hreports, hsent, rfl⟩ := h
  obtain ⟨acts', hreach', hquiet', hreports', hsent', rfl⟩ := hmore
  rw [hreach.ownChain] at hreports' hsent'
  refine ⟨acts ++ acts', hreach.append hreach', List.forall_mem_append.mpr ⟨hquiet, hquiet'⟩, ?_,
    ?_, ?_⟩
  · rw [Action.reportsAll_append]
    exact List.rel_append hreports hreports'
  · intro id hne
    rw [Action.sentAll_append, hsent id hne, hsent' id hne, recoveredTo_append]
  · rw [Action.reportsAll_append, List.countP_append]

theorem Returns.sound {n : Nat} (hc : Sound k c) (h : Returns k messages n c c') : Sound k c' := by
  obtain ⟨acts, hreach, -⟩ := h
  exact hc.reaches hreach

theorem Returns.ownChain {n : Nat} (h : Returns k messages n c c') : c'.ownChain = c.ownChain := by
  obtain ⟨acts, hreach, -⟩ := h
  exact hreach.ownChain

/-- Accounts are left alone. -/
theorem Returns.account_eq {n : Nat} (h : Returns k messages n c c') (id : ChainId) :
    c'.store.get (.account id) = c.store.get (.account id) := by
  obtain ⟨acts, hreach, hquiet, -⟩ := h
  exact hreach.trace.account_eq fun a ha => by simp [Action.account?_of_isQuiet (hquiet a ha)]

/-- **The outboxes grow by what is recovered**, and by nothing else. -/
theorem Returns.outboxOf {n : Nat} (h : Returns k messages n c c') {id : ChainId}
    (hne : id ≠ c.ownChain) :
    (c.store.outboxOf id).appendAll? (recoveredTo id messages) = some (c'.store.outboxOf id) := by
  obtain ⟨acts, hreach, -, -, hsent, -⟩ := h
  rw [← hsent id hne]
  exact hreach.trace.outboxOf id

/-- **A recovered message goes back.** -/
theorem deliver_recovered_eq_ok (hc : Sound k c) (hrecovers : k.Recovers m.recovered)
    (hm : c.store.CanReturn c.ownChain k.now m)
    (hroom : m.sender ≠ c.ownChain →
      (c.store.outboxOf m.sender).size.toNat + 1 < UInt64.size) :
    ∃ d c', deliver .default m.recovered c = .ok d c' ∧
      Returns k [m] (if d = .discarded then 0 else 1) c c' := by
  obtain ⟨receiver, hreceiver, -⟩ := id hm.closed
  have hfrom : m.recovered.sender ≠ c.ownChain := hc.ne_own hreceiver
  unfold deliver
  rw [bind_of_ok (show (get : HubM Context) c = .ok c c from rfl)]
  by_cases hown : m.recovered.receiver = c.ownChain
  · rw [if_pos hown]
    obtain ⟨d, code, happly, hd⟩ := applyMessage_of_isClosed (m := m.recovered) hc hm.closed
    have hspares : (Event.processed m.recovered d code).SparesHub c.ownChain :=
      ⟨fun _ => hfrom, fun hbounced => by rcases hd with rfl | rfl <;> cases hbounced⟩
    have hholds : (Event.processed m.recovered d code).Holds k c.store := by
      rcases hd with rfl | rfl
      · exact Or.inl hm.closed
      · trivial
    refine ⟨d, _, happly, [.report _], reaches_emit hc rfl hspares hholds, by simp [Action.isQuiet],
      .cons ⟨d, code, rfl, fun hne => absurd hown hne⟩ .nil, ?_, ?_⟩
    · intro id hne
      rw [recoveredTo_singleton]
      unfold Message.bytesTo
      rw [hown, if_neg hne.symm]
      rfl
    · rcases hd with rfl | rfl <;> rfl
  · rw [if_neg hown]
    obtain ⟨account, hget, hactive, hlive⟩ := hm.origin hown
    obtain ⟨c₁, hpost, hforward⟩ := forwardMessage_eq_ok (m := m.recovered) hc hget hactive hlive
      (hroom hown)
    have hrelay : Reaches k c [.relay m.recovered] c₁ :=
      (ends_relay hc hfrom ⟨account, hget, hactive⟩ (by simp [Message.recovered])
        (Or.inr hrecovers)).of_ok hpost
    have hspares : (Event.processed m.recovered .forwarded .success).SparesHub c₁.ownChain :=
      ⟨fun _ => by rwa [hrelay.ownChain], fun h => by cases h⟩
    have hreport := reaches_emit (hc.reaches hrelay) rfl hspares trivial
    refine ⟨.forwarded, _, hforward, _, hrelay.append hreport,
      by simp [Action.isQuiet], .cons ⟨_, _, rfl, fun _ => ⟨rfl, rfl⟩⟩ .nil, ?_, rfl⟩
    intro id _
    rw [recoveredTo_singleton]
    exact List.append_nil _

end HubM

namespace Recovery

variable {k : Cause} {c : Context}

/-- **Messages that can go back do so**, one after the other. -/
theorem recoverMessages_eq_ok :
    ∀ {messages : List Message} (delivered : Nat) {c : Context}, Sound k c →
      (∀ m ∈ messages, k.Recovers m.recovered ∧ c.store.CanReturn c.ownChain k.now m) →
      c.store.HasRoom c.ownChain messages →
      ∃ n c', recoverMessages .default messages delivered c = .ok (delivered + n) c' ∧
        Returns k messages n c c'
  | [], delivered, c, _, _, _ => ⟨0, c, rfl, .refl k c⟩
  | m :: rest, delivered, c, hc, hmessages, hroom => by
    rw [List.forall_mem_cons] at hmessages
    obtain ⟨d, c₁, hdeliver, hone⟩ :=
      deliver_recovered_eq_ok hc hmessages.1.1 hmessages.1.2 hroom.head
    -- what is sent back uses no more room than was kept for it
    have hrest : ∀ m' ∈ rest,
        k.Recovers m'.recovered ∧ c₁.store.CanReturn c₁.ownChain k.now m' := fun m' hm' => by
      obtain ⟨hrecovers, hreturn⟩ := hmessages.2 m' hm'
      rw [hone.ownChain]
      exact ⟨hrecovers, hreturn.congr hone.account_eq⟩
    have hroom₁ : c₁.store.HasRoom c₁.ownChain rest := by
      rw [hone.ownChain]
      exact hroom.tail fun id hne => hone.outboxOf hne
    have hrecover : deliverRecovered .default m.recovered c = .ok d c₁ := hdeliver
    obtain ⟨n, c', hrun, hmore⟩ := recoverMessages_eq_ok
      (delivered + if d = .discarded then 0 else 1) (hone.sound hc) hrest hroom₁
    refine ⟨(if d = .discarded then 0 else 1) + n, c', ?_, hone.append hmore⟩
    rw [recoverMessages_of_ok hrecover, hrun, Nat.add_assoc]

/-- **A recovery that passes its check sends its messages back** and stores the new root. -/
theorem perform_eq_ok (hc : Sound k c) {request : RecoveryRequest} {v : Verified}
    (hv : Checked c.store c.ownChain k.now request v) (hrecovered : k.recovered = request.messages)
    (hmessages : ∀ m ∈ v.messages, c.store.CanReturn c.ownChain k.now m)
    (hroom : c.store.HasRoom c.ownChain v.messages) :
    ∃ n c₁ root, Returns k v.messages n c c₁ ∧ perform .default v c =
      .ok n ((c₁.write (.terminatedOutbox v.id) (some { v.outbox with root := root })).emit
        (.terminatedOutboxUpdated v.id root)) := by
  obtain ⟨n, c₁, hrun, hreturns⟩ := recoverMessages_eq_ok 0 hc
    (fun m hm => ⟨hv.recovers hrecovered hm, hmessages m hm⟩) hroom
  obtain ⟨root, hroot⟩ := hv.exists_root
  refine ⟨n, c₁, root, hreturns, ?_⟩
  rw [Nat.zero_add] at hrun
  unfold perform
  rw [bind_of_ok hrun]
  dsimp only
  rw [hroot]
  rfl

end Recovery

/-! ## Calls -/

/-- The answer to a recovery that has been carried out. -/
def Recovery.response (v : Verified) (delivered : Nat) (events : List Event) : Response where
  attributes :=
    [("method", "recover_message"), ("chain_id", v.id.toHex),
      ("recovered", toString v.messages.length), ("delivered", toString delivered)]
  events := events

theorem Recovery.execute_eq (header : BlockHeader) (request : RecoveryRequest) :
    Recovery.execute .default header request = (do
      let own ← StoreM.load .own
      let v ← StoreM.ofAttempt (Recovery.verify (← get) own.chainId header.time request)
      let (n, events) ← StoreM.withContext header (Recovery.perform .default v)
      return Recovery.response v n events) :=
  rfl

namespace Call

/-- The call is accepted and sends the messages back: there is one report on each message, in order;
other chains than the hub get what is theirs in their outboxes and nothing else; and the answer
counts the messages that are not discarded. -/
structure SendsBack (k : Call) (s : Store) (hub : ChainId) (messages : List Message)
    (response : Response) : Prop where
  accepted : k.response? s = some response
  reports : List.Forall₂ (Message.ReturnedBy hub) messages
    (response.events.filter Event.isProcessed)
  sent : ∀ id, id ≠ hub → sentTo id response.events = recoveredTo id messages
  outbox : ∀ id, id ≠ hub →
    (s.outboxOf id).appendAll? (recoveredTo id messages) = some ((k.after s).outboxOf id)
  counted : response.attributes.lookup "delivered" = some (toString
    ((response.events.filter Event.isProcessed).countP Event.isDelivered))

/-- **When a recovery is accepted.** -/
theorem run_recover_eq_ok_iff {header : BlockHeader} {funds : List Coin}
    {request : RecoveryRequest} {s s' : Store} {response : Response} :
    (⟨header, funds, .recover request⟩ : Call).run s = .ok response s' ↔
      ∃ own v n c, s.get .own = some own ∧
        Recovery.verify s own.chainId header.time request = .ok v ∧
        Recovery.perform .default v (.start s header own.chainId) = .ok n c ∧
        response = Recovery.response v n c.events ∧ s' = c.store := by
  show Recovery.execute .default header request s = _ ↔ _
  rw [Recovery.execute_eq]
  exact StoreM.checked_eq_ok_iff

/-- **The messages of a recovery that passes its check reach their origin.** -/
theorem recover_returns {s : Store} (hs : Consistent s) {own : OwnAccount}
    (hown : s.get .own = some own) {header : BlockHeader} (funds : List Coin)
    {request : RecoveryRequest} {v : Recovery.Verified}
    (hv : Recovery.Checked s own.chainId header.time request v)
    (hmessages : ∀ m ∈ v.messages, s.CanReturn own.chainId header.time m)
    (hroom : s.HasRoom own.chainId v.messages) :
    ∃ response, SendsBack ⟨header, funds, .recover request⟩ s own.chainId v.messages response := by
  let k : Call := ⟨header, funds, .recover request⟩
  have hc : Sound k.cause (.start s header own.chainId) := sound_start hs hown rfl
  obtain ⟨n, c₁, root, hreturns, hperform⟩ := Recovery.perform_eq_ok hc hv rfl hmessages hroom
  obtain ⟨haccepted, hafter⟩ := accepted_of_run (k := k) (run_recover_eq_ok_iff.mpr
    ⟨own, v, n, _, hown, Recovery.verify_eq_ok_iff.mpr hv, hperform, rfl, rfl⟩)
  obtain ⟨acts, hreach, -, hreports, hsent, hcount⟩ := id hreturns
  have hevents : c₁.events = acts.flatMap Action.events := hreach.events
  have hprocessed :
      (c₁.events ++ [Event.terminatedOutboxUpdated v.id root]).filter Event.isProcessed =
        Action.reportsAll acts := by
    rw [List.filter_append, hevents, Action.reportsAll_eq_filter]
    exact List.append_nil _
  refine ⟨_, haccepted, ?_, fun id hne => ?_, fun id hne => ?_, ?_⟩
  · show List.Forall₂ _ _ ((c₁.events ++ [_]).filter Event.isProcessed)
    rw [hprocessed]
    exact hreports
  · show sentTo id (c₁.events ++ [_]) = _
    rw [sentTo_append, hevents, hreach.trace.sentTo, hsent id hne]
    exact List.append_nil _
  · rw [hafter]
    exact (hreturns.outboxOf hne).trans (congrArg some (Store.outboxOf_put (by simp)).symm)
  · show _ = some (toString (((c₁.events ++ [_]).filter Event.isProcessed).countP _))
    rw [hprocessed, hcount]
    rfl

end Call

end ChainHub
