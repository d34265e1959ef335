import ChainHub.Proofs.Hub.Delivery
import ChainHub.Proofs.Hub.LogKeeping

/-!
# What dealing with messages does not see

The messages of an update are dealt with in the same way whatever outbox root is stored for a chain,
whatever block the request is in, as long as its time is the same, and whatever events there were
before. So two contexts that differ in nothing else are led to two such contexts, with the same
events since.

* `Gap`, `Alike`: what two contexts may differ in, and that they differ in nothing else.
* `HubM.Agree`: two computations, started alike, end alike. `HubM.Blind`: so do two runs of one.
* `HubM.blind_terminateChain`, `HubM.blind_deliver`: the building blocks.
* `Update.agree_processMessages`: the messages of an update.

The journals of the two contexts are not compared. They are read only when a snapshot is restored,
and that leads back to the context which it was taken of (`HubM.runCommand_default`).
-/

namespace ChainHub

/-- What two contexts may differ in. -/
structure Gap where
  /-- The chain for which another outbox root is stored. -/
  chain : ChainId
  /-- How that root differs. -/
  stored : Digest → Digest
  /-- The events that only the first context has, before all others. -/
  before : List Event

/-- The channel of a chain in the second context. -/
def Gap.mark (g : Gap) (id : ChainId) (channel : Channel) : Channel :=
  { channel with
    partnerOutboxRoot :=
      if id = g.chain then g.stored channel.partnerOutboxRoot else channel.partnerOutboxRoot }

theorem Gap.mark_of_ne {g : Gap} {id : ChainId} (h : id ≠ g.chain) :
    g.mark id = fun channel => channel := by
  funext channel
  simp [mark, h]

@[simp]
theorem Gap.mark_inbox (g : Gap) (id : ChainId) (channel : Channel) :
    (g.mark id channel).inbox = channel.inbox := rfl

@[simp]
theorem Gap.mark_outbox (g : Gap) (id : ChainId) (channel : Channel) :
    (g.mark id channel).outbox = channel.outbox := rfl

/-- The contexts differ only as the gap says. -/
structure Alike (g : Gap) (c d : Context) : Prop where
  slot : ∀ slot, (∀ id, slot ≠ .channel id) → d.store.get slot = c.store.get slot
  channel : ∀ id, d.store.get (.channel id) = (c.store.get (.channel id)).map (g.mark id)
  events : c.events = g.before ++ d.events
  time : d.header.time = c.header.time
  ownChain : d.ownChain = c.ownChain

namespace Alike

variable {g : Gap} {c d : Context}

theorem emit (h : Alike g c d) (event : Event) : Alike g (c.emit event) (d.emit event) where
  slot := h.slot
  channel := h.channel
  events := by
    show c.events ++ [event] = _
    rw [h.events, List.append_assoc]
    rfl
  time := h.time
  ownChain := h.ownChain

/-- The same is written to both, to any place but a channel. -/
theorem write (h : Alike g c d) {slot : Slot} (hslot : ∀ id, slot ≠ .channel id)
    (value : Option slot.Value) : Alike g (c.write slot value) (d.write slot value) where
  slot other hother := by
    show (d.store.put slot value).get other = (c.store.put slot value).get other
    by_cases heq : slot = other
    · subst heq
      rw [Store.get_put_self, Store.get_put_self]
    · rw [Store.get_put_of_ne _ _ heq, Store.get_put_of_ne _ _ heq, h.slot other hother]
  channel id := by
    show (d.store.put slot value).get (.channel id) =
      ((c.store.put slot value).get (.channel id)).map _
    rw [Store.get_put_of_ne _ _ (hslot id), Store.get_put_of_ne _ _ (hslot id), h.channel id]
  events := h.events
  time := h.time
  ownChain := h.ownChain

/-- A channel is written to both, to the second one as the gap has it. -/
theorem write_channel (h : Alike g c d) (id : ChainId) (channel : Channel) :
    Alike g (c.write (.channel id) (some channel))
      (d.write (.channel id) (some (g.mark id channel))) where
  slot other hother := by
    show (d.store.put (.channel id) (some (g.mark id channel))).get other =
      (c.store.put (.channel id) (some channel)).get other
    rw [Store.get_put_of_ne _ _ (hother id).symm, Store.get_put_of_ne _ _ (hother id).symm,
      h.slot other hother]
  channel other := by
    show (d.store.put (.channel id) (some (g.mark id channel))).get (.channel other) =
      ((c.store.put (.channel id) (some channel)).get (.channel other)).map (g.mark other)
    rw [Store.get_put_channel, Store.get_put_channel]
    split
    · rename_i heq
      rw [heq]
      rfl
    · exact h.channel other
  events := h.events
  time := h.time
  ownChain := h.ownChain

end Alike

namespace HubM

variable {g : Gap} {α β γ δ : Type}

/-- The two computations, started alike, end alike: with related results or with the same
failure. -/
def Agree (g : Gap) (R : α → β → Prop) (x : HubM α) (y : HubM β) : Prop :=
  ∀ c d, Alike g c d →
    match x c, y d with
    | .ok a c', .ok b d' => R a b ∧ Alike g c' d'
    | .error failure c', .error failure' d' => failure = failure' ∧ Alike g c' d'
    | _, _ => False

/-- The computation does not see the gap. -/
abbrev Blind (g : Gap) (x : HubM α) : Prop := Agree g Eq x x

/-! ## Rules -/

section Rules

variable {R : α → β → Prop} {S : γ → δ → Prop} {x : HubM α} {y : HubM β} {f : α → HubM γ}
  {f' : β → HubM δ}

theorem agree_pure {a : α} {b : β} (h : R a b) : Agree g R (pure a) (pure b) :=
  fun _ _ halike => ⟨h, halike⟩

theorem blind_pure (a : α) : Blind g (pure a) := agree_pure rfl

theorem agree_refuse (e : HubError) : Agree g R (refuse e) (refuse e) :=
  fun _ _ halike => ⟨rfl, halike⟩

theorem agree_abort : Agree g R abort abort := fun _ _ halike => ⟨rfl, halike⟩

theorem Agree.bind (hx : Agree g R x y) (hf : ∀ a b, R a b → Agree g S (f a) (f' b)) :
    Agree g S (x >>= f) (y >>= f') := by
  intro c d halike
  have hends := hx c d halike
  cases hc : x c with
  | ok a c₁ =>
    cases hd : y d with
    | ok b d₁ =>
      rw [hc, hd] at hends
      rw [bind_of_ok hc, bind_of_ok hd]
      exact hf a b hends.1 c₁ d₁ hends.2
    | error failure d₁ =>
      rw [hc, hd] at hends
      exact hends.elim
  | error failure c₁ =>
    cases hd : y d with
    | ok b d₁ =>
      rw [hc, hd] at hends
      exact hends.elim
    | error failure' d₁ =>
      rw [hc, hd] at hends
      rw [bind_of_error hc, bind_of_error hd]
      exact hends

theorem Blind.bind {x : HubM α} {f : α → HubM γ} {f' : α → HubM δ} (hx : Blind g x)
    (hf : ∀ a, Agree g S (f a) (f' a)) : Agree g S (x >>= f) (x >>= f') :=
  Agree.bind hx fun a _ h => h ▸ hf a

/-- What is read of the context is read alike. -/
theorem agree_get {f : Context → HubM γ} {f' : Context → HubM δ}
    (hf : ∀ c d, Alike g c d → Agree g S (f c) (f' d)) :
    Agree g S ((get : HubM Context) >>= f) ((get : HubM Context) >>= f') :=
  fun c d halike => hf c d halike c d halike

theorem agree_snapshot {f : Snapshot → HubM γ} {f' : Snapshot → HubM δ}
    (hf : ∀ s s', Agree g S (f s) (f' s')) : Agree g S (snapshot >>= f) (snapshot >>= f') :=
  fun c d halike => hf c.snapshot d.snapshot c d halike

theorem blind_get? {slot : Slot} (h : ∀ id, slot ≠ .channel id) : Blind g (get? slot) :=
  fun _ _ halike => ⟨(halike.slot slot h).symm, halike⟩

theorem agree_get?_channel (id : ChainId) :
    Agree g (fun channel channel' => channel' = channel.map (g.mark id)) (get? (.channel id))
      (get? (.channel id)) :=
  fun _ _ halike => ⟨halike.channel id, halike⟩

theorem blind_load {slot : Slot} (h : ∀ id, slot ≠ .channel id) : Blind g (load slot) := by
  refine (blind_get? h).bind fun value => ?_
  cases value with
  | none => exact agree_refuse _
  | some value => exact blind_pure value

theorem agree_load_channel (id : ChainId) :
    Agree g (fun channel channel' => channel' = g.mark id channel) (load (.channel id))
      (load (.channel id)) := by
  refine (agree_get?_channel id).bind ?_
  rintro channel _ rfl
  cases channel with
  | none => exact agree_refuse _
  | some channel => exact agree_pure rfl

theorem blind_save {slot : Slot} (h : ∀ id, slot ≠ .channel id) (value : slot.Value) :
    Blind g (save slot value) :=
  fun _ _ halike => ⟨rfl, halike.write h (some value)⟩

theorem agree_save_channel (id : ChainId) (channel : Channel) :
    Agree g Eq (save (.channel id) channel) (save (.channel id) (g.mark id channel)) :=
  fun _ _ halike => ⟨rfl, halike.write_channel id channel⟩

theorem blind_emit (event : Event) : Blind g (emit event) :=
  fun _ _ halike => ⟨rfl, halike.emit event⟩

end Rules

/-! ## Sending and terminating -/

theorem blind_appendToOutbox (id : ChainId) (encoded : Bytes) :
    Blind g (appendToOutbox id encoded) := by
  refine (agree_load_channel id).bind ?_
  rintro channel _ rfl
  dsimp only [Gap.mark_outbox]
  cases channel.outbox.append? encoded with
  | none => exact agree_abort
  | some outbox => exact (agree_save_channel id _).bind fun _ _ _ => blind_pure _

theorem blind_appendToInbox (id : ChainId) (encoded : Bytes) :
    Blind g (appendToInbox id encoded) := by
  refine (agree_load_channel id).bind ?_
  rintro channel _ rfl
  dsimp only [Gap.mark_inbox]
  cases channel.inbox.append? encoded with
  | none => exact agree_abort
  | some inbox => exact (agree_save_channel id _).bind fun _ _ _ => blind_pure _

theorem blind_post (m : Message) : Blind g (post m) :=
  (blind_appendToOutbox _ _).bind fun _ => blind_emit _

theorem blind_address (draft : Draft) : Blind g (address draft) := by
  refine (blind_load (by simp)).bind fun own => ?_
  dsimp only
  cases (draft.message own).checkFormat with
  | error e => exact agree_refuse _
  | ok u =>
    dsimp only
    split
    · exact (blind_save (by simp) _).bind fun _ => blind_pure _
    · exact agree_abort

theorem blind_sendNotice (draft : Draft) : Blind g (sendNotice draft) :=
  (blind_address draft).bind fun m => (blind_post m).bind fun _ => blind_pure m

theorem blind_sendInternal (draft : Draft) : Blind g (sendInternal draft) := by
  refine (blind_get? (by simp)).bind fun account => ?_
  cases account with
  | none => exact agree_refuse _
  | some account =>
    dsimp only
    cases account.status with
    | terminated => exact agree_refuse _
    | active => exact blind_sendNotice draft
    | registered =>
      dsimp only
      split
      · exact blind_sendNotice draft
      · exact agree_refuse _

theorem blind_terminateChain (id : ChainId) : Blind g (terminateChain id) := by
  have hclose : ∀ account : ChainAccount, Blind g (do
      save (.account id) { account with status := .terminated }
      save (.terminatedState id) {
        stateRoot := account.last.stateRoot
        mainchainStateRoot := FixedBytes.zero 32
        initialized := true }
      emit (.accountUpdated id .terminated)
      emit (.terminatedStateCreated id account.last.stateRoot)) := fun account =>
    (blind_save (by simp) _).bind fun _ => (blind_save (by simp) _).bind fun _ =>
      (blind_emit _).bind fun _ => blind_emit _
  refine (blind_get? (by simp)).bind fun account => ?_
  cases account with
  | none => exact agree_refuse _
  | some account =>
    dsimp only
    split
    · exact blind_pure ()
    · refine (agree_get?_channel id).bind ?_
      rintro channel _ rfl
      rw [Option.isSome_map]
      split
      · exact (blind_sendNotice _).bind fun _ => hclose account
      · exact hclose account

/-! ## Delivery -/

theorem blind_discard (m : Message) (code : ProcessedCode) : Blind g (discard m code) :=
  (blind_emit _).bind fun _ => blind_pure _

/-- **What a command comes to without further modules**: a refused one is as if it had not been
tried. -/
theorem runCommand_default {command : Command} {m : Message} (hlogs : Logs (command.execute m))
    (c : Context) :
    runCommand .default command m c =
      match command.execute m c with
      | .ok () c₁ => .ok .applied (c₁.emit (.processed m .applied .success))
      | .error (.error _) _ => .ok .discarded (c.emit (.processed m .discarded .failed))
      | .error .abort c₁ => .error .abort c₁ := by
  unfold runCommand
  show (succeeds (command.execute m) >>= _) c = _
  cases hx : command.execute m c with
  | ok u c₁ => exact (bind_of_ok (succeeds_of_ok hx)).trans rfl
  | error failure c₁ =>
    cases failure with
    | abort => exact bind_of_error (succeeds_of_abort hx)
    | error e =>
      have hreverts : c₁.RevertsTo c := (endOf_of_error hx ▸ hlogs c).reverts
      have hrestore := restore_of_revertsTo hreverts
      exact (bind_of_ok (succeeds_of_refused hx)).trans ((bind_of_ok hrestore).trans rfl)

theorem blind_runCommand {command : Command} {m : Message} (hlogs : Logs (command.execute m))
    (hblind : Blind g (command.execute m)) : Blind g (runCommand .default command m) := by
  intro c d halike
  have hends := hblind c d halike
  rw [runCommand_default hlogs c, runCommand_default hlogs d]
  cases hc : command.execute m c with
  | ok u c₁ =>
    cases hd : command.execute m d with
    | ok u d₁ =>
      rw [hc, hd] at hends
      exact ⟨rfl, hends.2.emit _⟩
    | error failure d₁ =>
      rw [hc, hd] at hends
      exact hends.elim
  | error failure c₁ =>
    cases hd : command.execute m d with
    | ok u d₁ =>
      rw [hc, hd] at hends
      exact hends.elim
    | error failure' d₁ =>
      rw [hc, hd] at hends
      obtain ⟨rfl, halike₁⟩ := hends
      cases failure with
      | error e => exact ⟨rfl, halike.emit _⟩
      | abort => exact ⟨rfl, halike₁⟩

/-- The commands of the interoperability module see inboxes and fee tokens only. -/
theorem blind_execute {command : Command}
    (hcommand : command = registration ∨ command = channelTerminated) (m : Message) :
    Blind g (command.execute m) := by
  rcases hcommand with rfl | rfl
  · unfold registration
    dsimp only
    cases (Wire.decode m.params : Except WireError RegistrationParams) with
    | error e => exact agree_refuse _
    | ok params =>
      refine (blind_load (by simp)).bind fun own => ?_
      refine (agree_load_channel m.sender).bind ?_
      rintro channel _ rfl
      show Agree g Eq _ (if m.status = .ok ∧ params.chainId = own.chainId ∧
        params.name = own.name ∧ params.feeToken = channel.feeToken ∧ channel.inbox.size = 1 then
          pure ()
        else terminateChain m.sender)
      split
      · exact blind_pure ()
      · exact blind_terminateChain m.sender
  · exact blind_terminateChain m.sender

theorem blind_applyMessage (m : Message) : Blind g (applyMessage .default m) := by
  unfold applyMessage
  split
  · exact blind_discard m _
  · cases hcommand : Registry.default.command? m.module m.command with
    | none => exact blind_discard m _
    | some command =>
      have hserved := Registry.command?_default hcommand
      have hverify : ∀ c d : Context, command.verify c m = command.verify d m := by
        rcases hserved with rfl | rfl
        · exact fun _ _ => rfl
        · exact fun _ _ => rfl
      refine agree_get fun c d _ => ?_
      show Agree g Eq (if isRefused (command.verify c m) then discard m .failed
          else runCommand .default command m)
        (if isRefused (command.verify d m) then discard m .failed
          else runCommand .default command m)
      rw [hverify d c]
      split
      · exact blind_discard m _
      · exact blind_runCommand (Registry.logs_default.commands _ _ _ hcommand m)
          (blind_execute hserved m)

theorem blind_bounceMessage (m : Message) (status : MessageStatus) (code : ProcessedCode) :
    Blind g (bounceMessage m status code) := by
  unfold bounceMessage
  split
  · exact blind_discard m code
  · exact (blind_post _).bind fun _ => (blind_emit _).bind fun _ => blind_pure _

theorem blind_passOn (m : Message) : Blind g (passOn .default m) := by
  unfold passOn
  refine agree_snapshot fun _ _ => ?_
  exact (blind_post m).bind fun _ => (blind_emit _).bind fun _ => blind_pure Disposition.forwarded

theorem blind_terminateReceiver (m : Message) (receiver : ChainAccount) :
    Blind g (terminateReceiver m receiver) :=
  (blind_terminateChain _).bind fun _ => (blind_sendInternal _).bind fun _ => blind_pure ()

theorem blind_forwardMessage (m : Message) : Blind g (forwardMessage .default m) := by
  have hbounce : Blind g (bounceUnavailable m) := blind_bounceMessage m _ _
  unfold forwardMessage
  refine (blind_get? (by simp)).bind fun receiver => ?_
  cases receiver with
  | none => exact hbounce
  | some receiver =>
    refine agree_get fun c d halike => ?_
    have hnow : d.now = c.now := halike.time
    rw [hnow]
    dsimp only
    split
    · split
      · exact (blind_terminateReceiver m receiver).bind fun _ => hbounce
      · exact hbounce
    · split
      · exact hbounce
      · exact blind_passOn m

/-- **Delivering a message does not see the gap.** -/
theorem blind_deliver (m : Message) : Blind g (deliver .default m) := by
  unfold deliver
  refine agree_get fun c d halike => ?_
  rw [halike.ownChain]
  split
  · exact blind_applyMessage m
  · exact blind_forwardMessage m

end HubM

namespace Update

open HubM

variable {g : Gap}

theorem blind_storeVerified (v : Verified) : Blind g (storeVerified v) := by
  have hslot : ∀ id, Slot.validators v.sender ≠ .channel id := by simp
  have hvalidators : Blind g (storeValidators v) := by
    unfold storeValidators
    cases v.validators with
    | none => exact blind_pure ()
    | some set => exact blind_save hslot set
  unfold storeVerified
  cases v.certificate with
  | none => exact hvalidators
  | some certificate =>
    refine Blind.bind ?_ fun _ => hvalidators
    unfold storeCertificate
    dsimp only
    split
    · exact (blind_emit _).bind fun _ => blind_save (by simp) _
    · exact blind_save (by simp) _

/-- The counts before do not matter for what is done about the messages. -/
theorem agree_processMessages (id : ChainId) :
    ∀ (messages : List Bytes) {o o' : Outcome}, o.senderTerminated = o'.senderTerminated →
      Agree g (fun o o' => o.senderTerminated = o'.senderTerminated)
        (processMessages .default id messages o) (processMessages .default id messages o')
  | [], _, _, ho => agree_pure ho
  | bytes :: rest, o, o', ho => by
    unfold processMessages
    cases (Wire.decode bytes : Except WireError Message) with
    | error e =>
      exact (blind_terminateChain id).bind fun _ => (blind_emit _).bind fun _ => agree_pure rfl
    | ok m =>
      dsimp only
      cases violation? id m with
      | some code =>
        exact (blind_terminateChain id).bind fun _ => (blind_emit _).bind fun _ => agree_pure rfl
      | none =>
        refine (blind_appendToInbox id bytes).bind fun _ => ?_
        refine (blind_deliver m).bind fun d => ?_
        refine (blind_load (by simp)).bind fun account => ?_
        split
        · exact agree_pure rfl
        · exact agree_processMessages id rest (by cases d <;> exact ho)

end Update

end ChainHub
