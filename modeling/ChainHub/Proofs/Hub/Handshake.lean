import ChainHub.Proofs.Hub.Coherent
import ChainHub.Proofs.Hub.Log
import Mathlib.Data.List.Induction
import Mathlib.Data.List.TakeWhile

/-!
# A chain opens its channel once

A handshake of a chain stands if it is the first message of the chain and names the hub; any other
one that is applied terminates the chain. That it is the first is told by the size of the inbox,
which already holds the handshake when this is looked at. So a second one could only stand if a
message were applied without being received before.

* `handshakes`, `accepted`: the handshakes that a log says were applied, and those of them that came
  before the chain was terminated.
* `Greeted`: what they have to do with the inbox and the records of the chain.
* `Greeted.trace`, `Greeted.delivered`: it holds on while nothing of the kind is applied, and while
  a message is received and delivered.
* `Run.greets_once`: it holds of every run.

Recovered forms of the hub's own handshake come to the same command. They name a terminated chain as
their sender, so that nothing is left to terminate.
-/

namespace ChainHub

open HubM

/-! ## What a log says -/

/-- Whether the message is a handshake, by which a chain opens its channel. -/
def Message.isHandshake (m : Message) : Bool :=
  m.module == interoperabilityModule && m.command == registrationCommand

/-- The handshake of a chain that an event says was applied. -/
def Event.handshake? (id : ChainId) : Event → Option Message
  | .processed m .applied _ => if m.sender = id ∧ m.isHandshake = true then some m else none
  | _ => none

/-- The handshakes of a chain that a log says were applied. -/
def handshakes (id : ChainId) (log : List Event) : List Message :=
  log.filterMap (Event.handshake? id)

/-- The events before the one that says that a chain was terminated. -/
def untilTerminated (id : ChainId) (log : List Event) : List Event :=
  log.takeWhile fun event => event ≠ .accountUpdated id .terminated

/-- The handshakes of a chain that were applied before the chain was terminated. -/
def accepted (id : ChainId) (log : List Event) : List Message :=
  handshakes id (untilTerminated id log)

section

variable {id : ChainId} {log more : List Event}

theorem handshakes_append (id : ChainId) (log more : List Event) :
    handshakes id (log ++ more) = handshakes id log ++ handshakes id more :=
  List.filterMap_append

/-- Only events that account for inbound messages say what was applied. -/
theorem handshakes_filter (id : ChainId) (log : List Event) :
    handshakes id (log.filter Event.isProcessed) = handshakes id log :=
  filterMap_isProcessed (fun event h => by cases event <;> first | rfl | cases h) log

theorem handshakes_eq_nil_of_silent (id : ChainId) {acts : List Action}
    (h : Action.reportsAll acts = []) : handshakes id (acts.flatMap Action.events) = [] := by
  rw [← handshakes_filter, ← Action.reportsAll_eq_filter, h]
  rfl

theorem sender_of_mem_handshakes {m : Message} (h : m ∈ handshakes id log) : m.sender = id := by
  obtain ⟨event, -, hevent⟩ := List.mem_filterMap.mp h
  unfold Event.handshake? at hevent
  split at hevent
  · split at hevent
    · rename_i hm
      cases hevent
      exact hm.1
    · cases hevent
  · cases hevent

/-- While the chain is not terminated, every handshake is accepted. -/
theorem accepted_eq_handshakes (h : .accountUpdated id .terminated ∉ log) :
    accepted id log = handshakes id log := by
  have hall : untilTerminated id log = log := by
    refine List.takeWhile_eq_self_iff.mpr fun event hevent => ?_
    exact decide_eq_true fun heq => h (heq ▸ hevent)
  rw [accepted, hall]

theorem accepted_append_of_not_mem (h : .accountUpdated id .terminated ∉ log) :
    accepted id (log ++ more) = handshakes id log ++ accepted id more := by
  have hlog : untilTerminated id (log ++ more) = log ++ untilTerminated id more := by
    refine List.takeWhile_append_of_pos fun event hevent => ?_
    exact decide_eq_true fun heq => h (heq ▸ hevent)
  rw [accepted, hlog, handshakes_append]
  rfl

/-- None is accepted after the chain was terminated. -/
theorem accepted_append_of_mem (h : .accountUpdated id .terminated ∈ log) :
    accepted id (log ++ more) = accepted id log := by
  have hshort : (untilTerminated id log).length ≠ log.length := by
    intro hlength
    have hself := (List.takeWhile_prefix _).eq_of_length hlength
    exact of_decide_eq_true (List.takeWhile_eq_self_iff.mp hself _ h) rfl
  unfold accepted untilTerminated at *
  rw [List.takeWhile_append, if_neg hshort]

theorem accepted_eq_nil (h : handshakes id log = []) : accepted id log = [] := by
  unfold accepted handshakes at *
  rw [List.filterMap_eq_nil_iff] at h ⊢
  exact fun event hevent => h event ((List.takeWhile_sublist _).subset hevent)

/-- Events that tell of no handshake before the chain is terminated make no difference. -/
theorem accepted_append (h : .accountUpdated id .terminated ∉ log → handshakes id more = []) :
    accepted id (log ++ more) = accepted id log := by
  by_cases hmem : .accountUpdated id .terminated ∈ log
  · exact accepted_append_of_mem hmem
  · rw [accepted_append_of_not_mem hmem, accepted_eq_nil (h hmem), List.append_nil,
      accepted_eq_handshakes hmem]

end

/-! ## Single actions -/

section

variable {k : Cause} {s s' : Store} {a : Action} {acts : List Action} {id : ChainId} {m : Message}

/-- That a chain is terminated is told when it is. -/
theorem Step.isClosed_iff (h : Step k s a s') :
    s'.IsClosed id ↔ s.IsClosed id ∨ .accountUpdated id .terminated ∈ a.events := by
  constructor
  · intro hclosed
    by_cases haccount : a.account? = some id
    · cases h with
      | close =>
        cases haccount
        exact Or.inr (by simp [Action.events])
      | certify =>
        cases haccount
        obtain ⟨account, hget, hstatus⟩ := hclosed
        rw [Store.get_put_of_ne _ _ (by simp), Store.get_put_self] at hget
        cases hget
        cases hstatus
      | register _ _ _ _ _ _ _ _ hsend =>
        cases haccount
        obtain ⟨account, hget, hstatus⟩ := hclosed
        rw [hsend.get_of_ne (by simp) (by simp), Store.get_registered_account, if_pos rfl] at hget
        cases hget
        cases hstatus
      | _ => cases haccount
    · obtain ⟨account, hget, hstatus⟩ := hclosed
      exact Or.inl ⟨account, (h.account_eq haccount).symm.trans hget, hstatus⟩
  · rintro (hclosed | htold)
    · exact h.isClosed hclosed
    · cases h with
      | report _ _ _ hholds =>
        rw [Action.events, List.mem_singleton] at htold
        subst htold
        exact absurd rfl hholds
      | @close other _ _ _ hget hopen hcause hreceiver hsend =>
        have hid : other = id := by simpa [Action.events, eq_comm] using htold
        subst hid
        exact (Trace.single (.close hget hopen hcause hreceiver hsend)).isClosed_of_close
      | _ => simp [Action.events] at htold

/-- A handshake goes on naming the hub and the token of the channel. -/
theorem Step.opens (h : Step k s a s') (hm : s.Opens m) : s'.Opens m := by
  obtain ⟨hstatus, params, own, channel, hparams, hown, hchannel, hid, hname, htoken⟩ := hm
  obtain ⟨nonce, -, hown'⟩ := h.own hown
  obtain ⟨next, hnext, hkept, -⟩ := h.channel hchannel
  exact ⟨hstatus, params, _, next, hparams, hown', hnext, hid, hname, htoken.trans hkept.symm⟩

/-- Only an update of the chain itself applies its handshake before it is terminated. -/
theorem Step.handshakes_eq_nil (h : Step k s a s') (hsender : k.sender ≠ some id)
    (hopen : ¬ s.IsClosed id) : handshakes id a.events = [] := by
  cases h with
  | @report event _ _ _ _ hholds =>
    cases hevent : event.handshake? id with
    | none => simp [handshakes, Action.events, hevent]
    | some m =>
      unfold Event.handshake? at hevent
      split at hevent
      · split at hevent
        · rename_i hm
          obtain ⟨rfl, -⟩ := hm
          rcases hholds with hclosed | ⟨hcause, -⟩
          · exact absurd hclosed hopen
          · exact absurd hcause hsender
        · cases hevent
      · cases hevent
  | _ => rfl

end

/-! ## Handshakes and the inbox -/

/-- What the handshakes of a chain have to do with its inbox and its records, after the given events
and with the given messages received: the chain is terminated when this was told, and at most one
handshake was accepted, which is the first message and opens the channel. -/
structure Greeted (id : ChainId) (log : List Event) (received : List Bytes) (s : Store) : Prop where
  closed : s.IsClosed id ↔ .accountUpdated id .terminated ∈ log
  inbox : Accumulator.empty.appendAll? received = some (s.inboxOf id)
  once : accepted id log = [] ∨ ∃ m : Message, accepted id log = [m] ∧
    received.head? = some m.encode ∧ s.Opens m

namespace Greeted

variable {id : ChainId} {log : List Event} {received : List Bytes} {k : Cause} {s s' : Store}
  {a : Action} {acts : List Action} {bytes : Bytes} {m : Message}

/-- Nothing was accepted of a chain that has delivered nothing. -/
theorem accepted_eq_nil (hg : Greeted id log [] s) : accepted id log = [] := by
  rcases hg.once with hnone | ⟨m, -, hfirst, -⟩
  · exact hnone
  · cases hfirst

/-- An action that tells of no handshake. -/
theorem step (hg : Greeted id log received s) (h : Step k s a s')
    (hnew : ¬ s.IsClosed id → handshakes id a.events = []) :
    Greeted id (log ++ a.events) (received ++ a.received id) s' where
  closed := by rw [h.isClosed_iff, hg.closed, List.mem_append]
  inbox := by rw [Accumulator.appendAll?_append, hg.inbox, Option.bind_some, h.inboxOf]
  once := by
    rw [accepted_append fun hmem => hnew (mt hg.closed.mp hmem)]
    refine hg.once.imp_right ?_
    rintro ⟨m, hm, hfirst, hopens⟩
    exact ⟨m, hm, by rw [List.head?_append, hfirst]; rfl, h.opens hopens⟩

/-- **Actions that tell of no handshake**, as far as they belong to an update of the chain. -/
theorem trace (hg : Greeted id log received s) (h : Trace k s acts s')
    (hnew : k.sender = some id → handshakes id (acts.flatMap Action.events) = []) :
    Greeted id (log ++ acts.flatMap Action.events) (received ++ Action.receivedAll id acts) s' := by
  induction h generalizing log received with
  | nil => simpa [Action.receivedAll] using hg
  | @cons s s₁ s₂ a acts h _ ih =>
    rw [List.flatMap_cons, handshakes_append] at hnew
    have hfirst : ¬ s.IsClosed id → handshakes id a.events = [] := fun hopen => by
      by_cases hsender : k.sender = some id
      · exact (List.append_eq_nil_iff.mp (hnew hsender)).1
      · exact h.handshakes_eq_nil hsender hopen
    have hrest := ih (hg.step h hfirst) fun hsender =>
      (List.append_eq_nil_iff.mp (hnew hsender)).2
    rw [List.append_assoc, List.append_assoc] at hrest
    exact hrest

/-- The first message of a chain is accepted as its handshake. -/
theorem greet (hg : Greeted id log [m.encode] s) (hopen : ¬ s.IsClosed id)
    (hnone : accepted id log = []) (hsender : m.sender = id) (hhandshake : m.isHandshake = true)
    (hopens : s.Opens m) (code : ProcessedCode) :
    Greeted id (log ++ [.processed m .applied code]) [m.encode] s where
  closed := by simp [hg.closed]
  inbox := hg.inbox
  once := by
    have hmem := mt hg.closed.mpr hopen
    rw [accepted_eq_handshakes hmem] at hnone
    have hlast : accepted id [.processed m .applied code] = [m] := by
      rw [accepted_eq_handshakes (by simp)]
      simp [handshakes, Event.handshake?, hsender, hhandshake]
    refine Or.inr ⟨m, ?_, rfl, hopens⟩
    rw [accepted_append_of_not_mem hmem, hnone, hlast, List.nil_append]

/-- **A message that is received and delivered.** When it is applied as a handshake that does not
terminate the chain, it is alone in the inbox, so that none was accepted before. -/
theorem delivered {d : Disposition} (hg : Greeted id log received s) (hsender : k.sender = some id)
    (h : Update.Delivered k id bytes m d s acts s') :
    Greeted id (log ++ (.receive id bytes :: acts).flatMap Action.events) (received ++ [bytes])
      s' := by
  have hreceived := h.receivedAll
  obtain ⟨hdecoded, hallowed, htrace, hdeals⟩ := h
  obtain ⟨before, code, rfl, hsilent⟩ := hdeals.reports
  rw [← List.cons_append] at htrace hreceived ⊢
  rw [Action.receivedAll_append] at hreceived
  obtain ⟨s₁, hbefore, hlast⟩ := htrace.exists_append
  have hquiet := handshakes_eq_nil_of_silent id
    (show Action.reportsAll (.receive id bytes :: before) = [] from hsilent)
  have hg₁ := hg.trace hbefore fun _ => hquiet
  rw [show Action.receivedAll id (.receive id bytes :: before) = [bytes] from
    (List.append_nil _).symm.trans hreceived] at hg₁
  rw [List.flatMap_append, ← List.append_assoc]
  have hreport := hlast.step
  -- only the last report is new; it matters if it tells of the handshake of an open chain
  by_cases hnew : ¬ s₁.IsClosed id → handshakes id [.processed m d code] = []
  · have hg₂ := hg₁.step hreport hnew
    rwa [show Action.received id (.report (.processed m d code)) = [] from rfl,
      List.append_nil] at hg₂
  · obtain ⟨hopen, happlied⟩ := Classical.not_imp.mp hnew
    have hm : d = .applied ∧ m.sender = id ∧ m.isHandshake = true := by
      by_contra hnot
      refine happlied ?_
      cases d <;> simp_all [handshakes, Event.handshake?]
    obtain ⟨rfl, rfl, hhandshake⟩ := hm
    cases hreport with
    | report _ _ _ hholds =>
      obtain ⟨-, hopens, hsize⟩ := hholds.resolve_left hopen
      -- the inbox of size one already holds the message, so that nothing came before it
      have hcount := Accumulator.size_of_appendAll hg₁.inbox
      rw [hsize, List.length_append, List.length_singleton] at hcount
      have hnone : received = [] := by
        have hone : (1 : UInt64).toNat = 1 := rfl
        exact List.eq_nil_of_length_eq_zero (by omega)
      obtain rfl := hnone
      obtain rfl : bytes = m.encode := Wire.eq_encode_of_decode hdecoded
      refine hg₁.greet hopen ?_ rfl hhandshake hopens code
      rw [accepted_append fun _ => hquiet, hg.accepted_eq_nil]

/-- **The messages of an update of the chain.** -/
theorem handled {messages : List Bytes} {o o' : Update.Outcome} (hsender : k.sender = some id)
    (h : Update.Handled k id messages o s acts o' s') (hg : Greeted id log received s) :
    Greeted id (log ++ acts.flatMap Action.events) (received ++ Action.receivedAll id acts) s' := by
  induction h generalizing log received with
  | @done o s => simpa [Action.receivedAll] using hg
  | reject h =>
    refine hg.trace h.trace fun _ => ?_
    obtain ⟨event, hreports, hresult, -⟩ := h.reports
    rw [← handshakes_filter, ← Action.reportsAll_eq_filter, hreports]
    cases event with
    | processed m d code =>
      cases hresult
      rfl
    | _ => rfl
  | stop h =>
    rw [h.receivedAll]
    exact hg.delivered hsender h
  | next h _ _ ih =>
    have hrest := ih (hg.delivered hsender h)
    rwa [List.append_assoc, List.append_assoc, ← List.flatMap_append, ← h.receivedAll,
      ← Action.receivedAll_append] at hrest

/-- **An update of the chain.** -/
theorem performed {v : Update.Verified} {messages : List Bytes} {o : Update.Outcome}
    (hg : Greeted v.sender log received s) (hsender : k.sender = some v.sender)
    (h : Update.Performed k v messages s o acts s') :
    Greeted v.sender (log ++ acts.flatMap Action.events)
      (received ++ Action.receivedAll v.sender acts) s' := by
  obtain ⟨hstored, -, hsilent, -, hhandled, hproof, -⟩ := h
  have hg₁ := hg.trace hstored fun _ => handshakes_eq_nil_of_silent v.sender hsilent
  have hg₂ := handled hsender hhandled hg₁
  have hg₃ := hg₂.trace hproof fun _ =>
    handshakes_eq_nil_of_silent v.sender (v.reportsAll_proof o)
  simpa only [List.flatMap_append, Action.receivedAll_append, List.append_assoc] using hg₃

end Greeted

/-! ## Calls -/

/-- **Every call keeps to it**: an update of the chain, and any other call because it cannot apply
a handshake of a chain that is not terminated. -/
theorem Call.greeted {id : ChainId} {log : List Event} {received : List Bytes} {s : Store}
    (hs : Consistent s) (hg : Greeted id log received s) (k : Call) :
    Greeted id (log ++ k.events s) (received ++ k.passed id s) (k.after s) := by
  cases hresponse : k.response? s with
  | none =>
    rw [passed_of_rejected id hresponse, after_of_rejected hresponse, events, hresponse]
    simpa using hg
  | some response =>
    obtain ⟨acts, htrace, hevents, heffect⟩ := of_accepted hs hresponse
    rw [passed_eq_receivedAll id hresponse htrace hevents heffect, events, hresponse,
      Option.elim_some, hevents]
    by_cases hsender : k.sender? = some id
    · obtain ⟨request, own, v, o, -, rfl, -, hperformed⟩ := heffect.of_sender hsender
      exact hg.performed hsender hperformed
    · exact hg.trace htrace fun h => absurd h hsender

theorem greeted_collect {id : ChainId} {s : Store} (hs : Consistent s) (hg : Greeted id [] [] s)
    (calls : List Call) :
    Greeted id (collect Call.events calls s) (collect (Call.passed id) calls s)
      (afterAll calls s) := by
  induction calls using List.reverseRecOn with
  | nil => exact hg
  | append_singleton calls k ih =>
    rw [collect_concat, collect_concat, afterAll_concat]
    exact Call.greeted (consistent_afterAll hs calls) ih k

/-- A handshake with parameters that cannot be read is discarded as a failed message. -/
theorem HubM.applyMessage_of_unreadable {m : Message} (hhandshake : m.isHandshake = true)
    {e : WireError}
    (hparams : (Wire.decode m.params : Except WireError RegistrationParams) = .error e) :
    applyMessage .default m = discard m .failed := by
  have hnames : m.module = interoperabilityModule ∧ m.command = registrationCommand := by
    simpa [Message.isHandshake] using hhandshake
  have hmodule : Registry.default.hasModule interoperabilityModule = true := rfl
  have hcommand : Registry.default.command? interoperabilityModule registrationCommand =
      some registration := rfl
  funext c
  have hrefused : isRefused (registration.verify c m) = true := by
    unfold registration
    dsimp only
    rw [hparams]
    rfl
  unfold applyMessage
  rw [hnames.1, hnames.2, hmodule, hcommand]
  dsimp only
  rw [Bool.not_true, if_neg Bool.false_ne_true]
  show (if isRefused (registration.verify c m) then discard m .failed
    else runCommand .default registration m) c = _
  rw [hrefused]
  rfl

/-! ## Runs -/

/-- The chain is terminated, and the state that it has certified last is frozen. -/
def Store.IsFrozen (s : Store) (id : ChainId) : Prop :=
  ∃ account state, s.get (.account id) = some account ∧ account.status = .terminated ∧
    s.get (.terminatedState id) = some state ∧ state.stateRoot = account.last.stateRoot

theorem Coherent.isFrozen {s : Store} (hs : Coherent s) {id : ChainId} (hclosed : s.IsClosed id) :
    s.IsFrozen id := by
  obtain ⟨state, hstate⟩ := (hs.state id).mpr hclosed
  obtain ⟨-, account, hget, hroot⟩ := hs.stateRoot id state hstate
  obtain ⟨account', hget', hstatus⟩ := hclosed
  obtain rfl := Option.some.inj (hget.symm.trans hget')
  exact ⟨account, state, hget, hstatus, hstate, hroot⟩

namespace Run

theorem greeted (r : Run) (id : ChainId) : Greeted id r.log (r.passed id) r.store := by
  have hnew : r.start.get (.account id) = none :=
    r.get_start (by simp) (by simp) (by simp) (by simp)
  have hstart : Greeted id [] [] r.start := by
    refine ⟨⟨?_, nofun⟩, ?_, Or.inl rfl⟩
    · rintro ⟨account, hget, -⟩
      rw [hnew] at hget
      cases hget
    · rw [r.inboxOf_start]
      rfl
  exact greeted_collect r.consistent_start hstart r.calls

/-- **A chain opens its channel once.** In every run at most one handshake of a chain is applied
before the chain is terminated. It is the first message of the inbox, it is on its way out, and its
parameters name the hub and the token of the channel. After any call that has applied a handshake of
the chain, this is the only one, or else the chain is terminated and the state that it has certified
last is frozen. A handshake with parameters that cannot be read is not applied. -/
theorem greets_once (r : Run) (id : ChainId) :
    (r.store.IsClosed id ↔ .accountUpdated id .terminated ∈ r.log) ∧
      Accumulator.empty.appendAll? (r.passed id) = some (r.store.inboxOf id) ∧
      (accepted id r.log = [] ∨ ∃ m : Message, accepted id r.log = [m] ∧
        (r.passed id).head? = some m.encode ∧ m.status = .ok ∧ ∃ params own channel,
          (Wire.decode m.params : Except WireError RegistrationParams) = .ok params ∧
            r.store.get .own = some own ∧ r.store.get (.channel id) = some channel ∧
            params.chainId = own.chainId ∧ params.name = own.name ∧
            params.feeToken = channel.feeToken) ∧
      (∀ k : Call, handshakes id (k.events r.store) ≠ [] →
        (∃ m, handshakes id (r.log ++ k.events r.store) = [m] ∧
          accepted id (r.log ++ k.events r.store) = [m]) ∨ (k.after r.store).IsFrozen id) ∧
      ∀ (m : Message) (e : WireError), m.isHandshake = true →
        (Wire.decode m.params : Except WireError RegistrationParams) = .error e →
          applyMessage .default m = discard m .failed := by
  obtain ⟨hclosed, hinbox, honce⟩ := r.greeted id
  refine ⟨hclosed, hinbox, honce.imp_right ?_, fun k happlied => ?_,
    fun m e hhandshake hparams => applyMessage_of_unreadable hhandshake hparams⟩
  · rintro ⟨m, hm, hfirst, hopens⟩
    obtain rfl : m.sender = id :=
      sender_of_mem_handshakes (show m ∈ accepted id r.log by simp [hm])
    exact ⟨m, hm, hfirst, hopens⟩
  have hafter := Call.greeted r.consistent (r.greeted id) k
  by_cases hmem : .accountUpdated id .terminated ∈ r.log ++ k.events r.store
  · have hcoherent := Run.coherent { r with calls := r.calls ++ [k] }
    rw [show Run.store { r with calls := r.calls ++ [k] } = k.after r.store from
      afterAll_concat r.calls k r.start] at hcoherent
    exact Or.inr (hcoherent.isFrozen (hafter.closed.mpr hmem))
  · have hall := accepted_eq_handshakes hmem
    rcases hafter.once with hnone | ⟨m, hm, -⟩
    · rw [hall, handshakes_append] at hnone
      exact absurd (List.append_eq_nil_iff.mp hnone).2 happlied
    · exact Or.inl ⟨m, hall.symm.trans hm, hm⟩

end Run

end ChainHub
