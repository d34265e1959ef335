import ChainHub.Hub.Handlers
import ChainHub.Hub.Tracing
import ChainHub.Proofs.Hub.Registry
import ChainHub.Proofs.Hub.Rollback

/-!
# Requests keep the log

Hooks and commands can be refused at any point, and then what was done is taken back from the
snapshot before. Messages and the events that tell of them go and stay together all the same, with
whatever modules, as long as these keep the log themselves. The same goes for every other relation
that the single steps of the hub have (`Context.IsHistory`).

* `Registry.Leads`: all that is asked of modules. It holds of the default registry, and of tracing
  modules wherever they refuse. `Registry.Logs` asks that they keep the log, `Registry.Journaled`
  that they change a context by writes, removals and events only.
* `HubM.leads_runCommand`: a command between its hooks, with the two snapshots that it may go back
  to.
* `HubM.leads_deliver`: the delivery of a message.
* `Update.leads_perform`, `Recovery.leads_perform`: updates and recoveries.
-/

namespace ChainHub

/-! ## Modules -/

/-- The hooks and commands of a module lead from any context to one that is related to it. -/
structure Module.Leads (R : Context → Context → Prop) (mod : Module) : Prop where
  execute : ∀ command ∈ mod.commands, ∀ m, HubM.Leads R (command.execute m)
  beforeExecute : ∀ m, HubM.Leads R (mod.beforeExecute m)
  afterExecute : ∀ m, HubM.Leads R (mod.afterExecute m)
  beforeForward : ∀ m, HubM.Leads R (mod.beforeForward m)
  beforeRecover : ∀ m, HubM.Leads R (mod.beforeRecover m)

/-- So do the modules of a registry and the commands that it serves. -/
structure Registry.Leads (R : Context → Context → Prop) (r : Registry) : Prop where
  modules : ∀ mod ∈ r.modules, mod.Leads R
  commands : ∀ module name command, r.command? module name = some command →
    ∀ m, HubM.Leads R (command.execute m)

/-- Modules and commands change a context by writes, removals and events only. -/
abbrev Registry.Journaled (r : Registry) : Prop := r.Leads Context.Continues

/-- The hooks and commands of a module keep the log. -/
structure Module.Logs (mod : Module) : Prop where
  execute : ∀ command ∈ mod.commands, ∀ m, HubM.Logs (command.execute m)
  beforeExecute : ∀ m, HubM.Logs (mod.beforeExecute m)
  afterExecute : ∀ m, HubM.Logs (mod.afterExecute m)
  beforeForward : ∀ m, HubM.Logs (mod.beforeForward m)
  beforeRecover : ∀ m, HubM.Logs (mod.beforeRecover m)

/-- The modules of a registry and the commands that it serves keep the log. -/
structure Registry.Logs (r : Registry) : Prop where
  modules : ∀ mod ∈ r.modules, mod.Logs
  commands : ∀ module name command, r.command? module name = some command →
    ∀ m, HubM.Logs (command.execute m)

theorem Module.leads_iff_logs {mod : Module} : mod.Leads Context.Logs ↔ mod.Logs :=
  ⟨fun h => ⟨h.execute, h.beforeExecute, h.afterExecute, h.beforeForward, h.beforeRecover⟩,
    fun h => ⟨h.execute, h.beforeExecute, h.afterExecute, h.beforeForward, h.beforeRecover⟩⟩

theorem Registry.leads_iff_logs {r : Registry} : r.Leads Context.Logs ↔ r.Logs :=
  ⟨fun h => ⟨fun mod hmem => Module.leads_iff_logs.mp (h.modules mod hmem), h.commands⟩,
    fun h => ⟨fun mod hmem => Module.leads_iff_logs.mpr (h.modules mod hmem), h.commands⟩⟩

namespace Registry

variable {R : Context → Context → Prop} {r : Registry} {mod : Module}

theorem leads_empty : Registry.empty.Leads R :=
  ⟨by simp [empty], fun _ _ _ h => by simp [empty, command?] at h⟩

/-- One more module that does as the others. -/
theorem Leads.insert (hr : r.Leads R) (hmod : mod.Leads R) : (r.insert mod).Leads R where
  modules other hmem := by
    rcases List.mem_append.mp hmem with hmem | hmem
    · exact hr.modules other hmem
    · rw [List.mem_singleton.mp hmem]
      exact hmod
  commands module name command h := by
    rcases of_command?_insert h with hmem | hget
    · exact hmod.execute command hmem
    · exact hr.commands module name command hget

/-- One more module that keeps the log. -/
theorem Logs.insert (hr : r.Logs) (hmod : mod.Logs) : (r.insert mod).Logs :=
  leads_iff_logs.mp ((leads_iff_logs.mpr hr).insert (Module.leads_iff_logs.mpr hmod))

end Registry

open HubM
open Context (IsCourse IsHistory)

variable {R : Context → Context → Prop} [IsHistory R]

theorem leads_interoperability : interoperability.Leads R where
  execute command hmem := by
    have hcases : command = registration ∨ command = channelTerminated := by
      simpa [interoperability] using hmem
    intro m
    rcases hcases with rfl | rfl
    · unfold registration
      dsimp only
      split
      · exact leads_refuse _
      · refine leads_bind (leads_load .own) fun own => ?_
        refine leads_bind (leads_load (.channel m.sender)) fun channel => ?_
        split
        · exact leads_pure ()
        · exact leads_terminateChain m.sender
    · exact leads_terminateChain m.sender
  beforeExecute _ := leads_pure ()
  afterExecute _ := leads_pure ()
  beforeForward _ := leads_pure ()
  beforeRecover _ := leads_pure ()

theorem Registry.leads_default : Registry.default.Leads R :=
  leads_empty.insert leads_interoperability

/-- The registry of a hub without further modules keeps the log. -/
theorem Registry.logs_default : Registry.default.Logs := leads_iff_logs.mp leads_default

namespace TracingModule

variable (t : TracingModule)

/-- The context with a trace of a message: the nonce in a cell, and an event. -/
def traced (point : String) (m : Message) (c : Context) : Context :=
  (c.write (.cell (t.cell point)) (some (bigEndian 8 m.nonce.toNat))).emit
    (.custom "test_trace"
      [("module", t.name), ("point", point), ("nonce", toString m.nonce.toNat)])

/-- A nonce always fits into a cell. -/
theorem trace_eq (point : String) (m : Message) (c : Context) :
    t.trace point m c = .ok () (t.traced point m c) := by
  have hfits : (bigEndian 8 m.nonce.toNat).isEmpty = false := by
    rw [List.isEmpty_eq_false_iff, ← List.length_pos_iff, length_bigEndian]
    exact Nat.zero_lt_succ 7
  unfold trace setCell
  rw [hfits]
  rfl

/-- A hook refuses where it is told to, and only there. -/
theorem hook_eq (point : HookPoint) (m : Message) (c : Context) :
    t.hook point m c =
      if t.refusals.contains point then
        .error (.error (refusal "hook failed")) (t.traced point.word m c)
      else .ok () (t.traced point.word m c) := by
  refine (bind_of_ok (t.trace_eq point.word m c)).trans ?_
  unfold refuseListed
  split
  · rfl
  · rfl

theorem leads_trace (point : String) (m : Message) : Leads R (t.trace point m) := by
  intro c
  rw [endOf_of_ok (t.trace_eq point m c)]
  exact IsCourse.trans (IsHistory.write fun id => Store.outboxOf_put (by simp))
    (IsHistory.emit fun _ => rfl)

theorem leads_toModule : t.toModule.Leads R where
  execute command hmem := by
    obtain ⟨name, -, rfl⟩ := List.mem_map.mp hmem
    intro m
    have hterminate : HubM.Leads R
        (if m.params.head? = some 0xfd then terminateChain m.sender else pure ()) := by
      split
      · exact leads_terminateChain m.sender
      · exact leads_pure ()
    refine leads_bind (t.leads_trace _ m) fun _ => ?_
    dsimp only
    split
    · exact leads_bind (leads_refuse _) fun _ => hterminate
    · exact hterminate
  beforeExecute m := leads_bind (t.leads_trace _ m) fun _ => leads_ofAttempt _
  afterExecute m := leads_bind (t.leads_trace _ m) fun _ => leads_ofAttempt _
  beforeForward m := leads_bind (t.leads_trace _ m) fun _ => leads_ofAttempt _
  beforeRecover m := by
    refine leads_bind (t.leads_trace _ m) fun _ => ?_
    dsimp only
    split
    · exact leads_bind (leads_refuse _) fun _ => leads_ofAttempt _
    · exact leads_ofAttempt _

/-- **A tracing module keeps the log**, wherever it refuses. -/
theorem logs_toModule : t.toModule.Logs := Module.leads_iff_logs.mp t.leads_toModule

end TracingModule

/-! ## Delivery -/

namespace HubM

variable {r : Registry}

theorem leads_discard (m : Message) (code : ProcessedCode) : Leads R (discard m code) :=
  leads_bind (leads_emit fun _ => rfl) fun _ => leads_pure _

theorem leads_rejectSender (m : Message) (code : ProcessedCode) : Leads R (rejectSender m code) :=
  leads_bind (leads_terminateChain m.sender) fun _ => leads_discard m code

/-- **A command leads where its steps lead**, also when a hook makes it as if nothing had
happened. -/
theorem leads_runCommand (hr : r.Leads R) {command : Command} (m : Message)
    (hcommand : Leads R (command.execute m)) : Leads R (runCommand r command m) := by
  have hbefore : Leads R (allSucceed (r.modules.map fun mod => mod.beforeExecute m)) :=
    leads_allSucceed_map fun mod hmem => (hr.modules mod hmem).beforeExecute m
  have hafter : Leads R (allSucceed (r.modules.map fun mod => mod.afterExecute m)) :=
    leads_allSucceed_map fun mod hmem => (hr.modules mod hmem).afterExecute m
  intro c
  -- What is left to do once the command has been carried out or taken back.
  have hfinish (executed : Bool) {c₁ : Context} (h₁ : R c c₁) : R c (endOf (do
      if ← allSucceed (r.modules.map fun mod => mod.afterExecute m) then
        if executed then
          emit (.processed m .applied .success)
          return .applied
        else discard m .failed
      else
        restore c.snapshot
        rejectSender m .afterHookFailed) c₁) := by
    refine hafter.bind_from h₁ fun passed c₂ h₂ => ?_
    cases passed with
    | false => exact leads_restore_bind (IsCourse.trans h₁ h₂) (leads_rejectSender m _ c)
    | true =>
      refine IsCourse.trans (IsCourse.trans h₁ h₂) ?_
      cases executed with
      | false => exact leads_discard m _ c₂
      | true => exact leads_bind (leads_emit fun _ => rfl) (fun _ => leads_pure _) c₂
  unfold runCommand
  refine leads_snapshot_bind (hbefore.bind_from (IsCourse.refl c) fun passed c₁ h₁ => ?_)
  cases passed with
  | false => exact leads_restore_bind h₁ (leads_rejectSender m .beforeHookFailed c)
  | true =>
    refine leads_snapshot_bind ((leads_succeeds hcommand).bind_from h₁ fun executed c₂ h₂ => ?_)
    cases executed with
    | false => exact leads_restore_bind h₂ (hfinish false h₁)
    | true => exact hfinish true (IsCourse.trans h₁ h₂)

theorem leads_applyMessage (hr : r.Leads R) (m : Message) : Leads R (applyMessage r m) := by
  unfold applyMessage
  split
  · exact leads_discard m _
  · cases hcommand : r.command? m.module m.command with
    | none => exact leads_discard m _
    | some command =>
      refine leads_bind leads_get fun c => ?_
      split
      · exact leads_rejectSender m _
      · split
        · exact leads_discard m _
        · exact leads_runCommand hr m (hr.commands _ _ _ hcommand m)

theorem leads_bounceMessage (m : Message) (status : MessageStatus) (code : ProcessedCode) :
    Leads R (bounceMessage m status code) := by
  unfold bounceMessage
  split
  · exact leads_discard m code
  · exact leads_bind (leads_post _) fun _ => leads_bind (leads_emit fun _ => rfl) fun _ =>
      leads_pure _

theorem leads_passOn (hr : r.Leads R) (m : Message) : Leads R (passOn r m) := by
  have hhooks : Leads R (allSucceed (r.modules.map fun mod => mod.beforeForward m)) :=
    leads_allSucceed_map fun mod hmem => (hr.modules mod hmem).beforeForward m
  intro c
  unfold passOn
  refine leads_snapshot_bind (hhooks.bind_from (IsCourse.refl c) fun passed c₁ h₁ => ?_)
  cases passed with
  | false => exact leads_restore_bind h₁ (leads_bounceMessage m _ _ c)
  | true =>
    refine IsCourse.trans h₁ (leads_bind (leads_post m) (fun _ => ?_) c₁)
    exact leads_bind (leads_emit fun _ => rfl) fun _ => leads_pure _

theorem leads_terminateReceiver (m : Message) (receiver : ChainAccount) :
    Leads R (terminateReceiver m receiver) :=
  leads_bind (leads_terminateChain _) fun _ => leads_bind (leads_sendInternal _) fun _ =>
    leads_pure ()

theorem leads_forwardMessage (hr : r.Leads R) (m : Message) : Leads R (forwardMessage r m) := by
  have hbounce : Leads R (bounceUnavailable m) := leads_bounceMessage m _ _
  unfold forwardMessage
  refine leads_bind (leads_get? _) fun receiver => ?_
  cases receiver with
  | none => exact hbounce
  | some receiver =>
    refine leads_bind leads_get fun c => ?_
    dsimp only
    split
    · split
      · exact leads_bind (leads_terminateReceiver m receiver) fun _ => hbounce
      · exact hbounce
    · split
      · exact hbounce
      · exact leads_passOn hr m

/-- **Delivering a message leads where its steps lead**, whatever modules there are. -/
theorem leads_deliver (hr : r.Leads R) (m : Message) : Leads R (deliver r m) := by
  unfold deliver
  refine leads_bind leads_get fun c => ?_
  split
  · exact leads_applyMessage hr m
  · exact leads_forwardMessage hr m

/-- **Delivering a message keeps the log.** -/
theorem logs_deliver (hr : r.Logs) (m : Message) : Logs (deliver r m) :=
  leads_deliver (Registry.leads_iff_logs.mpr hr) m

end HubM

/-! ## Updates and recoveries -/

namespace Recovery

variable {r : Registry}

theorem leads_deliverRecovered (hr : r.Leads R) (m : Message) :
    HubM.Leads R (deliverRecovered r m) :=
  leads_bind (leads_forM fun mod hmem => (hr.modules mod hmem).beforeRecover m) fun _ =>
    leads_deliver hr m

/-- A message whose recovery is refused is taken back before the next one. -/
theorem leads_recoverMessages (hr : r.Leads R) :
    ∀ (messages : List Message) (delivered : Nat),
      HubM.Leads R (recoverMessages r messages delivered)
  | [], delivered => leads_pure delivered
  | m :: rest, delivered => by
    intro c
    have hdeliver := leads_attempt (leads_deliverRecovered hr m.recovered)
    refine leads_snapshot_bind (hdeliver.bind_from (IsCourse.refl c) fun result c₁ h₁ => ?_)
    cases result with
    | ok d =>
      cases d with
      | discarded => exact IsCourse.trans h₁ (leads_recoverMessages hr rest delivered c₁)
      | _ => exact IsCourse.trans h₁ (leads_recoverMessages hr rest (delivered + 1) c₁)
    | error e =>
      refine leads_restore_bind h₁ (leads_bind (leads_emit fun _ => rfl) (fun _ => ?_) c)
      exact leads_recoverMessages hr rest delivered

theorem leads_perform (hr : r.Leads R) (v : Verified) : HubM.Leads R (perform r v) := by
  unfold perform
  refine leads_bind (leads_recoverMessages hr v.messages 0) fun delivered => ?_
  dsimp only
  split
  · exact IsCourse.refl
  · exact leads_bind (leads_save _ (by simp)) fun _ => leads_bind (leads_emit fun _ => rfl) fun _ =>
      leads_pure delivered

/-- **Carrying out a recovery keeps the log.** -/
theorem logs_perform (hr : r.Logs) (v : Verified) : HubM.Logs (perform r v) :=
  leads_perform (Registry.leads_iff_logs.mpr hr) v

end Recovery

namespace Update

variable {r : Registry}

theorem leads_processMessages (hr : r.Leads R) (id : ChainId) :
    ∀ (messages : List Bytes) (o : Outcome), HubM.Leads R (processMessages r id messages o)
  | [], o => leads_pure o
  | bytes :: rest, o => by
    unfold processMessages
    cases (Wire.decode bytes : Except WireError Message) with
    | error e =>
      exact leads_bind (leads_terminateChain id) fun _ =>
        leads_bind (leads_emit fun _ => rfl) fun _ => leads_pure _
    | ok m =>
      dsimp only
      cases violation? id m with
      | some code =>
        exact leads_bind (leads_terminateChain id) fun _ =>
          leads_bind (leads_emit fun _ => rfl) fun _ => leads_pure _
      | none =>
        refine leads_bind (leads_appendToInbox id bytes) fun _ => ?_
        refine leads_bind (leads_deliver hr m) fun d => ?_
        refine leads_bind (leads_load (.account id)) fun account => ?_
        split
        · exact leads_pure _
        · exact leads_processMessages hr id rest _

theorem leads_storeVerified (v : Verified) : HubM.Leads R (storeVerified v) := by
  have hvalidators : HubM.Leads R (storeValidators v) := by
    unfold storeValidators
    cases v.validators with
    | none => exact leads_pure ()
    | some set => exact leads_save _ (by simp)
  unfold storeVerified
  cases v.certificate with
  | none => exact hvalidators
  | some certificate =>
    refine leads_bind ?_ fun _ => hvalidators
    have hsave (status : ChainStatus) : HubM.Leads R (HubM.save (.account v.sender)
        { v.account with status := status, last := certificate.summary }) :=
      leads_save _ (by simp)
    unfold storeCertificate
    dsimp only
    split
    · exact leads_bind (leads_emit fun _ => rfl) fun _ => hsave .active
    · exact hsave v.account.status

theorem leads_storePartnerRoot (v : Verified) : HubM.Leads R (storePartnerRoot v) := by
  unfold storePartnerRoot
  cases v.partnerOutboxRoot with
  | none => exact leads_pure ()
  | some root =>
    refine leads_load_bind fun channel c hchannel => ?_
    refine IsHistory.write fun id => Store.outboxOf_eq_put_channel hchannel ?_ id
    rfl

theorem leads_perform (hr : r.Leads R) (messages : List Bytes) (v : Verified) :
    HubM.Leads R (perform r messages v) := by
  refine leads_bind (leads_storeVerified v) fun _ => ?_
  refine leads_bind (leads_processMessages hr v.sender messages {}) fun outcome => ?_
  dsimp only
  split
  · exact leads_pure outcome
  · exact leads_bind (leads_storePartnerRoot v) fun _ => leads_pure outcome

/-- **Carrying out an update keeps the log.** -/
theorem logs_perform (hr : r.Logs) (messages : List Bytes) (v : Verified) :
    HubM.Logs (perform r messages v) :=
  leads_perform (Registry.leads_iff_logs.mpr hr) messages v

end Update

end ChainHub
