import ChainHub.Proofs.Hub.LogKeeping
import ChainHub.Proofs.Hub.Run

/-!
# What is left of a message that is applied

A message for the hub goes through the checks of the modules, the check of its command, the hooks
before the command, the command, and the hooks after it. Each of these steps can fail, and what is
left then depends on the step alone: what a failing module hook, or anything before it, wrote and
told is gone but the sender is terminated, what a failing command wrote and told is gone but the
hooks stand.

* `HubM.Runs`, `HubM.RefusedIn`: a list of hooks runs through, or up to the one that refuses.
* `HubM.Executes`, `HubM.Applies`: the ways in which a message can be applied, one constructor for
  each step that can fail, with what is left of it.
* `Context.CanTell`: what it takes to terminate a chain.
* `HubM.runCommand_eq_ok_iff`: the part between the two snapshots.
* `HubM.applyMessage_eq_ok_iff`: a message is applied in one of these ways, whatever the modules
  do. They may terminate chains, use up nonces and write over what the command wrote.
-/

namespace ChainHub

/-- The chain has an account, and the hub has a nonce and room in the outbox to tell it that it is
terminated. -/
structure Context.CanTell (c : Context) (id : ChainId) : Prop where
  account : ∃ account, c.store.get (.account id) = some account
  own : ∃ own, c.store.get .own = some own ∧ id ≠ own.chainId ∧
    own.nonce.toNat + 1 < UInt64.size
  channel : ∃ channel, c.store.get (.channel id) = some channel ∧ channel.outbox.HasRoom

theorem Context.CanTell.of_consistent {c : Context} {id : ChainId} {account : ChainAccount}
    {own : OwnAccount} (hc : Consistent c.store)
    (hget : c.store.get (.account id) = some account) (hown : c.store.get .own = some own)
    (hnonce : own.nonce.toNat + 1 < UInt64.size)
    (hroom : (c.store.outboxOf id).size.toNat + 1 < UInt64.size) : c.CanTell id := by
  have hchannel := hc.exists_hasRoom hget hroom
  exact ⟨⟨account, hget⟩, ⟨own, hown, hc.ne_own hget hown, hnonce⟩, hchannel⟩

namespace HubM

open Context (Continues)

theorem exists_terminateChain {c : Context} {id : ChainId} (h : c.CanTell id) :
    ∃ closed, terminateChain id c = .ok () closed := by
  obtain ⟨account, hget⟩ := h.account
  obtain ⟨own, hown, hne, hnonce⟩ := h.own
  obtain ⟨channel, hchannel, hroom⟩ := h.channel
  by_cases hstatus : account.status = .terminated
  · exact ⟨c, terminateChain_of_isClosed ⟨account, hget, hstatus⟩⟩
  · obtain ⟨c₁, -, hclosed⟩ :=
      terminateChain_eq_ok hget hstatus hown hne hnonce hchannel hroom
    exact ⟨_, hclosed⟩

/-! ## Hooks in a row -/

/-- None of the computations is refused, and they lead from one context to the other. -/
inductive Runs : List (HubM Unit) → Context → Context → Prop
  | nil (c : Context) : Runs [] c c
  | cons {x : HubM Unit} {rest : List (HubM Unit)} {c c₁ c₂ : Context} (hx : x c = .ok () c₁)
    (hrest : Runs rest c₁ c₂) : Runs (x :: rest) c c₂

/-- One of the computations is refused after those before it have run. The refused one leaves the
last context. -/
inductive RefusedIn : List (HubM Unit) → Context → Context → Prop
  | head {x : HubM Unit} {rest : List (HubM Unit)} {c c₁ : Context} {e : HubError}
    (hx : x c = .error (.error e) c₁) : RefusedIn (x :: rest) c c₁
  | tail {x : HubM Unit} {rest : List (HubM Unit)} {c c₁ c₂ : Context} (hx : x c = .ok () c₁)
    (hrest : RefusedIn rest c₁ c₂) : RefusedIn (x :: rest) c c₂

section

variable {c c₁ : Context} {x : HubM Unit} {xs : List (HubM Unit)}

theorem succeeds_eq_true_iff : succeeds x c = .ok true c₁ ↔ x c = .ok () c₁ := by
  constructor
  · intro h
    cases hx : x c with
    | ok u c₂ =>
      rw [succeeds_of_ok hx] at h
      cases h
      rfl
    | error failure c₂ =>
      cases failure with
      | error e =>
        rw [succeeds_of_refused hx] at h
        cases h
      | abort =>
        rw [succeeds_of_abort hx] at h
        cases h
  · exact succeeds_of_ok

theorem succeeds_eq_false_iff :
    succeeds x c = .ok false c₁ ↔ ∃ e, x c = .error (.error e) c₁ := by
  constructor
  · intro h
    cases hx : x c with
    | ok u c₂ =>
      rw [succeeds_of_ok hx] at h
      cases h
    | error failure c₂ =>
      cases failure with
      | error e =>
        rw [succeeds_of_refused hx] at h
        cases h
        exact ⟨e, rfl⟩
      | abort =>
        rw [succeeds_of_abort hx] at h
        cases h
  · rintro ⟨e, hx⟩
    exact succeeds_of_refused hx

theorem allSucceed_eq_true_iff : allSucceed xs c = .ok true c₁ ↔ Runs xs c c₁ := by
  constructor
  · intro h
    induction xs generalizing c with
    | nil =>
      cases h
      exact .nil c₁
    | cons x xs ih =>
      obtain ⟨passed, c₂, hx, hrest⟩ := bind_eq_ok_iff.mp h
      cases passed with
      | true => exact .cons (succeeds_eq_true_iff.mp hx) (ih hrest)
      | false => cases hrest
  · intro h
    induction h with
    | nil c => rfl
    | cons hx _ ih => exact (bind_of_ok (succeeds_of_ok hx)).trans ih

theorem allSucceed_eq_false_iff : allSucceed xs c = .ok false c₁ ↔ RefusedIn xs c c₁ := by
  constructor
  · intro h
    induction xs generalizing c with
    | nil => cases h
    | cons x xs ih =>
      obtain ⟨passed, c₂, hx, hrest⟩ := bind_eq_ok_iff.mp h
      cases passed with
      | true => exact .tail (succeeds_eq_true_iff.mp hx) (ih hrest)
      | false =>
        obtain ⟨e, hx⟩ := succeeds_eq_false_iff.mp hx
        cases hrest
        exact .head hx
  · intro h
    induction h with
    | head hx => exact (bind_of_ok (succeeds_of_refused hx)).trans rfl
    | tail hx _ ih => exact (bind_of_ok (succeeds_of_ok hx)).trans ih

theorem Runs.revertsTo (h : Runs xs c c₁) (hxs : ∀ x ∈ xs, Leads Continues x) :
    c₁.RevertsTo c :=
  ((leads_allSucceed hxs).of_ok (allSucceed_eq_true_iff.mpr h)).revertsTo

theorem RefusedIn.revertsTo (h : RefusedIn xs c c₁) (hxs : ∀ x ∈ xs, Leads Continues x) :
    c₁.RevertsTo c :=
  ((leads_allSucceed hxs).of_ok (allSucceed_eq_false_iff.mpr h)).revertsTo

end

/-! ## The ways in which a message is applied -/

/-- The command of a message is carried out, or it is refused and taken back. -/
inductive Tried (command : Command) (m : Message) (c : Context) : Bool → Context → Prop
  | carriedOut {c₁ : Context} (h : command.execute m c = .ok () c₁) : Tried command m c true c₁
  | refused {c₁ : Context} {e : HubError} (h : command.execute m c = .error (.error e) c₁) :
    Tried command m c false c

section

variable (r : Registry) (command : Command) (m : Message) (c closed : Context)

/-- The hooks before the command of a message, in order. -/
def hooksBefore : List (HubM Unit) := r.modules.map fun mod => mod.beforeExecute m

/-- The hooks after it. -/
def hooksAfter : List (HubM Unit) := r.modules.map fun mod => mod.afterExecute m

/-- The command of a message between its hooks, started in the context `c`. The context `closed` is
that of terminating the sender there. -/
inductive Executes : Disposition → Context → Prop
  /-- A hook before the command refuses: the sender is terminated and nothing else is left. -/
  | beforeHook {c₁ : Context} (hrefused : RefusedIn (hooksBefore r m) c c₁) :
    Executes .discarded (closed.emit (.processed m .discarded .beforeHookFailed))
  /-- A hook after the command refuses, whether or not the command did: the same. -/
  | afterHook {executed : Bool} {c₁ c₂ c₃ : Context} (hbefore : Runs (hooksBefore r m) c c₁)
    (htried : Tried command m c₁ executed c₂) (hrefused : RefusedIn (hooksAfter r m) c₂ c₃) :
    Executes .discarded (closed.emit (.processed m .discarded .afterHookFailed))
  /-- The command alone refuses: what is left is what the hooks do without it. -/
  | refused {c₁ c₂ : Context} (hbefore : Runs (hooksBefore r m) c c₁)
    (htried : Tried command m c₁ false c₁) (hafter : Runs (hooksAfter r m) c₁ c₂) :
    Executes .discarded (c₂.emit (.processed m .discarded .failed))
  /-- Nothing refuses. -/
  | carriedOut {c₁ c₂ c₃ : Context} (hbefore : Runs (hooksBefore r m) c c₁)
    (htried : Tried command m c₁ true c₂) (hafter : Runs (hooksAfter r m) c₂ c₃) :
    Executes .applied (c₃.emit (.processed m .applied .success))

/-- A message with a command that is served, in the context `c`. -/
inductive Applies : Disposition → Context → Prop
  /-- The check of a module refuses: the sender is terminated and nothing else is left. -/
  | verifyHook {mod : Module} {e : HubError} (hmem : mod ∈ r.modules)
    (hrefused : mod.verify c m = .error e) :
    Applies .discarded (closed.emit (.processed m .discarded .verifyHookFailed))
  /-- The check of the command refuses: nothing is left. -/
  | verify {e : HubError} (hmodules : ∀ mod ∈ r.modules, mod.verify c m = .ok ())
    (hrefused : command.verify c m = .error e) :
    Applies .discarded (c.emit (.processed m .discarded .failed))
  /-- All checks pass. -/
  | executes {d : Disposition} {c' : Context}
    (hmodules : ∀ mod ∈ r.modules, mod.verify c m = .ok ()) (hverify : command.verify c m = .ok ())
    (h : Executes r command m c closed d c') : Applies d c'

/-- What is left to do once the command has been tried. -/
def afterCommand (start : Snapshot) (executed : Bool) : HubM Disposition := do
  if ← allSucceed (hooksAfter r m) then
    if executed then
      emit (.processed m .applied .success)
      return .applied
    else discard m .failed
  else
    restore start
    rejectSender m .afterHookFailed

end

variable {r : Registry} {command : Command} {m : Message} {c closed : Context}

theorem rejectSender_eq_ok (hclosed : terminateChain m.sender c = .ok () closed)
    (code : ProcessedCode) :
    rejectSender m code c = .ok .discarded (closed.emit (.processed m .discarded code)) :=
  (bind_of_ok hclosed).trans rfl

/-- What was done since is taken back before the sender is terminated. -/
theorem restore_bind_rejectSender {c₁ : Context}
    (hclosed : terminateChain m.sender c = .ok () closed) (h : c₁.RevertsTo c)
    (code : ProcessedCode) : (restore c.snapshot >>= fun _ => rejectSender m code) c₁ =
      .ok .discarded (closed.emit (.processed m .discarded code)) :=
  (bind_of_ok (restore_of_revertsTo h)).trans (rejectSender_eq_ok hclosed code)

/-! ## Between the two snapshots -/

section

variable (hr : r.Journaled) (hcommand : Leads Continues (command.execute m))
  (hclosed : terminateChain m.sender c = .ok () closed) {c₁ c₂ c₃ : Context} {executed : Bool}

theorem Tried.revertsTo (hcommand : Leads Continues (command.execute m))
    (h : Tried command m c executed c₁) : c₁.RevertsTo c := by
  cases h with
  | carriedOut h => exact (hcommand.of_ok h).revertsTo
  | refused h => exact .refl c

include hr in
theorem leads_hooksBefore (m : Message) : ∀ x ∈ hooksBefore r m, Leads Continues x := by
  intro x hx
  obtain ⟨mod, hmem, rfl⟩ := List.mem_map.mp hx
  exact (hr.modules mod hmem).beforeExecute m

include hr in
theorem leads_hooksAfter (m : Message) : ∀ x ∈ hooksAfter r m, Leads Continues x := by
  intro x hx
  obtain ⟨mod, hmem, rfl⟩ := List.mem_map.mp hx
  exact (hr.modules mod hmem).afterExecute m

include hr hclosed in
theorem runCommand_of_refusedIn (hrefused : RefusedIn (hooksBefore r m) c c₁) :
    runCommand r command m c =
      .ok .discarded (closed.emit (.processed m .discarded .beforeHookFailed)) := by
  have hreverts := hrefused.revertsTo (leads_hooksBefore hr m)
  exact (bind_of_ok (allSucceed_eq_false_iff.mpr hrefused)).trans
    (restore_bind_rejectSender hclosed hreverts _)

include hcommand in
theorem runCommand_of_tried (hbefore : Runs (hooksBefore r m) c c₁)
    (htried : Tried command m c₁ executed c₂) :
    runCommand r command m c = afterCommand r m c.snapshot executed c₂ := by
  refine (bind_of_ok (allSucceed_eq_true_iff.mpr hbefore)).trans ?_
  cases htried with
  | carriedOut h => exact (bind_of_ok (succeeds_of_ok h)).trans rfl
  | refused h =>
    have hreverts := (hcommand.of_error h).revertsTo
    exact (bind_of_ok (succeeds_of_refused h)).trans
      ((bind_of_ok (restore_of_revertsTo hreverts)).trans rfl)

include hr hclosed in
theorem afterCommand_of_refusedIn (hreverts : c₂.RevertsTo c)
    (hrefused : RefusedIn (hooksAfter r m) c₂ c₃) :
    afterCommand r m c.snapshot executed c₂ =
      .ok .discarded (closed.emit (.processed m .discarded .afterHookFailed)) := by
  have hreverts' := hreverts.trans (hrefused.revertsTo (leads_hooksAfter hr m))
  exact (bind_of_ok (allSucceed_eq_false_iff.mpr hrefused)).trans
    (restore_bind_rejectSender hclosed hreverts' _)

theorem afterCommand_of_runs {start : Snapshot} (hafter : Runs (hooksAfter r m) c₂ c₃) :
    afterCommand r m start executed c₂ =
      if executed then .ok .applied (c₃.emit (.processed m .applied .success))
      else .ok .discarded (c₃.emit (.processed m .discarded .failed)) := by
  refine (bind_of_ok (allSucceed_eq_true_iff.mpr hafter)).trans ?_
  cases executed with
  | true => rfl
  | false => rfl

include hr hcommand hclosed in
/-- **A command between its hooks leaves what the first failing step leaves.** -/
theorem runCommand_eq_ok_iff {d : Disposition} {c' : Context} :
    runCommand r command m c = .ok d c' ↔ Executes r command m c closed d c' := by
  have hrevertsTo {executed : Bool} {c₁ c₂ : Context} (hbefore : Runs (hooksBefore r m) c c₁)
      (htried : Tried command m c₁ executed c₂) : c₂.RevertsTo c :=
    (hbefore.revertsTo (leads_hooksBefore hr m)).trans (htried.revertsTo hcommand)
  constructor
  · intro h
    obtain ⟨passed, c₁, hbefore, hrest⟩ :=
      bind_eq_ok_iff.mp (show (allSucceed (hooksBefore r m) >>= _) c = _ from h)
    cases passed with
    | false =>
      have hrefused := allSucceed_eq_false_iff.mp hbefore
      rw [runCommand_of_refusedIn hr hclosed hrefused] at h
      cases h
      exact .beforeHook hrefused
    | true =>
      have hbefore := allSucceed_eq_true_iff.mp hbefore
      obtain ⟨executed, c', htried, -⟩ :=
        bind_eq_ok_iff.mp (show (succeeds (command.execute m) >>= _) c₁ = _ from hrest)
      obtain ⟨c₂, htried⟩ : ∃ c₂, Tried command m c₁ executed c₂ := by
        cases executed with
        | true => exact ⟨c', .carriedOut (succeeds_eq_true_iff.mp htried)⟩
        | false =>
          obtain ⟨e, he⟩ := succeeds_eq_false_iff.mp htried
          exact ⟨c₁, .refused he⟩
      rw [runCommand_of_tried hcommand hbefore htried] at h
      obtain ⟨passed, c₃, hafter, -⟩ := bind_eq_ok_iff.mp h
      cases passed with
      | false =>
        have hrefused := allSucceed_eq_false_iff.mp hafter
        rw [afterCommand_of_refusedIn hr hclosed (hrevertsTo hbefore htried) hrefused] at h
        cases h
        exact .afterHook hbefore htried hrefused
      | true =>
        have hafter := allSucceed_eq_true_iff.mp hafter
        rw [afterCommand_of_runs hafter] at h
        cases id htried with
        | carriedOut =>
          cases h
          exact .carriedOut hbefore htried hafter
        | refused =>
          cases h
          exact .refused hbefore htried hafter
  · intro h
    cases h with
    | beforeHook hrefused => exact runCommand_of_refusedIn hr hclosed hrefused
    | afterHook hbefore htried hrefused =>
      rw [runCommand_of_tried hcommand hbefore htried,
        afterCommand_of_refusedIn hr hclosed (hrevertsTo hbefore htried) hrefused]
    | refused hbefore htried hafter =>
      rw [runCommand_of_tried hcommand hbefore htried, afterCommand_of_runs hafter]
      rfl
    | carriedOut hbefore htried hafter =>
      rw [runCommand_of_tried hcommand hbefore htried, afterCommand_of_runs hafter]
      rfl

end

/-! ## Applying a message -/

theorem isRefused_eq_true_iff {check : Except HubError Unit} :
    isRefused check = true ↔ ∃ e, check = .error e := by
  cases check with
  | ok u => simp [isRefused]
  | error e => simp [isRefused]

theorem isRefused_eq_false_iff {check : Except HubError Unit} :
    isRefused check = false ↔ check = .ok () := by
  cases check with
  | ok u => simp [isRefused]
  | error e => simp [isRefused]

/-- **The checks of a message** whose command is served, and what is done after them. -/
theorem applyMessage_eq (hmodule : r.hasModule m.module = true)
    (hserved : r.command? m.module m.command = some command) :
    applyMessage r m c =
      if r.modules.any fun mod => isRefused (mod.verify c m) then
        rejectSender m .verifyHookFailed c
      else if isRefused (command.verify c m) then discard m .failed c
      else runCommand r command m c := by
  unfold applyMessage
  rw [hmodule, hserved]
  show (if _ then _ else if _ then _ else _ : HubM Disposition) c = _
  split
  · rfl
  · split <;> rfl

/-- **A message is rolled back as far as the failing step asks for.** Whatever the modules are, if
they change a context by writes, removals and events only, a message with a command that they serve
is applied in one of the ways listed, and it is in the first of them that fits: it goes by the first
step that fails. -/
theorem applyMessage_eq_ok_iff (hr : r.Journaled) (hmodule : r.hasModule m.module = true)
    (hserved : r.command? m.module m.command = some command) (hsender : c.CanTell m.sender) :
    ∃ closed, terminateChain m.sender c = .ok () closed ∧
      ∀ d c', applyMessage r m c = .ok d c' ↔ Applies r command m c closed d c' := by
  obtain ⟨closed, hclosed⟩ := exists_terminateChain hsender
  refine ⟨closed, hclosed, fun d c' => ?_⟩
  have hrun : runCommand r command m c = .ok d c' ↔ Executes r command m c closed d c' :=
    runCommand_eq_ok_iff hr (hr.commands _ _ _ hserved m) hclosed
  rw [applyMessage_eq hmodule hserved]
  by_cases hmodules : (r.modules.any fun mod => isRefused (mod.verify c m)) = true
  · rw [if_pos hmodules, rejectSender_eq_ok hclosed]
    obtain ⟨mod, hmem, hrefused⟩ := List.any_eq_true.mp hmodules
    obtain ⟨e, hrefused⟩ := isRefused_eq_true_iff.mp hrefused
    constructor
    · intro h
      cases h
      exact .verifyHook hmem hrefused
    · intro h
      cases h with
      | verifyHook => rfl
      | verify hall => cases (hall mod hmem).symm.trans hrefused
      | executes hall => cases (hall mod hmem).symm.trans hrefused
  · rw [if_neg hmodules]
    have hall : ∀ mod ∈ r.modules, mod.verify c m = .ok () := by
      intro mod hmem
      refine isRefused_eq_false_iff.mp (Bool.eq_false_iff.mpr fun hrefused => hmodules ?_)
      exact List.any_eq_true.mpr ⟨mod, hmem, hrefused⟩
    cases hverify : command.verify c m with
    | error e =>
      constructor
      · intro h
        cases h
        exact .verify hall hverify
      · intro h
        cases h with
        | verifyHook hmem hrefused => cases (hall _ hmem).symm.trans hrefused
        | verify => rfl
        | executes _ hpassed => cases hverify.symm.trans hpassed
    | ok u =>
      refine hrun.trans ⟨fun h => .executes hall hverify h, fun h => ?_⟩
      cases h with
      | verifyHook hmem hrefused => cases (hall _ hmem).symm.trans hrefused
      | verify _ hrefused => cases hverify.symm.trans hrefused
      | executes _ _ h => exact h

end HubM

/-! ## A command that is refused -/

namespace Run

open HubM

/-- A module that only watches. -/
def watchful : TracingModule := ⟨"watchful", ["ping"], []⟩

/-- Its command, called by the silent chain in such a way that it is refused. -/
def ping : Message where
  module := "watchful"
  command := "ping"
  nonce := 0
  fee := 0
  sender := silentChain
  receiver := .mainchain 0
  params := [0xff]
  status := .ok

/-- The silent chain can be told that it is terminated. -/
theorem canTell_silentChain :
    (Context.start waiting.store ⟨2, 100⟩ (.mainchain 0)).CanTell silentChain := by
  obtain ⟨account, hget, -⟩ := registered_silentChain
  have hown : waiting.store.get .own = some ⟨.mainchain 0, "hub", 1⟩ := by decide +kernel
  have hsize : (waiting.store.outboxOf silentChain).size = 1 := by decide +kernel
  refine .of_consistent waiting.consistent hget hown (by decide) ?_
  show (waiting.store.outboxOf silentChain).size.toNat + 1 < _
  rw [hsize]
  decide

/-- The refused command is gone, and the traces of the hooks around it stay. -/
theorem applyMessage_ping :
    applyMessage (Registry.default.insert watchful.toModule) ping
        (.start waiting.store ⟨2, 100⟩ (.mainchain 0)) =
      .ok .discarded ((watchful.traced "after" ping (watchful.traced "before" ping
        (.start waiting.store ⟨2, 100⟩ (.mainchain 0)))).emit
          (.processed ping .discarded .failed)) := by
  let r : Registry := Registry.default.insert watchful.toModule
  have hserved : r.command? "watchful" "ping" = some (watchful.command "ping") := rfl
  obtain ⟨closed, -, happlies⟩ := applyMessage_eq_ok_iff (r := r) (m := ping)
    (Registry.leads_default.insert watchful.leads_toModule) rfl hserved canTell_silentChain
  have hmodules : ∀ mod ∈ r.modules, ∀ c, mod.verify c ping = .ok () := by
    have hall : r.modules = [interoperability, watchful.toModule] := rfl
    rw [hall, List.forall_mem_cons, List.forall_mem_singleton]
    exact ⟨fun _ => rfl, fun _ => rfl⟩
  have hbefore (c : Context) : Runs (hooksBefore r ping) c (watchful.traced "before" ping c) :=
    .cons rfl (.cons (watchful.hook_eq .beforeExecute ping c) (.nil _))
  have hafter (c : Context) : Runs (hooksAfter r ping) c (watchful.traced "after" ping c) :=
    .cons rfl (.cons (watchful.hook_eq .afterExecute ping c) (.nil _))
  have htried (c : Context) : Tried (watchful.command "ping") ping c false c :=
    .refused ((bind_of_ok (watchful.trace_eq "execute:ping" ping c)).trans rfl)
  exact (happlies _ _).mpr
    (.executes (fun mod hmem => hmodules mod hmem _) rfl
      (.refused (hbefore _) (htried _) (hafter _)))

end Run

end ChainHub
