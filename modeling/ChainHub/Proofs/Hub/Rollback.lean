import ChainHub.Proofs.Hub.Outcome

/-!
# Rollback

A snapshot is taken back by two counters, one for what was written and one for the events. That the
two stay in step is not a matter of the counters alone: between them a message must not enter an
outbox without the event that tells of it.

* `Context.RevertsTo`: restoring a snapshot gives back the context that it was taken of.
* `Context.Follows`: a context comes of another one by writes and events only, and so can be taken
  back.
* `Context.Logs`: besides, what outboxes have gained is what the events tell.
* `Context.IsCourse`, `Context.IsHistory`: what such relations have in common.
* `HubM.Leads`: a computation leads from any context to a related one, however it ends, also when it
  is refused or aborted half way.
* `HubM.leads_restore_bind`: whatever such a computation did is gone when the snapshot is restored.
* `HubM.leads_post`, `HubM.leads_terminateChain`: sending and terminating are such computations.
-/

namespace ChainHub

namespace Store

variable {s : Store} {slot : Slot}

/-- What is written and then written back is as if nothing had been written. -/
theorem putIn_putIn {κ ν : Type} [Ord κ] [Std.TransOrd κ] [Std.LawfulEqOrd κ] [DecidableEq κ]
    (table : Table κ ν) (key : κ) (value : Option ν) :
    putIn (putIn table key value) key table[key]? = table := by
  apply Std.ExtTreeMap.ext_getElem?
  intro other
  rw [getElem?_putIn, getElem?_putIn]
  split
  · rename_i heq
    rw [heq]
  · rfl

theorem put_put_get (s : Store) (slot : Slot) (value : Option slot.Value) :
    (s.put slot value).put slot (s.get slot) = s := by
  cases slot with
  | version | config | own => rfl
  | _ => simp [put, get, putIn_putIn]

end Store

namespace Context

variable {c c₁ c₂ : Context}

/-! ## Taking back -/

theorem undo_nil (count : Nat) (s : Store) : undo count s [] = (s, []) := by
  cases count <;> rfl

/-- Entries can be undone in two portions. -/
theorem undo_add (m n : Nat) : ∀ (s : Store) (journal : List JournalEntry),
    undo (m + n) s journal = undo n (undo m s journal).1 (undo m s journal).2 := by
  induction m with
  | zero =>
    intro s journal
    rw [Nat.zero_add]
    rfl
  | succ m ih =>
    intro s journal
    rw [Nat.add_right_comm]
    cases journal with
    | nil => rw [undo_nil, undo_nil, undo_nil]
    | cons entry journal => exact ih _ _

theorem undo_snd : ∀ (count : Nat) (s : Store) (journal : List JournalEntry),
    (undo count s journal).2 = journal.drop count
  | 0, _, _ => rfl
  | _ + 1, _, [] => rfl
  | count + 1, _, _ :: journal => undo_snd count _ journal

theorem restore_eq (c : Context) (s : Snapshot) : c.restore s =
    { c with
      store := (undo (c.journal.length - s.journal) c.store c.journal).1
      journal := (undo (c.journal.length - s.journal) c.store c.journal).2
      events := c.events.take s.events } := rfl

/-- An older snapshot can be restored by way of a newer one, even of one that lies beyond the end of
the journal. -/
theorem restore_restore (c : Context) (old new : Snapshot) (hjournal : old.journal ≤ new.journal)
    (hevents : old.events ≤ new.events) : (c.restore new).restore old = c.restore old := by
  have hrest : (undo (c.journal.length - new.journal) c.store c.journal).2.length =
      c.journal.length - (c.journal.length - new.journal) := by
    rw [undo_snd, List.length_drop]
  have hcount : c.journal.length - old.journal = (c.journal.length - new.journal) +
      (c.journal.length - (c.journal.length - new.journal) - old.journal) := by omega
  rw [restore_eq c old, hcount, undo_add, restore_eq (c.restore new) old, restore_eq c new]
  dsimp only
  rw [hrest, List.take_take, Nat.min_eq_left hevents]

/-- Restoring the snapshot of `c` leads from `c₁` back to `c`. -/
def RevertsTo (c₁ c : Context) : Prop := c₁.restore c.snapshot = c

theorem RevertsTo.journal_length_le (h : c₁.RevertsTo c) :
    c.journal.length ≤ c₁.journal.length := by
  have hjournal : (undo _ c₁.store c₁.journal).2 = c.journal := congrArg Context.journal h
  rw [undo_snd] at hjournal
  have hlength := congrArg List.length hjournal
  rw [List.length_drop] at hlength
  omega

theorem RevertsTo.events_length_le (h : c₁.RevertsTo c) : c.events.length ≤ c₁.events.length := by
  have hevents : c₁.events.take c.events.length = c.events := congrArg Context.events h
  have hlength := congrArg List.length hevents
  rw [List.length_take] at hlength
  omega

theorem RevertsTo.refl (c : Context) : c.RevertsTo c := by
  unfold RevertsTo
  rw [restore_eq]
  simp [snapshot, undo]

theorem RevertsTo.trans (h : c₁.RevertsTo c) (h' : c₂.RevertsTo c₁) : c₂.RevertsTo c := by
  have hrestore := c₂.restore_restore c.snapshot c₁.snapshot h.journal_length_le
    h.events_length_le
  unfold RevertsTo at h h' ⊢
  rw [← hrestore, h', h]

theorem revertsTo_write (c : Context) (slot : Slot) (value : Option slot.Value) :
    (c.write slot value).RevertsTo c := by
  unfold RevertsTo
  rw [restore_eq]
  simp [snapshot, write, undo, Store.put_put_get]

theorem revertsTo_emit (c : Context) (event : Event) : (c.emit event).RevertsTo c := by
  unfold RevertsTo
  rw [restore_eq]
  simp [snapshot, emit, undo]

/-! ## Going on -/

/-- A relation between a context and later ones that contains no step or several. -/
class IsCourse (R : Context → Context → Prop) : Prop where
  refl (c : Context) : R c c
  trans {c c₁ c₂ : Context} (h : R c c₁) (h' : R c₁ c₂) : R c c₂

/-- Such a relation that allows whatever the hub does itself, and nothing that cannot be taken
back. -/
class IsHistory (R : Context → Context → Prop) : Prop extends IsCourse R where
  reverts {c c₁ : Context} (h : R c c₁) : c₁.RevertsTo c
  write {c : Context} {slot : Slot} {value : Option slot.Value}
    (h : ∀ id, (c.store.put slot value).outboxOf id = c.store.outboxOf id) :
    R c (c.write slot value)
  emit {c : Context} {event : Event} (h : ∀ id, event.sentTo? id = none) : R c (c.emit event)
  post {c : Context} {m : Message} {channel : Channel} {outbox : Accumulator}
    (hchannel : c.store.get (.channel m.receiver) = some channel)
    (happend : channel.outbox.append? m.encode = some outbox) :
    R c ((c.write (.channel m.receiver) (some { channel with outbox := outbox })).emit (.sent m))

/-- The context comes of `c` by events and by writing and emptying places that are allowed. -/
inductive Follows (allowed : Slot → Prop) (c : Context) : Context → Prop
  | refl : Follows allowed c c
  | write {c₁ : Context} (h : Follows allowed c c₁) {slot : Slot} (hslot : allowed slot)
      (value : Option slot.Value) : Follows allowed c (c₁.write slot value)
  | emit {c₁ : Context} (h : Follows allowed c c₁) (event : Event) :
      Follows allowed c (c₁.emit event)

section

variable {allowed : Slot → Prop}

theorem Follows.trans (h : c.Follows allowed c₁) (h' : c₁.Follows allowed c₂) :
    c.Follows allowed c₂ := by
  induction h' with
  | refl => exact h
  | write _ hslot value ih => exact ih.write hslot value
  | emit _ event ih => exact ih.emit event

instance : IsCourse (Follows allowed) := ⟨fun _ => .refl, .trans⟩

/-- **What was written and told can be taken back.** -/
theorem Follows.revertsTo (h : c.Follows allowed c₁) : c₁.RevertsTo c := by
  induction h with
  | refl => exact .refl c
  | write _ hslot value ih => exact ih.trans (revertsTo_write _ _ value)
  | emit _ event ih => exact ih.trans (revertsTo_emit _ event)

/-- Places that nothing was written to are as they were. -/
theorem Follows.get_eq (h : c.Follows allowed c₁) {slot : Slot} (hslot : ¬ allowed slot) :
    c₁.store.get slot = c.store.get slot := by
  induction h with
  | refl => rfl
  | @write c₁ _ other hother value ih =>
    have hne : other ≠ slot := fun heq => hslot (heq ▸ hother)
    exact (Store.get_put_of_ne c₁.store value hne).trans ih
  | emit _ event ih => exact ih

end

/-- The context comes of `c` by writes, removals and events, wherever they are. -/
abbrev Continues : Context → Context → Prop := Follows fun _ => True

instance : IsHistory Continues where
  reverts h := h.revertsTo
  write _ := Follows.refl.write trivial _
  emit _ := Follows.refl.emit _
  post _ _ := (Follows.refl.write trivial _).emit _

/-! ## Keeping the log -/

/-- The context `c₁` follows on `c` in such a way that everything since can be taken back, and that
what outboxes have gained since is what the events since tell. -/
structure Logs (c c₁ : Context) : Prop where
  reverts : c₁.RevertsTo c
  events : ∃ events, c₁.events = c.events ++ events ∧
    ∀ id, (c.store.outboxOf id).appendAll? (sentTo id events) = some (c₁.store.outboxOf id)

theorem Logs.refl (c : Context) : c.Logs c :=
  ⟨.refl c, [], (List.append_nil _).symm, fun _ => rfl⟩

theorem Logs.trans (h : c.Logs c₁) (h' : c₁.Logs c₂) : c.Logs c₂ := by
  obtain ⟨hreverts, events, hevents, houtboxes⟩ := h
  obtain ⟨hreverts', more, hmore, houtboxes'⟩ := h'
  refine ⟨hreverts.trans hreverts', events ++ more, ?_, fun id => ?_⟩
  · rw [hmore, hevents, List.append_assoc]
  · rw [sentTo_append, Accumulator.appendAll?_append, houtboxes, Option.bind_some, houtboxes']

/-- Writing anything but an outbox keeps the log. -/
theorem logs_write {slot : Slot} {value : Option slot.Value}
    (h : ∀ id, (c.store.put slot value).outboxOf id = c.store.outboxOf id) :
    c.Logs (c.write slot value) :=
  ⟨revertsTo_write c slot value, [], (List.append_nil _).symm, fun id => congrArg some (h id).symm⟩

/-- So does an event that does not tell of a message sent. -/
theorem logs_emit {event : Event} (h : ∀ id, event.sentTo? id = none) : c.Logs (c.emit event) := by
  refine ⟨revertsTo_emit c event, [event], rfl, fun id => ?_⟩
  have hnone : sentTo id [event] = [] := by simp [sentTo, h id]
  rw [hnone]
  rfl

/-- A message enters an outbox together with the event that tells of it. -/
theorem logs_post {m : Message} {channel : Channel} {outbox : Accumulator}
    (hchannel : c.store.get (.channel m.receiver) = some channel)
    (happend : channel.outbox.append? m.encode = some outbox) :
    c.Logs ((c.write (.channel m.receiver) (some { channel with outbox := outbox })).emit
      (.sent m)) := by
  refine ⟨(revertsTo_write c _ _).trans (revertsTo_emit _ _), [.sent m], rfl, fun id => ?_⟩
  rw [sentTo_sent]
  exact Store.Posts.outboxOf (.intro hchannel happend) id

instance : IsHistory Logs where
  refl := .refl
  trans := .trans
  reverts h := h.reverts
  write := logs_write
  emit := logs_emit
  post := logs_post

end Context

namespace HubM

open Context (IsCourse IsHistory)

variable {R : Context → Context → Prop}

section

variable {α β : Type}

/-- The context that a computation ends in, however it ends. -/
def endOf (x : HubM α) (c : Context) : Context :=
  match x c with
  | .ok _ c₁ => c₁
  | .error _ c₁ => c₁

/-- The computation leads from any context to one that is related to it, however it ends. -/
def Leads (R : Context → Context → Prop) (x : HubM α) : Prop := ∀ c, R c (endOf x c)

/-- The computation keeps the log, however it ends. -/
def Logs (x : HubM α) : Prop := ∀ c : Context, c.Logs (endOf x c)

variable {x : HubM α} {f : α → HubM β} {c c₀ c₁ : Context}

theorem endOf_of_ok {a : α} (h : x c = .ok a c₁) : endOf x c = c₁ := by
  unfold endOf
  rw [h]

theorem endOf_of_error {failure : Failure HubError} (h : x c = .error failure c₁) :
    endOf x c = c₁ := by
  unfold endOf
  rw [h]

theorem Leads.of_ok (hx : Leads R x) {a : α} (h : x c = .ok a c₁) : R c c₁ :=
  endOf_of_ok h ▸ hx c

theorem Leads.of_error (hx : Leads R x) {failure : Failure HubError}
    (h : x c = .error failure c₁) : R c c₁ :=
  endOf_of_error h ▸ hx c

/-! ## What is caught and taken back -/

theorem attempt_of_ok {a : α} (h : x c = .ok a c₁) : attempt x c = .ok (.ok a) c₁ := by
  unfold attempt
  rw [h]

theorem attempt_of_refused {e : HubError} (h : x c = .error (.error e) c₁) :
    attempt x c = .ok (.error e) c₁ := by
  unfold attempt
  rw [h]

theorem attempt_of_abort (h : x c = .error .abort c₁) : attempt x c = .error .abort c₁ := by
  unfold attempt
  rw [h]

theorem succeeds_of_ok {x : HubM Unit} (h : x c = .ok () c₁) : succeeds x c = .ok true c₁ :=
  (bind_of_ok (attempt_of_ok h)).trans rfl

theorem succeeds_of_refused {x : HubM Unit} {e : HubError} (h : x c = .error (.error e) c₁) :
    succeeds x c = .ok false c₁ :=
  (bind_of_ok (attempt_of_refused h)).trans rfl

theorem succeeds_of_abort {x : HubM Unit} (h : x c = .error .abort c₁) :
    succeeds x c = .error .abort c₁ :=
  bind_of_error (attempt_of_abort h)

theorem restore_of_revertsTo (h : c₁.RevertsTo c) : restore c.snapshot c₁ = .ok () c :=
  congrArg (EStateM.Result.ok ()) h

/-! ## Rules -/

theorem endOf_bind_of_ok {a : α} (h : x c = .ok a c₁) : endOf (x >>= f) c = endOf (f a) c₁ := by
  unfold endOf
  rw [bind_of_ok h]

theorem endOf_bind_of_error {failure : Failure HubError} (h : x c = .error failure c₁) :
    endOf (x >>= f) c = c₁ := by
  unfold endOf
  rw [bind_of_error h]

theorem leads_attempt (hx : Leads R x) : Leads R (attempt x) := by
  intro c
  have hend : endOf (attempt x) c = endOf x c := by
    unfold endOf attempt
    cases x c with
    | ok a c₁ => rfl
    | error failure c₁ => cases failure <;> rfl
  rw [hend]
  exact hx c

/-- A snapshot is one of the context that it is taken in. -/
theorem leads_snapshot_bind {f : Snapshot → HubM β} (hf : R c₀ (endOf (f c.snapshot) c)) :
    R c₀ (endOf (snapshot >>= f) c) := hf

section Course

variable [IsCourse R]

/-- Such a computation, with a rest that may restore a snapshot of before. -/
theorem Leads.bind_from (hx : Leads R x) (hc : R c₀ c)
    (hf : ∀ a c₁, R c c₁ → R c₀ (endOf (f a) c₁)) : R c₀ (endOf (x >>= f) c) := by
  cases hend : x c with
  | ok a c₁ =>
    rw [endOf_bind_of_ok hend]
    exact hf a c₁ (hx.of_ok hend)
  | error failure c₁ =>
    rw [endOf_bind_of_error hend]
    exact IsCourse.trans hc (hx.of_error hend)

theorem leads_bind (hx : Leads R x) (hf : ∀ a, Leads R (f a)) : Leads R (x >>= f) := fun c =>
  hx.bind_from (IsCourse.refl c) fun a c₁ h => IsCourse.trans h (hf a c₁)

theorem leads_pure (a : α) : Leads R (pure a : HubM α) := IsCourse.refl

theorem leads_refuse (e : HubError) : Leads R (refuse e : HubM α) := IsCourse.refl

theorem leads_abort : Leads R (abort : HubM α) := IsCourse.refl

theorem leads_ofAttempt (a : Attempt HubError α) : Leads R (ofAttempt a) := by
  cases a with
  | ok a => exact leads_pure a
  | error failure => exact IsCourse.refl

theorem leads_get : Leads R (get : HubM Context) := IsCourse.refl

theorem leads_get? (slot : Slot) : Leads R (get? slot) := IsCourse.refl

/-- What is loaded is what is stored. -/
theorem leads_load_bind {slot : Slot} {f : slot.Value → HubM β}
    (hf : ∀ value (c : Context), c.store.get slot = some value → R c (endOf (f value) c)) :
    Leads R (load slot >>= f) := by
  intro c
  cases hget : c.store.get slot with
  | some value =>
    rw [endOf_bind_of_ok (load_eq hget)]
    exact hf value c hget
  | none =>
    rw [endOf_bind_of_error (load_eq_error hget)]
    exact IsCourse.refl c

theorem leads_load (slot : Slot) : Leads R (load slot) := by
  rw [← bind_pure (load slot)]
  exact leads_load_bind fun value c _ => leads_pure value c

theorem leads_succeeds {x : HubM Unit} (hx : Leads R x) : Leads R (succeeds x) := by
  refine leads_bind (leads_attempt hx) fun result => ?_
  cases result with
  | ok u => exact leads_pure true
  | error e => exact leads_pure false

theorem leads_allSucceed :
    ∀ {xs : List (HubM Unit)}, (∀ x ∈ xs, Leads R x) → Leads R (allSucceed xs)
  | [], _ => leads_pure true
  | x :: rest, h => by
    rw [List.forall_mem_cons] at h
    refine leads_bind (leads_succeeds h.1) fun succeeded => ?_
    cases succeeded with
    | true => exact leads_allSucceed h.2
    | false => exact leads_pure false

theorem leads_allSucceed_map {γ : Type} {f : γ → HubM Unit} {xs : List γ}
    (h : ∀ x ∈ xs, Leads R (f x)) : Leads R (allSucceed (xs.map f)) := by
  refine leads_allSucceed fun y hy => ?_
  obtain ⟨x, hmem, rfl⟩ := List.mem_map.mp hy
  exact h x hmem

theorem leads_forM {γ : Type} {f : γ → HubM Unit} :
    ∀ {xs : List γ}, (∀ x ∈ xs, Leads R (f x)) → Leads R (xs.forM f)
  | [], _ => leads_pure ()
  | x :: rest, h => by
    rw [List.forall_mem_cons] at h
    exact leads_bind h.1 fun _ => leads_forM h.2

end Course

variable [IsHistory R]

/-- Records other than channels hold no outbox. -/
theorem leads_save {slot : Slot} (value : slot.Value) (h : ∀ id, slot ≠ .channel id) :
    Leads R (save slot value) := fun _ =>
  IsHistory.write fun id => Store.outboxOf_put (h id)

theorem leads_emit {event : Event} (h : ∀ id, event.sentTo? id = none) : Leads R (emit event) :=
  fun _ => IsHistory.emit h

/-- **What follows on a snapshot is gone when the snapshot is restored**: what was written and the
events. -/
theorem leads_restore_bind {f : Unit → HubM β} (h : R c c₁)
    (hf : R c₀ (endOf (f ()) c)) : R c₀ (endOf (restore c.snapshot >>= f) c₁) := by
  rw [endOf_bind_of_ok (restore_of_revertsTo (IsHistory.reverts h))]
  exact hf

end

/-! ## Sending and terminating -/

variable [IsHistory R]

theorem leads_post (m : Message) : Leads R (post m) := by
  unfold post appendToOutbox
  rw [bind_assoc]
  refine leads_load_bind fun channel c hchannel => ?_
  cases happend : channel.outbox.append? m.encode with
  | none => exact IsCourse.refl c
  | some outbox => exact IsHistory.post hchannel happend

theorem leads_appendToInbox (id : ChainId) (encoded : Bytes) :
    Leads R (appendToInbox id encoded) := by
  unfold appendToInbox
  refine leads_load_bind fun channel c hchannel => ?_
  cases channel.inbox.append? encoded with
  | none => exact IsCourse.refl c
  | some inbox =>
    refine IsHistory.write fun other => Store.outboxOf_eq_put_channel hchannel ?_ other
    rfl

theorem leads_address (draft : Draft) : Leads R (address draft) := by
  unfold address
  refine leads_bind (leads_load .own) fun own => ?_
  dsimp only
  split
  · exact leads_refuse _
  · split
    · exact leads_bind (leads_save _ (by simp)) fun _ => leads_pure _
    · exact leads_abort

theorem leads_sendNotice (draft : Draft) : Leads R (sendNotice draft) :=
  leads_bind (leads_address draft) fun m => leads_bind (leads_post m) fun _ => leads_pure m

theorem leads_sendInternal (draft : Draft) : Leads R (sendInternal draft) := by
  refine leads_bind (leads_get? _) fun account => ?_
  cases account with
  | none => exact leads_refuse _
  | some account =>
    dsimp only
    cases account.status with
    | terminated => exact leads_refuse _
    | active => exact leads_sendNotice draft
    | registered =>
      dsimp only
      split
      · exact leads_sendNotice draft
      · exact leads_refuse _

theorem leads_terminateChain (id : ChainId) : Leads R (terminateChain id) := by
  have hclose : ∀ account : ChainAccount, Leads R (do
      save (.account id) { account with status := .terminated }
      save (.terminatedState id) {
        stateRoot := account.last.stateRoot
        mainchainStateRoot := FixedBytes.zero 32
        initialized := true }
      emit (.accountUpdated id .terminated)
      emit (.terminatedStateCreated id account.last.stateRoot)) := fun account =>
    leads_bind (leads_save _ (by simp)) fun _ => leads_bind (leads_save _ (by simp)) fun _ =>
      leads_bind (leads_emit fun _ => rfl) fun _ => leads_emit fun _ => rfl
  refine leads_bind (leads_get? _) fun account => ?_
  cases account with
  | none => exact leads_refuse _
  | some account =>
    dsimp only
    split
    · exact leads_pure ()
    · refine leads_bind (leads_get? _) fun channel => ?_
      split
      · exact leads_bind (leads_sendNotice _) fun _ => hclose account
      · exact hclose account

end HubM

end ChainHub
