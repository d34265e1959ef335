import ChainHub.Proofs.Hub.Calls

/-!
# Runs

A run sets the hub up and then makes calls. The host takes back what a failed call has written, so
a failed call leaves the store as it was. A store is reachable when it is the store of a run.

* `Call.of_accepted`: an accepted call is carried out by actions.
* `Run.consistent`: every reachable store is consistent.
* `Run.fails_in_check_only`: in a reachable store only the check of a call is refused, and then the
  call has not written anything that would have to be taken back.
* `collect`: the history of a run, as far as a function of the calls records it.
-/

namespace ChainHub

namespace Call

/-- The answer to a call, if the call is accepted. -/
def response? (k : Call) (s : Store) : Option Response := (StoreM.commit k.run s).1.toOption

/-- The store after a call. -/
def after (k : Call) (s : Store) : Store := (StoreM.commit k.run s).2

variable {k : Call} {s : Store}

theorem run_of_accepted {response : Response} (h : k.response? s = some response) :
    k.run s = .ok response (k.after s) := by
  unfold response? StoreM.commit at h
  unfold after StoreM.commit
  cases hrun : k.run s with
  | ok response' s' =>
    rw [hrun] at h
    cases h
    rfl
  | error failure s' =>
    rw [hrun] at h
    cases h

theorem accepted_of_run {response : Response} {s' : Store} (h : k.run s = .ok response s') :
    k.response? s = some response ∧ k.after s = s' := by
  unfold response? after StoreM.commit
  rw [h]
  exact ⟨rfl, rfl⟩

/-- A call that fails leaves the store as it was. -/
theorem after_of_rejected (h : k.response? s = none) : k.after s = s := by
  unfold response? StoreM.commit at h
  unfold after StoreM.commit
  cases hrun : k.run s with
  | ok response s' =>
    rw [hrun] at h
    cases h
  | error failure s' => rfl

/-- An accepted call has passed its check. -/
theorem verdict_of_accepted {response : Response} (h : k.response? s = some response) :
    k.verdict s = .ok () := by
  cases hverdict : k.verdict s with
  | ok u => rfl
  | error failure =>
    have hrun := run_of_accepted h
    rw [run_of_error hverdict] at hrun
    cases hrun

/-- **An accepted call is carried out by actions.** -/
theorem of_accepted (hs : Consistent s) {response : Response}
    (h : k.response? s = some response) :
    ∃ acts, Trace k.cause s acts (k.after s) ∧ response.events = acts.flatMap Action.events ∧
      k.Effect s acts (k.after s) :=
  (ends hs (verdict_of_accepted h)).of_ok (run_of_accepted h)

/-- A call is carried out by actions, none if it fails. -/
theorem exists_trace (hs : Consistent s) : ∃ acts, Trace k.cause s acts (k.after s) := by
  cases hresponse : k.response? s with
  | none =>
    rw [after_of_rejected hresponse]
    exact ⟨[], .nil s⟩
  | some response =>
    obtain ⟨acts, htrace, -⟩ := of_accepted hs hresponse
    exact ⟨acts, htrace⟩

theorem consistent_after (hs : Consistent s) : Consistent (k.after s) := by
  obtain ⟨acts, htrace⟩ := k.exists_trace hs
  exact htrace.consistent hs

/-- What can come of a call. -/
structure FailsInCheckOnly (k : Call) (s : Store) : Prop where
  /-- A refused call was refused by its check and has written nothing. -/
  refused : ∀ e s', k.run s = .error (.error e) s' → s' = s ∧ k.verdict s = .error (.error e)
  /-- A check that fails ends the call before anything is written. -/
  unwritten : ∀ failure, k.verdict s = .error failure → k.run s = .error failure s
  /-- A call that passes its check succeeds, unless a counter has reached its limit. -/
  succeeds : k.verdict s = .ok () →
    (∃ response s', k.run s = .ok response s') ∨
      ∃ s', k.run s = .error .abort s' ∧ s'.AtLimit

theorem failsInCheckOnly (hs : Consistent s) : k.FailsInCheckOnly s := by
  have hsucceeds : k.verdict s = .ok () → (∃ response s', k.run s = .ok response s') ∨
      ∃ s', k.run s = .error .abort s' ∧ s'.AtLimit := by
    intro hverdict
    have hends := ends hs hverdict
    unfold StoreM.Ends EndsIn at hends
    cases hrun : k.run s with
    | ok response s' => exact Or.inl ⟨response, s', rfl⟩
    | error failure s' =>
      rw [hrun] at hends
      cases failure with
      | error e => exact hends.elim
      | abort => exact Or.inr ⟨s', rfl, hends⟩
  refine ⟨?_, fun failure hverdict => run_of_error hverdict, hsucceeds⟩
  intro e s' hrun
  cases hverdict : k.verdict s with
  | ok u =>
    rcases hsucceeds hverdict with ⟨response, s'', hok⟩ | ⟨s'', habort, -⟩
    · rw [hrun] at hok
      cases hok
    · rw [hrun] at habort
      cases habort
  | error failure =>
    rw [run_of_error hverdict] at hrun
    cases hrun
    exact ⟨rfl, rfl⟩

end Call

/-! ## Several calls -/

/-- The store after several calls. -/
def afterAll (calls : List Call) (s : Store) : Store := calls.foldl (fun s k => k.after s) s

/-- What a function of a call and the store before it gives for several calls, in their order. -/
def collect {α : Type} (f : Call → Store → List α) : List Call → Store → List α
  | [], _ => []
  | k :: rest, s => f k s ++ collect f rest (k.after s)

section

variable {s : Store} {calls more : List Call} {k : Call}

theorem afterAll_append (calls more : List Call) (s : Store) :
    afterAll (calls ++ more) s = afterAll more (afterAll calls s) :=
  List.foldl_append

theorem afterAll_concat (calls : List Call) (k : Call) (s : Store) :
    afterAll (calls ++ [k]) s = k.after (afterAll calls s) :=
  afterAll_append calls [k] s

theorem collect_append {α : Type} (f : Call → Store → List α) :
    ∀ (calls more : List Call) (s : Store),
      collect f (calls ++ more) s = collect f calls s ++ collect f more (afterAll calls s)
  | [], _, _ => rfl
  | k :: rest, more, s => by
    show f k s ++ collect f (rest ++ more) (k.after s) = _
    rw [collect_append f rest more (k.after s), ← List.append_assoc]
    rfl

theorem collect_concat {α : Type} (f : Call → Store → List α) (calls : List Call) (k : Call)
    (s : Store) :
    collect f (calls ++ [k]) s = collect f calls s ++ f k (afterAll calls s) := by
  rw [collect_append]
  simp [collect]

/-- What is recorded of several calls is recorded of one of them. -/
theorem exists_of_mem_collect {α : Type} {f : Call → Store → List α} {x : α}
    (h : x ∈ collect f calls s) :
    ∃ before k later, calls = before ++ k :: later ∧ x ∈ f k (afterAll before s) := by
  induction calls generalizing s with
  | nil => cases h
  | cons k rest ih =>
    rcases List.mem_append.mp h with hfirst | hrest
    · exact ⟨[], k, rest, rfl, hfirst⟩
    · obtain ⟨before, k', later, rfl, hx⟩ := ih hrest
      exact ⟨k :: before, k', later, rfl, hx⟩

theorem consistent_afterAll (hs : Consistent s) (calls : List Call) :
    Consistent (afterAll calls s) := by
  induction calls generalizing s with
  | nil => exact hs
  | cons k rest ih => exact ih (Call.consistent_after hs)

/-- What several calls append to an accumulator, if it is known for one call. -/
theorem appendAll?_collect {f : Call → Store → List Bytes} {box : Store → Accumulator}
    (hcall : ∀ {k s}, Consistent s → (box s).appendAll? (f k s) = some (box (k.after s)))
    (hs : Consistent s) (calls : List Call) :
    (box s).appendAll? (collect f calls s) = some (box (afterAll calls s)) := by
  induction calls generalizing s with
  | nil => rfl
  | cons k rest ih =>
    rw [collect, Accumulator.appendAll?_append, hcall hs, Option.bind_some]
    exact ih (Call.consistent_after hs)

end

/-! ## Runs -/

/-- A run: how the hub is set up, and the calls after that. -/
structure Run where
  setup : InstantiateRequest
  ready : (StoreM.commit (Hub.instantiate setup) .empty).1.isOk = true
  calls : List Call

namespace Run

/-- The store that the hub starts with. -/
def start (r : Run) : Store := (StoreM.commit (Hub.instantiate r.setup) .empty).2

/-- The store at the end of a run. -/
def store (r : Run) : Store := afterAll r.calls r.start

/-- What the hub starts with. -/
theorem start_eq (r : Run) : ∃ id config, Hub.verifyInstantiate r.setup = .ok (id, config) ∧
    r.start = (((Store.empty.put .version (some Hub.version)).put .config (some config)).put .own
      (some ⟨id, r.setup.ownName, 0⟩)).put (.name r.setup.ownName) (some id) := by
  have hready := r.ready
  unfold start
  unfold StoreM.commit Hub.instantiate at hready ⊢
  cases hverify : Hub.verifyInstantiate r.setup with
  | ok checked => exact ⟨_, _, rfl, rfl⟩
  | error e =>
    rw [hverify] at hready
    cases hready

/-- The hub starts with nothing but its own records. -/
theorem get_start (r : Run) {slot : Slot} (hversion : Slot.version ≠ slot)
    (hconfig : Slot.config ≠ slot) (hown : Slot.own ≠ slot)
    (hname : ∀ name, Slot.name name ≠ slot) : r.start.get slot = none := by
  obtain ⟨id, config, -, hstart⟩ := r.start_eq
  rw [hstart, Store.get_put_of_ne _ _ (hname _), Store.get_put_of_ne _ _ hown,
    Store.get_put_of_ne _ _ hconfig, Store.get_put_of_ne _ _ hversion, Store.get_empty]

theorem outboxOf_start (r : Run) (id : ChainId) : r.start.outboxOf id = .empty := by
  unfold Store.outboxOf
  rw [r.get_start (by simp) (by simp) (by simp) (by simp)]
  rfl

theorem inboxOf_start (r : Run) (id : ChainId) : r.start.inboxOf id = .empty := by
  unfold Store.inboxOf
  rw [r.get_start (by simp) (by simp) (by simp) (by simp)]
  rfl

/-- A hub is set up on a mainchain. -/
theorem isMainchain_of_verifyInstantiate {request : InstantiateRequest} {id : ChainId}
    {config : Config} (h : Hub.verifyInstantiate request = .ok (id, config)) :
    id.isMainchain = true := by
  unfold Hub.verifyInstantiate at h
  obtain ⟨id', -, h⟩ := Attempt.bind_eq_ok_iff.mp h
  dsimp only at h
  simp only [Attempt.throw_bind, Attempt.ite_eq_ok_iff] at h
  obtain ⟨hmain, -, h⟩ := h
  split at h
  · cases h
  · obtain ⟨token, -, h⟩ := Attempt.bind_eq_ok_iff.mp h
    cases h
    exact hmain

theorem consistent_start (r : Run) : Consistent r.start := by
  have hnone : ∀ {slot : Slot} {value : slot.Value}, Slot.version ≠ slot → Slot.config ≠ slot →
      Slot.own ≠ slot → (∀ name, Slot.name name ≠ slot) → r.start.get slot ≠ some value := by
    intro slot value hversion hconfig hown hname h
    rw [r.get_start hversion hconfig hown hname] at h
    cases h
  obtain ⟨id, config, hverify, hstart⟩ := r.start_eq
  constructor
  case config => exact ⟨config, by simp [hstart, Store.get_put_of_ne]⟩
  case own =>
    exact ⟨⟨id, r.setup.ownName, 0⟩, by simp [hstart, Store.get_put_of_ne],
      isMainchain_of_verifyInstantiate hverify⟩
  case side => exact fun _ _ h => absurd h (hnone (by simp) (by simp) (by simp) (by simp))
  case channel => exact fun _ _ h => absurd h (hnone (by simp) (by simp) (by simp) (by simp))
  case validators => exact fun _ _ h => absurd h (hnone (by simp) (by simp) (by simp) (by simp))
  case account => exact fun _ _ h => absurd h (hnone (by simp) (by simp) (by simp) (by simp))
  case built => exact fun _ _ h => absurd h (hnone (by simp) (by simp) (by simp) (by simp))
  case state => exact fun _ _ h => absurd h (hnone (by simp) (by simp) (by simp) (by simp))
  case outbox => exact fun _ _ h => absurd h (hnone (by simp) (by simp) (by simp) (by simp))

/-- **Every reachable store is consistent.** -/
theorem consistent (r : Run) : Consistent r.store := consistent_afterAll r.consistent_start r.calls

/-- **Only the check of a call is refused**, whatever the messages of the call contain. A call that
is refused has written nothing, and a call that passes its check succeeds. -/
theorem fails_in_check_only (r : Run) (k : Call) : k.FailsInCheckOnly r.store :=
  Call.failsInCheckOnly r.consistent

/-! ## A silent chain -/

/-- A sidechain that registers and is not heard of again. -/
def silentChain : ChainId := ⟨[0, 0, 0, 1], rfl⟩

/-- It registers. -/
def registering : Call :=
  ⟨⟨1, 100⟩, [], .register ⟨silentChain.toList, "alpha", [⟨List.replicate 48 1, 1⟩], 1⟩⟩

/-- It is terminated when it has been silent for too long. -/
def closing : Call := ⟨⟨2, 3000000⟩, [], .terminateForLiveness silentChain.toList⟩

/-- Another chain registers after that. -/
def registeringBeta : Call :=
  ⟨⟨3, 3000100⟩, [], .register ⟨[0, 0, 0, 2], "beta", [⟨List.replicate 48 1, 1⟩], 1⟩⟩

/-- A run in which it registers and is terminated. -/
def silent : Run where
  setup := {
    ownChainId := (ChainId.mainchain 0).toList
    ownName := "hub"
    feeCollector := "collector"
    registrationFee := ⟨"ustake", Amount.zero⟩
    feeToken := List.replicate 8 0
    minFeePerByte := 0 }
  ready := by decide +kernel
  calls := [registering, closing]

/-- The run before the chain is terminated. -/
def waiting : Run := { silent with calls := [registering] }

/-- The chain that is registered in the run is not active yet. -/
theorem registered_silentChain :
    ∃ account, waiting.store.get (.account silentChain) = some account ∧
      account.status = .registered := by
  have hstatus : (waiting.store.get (.account silentChain)).map ChainAccount.status =
      some .registered := by
    decide +kernel
  exact Option.map_eq_some_iff.mp hstatus

theorem isClosed_silentChain : silent.store.IsClosed silentChain := by
  have hstatus : (silent.store.get (.account silentChain)).map ChainAccount.status =
      some .terminated := by
    decide +kernel
  exact Option.map_eq_some_iff.mp hstatus

/-! ## Had it been heard of -/

/-- A message of the silent chain to a chain that the hub does not know. -/
def toNobody (nonce : UInt64) : Message where
  module := "token"
  command := "transfer"
  nonce := nonce
  fee := 0
  sender := silentChain
  receiver := ⟨[0, 0, 0, 2], rfl⟩
  params := []
  status := .ok

/-- An outbox with two such messages. -/
def twoMessages : List Bytes := [(toNobody 0).encode, (toNobody 1).encode]

/-- The account of the silent chain, had it been heard of. -/
def heardOf : ChainAccount where
  name := "alpha"
  status := .active
  last := ⟨1, 1, FixedBytes.zero 32, FixedBytes.zero 32⟩

/-- A channel on which nothing was received yet, with the root of the two messages. -/
def announced : Channel :=
  { Channel.fresh default 0 with partnerOutboxRoot := (Merkle.Tree.ofLeaves twoMessages).root }

/-- The records after a chain has registered, with this account and this channel. -/
def trusting : Store :=
  (waiting.store.put (.account silentChain) (some heardOf)).put (.channel silentChain)
    (some announced)

theorem consistent_trusting : Consistent trusting := by
  obtain ⟨account, hget, hstatus⟩ := registered_silentChain
  have haccount : Consistent (waiting.store.put (.account silentChain) (some heardOf)) :=
    waiting.consistent.put_account hget (by simp [hstatus])
  exact haccount.put_channel ⟨heardOf, Store.get_put_self _ _ _⟩
    ⟨Accumulator.built_empty, Accumulator.built_empty⟩

theorem inboxOf_trusting : trusting.inboxOf silentChain = .empty :=
  Store.inboxOf_eq (Store.get_put_self _ _ _)

theorem outboxOf_trusting : trusting.outboxOf silentChain = .empty :=
  Store.outboxOf_eq (Store.get_put_self _ _ _)

/-- An update of the silent chain; its messages are filled in. -/
def silentUpdate : UpdateRequest where
  sender := silentChain.toList
  certificate := []
  validators := []
  threshold := 1
  inbox := default

/-- The silent chain delivers the two messages in two updates. -/
def twoDeliveries : List Call :=
  [⟨⟨3, 100⟩, [], .update { silentUpdate with
      inbox := {
        messages := twoMessages.take 1
        witness := ((Merkle.Tree.ofLeaves twoMessages).rightWitness 1).map (·.toList)
        outboxRootProof := default } }⟩,
    ⟨⟨4, 100⟩, [], .update { silentUpdate with
      inbox := { messages := twoMessages.drop 1, witness := [], outboxRootProof := default } }⟩]

end Run

end ChainHub
