import ChainHub.Proofs.Hub.Requests

/-!
# Calls

A call is a request with the block and the coins that it comes with. `Call.verdict` is the check
that a call begins with; it reads the store and does not write it.

* `Call.run_of_error`: a call that fails its check ends with the error of the check and has written
  nothing.
* `Call.ends`: a call that passes its check is carried out by actions, or aborted at a limit.
-/

namespace ChainHub

open HubM

/-- A request with the block that it is part of and the coins that come with it. -/
structure Call where
  header : BlockHeader
  funds : List Coin
  request : ExecuteRequest

namespace Call

/-- What the hub does on a call. -/
def run (k : Call) : StoreM Response := Hub.execute .default k.header k.funds k.request

/-- The chain whose update a call delivers. -/
def sender? (k : Call) : Option ChainId :=
  match k.request with
  | .update request => (parseChainId request.sender).toOption
  | _ => none

/-- The chain that a call recovers messages of, or prepares to. -/
def recovering? (k : Call) : Option ChainId :=
  match k.request with
  | .initRecovery request => (parseChainId request.chainId).toOption
  | .recover request => (parseChainId request.chainId).toOption
  | _ => none

/-- The certificate that comes with a call. -/
def certificate? (k : Call) : Option Certificate :=
  match k.request with
  | .update request => request.certificate?
  | _ => none

/-- The chain that a call names as stale. -/
def accused? (k : Call) : Option ChainId :=
  match k.request with
  | .terminateForLiveness chainId => (parseChainId chainId).toOption
  | _ => none

/-- The encoded messages that a call is to recover. -/
def recovered (k : Call) : List Bytes :=
  match k.request with
  | .recover request => request.messages
  | _ => []

/-- What the actions of a call depend on. -/
def cause (k : Call) : Cause where
  now := k.header.time
  sender := k.sender?
  certificate := k.certificate?
  accused := k.accused?
  recovering := k.recovering?
  recovered := k.recovered

/-- The check that a call begins with. -/
def verdict (k : Call) (s : Store) : Attempt HubError Unit :=
  match k.request with
  | .register request => do
    let config ← Attempt.require (.host .recordMissing) s.config
    let _ ← Registration.verify s config k.funds request
  | .update request => do
    let own ← Attempt.require (.host .recordMissing) s.own
    let _ ← Update.verify s own.chainId k.header.time request
  | .terminateForLiveness chainId => do
    let _ ← Attempt.lift (Staleness.verify s k.header.time chainId)
  | .initRecovery request => do
    let _ ← Attempt.lift (Recovery.verifyInit s request)
  | .recover request => do
    let own ← Attempt.require (.host .recordMissing) s.own
    let _ ← Recovery.verify s own.chainId k.header.time request

end Call

namespace StoreM

/-! ## Outcomes -/

/-- The computation on the store ends as `Q` says, or is aborted at a limit. -/
abbrev Ends {α : Type} (x : StoreM α) (s : Store) (Q : α → Store → Prop) : Prop :=
  EndsIn (fun s => s) x s Q

section Rules

variable {α β : Type} {s : Store} {Q : α → Store → Prop} {R : β → Store → Prop}

theorem ends_pure {a : α} (h : Q a s) : Ends (pure a) s Q := h

theorem ends_get {f : Store → StoreM β} (h : Ends (f s) s R) :
    Ends ((get : StoreM Store) >>= f) s R := h

theorem load_eq {slot : Slot} {value : slot.Value} (hget : s.get slot = some value) :
    load slot s = .ok value s := by
  unfold load
  refine (bind_of_ok rfl).trans ?_
  rw [hget]
  rfl

theorem load_eq_error {slot : Slot} (hget : s.get slot = none) :
    load slot s = .error (.error (.host .recordMissing)) s := by
  unfold load
  refine (bind_of_ok rfl).trans ?_
  rw [hget]
  rfl

/-- A check that fails before anything is written. -/
theorem check_eq_error (check : Store → Attempt HubError α) {rest : α → StoreM β}
    {f : Failure HubError} (h : (do let _ ← check s : Attempt HubError Unit) = .error f) :
    ((get : StoreM Store) >>= fun s => ofAttempt (check s) >>= rest) s = .error f s := by
  refine (bind_of_ok rfl).trans (bind_of_error ?_)
  cases hcheck : check s with
  | ok a =>
    rw [hcheck] at h
    cases h
  | error e =>
    rw [hcheck] at h
    cases h
    rfl

/-- A check that needs a record and fails before anything is written. -/
theorem load_check_eq_error {slot : Slot} {check : Store → slot.Value → Attempt HubError α}
    {rest : slot.Value → α → StoreM β} {f : Failure HubError}
    (h : (do
      let value ← Attempt.require (.host .recordMissing) (s.get slot)
      let _ ← check s value : Attempt HubError Unit) = .error f) :
    (load slot >>= fun value =>
      (get : StoreM Store) >>= fun s => ofAttempt (check s value) >>= rest value) s =
        .error f s := by
  cases hget : s.get slot with
  | none =>
    rw [hget] at h
    cases h
    exact bind_of_error (load_eq_error hget)
  | some value =>
    rw [hget] at h
    exact (bind_of_ok (load_eq hget)).trans (check_eq_error (fun s => check s value) h)

theorem ends_load {slot : Slot} {value : slot.Value} {f : slot.Value → StoreM β}
    (hget : s.get slot = some value) (h : Ends (f value) s R) : Ends (load slot >>= f) s R :=
  endsIn_bind_of_ok (load_eq hget) h

theorem ends_save {slot : Slot} {value : slot.Value} {f : Unit → StoreM β}
    (h : Ends (f ()) (s.put slot (some value)) R) : Ends (save slot value >>= f) s R := h

theorem ofAttempt_eq {x : Attempt HubError α} {a : α} (hx : x = .ok a) :
    ofAttempt x s = .ok a s := by
  rw [hx]
  rfl

theorem ends_ofAttempt {x : Attempt HubError α} {a : α} {f : α → StoreM β} (hx : x = .ok a)
    (h : Ends (f a) s R) : Ends (ofAttempt x >>= f) s R :=
  endsIn_bind_of_ok (ofAttempt_eq hx) h

/-- A computation in a context of its own. -/
theorem ends_withContext {header : BlockHeader} {x : HubM α} {own : OwnAccount}
    (hown : s.get .own = some own) {Q : α × List Event → Store → Prop}
    (h : HubM.Ends x (.start s header own.chainId) fun a c => Q (a, c.events) c.store) :
    Ends (withContext header x) s Q := by
  unfold withContext
  refine ends_load hown ?_
  unfold HubM.Ends EndsIn at h
  unfold Ends EndsIn
  beta_reduce
  cases hx : x (.start s header own.chainId) with
  | ok a c =>
    rw [hx] at h
    exact h
  | error failure c =>
    rw [hx] at h
    cases failure with
    | error e => exact h
    | abort => exact h

theorem withContext_eq {header : BlockHeader} {x : HubM α} {own : OwnAccount}
    (hown : s.get .own = some own) :
    withContext header x s = match x (.start s header own.chainId) with
      | .ok a c => .ok (a, c.events) c.store
      | .error failure c => .error failure c.store := by
  unfold withContext
  exact bind_of_ok (load_eq hown)

/-- A request in a context of its own has the result and the events of the context. -/
theorem withContext_eq_ok_iff {header : BlockHeader} {x : HubM α} {s' : Store} {own : OwnAccount}
    (hown : s.get .own = some own) {a : α} {events : List Event} :
    withContext header x s = .ok (a, events) s' ↔
      ∃ c, x (.start s header own.chainId) = .ok a c ∧ events = c.events ∧ s' = c.store := by
  rw [withContext_eq hown]
  cases x (.start s header own.chainId) with
  | ok a' c =>
    constructor
    · intro h
      cases h
      exact ⟨c, rfl, rfl, rfl⟩
    · rintro ⟨c', hc, rfl, rfl⟩
      cases hc
      rfl
  | error failure c =>
    constructor
    · intro h
      cases h
    · rintro ⟨c', hc, -⟩
      cases hc

/-- **When a checked request is accepted**: it passes its check and is carried out. -/
theorem checked_eq_ok_iff {check : OwnAccount → Store → Attempt HubError α} {header : BlockHeader}
    {x : α → HubM β} {answer : α → β → List Event → Response} {response : Response} {s' : Store} :
    (do
      let own ← load .own
      let v ← ofAttempt (check own (← get))
      let (a, events) ← withContext header (x v)
      return answer v a events : StoreM Response) s = .ok response s' ↔
      ∃ own v a c, s.get .own = some own ∧ check own s = .ok v ∧
        x v (.start s header own.chainId) = .ok a c ∧ response = answer v a c.events ∧
        s' = c.store := by
  simp only [bind_eq_ok_iff]
  constructor
  · rintro ⟨own, s₁, hload, s₂, s₃, hget, v, s₄, hv, ⟨a, events⟩, s₅, hx, hpure⟩
    cases hget
    cases hown : s.get .own with
    | none =>
      rw [load_eq_error hown] at hload
      cases hload
    | some own' =>
      rw [load_eq hown] at hload
      cases hload
      cases hcheck : check own s with
      | error failure =>
        rw [hcheck] at hv
        cases hv
      | ok v' =>
        rw [hcheck] at hv
        cases hv
        obtain ⟨c, hc, rfl, rfl⟩ := (withContext_eq_ok_iff hown).mp hx
        cases hpure
        exact ⟨own, v, a, c, rfl, hcheck, hc, rfl, rfl⟩
  · rintro ⟨own, v, a, c, hown, hv, hx, rfl, rfl⟩
    refine ⟨own, s, load_eq hown, s, s, rfl, v, s, ?_, (a, c.events), c.store, ?_, rfl⟩
    · rw [hv]
      rfl
    · exact (withContext_eq_ok_iff hown).mpr ⟨c, hx, rfl, rfl⟩

end Rules

end StoreM

/-- The context that a call starts with. -/
theorem sound_start {s : Store} (hs : Consistent s) {own : OwnAccount}
    (hown : s.get .own = some own) {k : Cause} {header : BlockHeader} (hnow : header.time = k.now) :
    Sound k (.start s header own.chainId) :=
  ⟨hs, ⟨own, hown, rfl⟩, hnow⟩

namespace Registration

/-! ## Registration -/

/-- What the check of a registration has established. -/
structure Checked (s : Store) (funds : List Coin) (config : Config) (request : RegistrationRequest)
    (id : ChainId) : Prop where
  own : ∃ own, s.get .own = some own ∧ id.network = own.chainId.network
  side : id.isMainchain = false
  new : s.get (.account id) = none
  name : isChainName request.name = true
  free : s.get (.name request.name) = none
  validators : ValidatorSet.check ⟨request.validators, request.threshold⟩ = .ok ()
  paid : ∃ paid, payment funds config.registrationFee.denom = .ok paid

/-- The fee is paid when no coin has another denomination and there are enough of them. -/
theorem verifyFunds_eq_ok_iff {fee : Coin} {funds : List Coin} :
    verifyFunds fee funds = .ok () ↔ (∀ coin ∈ funds, coin.denom = fee.denom) ∧
      ∃ paid, payment funds fee.denom = .ok paid ∧ fee.amount.val ≤ paid.val := by
  unfold verifyFunds
  constructor
  · intro h
    split at h
    · cases h
    · rename_i hfind
      obtain ⟨paid, hpaid, h⟩ := Attempt.bind_eq_ok_iff.mp h
      refine ⟨fun coin hcoin => ?_, paid, hpaid, ?_⟩
      · simpa using List.find?_eq_none.mp hfind coin hcoin
      · rw [Attempt.ite_refuse_eq_ok_iff] at h
        exact Nat.le_of_not_lt h.1
  · rintro ⟨hdenom, paid, hpaid, hle⟩
    have hfind : (funds.find? fun coin => coin.denom ≠ fee.denom) = none :=
      List.find?_eq_none.mpr fun coin hcoin => by simpa using hdenom coin hcoin
    rw [hfind]
    exact Attempt.bind_eq_ok_iff.mpr ⟨paid, hpaid,
      Attempt.ite_refuse_eq_ok_iff.mpr ⟨Nat.not_lt.mpr hle, rfl⟩⟩

/-- **When a registration passes its check.** -/
theorem verify_eq_ok_iff {s : Store} {config : Config} {funds : List Coin}
    {request : RegistrationRequest} {id : ChainId} :
    verify s config funds request = .ok id ↔
      parseChainId request.chainId = .ok id ∧ ∃ own, s.get .own = some own ∧
        (id.network = own.chainId.network ∧ id.isMainchain = false ∧
          s.get (.account id) = none) ∧
        (isChainName request.name = true ∧ s.get (.name request.name) = none) ∧
        ValidatorSet.check ⟨request.validators, request.threshold⟩ = .ok () ∧
        verifyFunds config.registrationFee funds = .ok () := by
  unfold verify verifyChainId verifyName
  simp only [Attempt.bind_eq_ok_iff, Attempt.lift_eq_ok_iff, Attempt.require_eq_ok_iff,
    Attempt.ofExcept_eq_ok_iff, Attempt.throw_bind, Attempt.ite_throw_eq_ok_iff,
    Attempt.ite_eq_ok_iff, Attempt.pure_eq_ok_iff, ne_eq, not_not, Bool.not_eq_true,
    Option.isSome_eq_false_iff, Option.isNone_iff_eq_none, and_true]
  constructor
  · rintro ⟨_, hid, own, hown, _, hchain, _, hname, _, hset, _, hfunds, rfl⟩
    exact ⟨hid, own, hown, hchain, hname, hset, hfunds⟩
  · rintro ⟨hid, own, hown, hchain, hname, hset, hfunds⟩
    exact ⟨id, hid, own, hown, (), hchain, (), hname, (), hset, (), hfunds, rfl⟩

theorem checked_of_verify {s : Store} {config : Config} {funds : List Coin}
    {request : RegistrationRequest} {id : ChainId} (h : verify s config funds request = .ok id) :
    Checked s funds config request id := by
  obtain ⟨-, own, hown, ⟨hnetwork, hside, hnew⟩, ⟨hname, hfree⟩, hset, hfunds⟩ :=
    verify_eq_ok_iff.mp h
  obtain ⟨-, paid, hpaid, -⟩ := verifyFunds_eq_ok_iff.mp hfunds
  exact {
    own := ⟨own, hown, hnetwork⟩
    side := hside
    new := hnew
    name := hname
    free := hfree
    validators := hset
    paid := ⟨paid, hpaid⟩ }

/-- The records of a new chain can be written. -/
theorem Checked.consistent_registered {s : Store} {config : Config} {funds : List Coin}
    {request : RegistrationRequest} {id : ChainId} (hv : Checked s funds config request id)
    (hs : Consistent s) (new : ChainAccount) (set : ValidatorSet) :
    Consistent (s.registered id new (.fresh config.feeToken config.minFeePerByte) set) :=
  hs.registered hv.side hv.new ⟨Accumulator.built_empty, Accumulator.built_empty⟩

/-- After the records of a new chain have been written, the handshake is sent to it. -/
theorem ends_handshake {s : Store} (hs : Consistent s) {header : BlockHeader} {funds : List Coin}
    {request : RegistrationRequest} {config : Config} {id : ChainId}
    (hv : Checked s funds config request id) {new : ChainAccount} (hnew : new.status = .registered)
    (set : ValidatorSet) {k : Cause} (hnow : header.time = k.now) {own : OwnAccount}
    (hown : s.get .own = some own) :
    Ends (do
        emit (.accountUpdated id .registered)
        sendInternal (handshake config id request.name))
      (.start (s.registered id new (.fresh config.feeToken config.minFeePerByte) set) header
        own.chainId)
      fun m c => m = (handshake config id request.name).message own ∧
        (s.registered id new (.fresh config.feeToken config.minFeePerByte) set).Sends m c.store ∧
        c.events = (Action.register id request.name m).events := by
  let channel := Channel.fresh config.feeToken config.minFeePerByte
  have hs' : Consistent (s.registered id new channel set) := hv.consistent_registered hs new set
  have hown₁ : (s.registered id new channel set).get .own = some own :=
    (Store.get_registered_own ..).trans hown
  have hget : (s.registered id new channel set).get (.account id) = some new := by
    rw [Store.get_registered_account, if_pos rfl]
  refine ends_emit ?_
  have hstart := sound_start hs' hown₁ hnow
  have hspares : (Event.accountUpdated id .registered).SparesHub own.chainId := trivial
  have hreport := reaches_emit hstart rfl hspares (show _ ≠ _ by decide)
  refine (ends_sendInternal (hstart.reaches hreport) (sendable_handshake config id hv.name) hget
    (Or.inr ⟨hnew, rfl⟩)).mono ?_
  intro m c hsent
  obtain ⟨own', hown', hm⟩ := hsent.message
  obtain rfl := Option.some.inj (hown₁.symm.trans hown')
  exact ⟨hm, hsent.store, hsent.events⟩

/-- What a registration that has passed its check does: the records of the new chain are written,
the handshake is sent to it, and the coins are paid on. -/
structure Performed (s : Store) (own : OwnAccount) (header : BlockHeader) (funds : List Coin)
    (config : Config) (request : RegistrationRequest) (id : ChainId) (response : Response)
    (s' : Store) : Prop where
  sends : (s.registered id (account request.name ⟨request.validators, request.threshold⟩
    header.time) (.fresh config.feeToken config.minFeePerByte)
    ⟨request.validators, request.threshold⟩).Sends
      ((handshake config id request.name).message own) s'
  events : response.events = (Action.register id request.name
    ((handshake config id request.name).message own)).events
  payments : ∃ paid, payment funds config.registrationFee.denom = .ok paid ∧
    response.payments = payments config paid

/-- **A registration that has passed its check is carried out**, unless the hub is out of nonces. -/
theorem ends_performed {s : Store} (hs : Consistent s) {header : BlockHeader} {funds : List Coin}
    {request : RegistrationRequest} {config : Config} (hconfig : s.get .config = some config)
    {id : ChainId} (hid : verify s config funds request = .ok id) {own : OwnAccount}
    (hown : s.get .own = some own) {k : Cause} (hnow : header.time = k.now) :
    StoreM.Ends (execute header funds request) s
      (Performed s own header funds config request id) := by
  have hv := checked_of_verify hid
  obtain ⟨paid, hpaid⟩ := hv.paid
  let set : ValidatorSet := ⟨request.validators, request.threshold⟩
  have hown₁ := (Store.get_registered_own s id (account request.name set header.time)
    (.fresh config.feeToken config.minFeePerByte) set).trans hown
  unfold execute
  refine StoreM.ends_load hconfig (StoreM.ends_get (StoreM.ends_ofAttempt hid ?_))
  refine StoreM.ends_save (StoreM.ends_save (StoreM.ends_save (StoreM.ends_save
    (StoreM.ends_save ?_))))
  refine (StoreM.ends_withContext hown₁ (Q := fun r s' =>
    r.1 = (handshake config id request.name).message own ∧
      (s.registered id (account request.name set header.time)
        (.fresh config.feeToken config.minFeePerByte) set).Sends r.1 s' ∧
      r.2 = (Action.register id request.name r.1).events)
    (ends_handshake hs hv rfl set hnow hown)).bind ?_
  rintro ⟨m, events⟩ s' ⟨hm, hsend, hevents⟩
  refine StoreM.ends_ofAttempt hpaid (StoreM.ends_pure ⟨?_, ?_, paid, hpaid, rfl⟩)
  · exact hm ▸ hsend
  · exact hm ▸ hevents

/-- **An accepted registration registers the chain**, unless the hub is out of nonces. -/
theorem ends_execute {s : Store} (hs : Consistent s) {header : BlockHeader} {funds : List Coin}
    {request : RegistrationRequest} {config : Config} (hconfig : s.get .config = some config)
    {id : ChainId} (hid : verify s config funds request = .ok id) {k : Cause}
    (hnow : header.time = k.now) :
    StoreM.Ends (execute header funds request) s fun response s' =>
      ∃ m, Trace k s [.register id request.name m] s' ∧
        response.events = [Action.register id request.name m].flatMap Action.events := by
  have hv := checked_of_verify hid
  obtain ⟨own, hown, hnetwork⟩ := hv.own
  refine (ends_performed hs hconfig hid hown hnow).mono fun response s' hperformed => ?_
  have hsend := hperformed.sends
  rw [hnow] at hsend
  refine ⟨_, .single (.register hconfig hown hnetwork hv.side hv.new (hs.channel_eq_none hv.new)
    hv.free hv.validators hsend), ?_⟩
  rw [List.flatMap_singleton, hperformed.events]

end Registration

namespace Staleness

/-! ## Termination of stale chains -/

/-- What the check has established about a chain that is to be terminated. -/
theorem of_verify {s : Store} {now : UInt64} {chainId : Bytes} {id : ChainId}
    (h : verify s now chainId = .ok id) :
    parseChainId chainId = .ok id ∧
      ∃ account, s.get (.account id) = some account ∧ account.isStale now = true := by
  unfold verify at h
  obtain ⟨id', hid, h⟩ := Attempt.bind_eq_ok_iff.mp h
  split at h
  · cases h
  · dsimp only at h
    simp only [Attempt.throw_bind, Attempt.ite_throw_eq_ok_iff] at h
    obtain ⟨-, h⟩ := h
    split at h
    · cases h
    · rename_i account haccount
      simp only [Attempt.ite_throw_eq_ok_iff, Attempt.ite_eq_ok_iff,
        Attempt.pure_eq_ok_iff] at h
      obtain ⟨-, hstale, rfl⟩ := h
      exact ⟨hid, account, haccount, hstale⟩

/-- **A stale chain is terminated**, unless a counter is at its limit. -/
theorem ends_execute {s : Store} (hs : Consistent s) {header : BlockHeader} {chainId : Bytes}
    {id : ChainId} (hid : verify s header.time chainId = .ok id) {k : Cause}
    (hnow : header.time = k.now) (hcause : k.accused = some id) :
    StoreM.Ends (execute header chainId) s fun response s' =>
      ∃ acts, Trace k s acts s' ∧ response.events = acts.flatMap Action.events := by
  obtain ⟨-, account, hget, hstale⟩ := of_verify hid
  rw [hnow] at hstale
  have hcloses : k.Closes id account := Or.inr ⟨hstale, Or.inr hcause⟩
  obtain ⟨own, hown, -⟩ := hs.own
  unfold execute
  refine StoreM.ends_get (StoreM.ends_ofAttempt (Attempt.lift_eq_ok_iff.mpr hid) ?_)
  refine (StoreM.ends_withContext hown (Q := fun r s' => ∃ acts,
    Trace k s acts s' ∧ r.2 = acts.flatMap Action.events) ?_).bind ?_
  · refine (ends_terminateChain (sound_start hs hown hnow) hget (Or.inr hcloses)).mono ?_
    rintro - c (⟨-, rfl⟩ | ⟨-, notice, hreach⟩)
    · exact ⟨[], .nil s, rfl⟩
    · exact ⟨_, hreach.trace, hreach.events⟩
  · rintro ⟨⟨⟩, events⟩ s' ⟨acts, htrace, hevents⟩
    exact StoreM.ends_pure ⟨acts, htrace, hevents⟩

end Staleness

namespace Update

/-! ## Updates -/

/-- **An accepted update succeeds**, unless a counter is at its limit. -/
theorem ends_execute {s : Store} (hs : Consistent s) {header : BlockHeader}
    {request : UpdateRequest} {own : OwnAccount} (hown : s.get .own = some own) {v : Verified}
    (hv : verify s own.chainId header.time request = .ok v) {k : Cause}
    (hnow : header.time = k.now) (hcause : k.sender = some v.sender)
    (hcertificate : k.certificate = request.certificate?) :
    StoreM.Ends (execute .default header request) s fun response s' =>
      ∃ acts o, Trace k s acts s' ∧ response.events = acts.flatMap Action.events ∧
        Performed k v request.inbox.messages s o acts s' := by
  have hchecked := checked_of_verify hv
  have hne := hs.ne_own hchecked.account hown
  unfold execute
  refine StoreM.ends_load hown (StoreM.ends_get (StoreM.ends_ofAttempt hv ?_))
  refine (StoreM.ends_withContext hown (Q := fun r s' => ∃ acts, Trace k s acts s' ∧
    r.2 = acts.flatMap Action.events ∧
      Performed k v request.inbox.messages s r.1 acts s') ?_).bind ?_
  · refine (ends_perform (sound_start hs hown hnow) (hnow ▸ hchecked) hne hcause
      (hcertificate.trans hchecked.certificate.symm) _).mono ?_
    rintro o c ⟨acts, hreach, hperformed⟩
    exact ⟨acts, hreach.trace, hreach.events, hperformed⟩
  · rintro ⟨o, events⟩ s' ⟨acts, htrace, hevents, hperformed⟩
    exact StoreM.ends_pure ⟨acts, o, htrace, hevents, hperformed⟩

end Update

namespace Recovery

/-! ## Recoveries -/

/-- **When an initialization passes its check**: the chain is terminated, its outbox is not frozen,
and the channel is proven from its last state. -/
theorem verifyInit_eq_ok_iff {s : Store} {request : RecoveryInitRequest} {id : ChainId}
    {partner : Channel} :
    verifyInit s request = .ok (id, partner) ↔
      parseChainId request.chainId = .ok id ∧ ∃ own state, s.get .own = some own ∧
        s.get (.terminatedState id) = some state ∧ state.initialized = true ∧
        s.get (.terminatedOutbox id) = none ∧
        (Wire.decode request.channel : Except WireError Channel) = .ok partner ∧
        Sparse.includes state.stateRoot (channelKey own.chainId) request.channel request.proof =
          true := by
  unfold verifyInit
  rw [Attempt.bind_eq_ok_iff]
  constructor
  · rintro ⟨id', hid, h⟩
    split at h
    · cases h
    · rename_i own hown
      split at h
      · cases h
      · rename_i state hstate
        rw [Option.filter_eq_some_iff] at hstate
        dsimp only at h
        simp only [Attempt.throw_bind, Attempt.ite_throw_eq_ok_iff] at h
        obtain ⟨hnone, h⟩ := h
        split at h
        · cases h
        · rename_i channel hdecode
          rw [Attempt.ite_eq_ok_iff] at h
          obtain ⟨hincludes, h⟩ := h
          cases h
          exact ⟨hid, own, state, hown, hstate.1, hstate.2, by simpa using hnone, hdecode,
            hincludes⟩
  · rintro ⟨hid, own, state, hown, hstate, hinitialized, hnone, hdecode, hincludes⟩
    refine ⟨id, hid, ?_⟩
    rw [show s.own = some own from hown, hstate, Option.filter_some, if_pos hinitialized]
    dsimp only
    rw [hnone, hdecode]
    exact if_pos hincludes

/-- What the check has established about a chain whose outbox is to be frozen. -/
theorem of_verifyInit {s : Store} {request : RecoveryInitRequest} {id : ChainId}
    {partner : Channel} (h : verifyInit s request = .ok (id, partner)) :
    parseChainId request.chainId = .ok id ∧ (∃ state, s.get (.terminatedState id) = some state) ∧
      s.get (.terminatedOutbox id) = none := by
  obtain ⟨hid, own, state, -, hstate, -, hnone, -⟩ := verifyInit_eq_ok_iff.mp h
  exact ⟨hid, ⟨state, hstate⟩, hnone⟩

/-- **An accepted initialization freezes the outbox** and does nothing else. -/
theorem ends_start {s : Store} (hs : Consistent s) {request : RecoveryInitRequest} {id : ChainId}
    {partner : Channel} (hid : verifyInit s request = .ok (id, partner)) {k : Cause}
    (hcause : k.recovering = some id) :
    StoreM.Ends (start request) s fun response s' =>
      ∃ channel, s.get (.channel id) = some channel ∧
        Trace k s [.freeze id (channel.frozenOutbox partner.inbox.size)] s' ∧
        response.events = [.terminatedOutboxCreated id (channel.frozenOutbox partner.inbox.size)] ∧
        s'.get (.terminatedOutbox id) = some (channel.frozenOutbox partner.inbox.size) := by
  obtain ⟨-, ⟨state, hstate⟩, hnone⟩ := of_verifyInit hid
  have hclosed := hs.state _ _ hstate
  obtain ⟨account, haccount, -⟩ := hclosed
  obtain ⟨channel, hchannel⟩ := hs.channel _ _ haccount
  unfold start
  refine StoreM.ends_get (StoreM.ends_ofAttempt (Attempt.lift_eq_ok_iff.mpr hid) ?_)
  refine StoreM.ends_load hchannel (StoreM.ends_save (StoreM.ends_pure ⟨channel, hchannel, ?_, rfl,
    ?_⟩))
  · exact .single (.freeze hcause (hs.state _ _ hstate) hnone hchannel)
  · exact Store.get_put_self s (.terminatedOutbox id)
      (some (channel.frozenOutbox partner.inbox.size))

/-- **An accepted recovery succeeds**, unless a counter is at its limit. -/
theorem ends_execute {s : Store} (hs : Consistent s) {header : BlockHeader}
    {request : RecoveryRequest} {own : OwnAccount} (hown : s.get .own = some own) {v : Verified}
    (hv : verify s own.chainId header.time request = .ok v) {k : Cause}
    (hnow : header.time = k.now) (hcause : k.recovering = some v.id)
    (hrecovered : k.recovered = request.messages) :
    StoreM.Ends (execute .default header request) s fun response s' =>
      ∃ acts root, Trace k s acts s' ∧ response.events = acts.flatMap Action.events ∧
        Merkle.rootOfLeaves v.outbox.size v.indexes
          (v.messages.map fun m => leafHash m.recovered.encode) v.siblings = .ok root ∧
        s'.get (.terminatedOutbox v.id) = some { v.outbox with root := root } := by
  have hchecked := checked_of_verify hv
  unfold execute
  refine StoreM.ends_load hown (StoreM.ends_get (StoreM.ends_ofAttempt hv ?_))
  refine (StoreM.ends_withContext hown (Q := fun r s' => ∃ acts root, Trace k s acts s' ∧
    r.2 = acts.flatMap Action.events ∧
    Merkle.rootOfLeaves v.outbox.size v.indexes
      (v.messages.map fun m => leafHash m.recovered.encode) v.siblings = .ok root ∧
    s'.get (.terminatedOutbox v.id) = some { v.outbox with root := root }) ?_).bind ?_
  · refine (ends_perform (sound_start hs hown hnow) (hnow ▸ hchecked) hcause hrecovered).mono ?_
    rintro delivered c ⟨acts, root, hreach, hroot, hget⟩
    exact ⟨acts, root, hreach.trace, hreach.events, hroot, hget⟩
  · rintro ⟨delivered, events⟩ s' ⟨acts, root, htrace, hevents, hroot, hget⟩
    exact StoreM.ends_pure ⟨acts, root, htrace, hevents, hroot, hget⟩

end Recovery

/-! ## All calls -/

namespace Call

/-- What a successful call has done, beyond its actions: an update has dealt with its messages in
order, and a recovery has replaced the frozen root. -/
def Effect (k : Call) (s : Store) (acts : List Action) (s' : Store) : Prop :=
  match k.request with
  | .update request =>
    ∃ own v o, s.get .own = some own ∧
      Update.verify s own.chainId k.header.time request = .ok v ∧
      Update.Performed k.cause v request.inbox.messages s o acts s'
  | .initRecovery request =>
    ∃ id partner channel, Recovery.verifyInit s request = .ok (id, partner) ∧
      s.get (.channel id) = some channel ∧
      s'.get (.terminatedOutbox id) = some (channel.frozenOutbox partner.inbox.size)
  | .recover request =>
    ∃ own v root, s.get .own = some own ∧
      Recovery.verify s own.chainId k.header.time request = .ok v ∧
      Merkle.rootOfLeaves v.outbox.size v.indexes
        (v.messages.map fun m => leafHash m.recovered.encode) v.siblings = .ok root ∧
      s'.get (.terminatedOutbox v.id) = some { v.outbox with root := root }
  | _ => True

/-- A call that delivers an update of a chain has dealt with the messages of this chain. -/
theorem Effect.of_sender {k : Call} {s s' : Store} {acts : List Action} {id : ChainId}
    (h : k.Effect s acts s') (hsender : k.sender? = some id) :
    ∃ (request : UpdateRequest) (own : OwnAccount) (v : Update.Verified) (o : Update.Outcome),
      k.request = .update request ∧ v.sender = id ∧
        Update.verify s own.chainId k.header.time request = .ok v ∧
          Update.Performed k.cause v request.inbox.messages s o acts s' := by
  obtain ⟨header, funds, request⟩ := k
  cases request with
  | update request =>
    obtain ⟨own, v, o, -, hv, hperformed⟩ := h
    exact ⟨request, own, v, o, rfl,
      Attempt.eq_of_toOption (Update.checked_of_verify hv).sender hsender, hv, hperformed⟩
  | _ => cases hsender

/-- **A call that passes its check is carried out by actions**, or aborted at a limit. -/
theorem ends {k : Call} {s : Store} (hs : Consistent s) (h : k.verdict s = .ok ()) :
    StoreM.Ends k.run s fun response s' =>
      ∃ acts, Trace k.cause s acts s' ∧ response.events = acts.flatMap Action.events ∧
        k.Effect s acts s' := by
  obtain ⟨header, funds, request⟩ := k
  cases request with
  | register request =>
    obtain ⟨config, hconfig, h⟩ := Attempt.bind_eq_ok_iff.mp h
    obtain ⟨id, hid, -⟩ := Attempt.bind_eq_ok_iff.mp h
    rw [Attempt.require_eq_ok_iff] at hconfig
    refine (Registration.ends_execute hs hconfig hid
      (k := cause ⟨header, funds, .register request⟩) rfl).mono ?_
    rintro response s' ⟨m, htrace, hevents⟩
    exact ⟨_, htrace, hevents, trivial⟩
  | update request =>
    obtain ⟨own, hown, h⟩ := Attempt.bind_eq_ok_iff.mp h
    obtain ⟨v, hv, -⟩ := Attempt.bind_eq_ok_iff.mp h
    rw [Attempt.require_eq_ok_iff] at hown
    have hcause : (parseChainId request.sender).toOption = some v.sender :=
      Attempt.toOption_eq_some_iff.mpr (Update.checked_of_verify hv).sender
    refine (Update.ends_execute hs hown hv (k := cause ⟨header, funds, .update request⟩) rfl
      hcause rfl).mono ?_
    rintro response s' ⟨acts, o, htrace, hevents, hperformed⟩
    exact ⟨acts, htrace, hevents, own, v, o, hown, hv, hperformed⟩
  | terminateForLiveness chainId =>
    obtain ⟨id, hid, -⟩ := Attempt.bind_eq_ok_iff.mp h
    rw [Attempt.lift_eq_ok_iff] at hid
    have hcause : (parseChainId chainId).toOption = some id :=
      Attempt.toOption_eq_some_iff.mpr (Staleness.of_verify hid).1
    refine (Staleness.ends_execute hs hid
      (k := cause ⟨header, funds, .terminateForLiveness chainId⟩) rfl hcause).mono ?_
    rintro response s' ⟨acts, htrace, hevents⟩
    exact ⟨acts, htrace, hevents, trivial⟩
  | initRecovery request =>
    obtain ⟨⟨id, partner⟩, hid, -⟩ := Attempt.bind_eq_ok_iff.mp h
    rw [Attempt.lift_eq_ok_iff] at hid
    have hcause : (parseChainId request.chainId).toOption = some id :=
      Attempt.toOption_eq_some_iff.mpr (Recovery.of_verifyInit hid).1
    refine (Recovery.ends_start hs hid (k := cause ⟨header, funds, .initRecovery request⟩)
      hcause).mono ?_
    rintro response s' ⟨channel, hchannel, htrace, hevents, hget⟩
    exact ⟨_, htrace, hevents, id, partner, channel, hid, hchannel, hget⟩
  | recover request =>
    obtain ⟨own, hown, h⟩ := Attempt.bind_eq_ok_iff.mp h
    obtain ⟨v, hv, -⟩ := Attempt.bind_eq_ok_iff.mp h
    rw [Attempt.require_eq_ok_iff] at hown
    have hcause : (parseChainId request.chainId).toOption = some v.id :=
      Attempt.toOption_eq_some_iff.mpr (Recovery.checked_of_verify hv).id
    refine (Recovery.ends_execute hs hown hv (k := cause ⟨header, funds, .recover request⟩) rfl
      hcause rfl).mono ?_
    rintro response s' ⟨acts, root, htrace, hevents, hroot, hget⟩
    exact ⟨acts, htrace, hevents, own, v, root, hown, hv, hroot, hget⟩

/-- **A call that fails its check has written nothing.** -/
theorem run_of_error {k : Call} {s : Store} {f : Failure HubError} (h : k.verdict s = .error f) :
    k.run s = .error f s := by
  obtain ⟨header, funds, request⟩ := k
  cases request with
  | register request => exact StoreM.load_check_eq_error h
  | update request => exact StoreM.load_check_eq_error h
  | terminateForLiveness chainId => exact StoreM.check_eq_error _ h
  | initRecovery request => exact StoreM.check_eq_error _ h
  | recover request => exact StoreM.load_check_eq_error h

end Call

end ChainHub
