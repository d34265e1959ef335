import ChainHub.Hub.Answer
import ChainHub.Proofs.Hub.Coherent
import ChainHub.Proofs.Hub.Monotone
import Mathlib.Algebra.GroupWithZero.Nat

/-!
# What is available can be registered

A client asks whether an id and a name are available before it pays for a registration. The answers
decide, together with the validators and the coins, whether the registration succeeds: nothing that
comes after its check can fail while the hub has nonces left.

* `Store.isFreeChainId_eq_true_iff`, `Store.isFreeChainName_eq_true_iff`: what a positive answer
  says.
* `Registration.payment_eq_ok_iff`: the coins of the fee are added up as numbers.
* `Registration.execute_eq_ok`: a registration that passes its check succeeds.
* `Step.taken`, `taken_afterAll`: an id and a name that are taken stay taken.
* `Run.registers_iff_available`: a registration succeeds when its id and its name are available, its
  validators are legal and its coins pay the fee; after it neither is available ever again.
-/

namespace ChainHub

open HubM

/-! ## Coins -/

/-- The amounts of the coins, added up. -/
def Coin.total (coins : List Coin) : Nat := (coins.map fun coin => coin.amount.val).sum

/-- The coins of one denomination. -/
def Coin.inDenom (denom : String) (coins : List Coin) : List Coin :=
  coins.filter fun coin => coin.denom == denom

theorem Coin.inDenom_eq_self {denom : String} {coins : List Coin}
    (h : ∀ coin ∈ coins, coin.denom = denom) : inDenom denom coins = coins :=
  List.filter_eq_self.mpr fun coin hcoin => by simpa using h coin hcoin

theorem Amount.sum?_eq_some_iff {amounts : List Amount} {total : Amount} :
    sum? amounts = some total ↔ (amounts.map Amount.val).sum = total.val := by
  have hfold : amounts.foldl (fun sum a => sum + a.val) 0 = (amounts.map Amount.val).sum := by
    rw [List.sum_eq_foldl, List.foldl_map]
  unfold sum? ofNat?
  rw [hfold]
  constructor
  · intro h
    split at h
    · cases h
      rfl
    · cases h
  · intro h
    rw [dif_pos (h ▸ total.val_lt)]
    exact congrArg some (Amount.ext h)

theorem Registration.payment_eq_ok_iff {funds : List Coin} {denom : String} {paid : Amount} :
    payment funds denom = .ok paid ↔ Coin.total (Coin.inDenom denom funds) = paid.val := by
  unfold payment
  rw [Attempt.ofOption_eq_ok_iff, Amount.sum?_eq_some_iff, List.map_map]
  rfl

/-! ## Answers -/

section

variable {s : Store} {own : OwnAccount} {id : ChainId} {name : String}

theorem Store.isFreeChainId_eq_true_iff :
    s.isFreeChainId own id = true ↔ id.network = own.chainId.network ∧ id.isMainchain = false ∧
      s.get (.account id) = none := by
  simp [isFreeChainId, and_assoc]

theorem Store.isFreeChainName_eq_true_iff :
    s.isFreeChainName name = true ↔ isChainName name = true ∧ s.get (.name name) = none := by
  simp [isFreeChainName]

/-- An id is available when it can be read and is free. -/
theorem Query.answer_isChainIdAvailable {bytes : Bytes} (hown : s.get .own = some own)
    (now : UInt64) :
    answer s now (.isChainIdAvailable bytes) =
      .ok (.available ((parseChainId bytes).toOption.any fun id => s.isFreeChainId own id)) := by
  have hload : load s.own = .ok own := by
    unfold load
    rw [show s.own = some own from hown]
  unfold answer
  dsimp only
  cases parseChainId bytes with
  | error e => rfl
  | ok id =>
    dsimp only
    rw [hload]
    rfl

theorem Query.answer_isChainNameAvailable (now : UInt64) :
    answer s now (.isChainNameAvailable name) = .ok (.available (s.isFreeChainName name)) := rfl

end

/-! ## Registration -/

namespace Registration

variable {s : Store} {funds : List Coin} {request : RegistrationRequest}
  {config : Config} {id : ChainId} {own : OwnAccount}

/-- The check of a registration asks for what the two answers say. -/
theorem exists_verify_iff (hown : s.get .own = some own) (now : UInt64)
    (htotal : Coin.total (Coin.inDenom config.registrationFee.denom funds) < amountLimit) :
    (∃ id, verify s config funds request = .ok id) ↔
      Query.answer s now (.isChainIdAvailable request.chainId) = .ok (.available true) ∧
      Query.answer s now (.isChainNameAvailable request.name) = .ok (.available true) ∧
      ValidatorSet.check ⟨request.validators, request.threshold⟩ = .ok () ∧
      (∀ coin ∈ funds, coin.denom = config.registrationFee.denom) ∧
      config.registrationFee.amount.val ≤ Coin.total funds := by
  simp only [verify_eq_ok_iff, verifyFunds_eq_ok_iff, payment_eq_ok_iff,
    Query.answer_isChainIdAvailable hown, Query.answer_isChainNameAvailable, Except.ok.injEq,
    Answer.available.injEq, Option.any_eq_true, Attempt.toOption_eq_some_iff,
    Store.isFreeChainId_eq_true_iff, Store.isFreeChainName_eq_true_iff]
  constructor
  · rintro ⟨id, hid, own', hown', hchain, hname, hset, hdenom, paid, hpaid, hle⟩
    rw [hown] at hown'
    cases hown'
    rw [Coin.inDenom_eq_self hdenom] at hpaid
    exact ⟨⟨id, hid, hchain⟩, hname, hset, hdenom, hpaid ▸ hle⟩
  · rintro ⟨⟨id, hid, hchain⟩, hname, hset, hdenom, hle⟩
    have hall : Coin.total (Coin.inDenom config.registrationFee.denom funds) = Coin.total funds :=
      congrArg Coin.total (Coin.inDenom_eq_self hdenom)
    exact ⟨id, hid, own, hown, hchain, hname, hset, hdenom, ⟨Coin.total funds, hall ▸ htotal⟩, hall,
      hle⟩

/-- The handshake goes into the empty outbox of the new chain. -/
theorem handshake_eq_ok (header : BlockHeader) (new : ChainAccount) (set : ValidatorSet)
    (hs : Consistent s) (hv : Checked s funds config request id)
    (hown : s.get .own = some own) (hroom : own.nonce.toNat + 1 < UInt64.size)
    (hnew : new.status = .registered) :
    ∃ m c, (do
        emit (.accountUpdated id .registered)
        HubM.sendInternal (handshake config id request.name))
      (.start (s.registered id new (.fresh config.feeToken config.minFeePerByte) set) header
        own.chainId) = .ok m c := by
  let channel := Channel.fresh config.feeToken config.minFeePerByte
  let c := (Context.start (s.registered id new channel set) header own.chainId).emit
    (.accountUpdated id .registered)
  have haccount : c.store.get (.account id) = some new :=
    (Store.get_registered_account ..).trans (if_pos rfl)
  have hchannel : c.store.get (.channel id) = some channel :=
    (Store.get_registered_channel ..).trans (if_pos rfl)
  have hown₁ : c.store.get .own = some own := (Store.get_registered_own ..).trans hown
  have hstore : Consistent c.store := hv.consistent_registered hs new set
  obtain ⟨c', hsend, -⟩ := sendNotice_eq_ok (c := c) (sendable_handshake config id hv.name) hown₁
    (hstore.ne_own haccount hown₁) hroom hchannel
    (Accumulator.built_empty.hasRoom (show 0 + 1 < UInt64.size by decide))
  refine ⟨(handshake config id request.name).message own, c', (bind_of_ok rfl).trans ?_⟩
  unfold HubM.sendInternal
  refine (bind_of_ok (show get? _ c = .ok (c.store.get (.account id)) c from rfl)).trans ?_
  rw [haccount]
  dsimp only
  rw [hnew]
  exact hsend

/-- **A registration that passes its check succeeds** while the hub has nonces left. -/
theorem execute_eq_ok (header : BlockHeader) (hs : Consistent s)
    (hconfig : s.get .config = some config) (hid : verify s config funds request = .ok id)
    (hown : s.get .own = some own)
    (hroom : own.nonce.toNat + 1 < UInt64.size) :
    ∃ response s', execute header funds request s = .ok response s' := by
  have hv := checked_of_verify hid
  obtain ⟨paid, hpaid⟩ := hv.paid
  let set : ValidatorSet := ⟨request.validators, request.threshold⟩
  obtain ⟨m, c, hhandshake⟩ := handshake_eq_ok header (account request.name set header.time) set
    hs hv hown hroom rfl
  have hcontext := (StoreM.withContext_eq_ok_iff
    ((Store.get_registered_own ..).trans hown)).mpr ⟨c, hhandshake, rfl, rfl⟩
  unfold execute
  refine exists_ok_bind (StoreM.load_eq hconfig) (exists_ok_bind rfl
    (exists_ok_bind (StoreM.ofAttempt_eq hid) ?_))
  -- the five records of the chain are written, which gives the store that the handshake starts with
  refine exists_ok_bind rfl (exists_ok_bind rfl (exists_ok_bind rfl (exists_ok_bind rfl
    (exists_ok_bind rfl (exists_ok_bind hcontext ?_)))))
  exact exists_ok_bind (StoreM.ofAttempt_eq hpaid) ⟨_, _, rfl⟩

end Registration

/-! ## What is taken -/

/-- A chain has the id, and the name is in the index. -/
structure Store.Taken (s : Store) (id : ChainId) (name : String) : Prop where
  account : ∃ account, s.get (.account id) = some account
  name : ∃ bearer, s.get (.name name) = some bearer

section

variable {k : Cause} {s s' : Store} {a : Action} {acts : List Action} {id : ChainId}
  {name : String}

/-- A name in the index stays there: a chain registers under a free name. -/
theorem Step.get_name (h : Step k s a s') {bearer : ChainId}
    (hget : s.get (.name name) = some bearer) : s'.get (.name name) = some bearer := by
  by_cases hregister : ∃ id name m, a = .register id name m
  · obtain ⟨id, other, m, rfl⟩ := hregister
    cases h with
    | register _ _ _ _ _ _ hfree _ hsend =>
      have hne : name ≠ other := by
        rintro rfl
        rw [hget] at hfree
        cases hfree
      rw [hsend.get_of_ne (by simp) (by simp), Store.get_registered_name]
      exact (if_neg hne).trans hget
  · rw [h.name_eq fun id name m heq => hregister ⟨id, name, m, heq⟩, hget]

/-- **What is taken stays taken**, whatever happens. -/
theorem Step.taken (h : Step k s a s') (htaken : s.Taken id name) : s'.Taken id name := by
  obtain ⟨⟨account, haccount⟩, bearer, hbearer⟩ := htaken
  obtain ⟨next, hnext, -⟩ := h.account_advances haccount
  exact ⟨⟨next, hnext⟩, bearer, h.get_name hbearer⟩

theorem taken_afterAll (hs : Consistent s) (htaken : s.Taken id name) (calls : List Call) :
    (afterAll calls s).Taken id name := by
  induction calls generalizing s with
  | nil => exact htaken
  | cons k rest ih =>
    obtain ⟨acts, htrace⟩ := k.exists_trace hs
    exact ih (Call.consistent_after hs) (htrace.induction Step.taken htaken)

/-- An id and a name that are taken are not available. -/
theorem Store.Taken.answers (hs : Consistent s) (htaken : s.Taken id name) {bytes : Bytes}
    (hid : parseChainId bytes = .ok id) (now : UInt64) :
    Query.answer s now (.isChainIdAvailable bytes) = .ok (.available false) ∧
      Query.answer s now (.isChainNameAvailable name) = .ok (.available false) := by
  obtain ⟨own, hown, -⟩ := hs.own
  obtain ⟨⟨account, haccount⟩, bearer, hbearer⟩ := htaken
  rw [Query.answer_isChainIdAvailable hown, Query.answer_isChainNameAvailable, hid]
  constructor
  · simp [Except.toOption, isFreeChainId, haccount]
  · simp [isFreeChainName, hbearer]

end

/-! ## Runs -/

/-- The request to register a chain, as a call. -/
def RegistrationRequest.call (request : RegistrationRequest) (header : BlockHeader)
    (funds : List Coin) : Call :=
  ⟨header, funds, .register request⟩

namespace Registration

variable {s : Store} {request : RegistrationRequest} {header : BlockHeader} {funds : List Coin}
  {response : Response}

/-- A registration that succeeds has passed its check. -/
theorem exists_verify_of_accepted
    (h : (request.call header funds).response? s = some response) :
    ∃ config id, s.get .config = some config ∧ verify s config funds request = .ok id := by
  obtain ⟨config, hconfig, hverdict⟩ := Attempt.bind_eq_ok_iff.mp (Call.verdict_of_accepted h)
  obtain ⟨id, hid, -⟩ := Attempt.bind_eq_ok_iff.mp hverdict
  exact ⟨config, id, Attempt.require_eq_ok_iff.mp hconfig, hid⟩

theorem performed_of_accepted (hs : Consistent s)
    (h : (request.call header funds).response? s = some response) :
    ∃ config own id, s.get .config = some config ∧ s.get .own = some own ∧
      verify s config funds request = .ok id ∧
      Performed s own header funds config request id response
        ((request.call header funds).after s) := by
  obtain ⟨config, id, hconfig, hid⟩ := exists_verify_of_accepted h
  obtain ⟨own, hown, -⟩ := hs.own
  exact ⟨config, own, id, hconfig, hown, hid, (ends_performed hs hconfig hid hown
    (k := (request.call header funds).cause) rfl).of_ok (Call.run_of_accepted h)⟩

/-- After it the id and the name are taken. -/
theorem taken_of_accepted (hs : Consistent s)
    (h : (request.call header funds).response? s = some response) :
    ∃ id, parseChainId request.chainId = .ok id ∧
      ((request.call header funds).after s).Taken id request.name := by
  obtain ⟨config, own, id, -, -, hid, hperformed⟩ := performed_of_accepted hs h
  refine ⟨id, (verify_eq_ok_iff.mp hid).1, ?_, ?_⟩
  · rw [hperformed.sends.get_of_ne (by simp) (by simp), Store.get_registered_account, if_pos rfl]
    exact ⟨_, rfl⟩
  · rw [hperformed.sends.get_of_ne (by simp) (by simp), Store.get_registered_name]
    exact ⟨_, if_pos rfl⟩

end Registration

/-- **What is available can be registered, and only that.** -/
theorem Run.registers_iff_available (r : Run) {own : OwnAccount} {config : Config}
    (hown : r.store.get .own = some own) (hconfig : r.store.get .config = some config)
    (hroom : own.nonce.toNat + 1 < UInt64.size) (request : RegistrationRequest)
    (header : BlockHeader) (funds : List Coin)
    (htotal : Coin.total (Coin.inDenom config.registrationFee.denom funds) < amountLimit)
    (now : UInt64) :
    ((∃ response, (request.call header funds).response? r.store = some response) ↔
      Query.answer r.store now (.isChainIdAvailable request.chainId) = .ok (.available true) ∧
      Query.answer r.store now (.isChainNameAvailable request.name) = .ok (.available true) ∧
      ValidatorSet.check ⟨request.validators, request.threshold⟩ = .ok () ∧
      (∀ coin ∈ funds, coin.denom = config.registrationFee.denom) ∧
      config.registrationFee.amount.val ≤ Coin.total funds) ∧
    ((∃ response, (request.call header funds).response? r.store = some response) →
      ∀ (later : List Call) (time : UInt64),
        let s := afterAll later ((request.call header funds).after r.store)
        Query.answer s time (.isChainIdAvailable request.chainId) = .ok (.available false) ∧
        Query.answer s time (.isChainNameAvailable request.name) = .ok (.available false)) := by
  have hs := r.consistent
  constructor
  · rw [← Registration.exists_verify_iff hown now htotal]
    constructor
    · rintro ⟨response, hresponse⟩
      obtain ⟨config', id, hconfig', hid⟩ := Registration.exists_verify_of_accepted hresponse
      rw [hconfig] at hconfig'
      cases hconfig'
      exact ⟨id, hid⟩
    · rintro ⟨id, hid⟩
      obtain ⟨response, s', hexecute⟩ := Registration.execute_eq_ok header hs hconfig hid hown
        hroom
      exact ⟨response, (Call.accepted_of_run (k := request.call header funds) hexecute).1⟩
  · rintro ⟨response, hresponse⟩ later time
    obtain ⟨id, hid, htaken⟩ := Registration.taken_of_accepted hs hresponse
    exact (taken_afterAll (Call.consistent_after hs) htaken later).answers
      (consistent_afterAll (Call.consistent_after hs) later) hid time

/-- A hub that charges five coins for a registration, before any call. -/
def Run.charging : Run where
  setup := { Run.silent.setup with registrationFee := ⟨"ustake", ⟨5, by decide⟩⟩ }
  ready := by decide +kernel
  calls := []

/-- A registration with seven coins in three parts, one of them empty. -/
def Run.sevenAttached : Call :=
  RegistrationRequest.call ⟨silentChain.toList, "alpha", [⟨List.replicate 48 1, 1⟩], 1⟩ ⟨1, 100⟩
    [⟨"ustake", ⟨3, by decide⟩⟩, ⟨"ustake", Amount.zero⟩, ⟨"ustake", ⟨4, by decide⟩⟩]

/-- Seven coins pay a fee of five and the first part of them does not. After the registration its id
and its name are not available, not even when the chain has been terminated. -/
theorem Run.registers_iff_available_sevenAttached :
    ∃ own config, charging.store.get .own = some own ∧ charging.store.get .config = some config ∧
      own.nonce.toNat + 1 < UInt64.size ∧
      Coin.total (Coin.inDenom config.registrationFee.denom sevenAttached.funds) < amountLimit ∧
      config.registrationFee.amount.val = 5 ∧ Coin.total sevenAttached.funds = 7 ∧
      (∃ response, sevenAttached.response? charging.store = some response) ∧
      (¬ ∃ response, { sevenAttached with funds := sevenAttached.funds.take 1 }.response?
        charging.store = some response) ∧
      (closing.response? (sevenAttached.after charging.store)).isSome = true ∧
      Query.answer (closing.after (sevenAttached.after charging.store)) 3000000
        (.isChainIdAvailable silentChain.toList) = .ok (.available false) ∧
      Query.answer (closing.after (sevenAttached.after charging.store)) 3000000
        (.isChainNameAvailable "alpha") = .ok (.available false) := by
  have hown : charging.store.get .own = some ⟨ChainId.mainchain 0, "hub", 0⟩ := by decide +kernel
  have hconfig : charging.store.get .config =
      some ⟨"collector", ⟨"ustake", ⟨5, by decide⟩⟩, .zero 8, 0⟩ := by decide +kernel
  obtain ⟨hiff, hlater⟩ := charging.registers_iff_available hown hconfig (by decide)
    ⟨silentChain.toList, "alpha", [⟨List.replicate 48 1, 1⟩], 1⟩ ⟨1, 100⟩ sevenAttached.funds
    (by decide) 100
  obtain ⟨hless, -⟩ := charging.registers_iff_available hown hconfig (by decide)
    ⟨silentChain.toList, "alpha", [⟨List.replicate 48 1, 1⟩], 1⟩ ⟨1, 100⟩
    (sevenAttached.funds.take 1) (by decide) 100
  have haccepted : ∃ response, sevenAttached.response? charging.store = some response :=
    hiff.mpr ⟨by decide +kernel, by decide +kernel, by decide, by decide, by decide⟩
  refine ⟨_, _, hown, hconfig, by decide, by decide, rfl, rfl, haccepted, fun hpaid => ?_,
    by decide +kernel, hlater haccepted [closing] 3000000⟩
  -- Three coins are less than the fee.
  have hfee := (hless.mp hpaid).2.2.2.2
  exact absurd hfee (by decide)

end ChainHub
