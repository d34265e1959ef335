import ChainHub.Proofs.Hub.Availability

/-!
# What a registration takes and writes

Coins come in with a registration. The hub checks what they add up to, writes the records of the new
chain and sends it the handshake, and pays the coins out again.

* `Coin.amountOf`, `Payment.amountOf`: what coins or payments amount to in one denomination.
* `Registration.HandsOn`: payments that hand all coins on to the fee collector.
* `Registration.handsOn`: so do the payments of a registration that has passed its check.
* `Slot.newChain`, `Registers`: the places that a registration writes, and what it writes there.
* `Run.registration_keeps_nothing`: an accepted registration keeps nothing of what was attached and
  writes nothing but the records of the new chain and the nonce of the hub.
-/

namespace ChainHub

/-! ## Coins in and out -/

/-- What the coins amount to in one denomination. -/
def Coin.amountOf (denom : String) (coins : List Coin) : Nat := total (inDenom denom coins)

/-- What the payments amount to in one denomination. -/
def Payment.amountOf (denom : String) (payments : List Payment) : Nat :=
  Coin.amountOf denom (payments.flatMap Payment.coins)

theorem Coin.amountOf_eq_total {denom : String} {coins : List Coin}
    (h : ∀ coin ∈ coins, coin.denom = denom) : amountOf denom coins = total coins :=
  congrArg total (inDenom_eq_self h)

theorem Coin.amountOf_eq_zero {denom other : String} {coins : List Coin}
    (h : ∀ coin ∈ coins, coin.denom = denom) (hne : denom ≠ other) : amountOf other coins = 0 := by
  have hnone : inDenom other coins = [] :=
    List.filter_eq_nil_iff.mpr fun coin hcoin => by simpa [h coin hcoin] using hne
  rw [amountOf, hnone]
  rfl

/-- The payments hand on to the fee collector what was attached: coins of the fee's denomination,
as much as the fee or more. -/
structure Registration.HandsOn (config : Config) (funds : List Coin) (payments : List Payment) :
    Prop where
  denom : ∀ coin ∈ funds, coin.denom = config.registrationFee.denom
  covers : config.registrationFee.amount.val ≤ Coin.total funds
  none_iff : payments = [] ↔ Coin.total funds = 0
  one : Coin.total funds ≠ 0 → ∃ paid : Amount, paid.val = Coin.total funds ∧
    payments = [⟨config.feeCollector, [⟨config.registrationFee.denom, paid⟩]⟩]
  /-- Nothing stays. -/
  conserved : ∀ denom, Payment.amountOf denom payments = Coin.amountOf denom funds

namespace Registration

variable {funds : List Coin} {config : Config} {paid : Amount}

theorem amountOf_payments (config : Config) (paid : Amount) :
    Payment.amountOf config.registrationFee.denom (payments config paid) = paid.val := by
  unfold payments
  split
  · rename_i hzero
    exact hzero.symm
  · exact Coin.amountOf_eq_total (by simp)

theorem amountOf_payments_of_ne (config : Config) (paid : Amount) {denom : String}
    (hne : config.registrationFee.denom ≠ denom) :
    Payment.amountOf denom (payments config paid) = 0 := by
  refine Coin.amountOf_eq_zero ?_ hne
  unfold payments
  split <;> simp

/-- **Coins that pass the check are handed on in full.** -/
theorem handsOn (hfunds : verifyFunds config.registrationFee funds = .ok ())
    (hpaid : payment funds config.registrationFee.denom = .ok paid) :
    HandsOn config funds (payments config paid) := by
  obtain ⟨hdenom, checked, hchecked, hcovers⟩ := verifyFunds_eq_ok_iff.mp hfunds
  -- what was checked is added up once more before it is paid out
  obtain rfl := Except.ok.inj (hchecked.symm.trans hpaid)
  have htotal : Coin.total funds = checked.val := by
    rw [← Coin.amountOf_eq_total hdenom]
    exact payment_eq_ok_iff.mp hpaid
  constructor
  case denom => exact hdenom
  case covers => exact htotal ▸ hcovers
  case none_iff =>
    rw [htotal, payments]
    split <;> simp_all
  case one =>
    intro hne
    exact ⟨checked, htotal.symm, if_neg (htotal ▸ hne)⟩
  case conserved =>
    intro denom
    by_cases heq : config.registrationFee.denom = denom
    · subst heq
      rw [amountOf_payments, Coin.amountOf_eq_total hdenom, htotal]
    · rw [amountOf_payments_of_ne _ _ heq, Coin.amountOf_eq_zero hdenom heq]

end Registration

/-! ## Records -/

/-- The places that the registration of a chain writes. -/
def Slot.newChain (id : ChainId) (name : String) (token : TokenId) : List Slot :=
  [.account id, .channel id, .validators id, .name name, .escrow ⟨id, token⟩, .own]

/-- A chain is registered, and nothing else happens: its records are new ones, the handshake is the
only message in its outbox, and the hub has used one nonce. -/
structure Registers (s : Store) (config : Config) (own : OwnAccount) (id : ChainId)
    (new : ChainAccount) (set : ValidatorSet) (s' : Store) : Prop where
  free : s.get (.account id) = none ∧ s.get (.channel id) = none ∧ s.get (.name new.name) = none
  account : s'.get (.account id) = some new
  channel : ∃ outbox, Accumulator.empty.appendAll?
      [((Registration.handshake config id new.name).message own).encode] = some outbox ∧
    s'.get (.channel id) =
      some { Channel.fresh config.feeToken config.minFeePerByte with outbox := outbox }
  validators : s'.get (.validators id) = some set
  name : s'.get (.name new.name) = some id
  escrow : s'.get (.escrow ⟨id, config.feeToken⟩) = some Amount.zero
  nonce : own.nonce.toNat + 1 < UInt64.size ∧
    s'.get .own = some { own with nonce := own.nonce + 1 }
  /-- All other places are as they were. -/
  kept : ∀ slot, slot ∉ Slot.newChain id new.name config.feeToken → s'.get slot = s.get slot

section

variable (s : Store) (id : ChainId) (account : ChainAccount) (channel : Channel)
  (set : ValidatorSet)

theorem Store.get_registered_escrow :
    (s.registered id account channel set).get (.escrow ⟨id, channel.feeToken⟩) =
      some Amount.zero :=
  get_put_self ..

/-- The records of a new chain go to its own places. -/
theorem Store.get_registered_of_notMem {slot : Slot}
    (h : slot ∉ Slot.newChain id account.name channel.feeToken) :
    (s.registered id account channel set).get slot = s.get slot := by
  simp only [Slot.newChain, List.mem_cons, List.not_mem_nil, or_false, not_or] at h
  obtain ⟨haccount, hchannel, hvalidators, hname, hescrow, -⟩ := h
  rw [registered, get_put_of_ne _ _ (Ne.symm hescrow), get_put_of_ne _ _ (Ne.symm hname),
    get_put_of_ne _ _ (Ne.symm hvalidators), get_put_of_ne _ _ (Ne.symm hchannel),
    get_put_of_ne _ _ (Ne.symm haccount)]

end

namespace Registration

variable {s s' : Store} {funds : List Coin} {request : RegistrationRequest} {config : Config}
  {id : ChainId} {header : BlockHeader} {response : Response}

/-- **A registration that has passed its check writes the records of the new chain and the nonce of
the hub.** -/
theorem Performed.registers {own : OwnAccount} (hs : Consistent s)
    (hown : s.get .own = some own) (hv : Checked s funds config request id)
    (h : Performed s own header funds config request id response s') :
    Registers s config own id (account request.name ⟨request.validators, request.threshold⟩
      header.time) ⟨request.validators, request.threshold⟩ s' := by
  let set : ValidatorSet := ⟨request.validators, request.threshold⟩
  let new := account request.name set header.time
  let channel := Channel.fresh config.feeToken config.minFeePerByte
  have hsend := h.sends
  constructor
  case free => exact ⟨hv.new, hs.channel_eq_none hv.new, hv.free⟩
  case account =>
    rw [hsend.get_of_ne (by simp) (by simp), Store.get_registered_account, if_pos rfl]
  case channel =>
    exact hsend.channel ((Store.get_registered_channel ..).trans (if_pos rfl))
  case validators =>
    rw [hsend.get_of_ne (by simp) (by simp), Store.get_registered_validators, if_pos rfl]
  case name =>
    rw [hsend.get_of_ne (by simp) (by simp), Store.get_registered_name]
    exact if_pos rfl
  case escrow =>
    rw [hsend.get_of_ne (by simp) (by simp)]
    exact Store.get_registered_escrow s id new channel set
  case nonce => exact hsend.own ((Store.get_registered_own ..).trans hown)
  case kept =>
    intro slot hslot
    have hregistered := Store.get_registered_of_notMem s id new channel set hslot
    simp only [Slot.newChain, List.mem_cons, not_or] at hslot
    rw [hsend.get_of_ne hslot.2.1 hslot.2.2.2.2.2.1]
    exact hregistered

end Registration

/-- **A registration keeps none of the coins and writes nothing but the new chain.** Whatever coins
are attached to a registration that is accepted in a reachable store, they are handed on to the fee
collector in full; and of all places in the store only those of the new chain are written, and the
nonce of the hub. -/
theorem Run.registration_keeps_nothing (r : Run) (request : RegistrationRequest)
    (header : BlockHeader) (funds : List Coin) {response : Response}
    (h : (request.call header funds).response? r.store = some response) :
    ∃ config own id, r.store.get .config = some config ∧ r.store.get .own = some own ∧
      parseChainId request.chainId = .ok id ∧
      Registration.HandsOn config funds response.payments ∧
      Registers r.store config own id
        (Registration.account request.name ⟨request.validators, request.threshold⟩ header.time)
        ⟨request.validators, request.threshold⟩ ((request.call header funds).after r.store) := by
  obtain ⟨config, own, id, hconfig, hown, hid, hperformed⟩ :=
    Registration.performed_of_accepted r.consistent h
  obtain ⟨hparse, -, -, -, -, -, hfunds⟩ := Registration.verify_eq_ok_iff.mp hid
  obtain ⟨paid, hpaid, hpayments⟩ := hperformed.payments
  refine ⟨config, own, id, hconfig, hown, hparse, ?_, ?_⟩
  · rw [hpayments]
    exact Registration.handsOn hfunds hpaid
  · exact hperformed.registers r.consistent hown (Registration.checked_of_verify hid)

/-- More than the fee was attached, and all of it is handed on. -/
theorem Run.registration_keeps_nothing_sevenAttached :
    ∃ response, sevenAttached.response? charging.store = some response ∧
      response.payments = [⟨"collector", [⟨"ustake", ⟨7, by decide⟩⟩]⟩] := by
  have haccepted : (sevenAttached.response? charging.store).isSome = true := by decide +kernel
  obtain ⟨response, hresponse⟩ := Option.isSome_iff_exists.mp haccepted
  obtain ⟨config, -, -, hconfig, -, -, hpayments, -⟩ :=
    registration_keeps_nothing charging _ _ _ hresponse
  obtain rfl : config = ⟨"collector", ⟨"ustake", ⟨5, by decide⟩⟩, .zero 8, 0⟩ :=
    Option.some.inj (hconfig.symm.trans (by decide +kernel))
  obtain ⟨paid, hpaid, hone⟩ := hpayments.one (by decide)
  obtain rfl : paid = ⟨7, by decide⟩ := Amount.ext hpaid
  exact ⟨response, hresponse, hone⟩

end ChainHub
