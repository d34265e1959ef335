import ChainHub.Proofs.Hub.Monotone

/-!
# The chain of trust

A chain registers with validators, and each of its certificates is signed by the validators that the
hub knows and commits to those that the hub is to know from then on. So the validators that are
stored go back to the registration by signatures alone.

* `Store.Trusts`: the validators that are stored are legal, and the last certificate commits to
  them.
* `Renewed`: a certificate has taken the place of the last one, and validators that of the present
  ones.
* `Step.renewed`, `Trace.renewed`: a certificate and validators change together, in no other way.
* `Run.trust`: this holds of every reachable store and of every call.

The check of an update takes the commitment that it expects either from the new validators or from
the account, where the last certificate has left it. That both come to the same is what `Trusts`
says, and the reason why it has to be kept.
-/

namespace ChainHub

/-- The validators are legal, and the certificate commits to them. -/
structure ValidatorSet.Trusted (set : ValidatorSet) (last : CertificateSummary) : Prop where
  legal : set.check = .ok ()
  committed : last.validatorsHash = set.hash

/-- The validators that are stored are legal, and the last certificates commit to them. -/
def Store.Trusts (s : Store) : Prop :=
  ∀ id account set, s.get (.account id) = some account → s.get (.validators id) = some set →
    set.Trusted account.last

/-- The certificate of an update has taken the place of the last one. It is verified against the
validators before it and commits to the validators after it. -/
structure Renewed (k : Cause) (id : ChainId) (last : CertificateSummary) (set : ValidatorSet)
    (last' : CertificateSummary) (set' : ValidatorSet) : Prop where
  sender : k.sender = some id
  certificate : ∃ certificate, k.certificate = some certificate ∧ last' = certificate.summary ∧
    certificate.verify id last set k.now set'.hash = .ok ()

/-- A verified certificate commits to the expected validators and is signed by the present ones. -/
theorem Certificate.of_verify {certificate : Certificate} {id : ChainId}
    {last : CertificateSummary} {set : ValidatorSet} {now : UInt64} {expected : Digest}
    (h : certificate.verify id last set now expected = .ok ()) :
    certificate.validatorsHash = expected ∧ certificate.verifySignature id set = .ok () := by
  unfold verify at h
  dsimp only at h
  simp only [Attempt.throw_bind, Attempt.ite_throw_eq_ok_iff] at h
  exact ⟨not_not.mp h.2.2.1, h.2.2.2⟩

/-- Validators that succeed trusted ones are legal, and the commitment that is expected is
theirs. -/
theorem ValidatorSet.Succeeds.trusted {set next : ValidatorSet} {last : CertificateSummary}
    {expected : Digest} (h : set.Succeeds last.validatorsHash next expected)
    (htrust : set.Trusted last) : next.check = .ok () ∧ expected = next.hash := by
  cases h with
  | keep => exact ⟨htrust.legal, htrust.committed⟩
  | renew hcheck => exact ⟨hcheck, rfl⟩

section

variable {k : Cause} {s s' : Store} {a : Action} {acts : List Action} {id : ChainId}
  {account : ChainAccount} {set : ValidatorSet}

/-! ## Actions -/

/-- **A certificate and the validators change together**, or both stay. -/
theorem Step.renewed (h : Step k s a s') (hget : s.get (.account id) = some account)
    (hset : s.get (.validators id) = some set) (htrust : set.Trusted account.last) :
    ∃ account' set', s'.get (.account id) = some account' ∧
      s'.get (.validators id) = some set' ∧ set'.Trusted account'.last ∧
        ((account'.last = account.last ∧ set' = set) ∨
          Renewed k id account.last set account'.last set') := by
  by_cases hother : a.account? = some id
  · cases h with
    | close hget' _ _ _ hsend =>
      cases hother
      rw [hget] at hget'
      cases hget'
      refine ⟨account.closed, set, ?_, ?_, htrust, Or.inl ⟨rfl, rfl⟩⟩
      · rw [Store.get_put_of_ne _ _ (by simp), Store.get_put_self]
      · rw [Store.get_put_of_ne _ _ (by simp), Store.get_put_of_ne _ _ (by simp),
          hsend.get_of_ne (by simp) (by simp), hset]
    | @certify _ _ certificate _ next _ hsender hcertificate hget' _ hset' hnext hverify =>
      cases hother
      rw [hget] at hget'
      cases hget'
      rw [hset] at hset'
      cases hset'
      obtain ⟨hcheck, rfl⟩ := hnext.trusted htrust
      refine ⟨account.certified certificate, next, ?_, Store.get_put_self _ _ _,
        ⟨hcheck, (Certificate.of_verify hverify).1⟩,
        Or.inr ⟨hsender, certificate, hcertificate, rfl, hverify⟩⟩
      rw [Store.get_put_of_ne _ _ (by simp), Store.get_put_self]
    | register _ _ _ _ hnew =>
      cases hother
      rw [hget] at hnew
      cases hnew
    | _ => cases hother
  · exact ⟨account, set, (h.account_eq hother).trans hget, (h.validators_eq hother).trans hset,
      htrust, Or.inl ⟨rfl, rfl⟩⟩

/-- A chain registers with legal validators and a commitment to them. -/
theorem Step.trusted_of_new (h : Step k s a s') (hnew : s.get (.account id) = none)
    (hget : s'.get (.account id) = some account) (hset : s'.get (.validators id) = some set) :
    set.Trusted account.last := by
  obtain ⟨name, handshake, rfl⟩ := h.register_of_new hnew hget
  cases h with
  | register _ _ _ _ _ _ _ hcheck hsend =>
    rw [hsend.get_of_ne (by simp) (by simp), Store.get_registered_account, if_pos rfl] at hget
    rw [hsend.get_of_ne (by simp) (by simp), Store.get_registered_validators, if_pos rfl] at hset
    cases hget
    cases hset
    exact ⟨hcheck, rfl⟩

/-- **Every action keeps the chain of trust.** -/
theorem Step.trusts (h : Step k s a s') (hs : Consistent s) (htrusts : s.Trusts) : s'.Trusts := by
  intro id account' set' hget' hset'
  cases hget : s.get (.account id) with
  | none => exact h.trusted_of_new hget hget' hset'
  | some account =>
    obtain ⟨set, hset⟩ := hs.validators id account hget
    obtain ⟨account'', set'', hget'', hset'', htrust, -⟩ :=
      h.renewed hget hset (htrusts id account set hget hset)
    rw [hget'] at hget''
    rw [hset'] at hset''
    cases hget''
    cases hset''
    exact htrust

theorem Trace.trusts (h : Trace k s acts s') (hs : Consistent s) (htrusts : s.Trusts) :
    s'.Trusts := by
  have hkept := h.induction (P := fun s => Consistent s ∧ s.Trusts)
    (fun h hs => ⟨h.consistent hs.1, h.trusts hs.1 hs.2⟩) ⟨hs, htrusts⟩
  exact hkept.2

/-- **A request stores one certificate at most**, since the next one would have to be higher. -/
theorem Trace.renewed (h : Trace k s acts s') (hget : s.get (.account id) = some account)
    (hset : s.get (.validators id) = some set) (htrust : set.Trusted account.last) :
    ∃ account' set', s'.get (.account id) = some account' ∧
      s'.get (.validators id) = some set' ∧
        ((account'.last = account.last ∧ set' = set) ∨
          Renewed k id account.last set account'.last set') := by
  induction h generalizing account set with
  | nil => exact ⟨account, set, hget, hset, Or.inl ⟨rfl, rfl⟩⟩
  | cons h _ ih =>
    obtain ⟨account₁, set₁, hget₁, hset₁, htrust₁, hfirst⟩ := h.renewed hget hset htrust
    obtain ⟨account₂, set₂, hget₂, hset₂, hrest⟩ := ih hget₁ hset₁ htrust₁
    refine ⟨account₂, set₂, hget₂, hset₂, ?_⟩
    rcases hrest with ⟨hlast, rfl⟩ | hrest
    · rwa [hlast]
    · rcases hfirst with ⟨hlast, rfl⟩ | hfirst
      · rw [hlast] at hrest
        exact Or.inr hrest
      · obtain ⟨certificate, hcertificate, hsummary, -⟩ := hfirst.certificate
        obtain ⟨certificate', hcertificate', -, hverify⟩ := hrest.certificate
        rw [hcertificate] at hcertificate'
        cases hcertificate'
        have hheight := (Certificate.isNewer_of_verify hverify).height
        rw [hsummary] at hheight
        exact absurd hheight (UInt64.lt_irrefl _)

end

/-! ## Calls -/

/-- A call has stored a certificate of a chain, as it may: it is an accepted update of the chain,
its certificate is signed by the validators before the call, and commits to those after it. -/
structure Call.Renews (k : Call) (id : ChainId) (s : Store) (set : ValidatorSet)
    (last' : CertificateSummary) (set' : ValidatorSet) : Prop where
  accepted : (k.response? s).isSome
  sender : k.sender? = some id
  certificate : ∃ certificate, k.certificate? = some certificate ∧ last' = certificate.summary ∧
    certificate.verifySignature id set = .ok () ∧ certificate.validatorsHash = set'.hash

theorem Call.renews {k : Call} {s : Store} (hs : Consistent s) {id : ChainId}
    {account : ChainAccount} {set : ValidatorSet} (hget : s.get (.account id) = some account)
    (hset : s.get (.validators id) = some set) (htrust : set.Trusted account.last) :
    ∃ account' set', (k.after s).get (.account id) = some account' ∧
      (k.after s).get (.validators id) = some set' ∧
        (account'.last ≠ account.last ∨ set' ≠ set → k.Renews id s set account'.last set') := by
  cases hresponse : k.response? s with
  | none =>
    rw [after_of_rejected hresponse]
    exact ⟨account, set, hget, hset, fun h => h.elim (absurd rfl) (absurd rfl)⟩
  | some response =>
    obtain ⟨acts, htrace⟩ := k.exists_trace hs
    obtain ⟨account', set', hget', hset', hrenewed⟩ := htrace.renewed hget hset htrust
    refine ⟨account', set', hget', hset', fun hchanged => ?_⟩
    rcases hrenewed with ⟨hlast, heq⟩ | hrenewed
    · exact absurd hchanged (by simp [hlast, heq])
    · obtain ⟨certificate, hcertificate, hsummary, hverify⟩ := hrenewed.certificate
      obtain ⟨hcommitted, hsigned⟩ := Certificate.of_verify hverify
      exact ⟨by rw [hresponse]; rfl, hrenewed.sender, certificate, hcertificate, hsummary, hsigned,
        hcommitted⟩

theorem trusts_afterAll {s : Store} (hs : Consistent s) (htrusts : s.Trusts) (calls : List Call) :
    (afterAll calls s).Trusts := by
  induction calls generalizing s with
  | nil => exact htrusts
  | cons k rest ih =>
    obtain ⟨acts, htrace⟩ := k.exists_trace hs
    exact ih (Call.consistent_after hs) (htrace.trusts hs htrusts)

/-- No chain is registered when the hub starts. -/
theorem Run.trusts_start (r : Run) : r.start.Trusts := by
  intro id account set hget
  rw [r.get_start (by simp) (by simp) (by simp) (by simp)] at hget
  cases hget

/-- **The chain of trust.** In every reachable store the validators of a chain are legal and are
those that its last certificate commits to. A call that changes the certificate or the validators is
an accepted update of the chain, signed by the validators before it. -/
theorem Run.trust (r : Run) {id : ChainId} {account : ChainAccount}
    (hget : r.store.get (.account id) = some account) :
    ∃ set, r.store.get (.validators id) = some set ∧ set.check = .ok () ∧
      account.last.validatorsHash = set.hash ∧
        ∀ k : Call, ∃ account' set', (k.after r.store).get (.account id) = some account' ∧
          (k.after r.store).get (.validators id) = some set' ∧
            (account'.last ≠ account.last ∨ set' ≠ set →
              k.Renews id r.store set account'.last set') := by
  obtain ⟨set, hset⟩ := r.consistent.validators id account hget
  have htrust : set.Trusted account.last :=
    trusts_afterAll r.consistent_start r.trusts_start r.calls id account set hget hset
  exact ⟨set, hset, htrust.legal, htrust.committed,
    fun k => Call.renews r.consistent hget hset htrust⟩

/-- The silent chain is known by the validators that it has registered with. Its termination changes
its account, but since this is no update of the chain, neither the certificate nor the
validators. -/
theorem Run.trust_waiting :
    ∃ account set account', waiting.store.get (.account silentChain) = some account ∧
      waiting.store.get (.validators silentChain) = some set ∧
      set.check = .ok () ∧ account.last.validatorsHash = set.hash ∧
      (closing.response? waiting.store).isSome = true ∧
      silent.store.get (.account silentChain) = some account' ∧
      account'.status ≠ account.status ∧ account'.last = account.last ∧
      silent.store.get (.validators silentChain) = some set := by
  obtain ⟨account, hget, hstatus⟩ := registered_silentChain
  obtain ⟨account', hget', hterminated⟩ := isClosed_silentChain
  obtain ⟨set, hset, hlegal, hcommitted, hcalls⟩ := waiting.trust hget
  obtain ⟨next, set', hnext, hset', hrenews⟩ := hcalls closing
  obtain rfl : account' = next := Option.some.inj (hget'.symm.trans hnext)
  have hkept : account'.last = account.last ∧ set' = set := by
    by_contra hchanged
    have hsender := (hrenews (not_and_or.mp hchanged)).sender
    cases hsender
  refine ⟨account, set, account', hget, hset, hlegal, hcommitted, by decide +kernel, hget', ?_,
    hkept.1, hkept.2 ▸ hset'⟩
  rw [hstatus, hterminated]
  decide

end ChainHub
