import ChainHub.Proofs.Hub.Batch
import ChainHub.Proofs.Merkle.LeafProof
import ChainHub.Proofs.Wire
import Mathlib.Data.List.Forall2

/-!
# Requests are made of actions

Each request checks first and then carries out actions. Once the check has passed, the request
succeeds or is aborted at a limit.

* `Update.Checked`, `Recovery.Checked`: what the check of an update or a recovery has established.
* `Update.Performed`: what an update does after its check.
* `Update.ends_perform`, `Recovery.ends_perform`: the part of a request after its check.
-/

namespace ChainHub

open HubM

/-- Hashes are read back as they were shown. -/
theorem parseHashes_toList (hashes : List Digest) :
    parseHashes (hashes.map (·.toList)) = .ok hashes := by
  induction hashes with
  | nil => rfl
  | cons hash hashes ih =>
    have hhash : parseHash hash.toList = .ok hash := by
      simp [parseHash]
    unfold parseHashes at ih ⊢
    rw [List.map_cons, List.mapM_cons, hhash, ih]
    rfl

/-! ## Updates -/

/-- The certificate that comes with an update, if there is one. -/
def UpdateRequest.certificate? (request : UpdateRequest) : Option Certificate :=
  if request.certificate.isEmpty then none
  else (Wire.decode request.certificate : Except WireError Certificate).toOption

namespace Update

section

variable {k : Cause} {c : Context} {id : ChainId}

/-! ### The check -/

/-- The commitment that the certificate of an update has to carry. -/
def Verified.expectedHash (v : Verified) : Digest :=
  v.validators.elim v.account.last.validatorsHash ValidatorSet.hash

/-- What the check of an update has established. -/
structure Checked (s : Store) (own : ChainId) (now : UInt64) (request : UpdateRequest)
    (v : Verified) : Prop where
  sender : parseChainId request.sender = .ok v.sender
  account : s.get (.account v.sender) = some v.account
  live : s.isLive own v.sender now = true
  certified : v.account.status = .registered → v.certificate ≠ none
  certificate : v.certificate = request.certificate?
  set : ∃ set, s.get (.validators v.sender) = some set ∧
    ∀ certificate, v.certificate = some certificate →
      certificate.verify v.sender v.account.last set now v.expectedHash = .ok ()
  validators : ∀ set, v.validators = some set → set.check = .ok () ∧ v.certificate ≠ none
  inbox : (request.inbox.isEmpty = true ∧ v.partnerOutboxRoot = none) ∨
    (request.inbox.isEmpty = false ∧ ∃ root, v.partnerOutboxRoot = some root ∧
      verifyInbox s own v.sender v.certificate request.inbox = .ok root)
  young : request.inbox.isEmpty = false → ∀ certificate, v.certificate = some certificate →
    now.toNat - certificate.timestamp.toNat ≤ ageLimit v.account.status

/-- New validators are legal, and they come with a certificate. -/
theorem check_of_verifyValidators {current set : ValidatorSet} {request : UpdateRequest}
    (h : verifyValidators current request = .ok (some set)) :
    set.check = .ok () ∧ request.certificate.isEmpty ≠ true := by
  unfold verifyValidators at h
  dsimp only at h
  split at h
  · cases h
  · split at h
    · cases h
    · rename_i hcertificate
      split at h
      · cases h
      · rename_i hcheck
        cases h
        exact ⟨hcheck, hcertificate⟩

/-- The certificate of an update is the one that comes with it. It is verified, and messages need a
young one. -/
theorem verify_of_verifyCertificate {id : ChainId} {account : ChainAccount}
    {current : ValidatorSet} {new : Option ValidatorSet} {now : UInt64} {request : UpdateRequest}
    {result : Option Certificate}
    (h : verifyCertificate id account current new now request = .ok result) :
    result = request.certificate? ∧ (result = none ↔ request.certificate.isEmpty = true) ∧
      ∀ certificate, result = some certificate →
        certificate.verify id account.last current now
          (new.elim account.last.validatorsHash ValidatorSet.hash) = .ok () ∧
        (request.inbox.isEmpty = false →
          now.toNat - certificate.timestamp.toNat ≤ ageLimit account.status) := by
  unfold verifyCertificate at h
  unfold UpdateRequest.certificate?
  dsimp only at h
  split at h
  · rename_i hempty
    cases h
    exact ⟨(if_pos hempty).symm, ⟨fun _ => hempty, fun _ => rfl⟩, fun _ h => nomatch h⟩
  · rename_i hempty
    rw [if_neg hempty]
    split at h
    · cases h
    · rename_i certificate hdecode
      split at h
      · cases h
      · rename_i hverify
        have hresult : result = some certificate ∧ (request.inbox.isEmpty = false →
            verifyAge account certificate now = .ok ()) := by
          split at h
          · rename_i hinbox
            cases h
            exact ⟨rfl, fun hfalse => absurd (hfalse.symm.trans hinbox) Bool.false_ne_true⟩
          · obtain ⟨⟨⟩, hage, h⟩ := Attempt.bind_eq_ok_iff.mp h
            cases h
            exact ⟨rfl, fun _ => hage⟩
        obtain ⟨rfl, hage⟩ := hresult
        refine ⟨?_, ⟨nofun, fun h => absurd h hempty⟩, fun certificate' h => ?_⟩
        · rw [hdecode]
          rfl
        · cases h
          refine ⟨by cases new <;> exact hverify, fun hinbox => ?_⟩
          have hage := hage hinbox
          unfold verifyAge at hage
          dsimp only at hage
          split at hage
          · cases hage
          · rename_i hyoung
            exact Nat.le_of_not_lt hyoung

/-- **When an update passes its check**: each part of the check has the result that the checked
update names. -/
theorem verify_eq_ok_iff {s : Store} {own : ChainId} {now : UInt64} {request : UpdateRequest}
    {v : Verified} :
    verify s own now request = .ok v ↔
      parseChainId request.sender = .ok v.sender ∧
        ¬ (request.certificate.isEmpty && request.inbox.isEmpty) = true ∧
        s.get (.account v.sender) = some v.account ∧ s.isLive own v.sender now = true ∧
        ¬ (v.account.status = .registered ∧ request.certificate.isEmpty = true) ∧
        ∃ current, s.get (.validators v.sender) = some current ∧
          verifyValidators current request = .ok v.validators ∧
          verifyCertificate v.sender v.account current v.validators now request =
            .ok v.certificate ∧
          ((request.inbox.isEmpty = true ∧ v.partnerOutboxRoot = none) ∨
            (request.inbox.isEmpty = false ∧ ∃ root, v.partnerOutboxRoot = some root ∧
              verifyInbox s own v.sender v.certificate request.inbox = .ok root)) := by
  obtain ⟨sender, account, certificate, validators, partnerOutboxRoot⟩ := v
  unfold verify
  simp only [Attempt.bind_eq_ok_iff, Attempt.refuse_bind, Attempt.ite_refuse_eq_ok_iff,
    Attempt.ite_eq_ok_iff', Attempt.lift_eq_ok_iff, Attempt.require_eq_ok_iff]
  constructor
  · rintro ⟨id, hid, hsome, account', haccount, hlive, hcertified, current, hcurrent, validators',
      hvalidators, certificate', hcertificate, h⟩
    split at h
    · rename_i hempty
      cases h
      exact ⟨hid, hsome, haccount, hlive, hcertified, current, hcurrent, hvalidators, hcertificate,
        Or.inl ⟨hempty, rfl⟩⟩
    · rename_i hempty
      obtain ⟨root, hroot, h⟩ := Attempt.bind_eq_ok_iff.mp h
      cases h
      obtain ⟨root, hinbox, rfl⟩ := Attempt.map_eq_ok_iff.mp hroot
      exact ⟨hid, hsome, haccount, hlive, hcertified, current, hcurrent, hvalidators, hcertificate,
        Or.inr ⟨Bool.eq_false_iff.mpr hempty, root, rfl, hinbox⟩⟩
  · rintro ⟨hid, hsome, haccount, hlive, hcertified, current, hcurrent, hvalidators, hcertificate,
      hinbox⟩
    refine ⟨sender, hid, hsome, account, haccount, hlive, hcertified, current, hcurrent,
      validators, hvalidators, certificate, hcertificate, ?_⟩
    rcases hinbox with ⟨hempty, rfl⟩ | ⟨hempty, root, rfl, hinbox⟩
    · rw [if_pos hempty]
      rfl
    · rw [if_neg (by simp [hempty])]
      exact Attempt.bind_eq_ok_iff.mpr
        ⟨some root, Attempt.map_eq_ok_iff.mpr ⟨root, hinbox, rfl⟩, rfl⟩

/-- **What an accepted update has been checked for.** -/
theorem checked_of_verify {s : Store} {own : ChainId} {now : UInt64} {request : UpdateRequest}
    {v : Verified} (h : verify s own now request = .ok v) : Checked s own now request v := by
  obtain ⟨hid, -, haccount, hlive, hcertified, current, hcurrent, hvalidators, hcertificate,
    hinbox⟩ := verify_eq_ok_iff.mp h
  obtain ⟨hdecoded, hnone, hverify⟩ := verify_of_verifyCertificate hcertificate
  exact {
    sender := hid
    account := haccount
    live := hlive
    certified := fun hregistered hcert => hcertified ⟨hregistered, hnone.mp hcert⟩
    certificate := hdecoded
    set := ⟨current, hcurrent, fun certificate hcert => (hverify certificate hcert).1⟩
    validators := fun set hset => by
      obtain ⟨hcheck, hcert⟩ := check_of_verifyValidators (hset ▸ hvalidators)
      exact ⟨hcheck, fun h => hcert (hnone.mp h)⟩
    inbox := hinbox
    young := fun hinbox certificate hcert => (hverify certificate hcert).2 hinbox }

/-! ### The rest -/

/-- The sender of a checked update is not terminated. -/
theorem Checked.not_terminated {s : Store} {own : ChainId} {now : UInt64}
    {request : UpdateRequest} {v : Verified} (h : Checked s own now request v)
    (hne : v.sender ≠ own) : v.account.status ≠ .terminated := by
  obtain ⟨-, account, hget, hlive⟩ := (Store.isLive_eq_true_iff hne).mp h.live
  obtain rfl := Option.some.inj (h.account.symm.trans hget)
  intro hstatus
  simp [ChainAccount.isLive, hstatus] at hlive

/-- The sender of a checked update without a certificate is active. -/
theorem Checked.isActive {s : Store} {own : ChainId} {now : UInt64}
    {request : UpdateRequest} {v : Verified} (h : Checked s own now request v)
    (hne : v.sender ≠ own) (hnone : v.certificate = none) : s.IsActive v.sender := by
  refine ⟨v.account, h.account, ?_⟩
  cases hstatus : v.account.status with
  | registered => exact absurd hnone (h.certified hstatus)
  | active => rfl
  | terminated => exact absurd hstatus (h.not_terminated hne)

/-- The account that a checked update leaves its sender with. -/
def Verified.renewed (v : Verified) : ChainAccount :=
  v.certificate.elim v.account v.account.certified

/-- The sender of a checked update is active and live once the certificate is stored. -/
theorem Checked.renewed {s : Store} {own : ChainId} {now : UInt64} {request : UpdateRequest}
    {v : Verified} (h : Checked s own now request v) (hne : v.sender ≠ own) :
    v.renewed.status = .active ∧
      (request.inbox.isEmpty = false → v.renewed.isLive now = true) := by
  unfold Verified.renewed
  cases hcert : v.certificate with
  | none =>
    obtain ⟨account, hget, hstatus⟩ := h.isActive hne hcert
    obtain ⟨-, account', hget', hlive⟩ := (Store.isLive_eq_true_iff hne).mp h.live
    obtain rfl := Option.some.inj (hget.symm.trans h.account)
    obtain rfl := Option.some.inj (hget.symm.trans hget')
    exact ⟨hstatus, fun _ => hlive⟩
  | some certificate =>
    refine ⟨rfl, fun hinbox => decide_eq_true ?_⟩
    have hyoung := h.young hinbox certificate hcert
    have hlimit : ageLimit v.account.status ≤ livenessLimit := by
      unfold ageLimit
      split <;> omega
    exact Nat.le_trans hyoung hlimit

/-- The validators that a checked update leaves its sender with succeed the present ones. -/
theorem Checked.succeeds {s : Store} {own : ChainId} {now : UInt64}
    {request : UpdateRequest} {v : Verified} (h : Checked s own now request v)
    (set : ValidatorSet) :
    set.Succeeds v.account.last.validatorsHash (v.validators.getD set) v.expectedHash := by
  unfold Verified.expectedHash
  cases hvalidators : v.validators with
  | none => exact .keep
  | some next => exact .renew (h.validators next hvalidators).1

/-- The account of an active chain with the new certificate is written. -/
theorem ends_storeCertificate (hc : Sound k c) {v : Verified}
    (hopen : v.account.status ≠ .terminated) (certificate : Certificate) :
    Ends (storeCertificate v certificate) c fun _ c' =>
      ∃ c₁, ReachesBy k Action.isQuiet [] c c₁ ∧ c₁.store = c.store ∧
        c' = c₁.write (.account v.sender) (some (v.account.certified certificate)) := by
  unfold storeCertificate
  by_cases hregistered : v.account.status = .registered
  · simp only [if_pos hregistered]
    have hspares : (Event.accountUpdated v.sender .active).SparesHub c.ownChain := trivial
    have hholds : (Event.accountUpdated v.sender .active).Holds k c.store := nofun
    exact ⟨_, reachesBy_emit hc rfl hspares hholds, rfl, rfl⟩
  · have hactive : v.account.status = .active := by
      cases hstatus : v.account.status with
      | registered => exact absurd hstatus hregistered
      | active => rfl
      | terminated => exact absurd hstatus hopen
    simp only [hactive]
    exact ⟨c, .refl k _ c, rfl, rfl⟩

/-- New validators are written. -/
theorem ends_storeValidators {v : Verified} {set : ValidatorSet}
    (hset : c.store.get (.validators v.sender) = some set) :
    Ends (storeValidators v) c fun _ c' =>
      c'.store = c.store.put (.validators v.sender) (some (v.validators.getD set)) ∧
        c'.events = c.events ∧ c'.header = c.header ∧ c'.ownChain = c.ownChain := by
  unfold storeValidators
  cases v.validators with
  | none => exact ⟨(Store.put_eq_self hset).symm, rfl, rfl, rfl⟩
  | some next => exact ⟨rfl, rfl, rfl, rfl⟩

/-- The context is reached while nothing is received from a chain or proven for it, and no report is
made on an inbound message. -/
def ReachesSilently (k : Cause) (id : ChainId) (c c' : Context) : Prop :=
  ∃ acts, Reaches k c acts c' ∧ Action.receivedAll id acts = [] ∧ Action.provedAll id acts = [] ∧
    Action.reportsAll acts = []

theorem ReachesSilently.refl (k : Cause) (id : ChainId) (c : Context) :
    ReachesSilently k id c c :=
  ⟨[], .refl k c, rfl, rfl, rfl⟩

/-- **A certificate and the validators that it commits to are stored together**, and the sender is
active then. -/
theorem ends_storeVerified (hc : Sound k c) {own : ChainId} {request : UpdateRequest}
    {v : Verified} (hv : Checked c.store own k.now request v) (hne : v.sender ≠ own)
    (hcause : k.sender = some v.sender) (hcertificate : k.certificate = v.certificate) :
    Ends (storeVerified v) c fun _ c' =>
      ReachesSilently k v.sender c c' ∧ c'.store.get (.account v.sender) = some v.renewed ∧
        ∃ set, c.store.get (.validators v.sender) = some set ∧
          c'.store.get (.validators v.sender) = some (v.validators.getD set) := by
  have hopen := hv.not_terminated hne
  obtain ⟨set, hset, hverify⟩ := hv.set
  unfold storeVerified
  cases hcert : v.certificate with
  | none =>
    have hnone : v.validators = none := by
      cases hvalidators : v.validators with
      | none => rfl
      | some next => exact absurd hcert (hv.validators next hvalidators).2
    have hnothing : storeValidators v = pure () := by
      unfold storeValidators
      rw [hnone]
    show Ends (storeValidators v) c _
    rw [hnothing]
    have hrenewed : v.renewed = v.account := by
      unfold Verified.renewed
      rw [hcert]
      rfl
    rw [hnone, hrenewed]
    exact ends_pure ⟨.refl k _ c, hv.account, set, hset, hset⟩
  | some certificate =>
    refine (ends_storeCertificate hc hopen certificate).bind ?_
    rintro - _ ⟨c₁, hreach, hstore, rfl⟩
    have hset₁ : (c₁.write (.account v.sender) (some (v.account.certified certificate))).store.get
        (.validators v.sender) = some set := by
      have hslots : Slot.account v.sender ≠ .validators v.sender := by simp
      rw [← hset, ← hstore]
      exact Store.get_put_of_ne _ _ hslots
    refine (ends_storeValidators hset₁).mono ?_
    rintro - c' ⟨hstore', hevents, hheader, hownChain⟩
    have hcertify : Reaches k c₁ [.certify v.sender certificate] c' := by
      refine ⟨.single ?_, by simpa [Action.events, Context.write] using hevents, hheader,
        hownChain⟩
      rw [hstore']
      exact .certify hcause (hcertificate.trans hcert) (hstore ▸ hv.account) hopen (hstore ▸ hset)
        (hv.succeeds set) (hverify certificate hcert)
    have hrenewed : v.renewed = v.account.certified certificate := by
      unfold Verified.renewed
      rw [hcert]
      rfl
    obtain ⟨acts, hreach, hkinds, hsilent⟩ := hreach.isDelivery
    refine ⟨⟨_, hreach.append hcertify, ?_, ?_, ?_⟩, ?_, set, hset, ?_⟩
    · rw [Action.receivedAll_append, Action.receivedAll_of_isDelivery hkinds]
      rfl
    · rw [Action.provedAll_append, Action.provedAll_of_isDelivery hkinds]
      rfl
    · rw [Action.reportsAll_append, hsilent]
      rfl
    · rw [hstore', hrenewed, Store.get_put_of_ne _ _ (by simp)]
      exact Store.get_put_self c₁.store (.account v.sender)
        (some (v.account.certified certificate))
    · rw [hstore']
      exact Store.get_put_self _ _ _

/-- The action by which the proven root of the partner's outbox is stored: there is one if there is
such a root and the sender is not terminated by its messages. -/
def Verified.proof (v : Verified) (o : Outcome) : List Action :=
  if o.senderTerminated then [] else v.partnerOutboxRoot.elim [] fun root => [.prove v.sender root]

theorem Verified.receivedAll_proof (v : Verified) (o : Outcome) (id : ChainId) :
    Action.receivedAll id (v.proof o) = [] := by
  unfold Verified.proof
  cases o.senderTerminated <;> cases v.partnerOutboxRoot <;> rfl

theorem Verified.provedAll_proof (v : Verified) (o : Outcome) :
    Action.provedAll v.sender (v.proof o) =
      if o.senderTerminated then [] else v.partnerOutboxRoot.toList := by
  unfold Verified.proof
  cases o.senderTerminated <;> cases v.partnerOutboxRoot <;>
    simp [Action.provedAll, Action.proved]

theorem Verified.reportsAll_proof (v : Verified) (o : Outcome) :
    Action.reportsAll (v.proof o) = [] := by
  unfold Verified.proof
  cases o.senderTerminated <;> cases v.partnerOutboxRoot <;> rfl

/-- The root of the partner's outbox is stored while the sender is not terminated. -/
theorem ends_storePartnerRoot (hc : Sound k c) {v : Verified} (hcause : k.sender = some v.sender)
    (hactive : c.store.IsActive v.sender) {o : Outcome} (ho : o.senderTerminated = false) :
    Ends (storePartnerRoot v) c fun _ c' => Reaches k c (v.proof o) c' := by
  obtain ⟨channel, hchannel⟩ := hc.store.exists_channel hactive.isOpen
  unfold storePartnerRoot Verified.proof
  rw [if_neg (by simp [ho])]
  cases hroot : v.partnerOutboxRoot with
  | none => exact ends_pure (.refl k c)
  | some root =>
    have hprove : Reaches k c [.prove v.sender root] (c.write (.channel v.sender)
        (some { channel with partnerOutboxRoot := root })) :=
      ⟨.single (.prove hcause hactive hchannel), by simp [Action.events, Context.write], rfl, rfl⟩
    exact ends_load hchannel hprove

/-- What an update does after its check: it stores the certificate and the validators, deals with
the messages, and stores the proven root unless the sender is terminated. -/
inductive Performed (k : Cause) (v : Verified) (messages : List Bytes) (s : Store) (o : Outcome) :
    List Action → Store → Prop
  | intro {stored handled : List Action} {s₁ s₂ s' : Store} (hstored : Trace k s stored s₁)
      (hnothing : Action.receivedAll v.sender stored = [])
      (hsilent : Action.reportsAll stored = []) (hactive : s₁.IsActive v.sender)
      (hhandled : Handled k v.sender messages {} s₁ handled o s₂)
      (hproof : Trace k s₂ (v.proof o) s')
      (hunproven : Action.provedAll v.sender stored = []) :
      Performed k v messages s o (stored ++ handled ++ v.proof o) s'

/-- What the actions of an update have received: the messages that its sender may deliver, out of
the first ones, as many as are reported on. -/
def ReceivedBy (acts : List Action) (id : ChainId) (messages : List Bytes) : Prop :=
  Action.receivedAll id acts =
      (messages.take (Action.reportsAll acts).length).filter (passes id) ∧
    Action.receivedAll id acts <+: messages

theorem Performed.receivedBy {v : Verified} {messages : List Bytes} {s s' : Store} {o : Outcome}
    {acts : List Action} (h : Performed k v messages s o acts s') :
    ReceivedBy acts v.sender messages := by
  obtain ⟨-, hnothing, hsilent, -, hhandled, -⟩ := h
  unfold ReceivedBy
  rw [Action.receivedAll_append, Action.receivedAll_append, hnothing, v.receivedAll_proof,
    Action.reportsAll_append, Action.reportsAll_append, hsilent, v.reportsAll_proof,
    List.nil_append, List.nil_append, List.append_nil, List.append_nil]
  exact ⟨hhandled.received, hhandled.receivedAll_isPrefix⟩

/-- **An accepted update is carried out**, whatever its messages contain. -/
theorem ends_perform (hc : Sound k c) {own : ChainId} {request : UpdateRequest}
    {v : Verified} (hv : Checked c.store own k.now request v) (hne : v.sender ≠ own)
    (hcause : k.sender = some v.sender) (hcertificate : k.certificate = v.certificate)
    (messages : List Bytes) :
    Ends (perform .default messages v) c fun o c' =>
      ∃ acts, Reaches k c acts c' ∧ Performed k v messages c.store o acts c'.store := by
  unfold perform
  refine (ends_storeVerified hc hv hne hcause hcertificate).bind ?_
  rintro - c₁ ⟨⟨stored, hstored, hnothing, hunproven, hsilent⟩, haccount, -⟩
  have hactive : c₁.store.IsActive v.sender := ⟨v.renewed, haccount, (hv.renewed hne).1⟩
  have hc₁ := hc.reaches hstored
  refine (ends_processMessages hcause hc₁ hactive).bind ?_
  rintro o c₂ ⟨handled, hreach, hhandled⟩
  have hperformed : ∀ {c₃ : Context}, Reaches k c₂ (v.proof o) c₃ →
      ∃ acts, Reaches k c acts c₃ ∧ Performed k v messages c.store o acts c₃.store :=
    fun hlast => ⟨_, (hstored.append hreach).append hlast,
      .intro hstored.trace hnothing hsilent hactive hhandled hlast.trace hunproven⟩
  cases hterminated : o.senderTerminated with
  | true =>
    refine ends_pure (hperformed ?_)
    rw [Verified.proof, if_pos hterminated]
    exact .refl k c₂
  | false =>
    refine (ends_storePartnerRoot (hc₁.reaches hreach) hcause
      (hhandled.isActive hactive hterminated) hterminated).bind ?_
    intro _ c₃ hlast
    exact ends_pure (hperformed hlast)

end

end Update

/-! ## Recoveries -/

namespace Recovery

section

variable {k : Cause} {c : Context}

/-! ### The check -/

/-- What the check of a recovery has established about a message. -/
structure CheckedMessage (s : Store) (own : ChainId) (now : UInt64) (id : ChainId)
    (encoded : Bytes) (m : Message) : Prop where
  decoded : (Wire.decode encoded : Except WireError Message) = .ok m
  status : m.status = .ok
  receiver : m.receiver = id
  live : s.isLive own m.sender now = true

/-- What the check of a recovery has established. -/
structure Checked (s : Store) (own : ChainId) (now : UInt64) (request : RecoveryRequest)
    (v : Verified) : Prop where
  id : parseChainId request.chainId = .ok v.id
  outbox : s.get (.terminatedOutbox v.id) = some v.outbox
  indexes : v.indexes = request.indexes
  range : verifyIndexes v.outbox request.indexes request.messages.length = .ok ()
  messages : List.Forall₂ (CheckedMessage s own now v.id) request.messages v.messages
  siblings : parseHashes request.siblings = .ok v.siblings
  proof : Merkle.rootOfLeaves v.outbox.size request.indexes (request.messages.map leafHash)
    v.siblings = .ok v.outbox.root

/-- A message passes its check when each of its parts does. -/
theorem verifyMessage_eq_ok_iff {s : Store} {own : ChainId} {now : UInt64} {id : ChainId}
    {encoded : Bytes} {m : Message} :
    verifyMessage s own now id encoded = .ok m ↔ CheckedMessage s own now id encoded m := by
  unfold verifyMessage
  cases hdecoded : (Wire.decode encoded : Except WireError Message) with
  | error e =>
    refine ⟨nofun, fun h => ?_⟩
    have hm := h.decoded
    rw [hdecoded] at hm
    cases hm
  | ok m' =>
    dsimp only
    simp only [Attempt.throw_bind, Attempt.ite_throw_eq_ok_iff, Attempt.ite_eq_ok_iff,
      Attempt.pure_eq_ok_iff, ne_eq, not_not]
    constructor
    · rintro ⟨hstatus, hreceiver, hlive, rfl⟩
      exact ⟨hdecoded, hstatus, hreceiver, hlive⟩
    · intro h
      obtain rfl := Except.ok.inj (hdecoded.symm.trans h.decoded)
      exact ⟨h.status, h.receiver, h.live, rfl⟩

theorem verifyMessages_eq_ok_iff {s : Store} {own : ChainId} {now : UInt64} {id : ChainId} :
    ∀ {encoded : List Bytes} {index : Nat} {messages : List Message},
      verifyMessages s own now id index encoded = .ok messages ↔
        List.Forall₂ (CheckedMessage s own now id) encoded messages
  | [], index, messages => by
    rw [List.forall₂_nil_left_iff]
    exact Attempt.pure_eq_ok_iff.trans eq_comm
  | bytes :: rest, index, messages => by
    rw [List.forall₂_cons_left_iff]
    unfold verifyMessages
    cases hm : verifyMessage s own now id bytes with
    | error fault =>
      refine ⟨nofun, ?_⟩
      rintro ⟨m, more, hchecked, -⟩
      rw [verifyMessage_eq_ok_iff.mpr hchecked] at hm
      cases hm
    | ok m =>
      have hchecked := verifyMessage_eq_ok_iff.mp hm
      rw [Attempt.bind_eq_ok_iff]
      constructor
      · rintro ⟨more, hmore, h⟩
        cases h
        exact ⟨m, more, hchecked, verifyMessages_eq_ok_iff.mp hmore, rfl⟩
      · rintro ⟨m', more, hchecked', hmore, rfl⟩
        obtain rfl := Except.ok.inj (hchecked.decoded.symm.trans hchecked'.decoded)
        exact ⟨more, verifyMessages_eq_ok_iff.mpr hmore, rfl⟩

/-- **When positions pass the check.** -/
theorem verifyIndexes_eq_ok_iff {outbox : TerminatedOutbox} {indexes : List UInt64} {count : Nat} :
    verifyIndexes outbox indexes count = .ok () ↔
      (indexes ≠ [] ∧ indexes.length = count) ∧
        Merkle.isAscending (indexes.map UInt64.toNat) = true ∧
        ∀ i ∈ indexes, outbox.partnerInboxSize ≤ i ∧ i < outbox.size := by
  unfold verifyIndexes
  dsimp only
  simp only [Attempt.throw_bind, Attempt.ite_throw_eq_ok_iff, Attempt.ite_eq_ok_iff, not_or,
    List.isEmpty_iff, ne_eq, not_not]
  refine and_congr_right fun _ => and_congr_right fun _ => ?_
  cases hfind : indexes.find? fun i => i < outbox.partnerInboxSize || outbox.size ≤ i with
  | some i =>
    refine ⟨fun h => (by cases h), fun h => ?_⟩
    have hi := h i (List.mem_of_find?_eq_some hfind)
    have hout := List.find?_some hfind
    simp [UInt64.not_lt.mpr hi.1, UInt64.not_le.mpr hi.2] at hout
  | none =>
    refine ⟨fun _ i hi => ?_, fun _ => rfl⟩
    simpa using List.find?_eq_none.mp hfind i hi

theorem verifyProof_eq_ok_iff {outbox : TerminatedOutbox} {indexes : List UInt64}
    {leaves siblings : List Digest} :
    verifyProof outbox indexes leaves siblings = .ok () ↔
      Merkle.rootOfLeaves outbox.size indexes leaves siblings = .ok outbox.root := by
  unfold verifyProof
  constructor
  · intro h
    split at h
    · rename_i root hroot
      split at h
      · rename_i heq
        rw [hroot, heq]
      · cases h
    · cases h
    · cases h
  · intro h
    rw [h]
    exact if_pos rfl

/-- **When a recovery passes its check.** -/
theorem verify_eq_ok_iff {s : Store} {own : ChainId} {now : UInt64} {request : RecoveryRequest}
    {v : Verified} : verify s own now request = .ok v ↔ Checked s own now request v := by
  obtain ⟨id, outbox, messages, indexes, siblings⟩ := v
  unfold verify
  simp only [Attempt.bind_eq_ok_iff, Attempt.lift_eq_ok_iff, Attempt.require_eq_ok_iff,
    Attempt.ofExcept_eq_ok_iff, verifyMessages_eq_ok_iff]
  constructor
  · rintro ⟨id', hid, outbox', houtbox, ⟨⟩, hrange, messages', hmessages, siblings', hsiblings, ⟨⟩,
      hproof, h⟩
    cases h
    exact {
      id := hid
      outbox := houtbox
      indexes := rfl
      range := hrange
      messages := hmessages
      siblings := hsiblings
      proof := verifyProof_eq_ok_iff.mp hproof }
  · intro h
    obtain rfl := h.indexes
    exact ⟨id, h.id, outbox, h.outbox, (), h.range, messages, h.messages, siblings, h.siblings, (),
      verifyProof_eq_ok_iff.mpr h.proof, rfl⟩

/-- **What an accepted recovery has been checked for.** -/
theorem checked_of_verify {s : Store} {own : ChainId} {now : UInt64} {request : RecoveryRequest}
    {v : Verified} (h : verify s own now request = .ok v) : Checked s own now request v :=
  verify_eq_ok_iff.mp h

/-! ### The rest -/

theorem isLive_congr {s s' : Store} (h : ∀ id, s'.get (.account id) = s.get (.account id))
    (own id : ChainId) (now : UInt64) : s'.isLive own id now = s.isLive own id now := by
  unfold Store.isLive
  rw [h id]

/-- Whatever becomes of the messages, their recovered forms have a root with the same siblings. -/
theorem Checked.exists_root {s : Store} {own : ChainId} {now : UInt64} {request : RecoveryRequest}
    {v : Verified} (hv : Checked s own now request v) :
    ∃ root, Merkle.rootOfLeaves v.outbox.size v.indexes
      (v.messages.map fun m => leafHash m.recovered.encode) v.siblings = .ok root := by
  refine Merkle.rootOfLeaves_shape (hv.indexes ▸ hv.proof) ?_
  rw [List.length_map, List.length_map, hv.messages.length_eq]

/-- The messages of a checked recovery are read from its request. -/
theorem Checked.exists_mem {s : Store} {own : ChainId} {now : UInt64} {request : RecoveryRequest}
    {v : Verified} (hv : Checked s own now request v) {m : Message} (hm : m ∈ v.messages) :
    ∃ bytes ∈ request.messages, CheckedMessage s own now v.id bytes m := by
  obtain ⟨i, hi, rfl⟩ := List.mem_iff_getElem.mp hm
  have hi' : i < request.messages.length := by rwa [hv.messages.length_eq]
  exact ⟨_, List.getElem_mem hi', hv.messages.get hi' hi⟩

/-- So what is delivered are recovered forms of what the request shows. -/
theorem Checked.recovers {s : Store} {own : ChainId} {now : UInt64} {request : RecoveryRequest}
    {v : Verified} (hv : Checked s own now request v) (hrecovered : k.recovered = request.messages)
    {m : Message} (hm : m ∈ v.messages) : k.Recovers m.recovered := by
  obtain ⟨bytes, hbytes, hchecked⟩ := hv.exists_mem hm
  have hencode : bytes = m.encode := Wire.eq_encode_of_decode hchecked.decoded
  exact ⟨m, hrecovered ▸ hencode ▸ hbytes, hchecked.status, rfl⟩

/-- **Recovered messages are delivered one by one.** -/
theorem ends_recoverMessages :
    ∀ {messages : List Message} {delivered : Nat} {c : Context}, Sound k c →
      (∀ m ∈ messages, k.Recovers m.recovered ∧ c.store.IsClosed m.receiver ∧
        c.store.isLive c.ownChain m.sender k.now = true) →
      Ends (recoverMessages .default messages delivered) c fun _ c' =>
        ∃ reports, ReachesBy k Action.isQuiet reports c c'
  | [], delivered, c, _, _ => ends_pure ⟨[], .refl k _ c⟩
  | m :: rest, delivered, c, hc, hmessages => by
    rw [List.forall_mem_cons] at hmessages
    obtain ⟨⟨hrecovers, hclosed, hlive⟩, hrest⟩ := hmessages
    unfold recoverMessages
    refine ends_snapshot ?_
    have hdeliver : Ends (deliverRecovered .default m.recovered) c
        (Delivers k Action.isQuiet m.recovered c) :=
      ends_deliver_recovered hc hrecovers hclosed hlive
    refine (ends_attempt hdeliver).bind ?_
    rintro _ c₁ ⟨disposition, rfl, acts, hreach, hdeals⟩
    have hacts := hdeals.kinds
    have haccounts : ∀ id, c₁.store.get (.account id) = c.store.get (.account id) := fun id =>
      hreach.trace.account_eq fun a ha => by simp [Action.account?_of_isQuiet (hacts a ha)]
    have hnext : ∀ delivered', Ends (recoverMessages .default rest delivered') c₁ fun _ c' =>
        ∃ reports, ReachesBy k Action.isQuiet reports c c' := fun delivered' => by
      refine (ends_recoverMessages (hc.reaches hreach) fun m' hm' => ?_).mono
        fun _ _ ⟨reports, h⟩ => ⟨_, (ReachesBy.append ⟨acts, hreach, hacts, rfl⟩ h)⟩
      obtain ⟨hrecovers', hclosed', hlive'⟩ := hrest m' hm'
      refine ⟨hrecovers', hreach.trace.isClosed hclosed', ?_⟩
      rw [isLive_congr haccounts, hreach.ownChain, hlive']
    cases disposition with
    | discarded => exact hnext delivered
    | applied => exact hnext (delivered + 1)
    | forwarded => exact hnext (delivered + 1)
    | bounced => exact hnext (delivered + 1)

/-- **An accepted recovery is carried out**: messages are sent, and the root is computed anew with
the same siblings. -/
theorem ends_perform (hc : Sound k c) {request : RecoveryRequest} {v : Verified}
    (hv : Checked c.store c.ownChain k.now request v) (hcause : k.recovering = some v.id)
    (hrecovered : k.recovered = request.messages) :
    Ends (perform .default v) c fun _ c' =>
      ∃ acts root, Reaches k c acts c' ∧
        Merkle.rootOfLeaves v.outbox.size v.indexes
          (v.messages.map fun m => leafHash m.recovered.encode) v.siblings = .ok root ∧
        c'.store.get (.terminatedOutbox v.id) = some { v.outbox with root := root } := by
  have hclosed := hc.store.outbox _ _ hv.outbox
  have hmessages : ∀ m ∈ v.messages, k.Recovers m.recovered ∧ c.store.IsClosed m.receiver ∧
      c.store.isLive c.ownChain m.sender k.now = true := by
    intro m hm
    obtain ⟨bytes, -, hchecked⟩ := hv.exists_mem hm
    exact ⟨hv.recovers hrecovered hm, hchecked.receiver ▸ hclosed, hchecked.live⟩
  unfold perform
  refine (ends_recoverMessages hc hmessages).bind ?_
  rintro delivered c₁ ⟨reports, acts, hreach, -⟩
  obtain ⟨root, hroot⟩ := hv.exists_root
  obtain ⟨root', hget⟩ := hreach.trace.terminatedOutbox hv.outbox
  dsimp only
  rw [hroot]
  have hreplace : Reaches k c₁ [.replace v.id root]
      ((c₁.write (.terminatedOutbox v.id) (some { v.outbox with root := root })).emit
        (.terminatedOutboxUpdated v.id root)) :=
    ⟨.single (@Step.replace k c₁.store v.id { v.outbox with root := root' } root hcause hget), rfl,
      rfl, rfl⟩
  refine ends_save (ends_emit (ends_pure ⟨_, root, hreach.append hreplace, rfl, ?_⟩))
  exact Store.get_put_self c₁.store (.terminatedOutbox v.id) (some { v.outbox with root := root })

end

end Recovery

end ChainHub
