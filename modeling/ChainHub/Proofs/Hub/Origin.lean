import ChainHub.Proofs.Hub.Frozen
import ChainHub.Proofs.Hub.Monotone

/-!
# Where messages come from

Every message on its way out that has entered an outbox keeps the format rules, and it is either of
the hub or of a chain that was active when it entered. Such a chain has certified something, and
that cannot be undone: it is active or terminated ever after.

* `Store.Originates`: what is known of the origin of a message.
* `Step.originates`, `Step.keeps_originates`: a message has its origin when it enters an outbox, and
  keeps it.
* `originates_of_mem_sent`: the origin of what calls have sent to a chain.
-/

namespace ChainHub

/-- The chain has certified something: it is active or terminated. -/
def Store.HasCertified (s : Store) (id : ChainId) : Prop :=
  ∃ account, s.get (.account id) = some account ∧ account.status ≠ .registered

/-- The message keeps the format rules and is of the hub or of a chain that has certified
something. -/
structure Store.Originates (s : Store) (m : Message) : Prop where
  format : m.checkFormat = .ok ()
  origin : (∃ own, s.get .own = some own ∧ m.sender = own.chainId) ∨ s.HasCertified m.sender

section

variable {k : Cause} {s s' : Store} {a : Action} {acts : List Action} {id : ChainId} {m : Message}

/-! ## Actions -/

/-- What the hub sends is of the hub. -/
theorem Store.Sends.originates (h : s.Sends m s') : s.Originates m := by
  obtain ⟨hown, hsender, -, -, hformat, -⟩ := h
  exact ⟨hformat, Or.inl ⟨_, hown, hsender⟩⟩

/-- An action does not change the origin of a message. -/
theorem Step.keeps_originates (h : Step k s a s') (hm : s.Originates m) : s'.Originates m := by
  refine ⟨hm.format, ?_⟩
  rcases hm.origin with ⟨own, hown, hsender⟩ | ⟨account, hget, hstatus⟩
  · obtain ⟨nonce, -, hown'⟩ := h.own hown
    exact Or.inl ⟨_, hown', hsender⟩
  · obtain ⟨next, hnext, hadvances⟩ := h.account_advances hget
    exact Or.inr ⟨next, hnext, hadvances.status.ne_registered hstatus⟩

/-- **A message on its way out has an origin when it enters an outbox.** -/
theorem Step.originates (h : Step k s a s') (hm : a.message? = some m)
    (hstatus : m.status = .ok) : s'.Originates m := by
  have hkeeps : s.Originates m → s'.Originates m := h.keeps_originates
  cases h with
  | relay _ _ _ _ horigin hformat =>
    cases hm
    obtain ⟨account, hget, hactive⟩ := horigin hstatus
    have hformat := hformat.resolve_right fun hrecovers => by
      rw [hrecovers.status] at hstatus
      cases hstatus
    exact hkeeps ⟨hformat, Or.inr ⟨account, hget, by simp [hactive]⟩⟩
  | notify _ hsend =>
    cases hm
    exact hkeeps hsend.originates
  | close _ _ _ _ hsend =>
    cases hm
    exact hkeeps hsend.originates
  | register _ hown _ _ _ _ _ _ hsend =>
    cases hm
    exact hkeeps ⟨hsend.originates.format, Or.inl ⟨_, hown, rfl⟩⟩
  | _ => cases hm

theorem Trace.keeps_originates (h : Trace k s acts s') (hm : s.Originates m) : s'.Originates m :=
  h.induction Step.keeps_originates hm

/-- What actions put into an outbox are messages, with an origin if they are on their way out. -/
theorem Trace.exists_originates (h : Trace k s acts s') {bytes : Bytes}
    (hmem : bytes ∈ Action.sentAll id acts) :
    ∃ m, m.receiver = id ∧ m.encode = bytes ∧ (m.status = .ok → s'.Originates m) := by
  obtain ⟨m, a, later, s₁, s₂, hstep, hlater, hm, hreceiver, hencode⟩ :=
    h.exists_of_mem_sentAll hmem
  exact ⟨m, hreceiver, hencode, fun hstatus =>
    hlater.keeps_originates (hstep.originates hm hstatus)⟩

end

/-! ## Calls -/

section

variable {s : Store} {id : ChainId} {m : Message}

theorem Call.exists_originates (hs : Consistent s) {k : Call} {bytes : Bytes}
    (hmem : bytes ∈ k.sent id s) :
    ∃ m, m.receiver = id ∧ m.encode = bytes ∧ (m.status = .ok → (k.after s).Originates m) := by
  obtain ⟨response, acts, -, htrace, hsent⟩ := exists_trace_of_mem_sent hs hmem
  exact htrace.exists_originates hsent

theorem keeps_originates_afterAll (hs : Consistent s) (hm : s.Originates m) (calls : List Call) :
    (afterAll calls s).Originates m := by
  induction calls generalizing s with
  | nil => exact hm
  | cons k rest ih =>
    obtain ⟨acts, htrace⟩ := k.exists_trace hs
    exact ih (htrace.consistent hs) (htrace.keeps_originates hm)

/-- **A message on its way out that was sent to a chain is for this chain and has an origin.** -/
theorem originates_of_mem_sent (hs : Consistent s) {calls : List Call}
    (hmem : m.encode ∈ collect (Call.sent id) calls s) (hstatus : m.status = .ok) :
    m.receiver = id ∧ (afterAll calls s).Originates m := by
  obtain ⟨before, k, later, rfl, hsent⟩ := exists_of_mem_collect hmem
  have hmid := consistent_afterAll hs before
  obtain ⟨m', hreceiver, hencode, horigin⟩ := Call.exists_originates hmid hsent
  have horiginates := horigin ((Message.status_eq_of_encode_eq hencode).trans hstatus)
  have hlen : m'.encode.length < UInt32.size :=
    Nat.lt_of_le_of_lt (Message.checkFormat_eq_ok_iff.mp horiginates.format).2.2.1 (by decide)
  obtain rfl := Message.eq_of_encode_eq hencode hlen
  refine ⟨hreceiver, ?_⟩
  rw [afterAll_append]
  exact keeps_originates_afterAll (Call.consistent_after hmid) horiginates later

end

end ChainHub
