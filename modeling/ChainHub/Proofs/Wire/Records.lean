import ChainHub.Certificate
import ChainHub.Channel
import ChainHub.Proofs.Wire

/-!
# The wire formats of the records

Certificates, channels, accumulators, validators and the parameters of the hub's own messages are
written as the tuples of their fields, so their formats are lawful.

* `Fits`, for each record: the lists and texts in a value have lengths of 32 bits.
* `Wire.IsBijective`: values and accepted byte strings stand for each other, one to one.
* `Wire.records_isBijective`: the format of each record is bijective on the values that fit.
-/

namespace ChainHub

open Wire

/-- The bitmap and the signature of a certificate have lengths of 32 bits. -/
def Certificate.Fits (c : Certificate) : Prop :=
  c.signers.length < UInt32.size ∧ c.signature.length < UInt32.size

instance : Lawful Certificate :=
  .ofFields (fun c => (c.blockId, c.height, c.timestamp, c.stateRoot, c.validatorsHash, c.signers,
      c.signature))
    (fun (blockId, height, timestamp, stateRoot, validatorsHash, signers, signature) =>
      { blockId, height, timestamp, stateRoot, validatorsHash, signers, signature })
    Certificate.Fits (fun _ => rfl) (fun _ => rfl)
    (fun c => by simp [Certificate.Fits, Fits])
    (fun c => by simp only [Wire.encode, List.append_assoc])
    (by simp [Wire.read])

/-- The path of an accumulator has a length of 32 bits. -/
def Accumulator.Fits (acc : Accumulator) : Prop := acc.path.length < UInt32.size

instance : Lawful Accumulator :=
  .ofFields (fun acc => (acc.root, acc.size, acc.path))
    (fun (root, size, path) => { root, size, path })
    Accumulator.Fits (fun _ => rfl) (fun _ => rfl)
    (fun acc => by simp [Accumulator.Fits, Fits])
    (fun acc => by simp only [Wire.encode, List.append_assoc])
    (by simp [Wire.read])

/-- The paths of both accumulators of a channel have lengths of 32 bits. -/
def Channel.Fits (c : Channel) : Prop := c.inbox.Fits ∧ c.outbox.Fits

instance : Lawful Channel :=
  .ofFields (fun c => (c.inbox, c.outbox, c.partnerOutboxRoot, c.feeToken, c.minFeePerByte))
    (fun (inbox, outbox, partnerOutboxRoot, feeToken, minFeePerByte) =>
      { inbox, outbox, partnerOutboxRoot, feeToken, minFeePerByte })
    Channel.Fits (fun _ => rfl) (fun _ => rfl)
    (fun c => by simp [Channel.Fits, Fits])
    (fun c => by simp only [Wire.encode, List.append_assoc])
    (by simp [Wire.read])

/-- The key of a validator has a length of 32 bits. -/
def Validator.Fits (v : Validator) : Prop := v.key.length < UInt32.size

instance : Lawful Validator :=
  .ofFields (fun v => (v.key, v.weight)) (fun (key, weight) => { key, weight })
    Validator.Fits (fun _ => rfl) (fun _ => rfl)
    (fun v => by simp [Validator.Fits, Fits])
    (fun v => by simp only [Wire.encode, List.append_assoc])
    (by simp [Wire.read])

/-- The name in the parameters of a handshake has a length of 32 bits. -/
def RegistrationParams.Fits (p : RegistrationParams) : Prop := p.name.utf8ByteSize < UInt32.size

instance : Lawful RegistrationParams :=
  .ofFields (fun p => (p.name, p.chainId, p.feeToken, p.minFeePerByte))
    (fun (name, chainId, feeToken, minFeePerByte) => { name, chainId, feeToken, minFeePerByte })
    RegistrationParams.Fits (fun _ => rfl) (fun _ => rfl)
    (fun p => by simp [RegistrationParams.Fits, Fits])
    (fun p => by simp only [Wire.encode, List.append_assoc])
    (by simp [Wire.read])

instance : Lawful SidechainTerminatedParams :=
  .ofFields (fun p => (p.chainId, p.stateRoot)) (fun (chainId, stateRoot) => { chainId, stateRoot })
    (fun _ => True) (fun _ => rfl) (fun _ => rfl)
    (fun p => by simp [Fits])
    (fun _ => rfl)
    (by simp [Wire.read])

namespace Wire

/-- Values with `fits` and the byte strings that are accepted stand for each other, one to one. -/
structure IsBijective (α : Type) [Wire α] (fits : α → Prop) : Prop where
  /-- A value is read back as it was written. -/
  decode_encode : ∀ a : α, fits a → decode (encode a) = .ok a
  /-- What is accepted is the written form of the value that it stands for. -/
  encode_of_decode : ∀ (bytes : Bytes) (a : α), decode bytes = .ok a → fits a ∧ encode a = bytes
  /-- Any other byte string than the written form of a value is malformed or stands for another
  value. -/
  altered : ∀ (a : α) (bytes : Bytes), bytes ≠ encode a →
    (∃ e : WireError, (decode bytes : Except WireError α) = .error e) ∨
      ∃ b : α, b ≠ a ∧ decode bytes = .ok b

theorem Lawful.isBijective {α : Type} [Wire α] [Lawful α] : IsBijective α Fits where
  decode_encode _ h := Wire.decode_encode h
  encode_of_decode _ _ h := (decode_eq_ok_iff.mp h).imp_right Eq.symm
  altered a bytes hne := by
    cases h : (decode bytes : Except WireError α) with
    | error e => exact .inl ⟨e, rfl⟩
    | ok b =>
      refine .inr ⟨b, ?_, rfl⟩
      rintro rfl
      exact hne (eq_encode_of_decode h)

/-- **The values of each record whose lengths have 32 bits and the byte strings that are accepted for
them stand for each other, one to one.** -/
theorem records_isBijective :
    IsBijective Message Message.Fits ∧ IsBijective Certificate Certificate.Fits ∧
      IsBijective Channel Channel.Fits ∧ IsBijective Accumulator Accumulator.Fits ∧
      IsBijective Validator Validator.Fits ∧
      IsBijective RegistrationParams RegistrationParams.Fits ∧
      IsBijective SidechainTerminatedParams fun _ => True :=
  ⟨Lawful.isBijective, Lawful.isBijective, Lawful.isBijective, Lawful.isBijective,
    Lawful.isBijective, Lawful.isBijective, Lawful.isBijective⟩

end Wire

end ChainHub
