import ChainHub.Chain

/-!
# Hexadecimal text can be read back

* `Hex.decode?_encode`: what is written is read back as the bytes that it was written from.
* `ChainId.toHex_injective`: no two chains are shown with the same text.
-/

namespace ChainHub

namespace Hex

theorem digitValue?_digit : ∀ n < 16, digitValue? (digit n) = some n := by decide

/-- Two digits at a time give the next byte. -/
theorem fromDigits?_digits (bytes : Bytes) : fromDigits? (digits bytes) = some bytes := by
  induction bytes with
  | nil => rfl
  | cons b rest ih =>
    have hlow : digitValue? (digit (b.toNat % 16)) = some (b.toNat % 16) :=
      digitValue?_digit _ (Nat.mod_lt _ (by decide))
    have hhigh : digitValue? (digit (b.toNat / 16)) = some (b.toNat / 16) := by
      refine digitValue?_digit _ ?_
      have := b.toNat_lt
      omega
    have hbyte : UInt8.ofNat (16 * (b.toNat / 16) + b.toNat % 16) = b := by
      rw [Nat.div_add_mod, UInt8.ofNat_toNat]
    have hcons : digits (b :: rest) =
        digit (b.toNat / 16) :: digit (b.toNat % 16) :: digits rest := rfl
    rw [hcons, fromDigits?, hhigh, hlow, ih]
    exact congrArg some (congrArg (· :: rest) hbyte)

/-- **What is written in hexadecimal is read back.** -/
theorem decode?_encode (bytes : Bytes) : decode? (encode bytes) = some bytes := by
  unfold decode? encode
  rw [String.toList_ofList, fromDigits?_digits]

theorem encode_injective : Function.Injective encode := fun a b h =>
  Option.some.inj (by rw [← decode?_encode a, ← decode?_encode b, h])

theorem encodePrefixed_injective : Function.Injective encodePrefixed := fun _ _ h =>
  encode_injective ((String.append_right_inj "0x").mp h)

end Hex

/-- The text that a chain id is shown with tells which chain it is. -/
theorem ChainId.toHex_injective : Function.Injective ChainId.toHex := fun _ _ h =>
  FixedBytes.ext (Hex.encodePrefixed_injective h)

end ChainHub
