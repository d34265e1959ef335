import ChainHub.Message
import ChainHub.Proofs.Attempt
import ChainHub.Proofs.Endian

/-!
# The wire format and what it stands for

A format is lawful when its reader takes the written forms of values from the front of a byte
string, and nothing else. Numbers, byte strings, texts, lists and tuples have lawful formats, and a
record has one because it is written as the tuple of its fields.

* `Wire.Lawful`: the law, with the values that can be written.
* `Wire.decode_eq_ok_iff`: a complete byte string stands for a value when it is its written form.
* `Message.length_encode`: how long an encoded message is.
* `Message.decode_encode`: a message whose texts and parameters have lengths of 32 bits is read back
  as it was written.
* `Message.status_eq_of_decode`: a byte string that decodes to a message is not the encoded form of a
  message with another status.
-/

namespace ChainHub

namespace Wire

/-! ## Lengths -/

@[simp]
theorem length_encode_uint32 (n : UInt32) : (encode n).length = 4 := length_littleEndian _ _

@[simp]
theorem length_encode_uint64 (n : UInt64) : (encode n).length = 8 := length_littleEndian _ _

@[simp]
theorem length_encode_fixed {n : Nat} (x : FixedBytes n) : (encode x).length = n := x.length_toList

theorem encode_bytes (bytes : Bytes) :
    encode bytes = encode (UInt32.ofNat bytes.length) ++ bytes := by
  have hitems : bytes.flatMap (encode : UInt8 → Bytes) = bytes := by
    show bytes.flatMap (fun b => [b]) = bytes
    rw [← List.map_eq_flatMap, List.map_id']
  show encode (UInt32.ofNat bytes.length) ++ bytes.flatMap encode = _
  rw [hitems]

@[simp]
theorem length_encode_bytes (bytes : Bytes) : (encode bytes).length = 4 + bytes.length := by
  rw [encode_bytes, List.length_append, length_encode_uint32]

theorem length_utf8 (text : String) : (Utf8.encode text).length = text.utf8ByteSize := by
  show text.toUTF8.data.toList.length = _
  rw [Array.length_toList]
  exact String.size_toByteArray

@[simp]
theorem length_encode_string (text : String) : (encode text).length = 4 + text.utf8ByteSize := by
  show (encode (Utf8.encode text)).length = _
  rw [length_encode_bytes, length_utf8]

@[simp]
theorem length_encode_status (status : MessageStatus) : (encode status).length = 4 :=
  length_encode_uint32 _

/-! ## Lawful formats -/

/-- A wire format whose reader takes the written forms of values, and nothing else, from the front
of a byte string. -/
class Lawful (α : Type) [Wire α] where
  /-- Whether the lengths in a value can be written. -/
  Fits : α → Prop
  /-- What is read is a value that can be written, in its written form. -/
  read_eq_ok_iff : ∀ {bytes : Bytes} {a : α} {rest : Bytes},
    (read : WireReader α) bytes = .ok (a, rest) ↔ Fits a ∧ bytes = encode a ++ rest

export Lawful (Fits read_eq_ok_iff)

variable {α β : Type} [Wire α]

theorem pure_eq_ok_iff {bytes rest : Bytes} {a b : β} :
    (pure a : WireReader β) bytes = .ok (b, rest) ↔ a = b ∧ bytes = rest := by
  rw [show (pure a : WireReader β) bytes = pure (a, bytes) from rfl, Attempt.pure_eq_ok_iff,
    Prod.mk.injEq]

/-- A reader that begins with a value has a result when the written form of a value comes first and
the remaining reader has one behind it. -/
theorem read_bind_eq_ok_iff [Lawful α] {f : α → WireReader β} {bytes rest : Bytes} {b : β} :
    ((read : WireReader α) >>= f) bytes = .ok (b, rest) ↔
      ∃ a mid, (Fits a ∧ bytes = encode a ++ mid) ∧ f a mid = .ok (b, rest) := by
  constructor
  · intro h
    obtain ⟨⟨a, mid⟩, ha, hb⟩ := Attempt.bind_eq_ok_iff.mp h
    exact ⟨a, mid, read_eq_ok_iff.mp ha, hb⟩
  · rintro ⟨a, mid, ha, hb⟩
    exact Attempt.bind_eq_ok_iff.mpr ⟨(a, mid), read_eq_ok_iff.mpr ha, hb⟩

theorem decode_eq_ok_iff_read {bytes : Bytes} {a : α} :
    decode bytes = .ok a ↔ (read : WireReader α) bytes = .ok (a, []) := by
  unfold decode
  split
  · rename_i e he
    simp [he]
  · rename_i value hvalue
    simp [hvalue]
  · rename_i value first rest hvalue
    simp [hvalue]

/-- **A byte string stands for a value when it is the written form of it.** -/
theorem decode_eq_ok_iff [Lawful α] {bytes : Bytes} {a : α} :
    decode bytes = .ok a ↔ Fits a ∧ bytes = encode a := by
  rw [decode_eq_ok_iff_read, read_eq_ok_iff, List.append_nil]

theorem decode_encode [Lawful α] {a : α} (h : Fits a) : decode (encode a) = .ok a :=
  decode_eq_ok_iff.mpr ⟨h, rfl⟩

theorem eq_encode_of_decode [Lawful α] {bytes : Bytes} {a : α} (h : decode bytes = .ok a) :
    bytes = encode a :=
  (decode_eq_ok_iff.mp h).2

/-- Written forms end where they end: what follows does not change which value comes first. -/
theorem encode_append_inj [Lawful α] {a b : α} {rest rest' : Bytes} (ha : Fits a) (hb : Fits b)
    (h : encode a ++ rest = encode b ++ rest') : a = b ∧ rest = rest' := by
  have hread : (read : WireReader α) (encode a ++ rest) = .ok (a, rest) :=
    read_eq_ok_iff.mpr ⟨ha, rfl⟩
  rw [h, read_eq_ok_iff.mpr ⟨hb, rfl⟩] at hread
  exact (Prod.mk.inj (Except.ok.inj hread)).imp Eq.symm Eq.symm

theorem eq_of_encode_eq [Lawful α] {a b : α} (ha : Fits a) (hb : Fits b)
    (h : encode a = encode b) : a = b :=
  (encode_append_inj ha hb (congrArg (· ++ []) h)).1

/-! ## Numbers and byte strings -/

theorem readBytes_eq_ok_iff {n : Nat} {bytes front rest : Bytes} :
    readBytes n bytes = .ok (front, rest) ↔ front.length = n ∧ bytes = front ++ rest := by
  unfold readBytes
  constructor
  · intro h
    split at h
    · rename_i hn
      cases h
      exact ⟨by simp [hn], (List.take_append_drop n bytes).symm⟩
    · cases h
  · rintro ⟨rfl, rfl⟩
    rw [if_pos (by simp), List.take_left, List.drop_left]

instance : Lawful UInt8 where
  Fits _ := True
  read_eq_ok_iff {bytes b rest} := by
    rw [true_and]
    cases bytes with
    | nil => exact ⟨nofun, nofun⟩
    | cons first bytes =>
      show Except.ok (first, bytes) = .ok (b, rest) ↔ first :: bytes = b :: rest
      simp

/-- Numbers with `width` digits are read as they are written. -/
theorem readNumber_eq_ok_iff {width : Nat} {ofNat : Nat → β} {toNat : β → Nat}
    (hof : ∀ n, n < 256 ^ width → toNat (ofNat n) = n) (hto : ∀ b, ofNat (toNat b) = b)
    (hlt : ∀ b, toNat b < 256 ^ width) {bytes rest : Bytes} {b : β} :
    (readBytes width >>= fun digits => pure (ofNat (fromLittleEndian digits))) bytes =
        .ok (b, rest) ↔ bytes = littleEndian width (toNat b) ++ rest := by
  constructor
  · intro h
    obtain ⟨⟨digits, mid⟩, hdigits, hpure⟩ := Attempt.bind_eq_ok_iff.mp h
    obtain ⟨hlen, hbytes⟩ := readBytes_eq_ok_iff.mp hdigits
    obtain ⟨rfl, rfl⟩ := pure_eq_ok_iff.mp hpure
    rw [hof _ (hlen ▸ fromLittleEndian_lt digits), ← hlen, littleEndian_fromLittleEndian, hbytes]
  · rintro rfl
    refine Attempt.bind_eq_ok_iff.mpr ⟨(littleEndian width (toNat b), rest),
      readBytes_eq_ok_iff.mpr ⟨length_littleEndian _ _, rfl⟩, pure_eq_ok_iff.mpr ⟨?_, rfl⟩⟩
    rw [fromLittleEndian_littleEndian, Nat.mod_eq_of_lt (hlt b), hto]

instance : Lawful UInt32 where
  Fits _ := True
  read_eq_ok_iff := (readNumber_eq_ok_iff (fun _ h => UInt32.toNat_ofNat_of_lt' h)
    (fun _ => UInt32.ofNat_toNat) UInt32.toNat_lt).trans (iff_of_eq (true_and _)).symm

instance : Lawful UInt64 where
  Fits _ := True
  read_eq_ok_iff := (readNumber_eq_ok_iff (fun _ h => UInt64.toNat_ofNat_of_lt' h)
    (fun _ => UInt64.ofNat_toNat) UInt64.toNat_lt).trans (iff_of_eq (true_and _)).symm

instance {n : Nat} : Lawful (FixedBytes n) where
  Fits _ := True
  read_eq_ok_iff {bytes x rest} := by
    rw [true_and]
    show dite _ _ _ = _ ↔ bytes = x.toList ++ rest
    constructor
    · intro h
      split at h
      · cases h
        exact (List.take_append_drop n bytes).symm
      · cases h
    · rintro rfl
      rw [dif_pos (by simp)]
      exact congrArg Except.ok (Prod.ext (FixedBytes.ext (List.take_left' x.length_toList))
        (List.drop_left' x.length_toList))

/-! ## Lists and texts -/

theorem readMany_eq_ok_iff [Lawful α] {n : Nat} {bytes rest : Bytes} {items : List α} :
    (readMany n : WireReader (List α)) bytes = .ok (items, rest) ↔
      items.length = n ∧ (∀ a ∈ items, Fits a) ∧ bytes = items.flatMap encode ++ rest := by
  induction n generalizing bytes items with
  | zero =>
    refine pure_eq_ok_iff.trans ⟨?_, ?_⟩
    · rintro ⟨rfl, rfl⟩
      exact ⟨rfl, nofun, rfl⟩
    · rintro ⟨hlen, -, rfl⟩
      obtain rfl := List.eq_nil_of_length_eq_zero hlen
      exact ⟨rfl, rfl⟩
  | succ n ih =>
    refine read_bind_eq_ok_iff.trans ⟨?_, ?_⟩
    · rintro ⟨first, mid, ⟨hfirst, rfl⟩, h⟩
      obtain ⟨⟨others, mid'⟩, hothers, hpure⟩ := Attempt.bind_eq_ok_iff.mp h
      obtain ⟨rfl, rfl⟩ := pure_eq_ok_iff.mp hpure
      obtain ⟨rfl, hfits, rfl⟩ := ih.mp hothers
      exact ⟨rfl, List.forall_mem_cons.mpr ⟨hfirst, hfits⟩, by
        rw [List.flatMap_cons, List.append_assoc]⟩
    · rintro ⟨hlen, hfits, rfl⟩
      cases items with
      | nil => cases hlen
      | cons first others =>
        obtain ⟨hfirst, hothers⟩ := List.forall_mem_cons.mp hfits
        refine ⟨first, others.flatMap encode ++ rest,
          ⟨hfirst, by rw [List.flatMap_cons, List.append_assoc]⟩, ?_⟩
        exact Attempt.bind_eq_ok_iff.mpr ⟨(others, rest),
          ih.mpr ⟨Nat.succ.inj hlen, hothers, rfl⟩, rfl⟩

instance [Lawful α] : Lawful (List α) where
  Fits items := items.length < UInt32.size ∧ ∀ a ∈ items, Fits a
  read_eq_ok_iff {bytes items rest} := by
    refine read_bind_eq_ok_iff.trans ⟨?_, ?_⟩
    · rintro ⟨length, mid, ⟨-, rfl⟩, h⟩
      obtain ⟨hlen, hfits, rfl⟩ := readMany_eq_ok_iff.mp h
      refine ⟨⟨hlen ▸ length.toNat_lt, hfits⟩, ?_⟩
      show _ = (encode (UInt32.ofNat items.length) ++ _) ++ rest
      rw [hlen, UInt32.ofNat_toNat, List.append_assoc]
    · rintro ⟨⟨hlen, hfits⟩, rfl⟩
      exact ⟨UInt32.ofNat items.length, items.flatMap encode ++ rest,
        ⟨trivial, List.append_assoc _ _ _⟩,
        readMany_eq_ok_iff.mpr ⟨(UInt32.toNat_ofNat_of_lt' hlen).symm, hfits, rfl⟩⟩

@[simp]
theorem fits_bytes_iff {bytes : Bytes} : Fits bytes ↔ bytes.length < UInt32.size :=
  and_iff_left fun _ _ => trivial

theorem decode_utf8_eq_ok_iff {bytes : Bytes} {text : String} :
    Utf8.decode bytes = .ok text ↔ bytes = Utf8.encode text := by
  unfold Utf8.decode Utf8.encode
  constructor
  · intro h
    split at h
    · rename_i text' htext
      cases h
      unfold String.fromUTF8? at htext
      split at htext
      · cases htext
        rfl
      · cases htext
    · cases h
  · rintro rfl
    have hbytes : (⟨text.toUTF8.data.toList.toArray⟩ : ByteArray) = text.toByteArray := by simp
    have htext : String.fromUTF8? text.toByteArray = some text := dif_pos text.isValidUTF8
    rw [hbytes, htext]

instance : Lawful String where
  Fits text := text.utf8ByteSize < UInt32.size
  read_eq_ok_iff {bytes text rest} := by
    refine read_bind_eq_ok_iff.trans ⟨?_, ?_⟩
    · rintro ⟨written, mid, ⟨hfits, rfl⟩, h⟩
      cases htext : Utf8.decode written with
      | error fault => simp only [htext] at h; cases h
      | ok text' =>
        simp only [htext] at h
        obtain ⟨rfl, rfl⟩ := pure_eq_ok_iff.mp h
        obtain rfl := decode_utf8_eq_ok_iff.mp htext
        rw [fits_bytes_iff, length_utf8] at hfits
        exact ⟨hfits, rfl⟩
    · rintro ⟨hfits, rfl⟩
      refine ⟨Utf8.encode text, rest, ⟨by rwa [fits_bytes_iff, length_utf8], rfl⟩, ?_⟩
      rw [decode_utf8_eq_ok_iff.mpr rfl]
      rfl

/-! ## Records -/

instance [Lawful α] [Wire β] [Lawful β] : Lawful (α × β) where
  Fits x := Fits x.1 ∧ Fits x.2
  read_eq_ok_iff {bytes x rest} := by
    refine read_bind_eq_ok_iff.trans ⟨?_, ?_⟩
    · rintro ⟨a, mid, ⟨ha, rfl⟩, h⟩
      obtain ⟨b, mid', ⟨hb, rfl⟩, hpure⟩ := read_bind_eq_ok_iff.mp h
      obtain ⟨rfl, rfl⟩ := pure_eq_ok_iff.mp hpure
      exact ⟨⟨ha, hb⟩, (List.append_assoc _ _ _).symm⟩
    · rintro ⟨⟨ha, hb⟩, rfl⟩
      exact ⟨x.1, encode x.2 ++ rest, ⟨ha, List.append_assoc _ _ _⟩,
        read_bind_eq_ok_iff.mpr ⟨x.2, rest, ⟨hb, rfl⟩, rfl⟩⟩

/-- A record is written and read as the tuple of its fields. -/
@[reducible]
def Lawful.ofFields [Wire β] [Lawful β] (fields : α → β) (make : β → α) (fits : α → Prop)
    (hfields : ∀ a, make (fields a) = a) (hmake : ∀ b, fields (make b) = b)
    (hfits : ∀ a, fits a ↔ Fits (fields a)) (hencode : ∀ a, encode a = encode (fields a))
    (hread : (read : WireReader α) = make <$> read) : Lawful α where
  Fits := fits
  read_eq_ok_iff {bytes a rest} := by
    rw [hread, map_eq_pure_bind, read_bind_eq_ok_iff, hfits, hencode]
    constructor
    · rintro ⟨b, mid, hb, hpure⟩
      obtain ⟨rfl, rfl⟩ := pure_eq_ok_iff.mp hpure
      rwa [hmake]
    · intro h
      exact ⟨fields a, rest, h, pure_eq_ok_iff.mpr ⟨hfields a, rfl⟩⟩

end Wire

open Wire

/-! ## Statuses -/

instance : Lawful MessageStatus where
  Fits _ := True
  read_eq_ok_iff {bytes status rest} := by
    refine read_bind_eq_ok_iff.trans ⟨?_, ?_⟩
    · rintro ⟨code, mid, ⟨-, rfl⟩, h⟩
      cases hstatus : MessageStatus.ofCode? code with
      | none => simp only [hstatus] at h; cases h
      | some status' =>
        simp only [hstatus] at h
        obtain ⟨rfl, rfl⟩ := pure_eq_ok_iff.mp h
        exact ⟨trivial, by rw [← MessageStatus.code_of_ofCode? hstatus]; rfl⟩
    · rintro ⟨-, rfl⟩
      refine ⟨status.code, rest, ⟨trivial, rfl⟩, ?_⟩
      rw [MessageStatus.ofCode?_code]
      rfl

theorem MessageStatus.encode_injective {a b : MessageStatus}
    (h : Wire.encode a = Wire.encode b) : a = b :=
  eq_of_encode_eq trivial trivial h

/-- A byte string ends with one status at most. -/
theorem MessageStatus.eq_of_isSuffix {bytes : Bytes} {a b : MessageStatus}
    (ha : Wire.encode a <:+ bytes) (hb : Wire.encode b <:+ bytes) : a = b := by
  refine encode_injective ((List.suffix_of_suffix_length_le ha hb ?_).eq_of_length ?_)
  · simp
  · simp

/-! ## Messages -/

theorem Message.length_encode (m : Message) :
    m.encode.length = 40 + m.module.utf8ByteSize + m.command.utf8ByteSize + m.params.length := by
  show (Wire.encode m.module ++ Wire.encode m.command ++ Wire.encode m.nonce ++ Wire.encode m.fee
      ++ Wire.encode m.sender ++ Wire.encode m.receiver ++ Wire.encode m.params
      ++ Wire.encode m.status).length = _
  simp only [List.length_append, length_encode_string, length_encode_uint64, length_encode_fixed,
    length_encode_bytes, length_encode_status]
  omega

theorem Message.encode_status_isSuffix (m : Message) : Wire.encode m.status <:+ m.encode :=
  List.suffix_append _ _

/-- The texts and the parameters of a message have lengths of 32 bits. -/
def Message.Fits (m : Message) : Prop :=
  m.module.utf8ByteSize < UInt32.size ∧ m.command.utf8ByteSize < UInt32.size ∧
    m.params.length < UInt32.size

instance : Lawful Message :=
  .ofFields (fun m => (m.module, m.command, m.nonce, m.fee, m.sender, m.receiver, m.params,
      m.status))
    (fun (module, command, nonce, fee, sender, receiver, params, status) =>
      { module, command, nonce, fee, sender, receiver, params, status })
    Message.Fits (fun _ => rfl) (fun _ => rfl)
    (fun m => by simp [Message.Fits, Fits])
    (fun m => by simp only [Wire.encode, List.append_assoc])
    (by simp [Wire.read])

theorem Message.status_eq_of_encode_eq {m m' : Message} (h : m.encode = m'.encode) :
    m.status = m'.status :=
  MessageStatus.eq_of_isSuffix (encode_status_isSuffix m) (h ▸ encode_status_isSuffix m')

/-- What decodes to a message is not written by a message with another status. -/
theorem Message.status_eq_of_decode {m m' : Message}
    (h : (Wire.decode m'.encode : Except WireError Message) = .ok m) : m.status = m'.status :=
  (status_eq_of_encode_eq (eq_encode_of_decode h)).symm

theorem Message.fits_of_length {m : Message} (h : m.encode.length < UInt32.size) : m.Fits := by
  rw [length_encode] at h
  exact ⟨by omega, by omega, by omega⟩

/-- **A message that is not too long is read back as it was written.** -/
theorem Message.decode_encode {m : Message} (h : m.encode.length < UInt32.size) :
    (Wire.decode m.encode : Except WireError Message) = .ok m :=
  Wire.decode_encode (fits_of_length h)

/-- Messages that are not too long are told apart by what is written. -/
theorem Message.eq_of_encode_eq {m m' : Message} (h : m.encode = m'.encode)
    (hlen : m.encode.length < UInt32.size) : m = m' :=
  Wire.eq_of_encode_eq (fits_of_length hlen) (fits_of_length (h ▸ hlen)) h

end ChainHub
