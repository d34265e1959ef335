import ChainHub.Certificate.Signing
import ChainHub.Hex
import ChainHub.Proofs.Certificate
import Mathlib.Data.List.Nodup

/-!
# Signers and verifier agree

The signers of a certificate are listed by their positions, in any order. They fill in a bitmap and
add their signatures up in the order of the list; the check reads the bitmap and adds the keys up in
the order of the validators. Both are about the same message, because what is signed leaves the
bitmap and the signature out.

* `pick`: the elements of a list at some positions.
* `SignatureScheme.Aggregates`: all that is asked of the signature scheme.
* `Certificate.selected_eq_pick`, `Certificate.marked_perm`: the check selects the signers.
* `Certificate.SignedBy`, `Certificate.signedBy_signedAt`: what the check finds in a certificate
  with the bitmap and a signature of the signers.
* `Certificate.exists_signed`: there is such a certificate.
* `Certificate.signWith?_agrees`: the weight of the signers decides, and nothing else does.
-/

namespace ChainHub

open ValidatorSet

/-! ## Some elements of a list -/

/-- The elements at the given positions, in the order of the positions. -/
def pick {α : Type} (list : List α) (positions : List Nat) : List α :=
  positions.filterMap (list[·]?)

section Pick

variable {α β : Type} {list : List α} {positions other : List Nat}

theorem pick_map (f : α → β) : pick (list.map f) positions = (pick list positions).map f := by
  simp [pick, List.map_filterMap]

theorem pick_perm (h : positions.Perm other) : (pick list positions).Perm (pick list other) :=
  h.filterMap _

theorem pick_ne_nil (hne : positions ≠ []) (h : ∀ i ∈ positions, i < list.length) :
    pick list positions ≠ [] := by
  obtain ⟨i, rest, rfl⟩ := List.exists_cons_of_ne_nil hne
  have hi := List.getElem?_eq_getElem (h i List.mem_cons_self)
  exact List.ne_nil_of_mem (List.mem_filterMap.mpr ⟨i, List.mem_cons_self, hi⟩)

theorem mapM_getElem? (h : ∀ i ∈ positions, i < list.length) :
    positions.mapM (fun i => list[i]?) = some (pick list positions) := by
  induction positions with
  | nil => rfl
  | cons i rest ih =>
    obtain ⟨hi, hrest⟩ := List.forall_mem_cons.mp h
    simp [pick, List.mapM_cons, List.getElem?_eq_getElem hi, ih hrest]

end Pick

/-! ## The signature scheme -/

/-- **What is asked of a signature scheme** for some signers and a message: their signatures of the
message, added up in any order, are a signature of it under the sum of their keys, added up in any
order. -/
def SignatureScheme.Aggregates (scheme : SignatureScheme) (signers : List Bls.Signer)
    (message : Bytes) : Prop :=
  ∀ order : List Bls.Signer, order.Perm signers → ∃ encoded signature,
    scheme.aggregate? (order.map fun signer => scheme.sign signer.secret message) = some encoded ∧
      scheme.decodeSignature? encoded = some signature ∧
      ∀ keys : List Bls.Signer, keys.Perm signers →
        ∃ sum, scheme.sumKeys? (keys.map (·.publicKey)) = some sum ∧
          scheme.accepts sum message signature = true

namespace SignatureScheme.Aggregates

variable {scheme : SignatureScheme} {signers order : List Bls.Signer} {message : Bytes}

theorem of_perm (h : scheme.Aggregates signers message) (hperm : order.Perm signers) :
    scheme.Aggregates order message := by
  intro order' horder'
  obtain ⟨encoded, signature, haggregate, hdecode, hkeys⟩ := h order' (horder'.trans hperm)
  exact ⟨encoded, signature, haggregate, hdecode, fun keys hkeys' =>
    hkeys keys (hkeys'.trans hperm)⟩

/-- The signers have a signature that is accepted for their keys in any order. -/
theorem exists_verified (h : scheme.Aggregates signers message) (hne : signers ≠ []) :
    ∃ encoded, scheme.aggregate? (signers.map fun signer => scheme.sign signer.secret message) =
        some encoded ∧
      ∀ keys : List Bls.Signer, keys.Perm signers →
        scheme.verifyAggregate (keys.map (·.publicKey)) message encoded = true := by
  obtain ⟨encoded, signature, haggregate, hdecode, hkeys⟩ := h signers (List.Perm.refl _)
  refine ⟨encoded, haggregate, fun keys hperm => ?_⟩
  obtain ⟨sum, hsum, haccepts⟩ := hkeys keys hperm
  have hsome : (keys.map (·.publicKey)).isEmpty = false := by
    rw [List.isEmpty_map, List.isEmpty_eq_false_iff]
    rintro rfl
    exact hne hperm.nil_eq.symm
  rw [SignatureScheme.verifyAggregate, hsome, hdecode, hsum]
  exact haccepts

end SignatureScheme.Aggregates

namespace Certificate

/-! ## The bitmap of the signers -/

section Bitmap

variable {bitmap : Bytes} {positions : List Nat}

/-- **The validators that the check selects are those at the marked positions.** -/
theorem selected_eq_pick (bitmap : Bytes) (validators : List Validator) :
    selected bitmap validators =
      pick validators ((marked bitmap validators.length).map Fin.val) := by
  have hget : ∀ i : Fin validators.length, validators[i.val]? = some validators[i] := fun i =>
    List.getElem?_eq_getElem i.isLt
  rw [selected_eq_map, pick, List.filterMap_map]
  simp only [Function.comp_def, hget, List.filterMap_eq_map']

/-- **The marked positions are those that the bitmap is made of**, in another order. -/
theorem marked_perm {count : Nat} (hbitmap : ∀ i, Bitmap.test bitmap i = positions.contains i)
    (hnodup : positions.Nodup) (hrange : ∀ i ∈ positions, i < count) :
    ((marked bitmap count).map Fin.val).Perm positions := by
  have hmarked : ((marked bitmap count).map Fin.val).Nodup :=
    ((List.nodup_finRange count).filter _).map Fin.val_injective
  refine (List.perm_ext_iff_of_nodup hmarked hnodup).mpr fun i => ?_
  simp only [marked, List.mem_map, List.mem_filter, hbitmap, List.contains_iff_mem]
  constructor
  · rintro ⟨j, ⟨-, hj⟩, rfl⟩
    exact hj
  · intro hi
    exact ⟨⟨i, hrange i hi⟩, ⟨List.mem_finRange _, hi⟩, rfl⟩

/-- The bits that are set are those of the positions, wherever they are looked for. -/
theorem test_bitmapOf {count : Nat} (hrange : ∀ i ∈ positions, i < count) (i : Nat) :
    Bitmap.test (Bitmap.ofBits (bitmapLength count) positions.contains) i =
      positions.contains i := by
  by_cases hi : i < 8 * bitmapLength count
  · exact Bitmap.test_ofBits hi
  · have hbits := le_bits count
    rw [Bitmap.test_of_length_le (by rw [Bitmap.length_ofBits]; omega)]
    refine (Bool.eq_false_of_not_eq_true fun hmem => ?_).symm
    have := hrange i (List.contains_iff_mem.mp hmem)
    omega

end Bitmap

/-! ## Signed certificates -/

/-- The validator set of some signers with their weights. -/
def committee (members : List (Bls.Signer × UInt64)) (threshold : UInt64) : ValidatorSet where
  validators := members.map fun member => member.1.validator member.2
  threshold := threshold

/-- The weight of the members at the given positions. -/
def weightAt (members : List (Bls.Signer × UInt64)) (positions : List Nat) : Nat :=
  ((pick members positions).map (·.2.toNat)).sum

/-- If the bitmap fits the validators and the signature is right, the weight decides. -/
theorem verifySignatureWith_of_fits {scheme : SignatureScheme} {c : Certificate} {chain : ChainId}
    {set : ValidatorSet} {count : Nat} (hcount : set.validators.length = count)
    (hlen : c.signers.length = bitmapLength count) (hbeyond : ¬ namesBeyond c.signers count = true)
    (hsignature : scheme.verifyAggregate ((selected c.signers set.validators).map (·.key))
      (c.signingBytes chain) c.signature = true) :
    c.verifySignatureWith scheme chain set =
      if set.threshold.toNat ≤ totalWeight (selected c.signers set.validators) then .ok ()
      else .error (.weight (totalWeight (selected c.signers set.validators))
        set.threshold.toNat) := by
  subst hcount
  have hchecked : c.verifySignatureWith scheme chain set =
      if signedWeight (selected c.signers set.validators) < set.threshold.toNat then
        .error (.weight (signedWeight (selected c.signers set.validators)) set.threshold.toNat)
      else .ok () := by
    unfold verifySignatureWith
    simp only [if_neg (not_not.mpr hlen), if_neg hbeyond, hsignature, if_true]
    rfl
  rw [hchecked]
  by_cases hweight : totalWeight (selected c.signers set.validators) < set.threshold.toNat
  · rw [if_pos (signedWeight_lt_iff.mpr hweight), if_neg (Nat.not_le_of_lt hweight),
      signedWeight_of_lt (Nat.lt_trans hweight set.threshold.toNat_lt)]
  · rw [if_neg (signedWeight_lt_iff.not.mpr hweight), if_pos (Nat.le_of_not_lt hweight)]

section Signing

variable {scheme : SignatureScheme} {chain : ChainId} {members : List (Bls.Signer × UInt64)}
  {positions other : List Nat}

theorem weightAt_perm (h : other.Perm positions) :
    weightAt members other = weightAt members positions :=
  ((pick_perm h).map _).sum_eq

theorem contains_perm (h : other.Perm positions) : other.contains = positions.contains := by
  funext i
  rw [Bool.eq_iff_iff, List.contains_iff_mem, List.contains_iff_mem]
  exact h.mem_iff

@[simp]
theorem length_committee (members : List (Bls.Signer × UInt64)) (threshold : UInt64) :
    (committee members threshold).validators.length = members.length :=
  List.length_map _

theorem pick_committee (members : List (Bls.Signer × UInt64)) (threshold : UInt64)
    (positions : List Nat) :
    pick (committee members threshold).validators positions =
      (pick members positions).map fun member => member.1.validator member.2 :=
  pick_map _

theorem totalWeight_pick_committee (members : List (Bls.Signer × UInt64)) (threshold : UInt64)
    (positions : List Nat) :
    totalWeight (pick (committee members threshold).validators positions) =
      weightAt members positions := by
  rw [pick_committee, totalWeight, List.map_map]
  rfl

theorem map_key_pick_committee (members : List (Bls.Signer × UInt64)) (threshold : UInt64)
    (positions : List Nat) :
    (pick (committee members threshold).validators positions).map (·.key) =
      (pick (members.map Prod.fst) positions).map (·.publicKey) := by
  rw [pick_committee, pick_map, List.map_map, List.map_map]
  rfl

/-- The certificate with the bitmap of the given positions and a signature. -/
def signedAt (c : Certificate) (count : Nat) (positions : List Nat) (signature : Bytes) :
    Certificate :=
  { c with
    signers := Bitmap.ofBits (bitmapLength count) positions.contains
    signature := signature }

/-- The bitmap of the signers fits their validator set. -/
theorem fits_signedAt (c : Certificate) {count : Nat} (hrange : ∀ i ∈ positions, i < count)
    (signature : Bytes) :
    (c.signedAt count positions signature).signers.length = bitmapLength count ∧
      ¬ namesBeyond (c.signedAt count positions signature).signers count = true := by
  have hlen : (c.signedAt count positions signature).signers.length = bitmapLength count :=
    Bitmap.length_ofBits _ _
  refine ⟨hlen, (not_namesBeyond_iff hlen).mpr fun i hi => ?_⟩
  refine (test_bitmapOf hrange i).trans (Bool.eq_false_of_not_eq_true fun hmem => ?_)
  have := hrange i (List.contains_iff_mem.mp hmem)
  omega

/-- **The check of a signed certificate selects the signers**, in the order of the validators. -/
theorem exists_selected (c : Certificate) (hnodup : positions.Nodup) {set : ValidatorSet}
    (hrange : ∀ i ∈ positions, i < set.validators.length) (signature : Bytes) :
    ∃ order : List Nat, order.Perm positions ∧
      selected (c.signedAt set.validators.length positions signature).signers set.validators =
        pick set.validators order :=
  ⟨_, marked_perm (test_bitmapOf hrange) hnodup hrange, selected_eq_pick _ _⟩

/-- What the check finds in a certificate that the members at some positions have signed. -/
structure SignedBy (scheme : SignatureScheme) (signed : Certificate) (chain : ChainId)
    (members : List (Bls.Signer × UInt64)) (threshold : UInt64) (positions : List Nat) :
    Prop where
  length : signed.signers.length = bitmapLength members.length
  within : ¬ namesBeyond signed.signers members.length = true
  /-- The validators that are selected are listed in the order of the set, -/
  inOrder : (selected signed.signers (committee members threshold).validators).Sublist
    (committee members threshold).validators
  /-- and they are those at the positions. -/
  exact : (selected signed.signers (committee members threshold).validators).Perm
    (pick (committee members threshold).validators positions)
  verdict : signed.verifySignatureWith scheme chain (committee members threshold) =
    if threshold.toNat ≤ weightAt members positions then .ok ()
    else .error (.weight (weightAt members positions) threshold.toNat)

/-- **The bitmap of the signers and a signature of theirs are all that the check needs.** What is
signed leaves both of them out. -/
theorem signedBy_signedAt (c : Certificate) (hnodup : positions.Nodup)
    (hrange : ∀ i ∈ positions, i < members.length) {signature : Bytes}
    (hsignature : ∀ order : List Nat, order.Perm positions →
      scheme.verifyAggregate ((pick (members.map Prod.fst) order).map (·.publicKey))
        (c.signingBytes chain) signature = true) (threshold : UInt64) :
    (c.signedAt members.length positions signature).SignedBy scheme chain members threshold
      positions := by
  have hlength := length_committee members threshold
  obtain ⟨hlen, hbeyond⟩ := fits_signedAt c hrange signature
  obtain ⟨order, horder, hselected⟩ := exists_selected c hnodup
    (fun i hi => (hrange i hi).trans_eq hlength.symm) signature
  rw [hlength] at hselected
  have hverified : scheme.verifyAggregate ((selected
      (c.signedAt members.length positions signature).signers
        (committee members threshold).validators).map (·.key)) (c.signingBytes chain) signature =
          true := by
    rw [hselected, map_key_pick_committee]
    exact hsignature order horder
  refine ⟨hlen, hbeyond, selected_sublist _ _, ?_, ?_⟩
  · rw [hselected]
    exact pick_perm horder
  · rw [verifySignatureWith_of_fits hlength hlen hbeyond hverified, hselected,
      totalWeight_pick_committee, weightAt_perm horder]
    rfl

/-- **The signers have a certificate that the check accepts if their weight is enough.** -/
theorem exists_signed (c : Certificate) (hne : positions ≠ []) (hnodup : positions.Nodup)
    (hrange : ∀ i ∈ positions, i < members.length)
    (hscheme : scheme.Aggregates (pick (members.map Prod.fst) positions) (c.signingBytes chain)) :
    ∃ signature, c.signWith? scheme chain (members.map Prod.fst) positions =
        some (c.signedAt members.length positions signature) ∧
      ∀ threshold : UInt64, (c.signedAt members.length positions signature).SignedBy scheme chain
        members threshold positions := by
  have hrange' : ∀ i ∈ positions, i < (members.map Prod.fst).length := by simpa using hrange
  obtain ⟨signature, haggregate, hverified⟩ := hscheme.exists_verified (pick_ne_nil hne hrange')
  refine ⟨signature, ?_, signedBy_signedAt c hnodup hrange fun order horder =>
    hverified _ (pick_perm horder)⟩
  rw [signWith?, mapM_getElem? hrange']
  simp only [Option.bind_eq_bind, Option.bind_some, haggregate, List.length_map]
  rfl

/-- **Signers and verifier agree.** Some members of a set sign a certificate. They are listed once
each, in any order, and the scheme is one by which their signatures add up. Then there is a signed
certificate. Its bitmap passes the check and selects the signers, and the certificate is accepted
exactly if their weights reach the threshold as exact numbers; otherwise the error says what they
have. Another order of the signers, and whatever bitmap and signature the certificate had before,
make no difference to the bitmap nor to what the check says. -/
theorem signWith?_agrees (scheme : SignatureScheme) (c : Certificate) (chain : ChainId)
    (members : List (Bls.Signer × UInt64)) (threshold : UInt64) {positions : List Nat}
    (hne : positions ≠ []) (hnodup : positions.Nodup)
    (hrange : ∀ i ∈ positions, i < members.length)
    (hscheme : scheme.Aggregates (pick (members.map Prod.fst) positions) (c.signingBytes chain)) :
    ∃ signed, c.signWith? scheme chain (members.map Prod.fst) positions = some signed ∧
      signed.SignedBy scheme chain members threshold positions ∧
      ∀ other bitmap signature, other.Perm positions →
        ∃ signed', { c with signers := bitmap, signature := signature }.signWith? scheme chain
            (members.map Prod.fst) other = some signed' ∧
          signed'.signers = signed.signers ∧
          signed'.verifySignatureWith scheme chain (committee members threshold) =
            signed.verifySignatureWith scheme chain (committee members threshold) := by
  obtain ⟨signature, hsign, hsigned⟩ := exists_signed c hne hnodup hrange hscheme
  refine ⟨_, hsign, hsigned threshold, fun other bitmap old hperm => ?_⟩
  have hne' : other ≠ [] := by
    rintro rfl
    exact hne hperm.nil_eq.symm
  obtain ⟨signature', hsign', hsigned'⟩ :=
    exists_signed { c with signers := bitmap, signature := old } hne' (hperm.nodup_iff.mpr hnodup)
      (fun i hi => hrange i (hperm.mem_iff.mp hi)) (hscheme.of_perm (pick_perm hperm))
  refine ⟨_, hsign', congrArg (Bitmap.ofBits _) (contains_perm hperm), ?_⟩
  rw [(hsigned' threshold).verdict, (hsigned threshold).verdict, weightAt_perm hperm]

end Signing

end Certificate

/-! ## Two signers -/

/-- A scheme that is known for one message only, by the signatures of some signers and their sum. -/
def SignatureScheme.recorded (message : Bytes) (signatures : List (Bls.Signer × Bytes))
    (sum : Bytes) : SignatureScheme where
  Key := List Bytes
  Signature := Bytes
  decodeKey? key := if key ∈ signatures.map (·.1.publicKey) then some [key] else none
  decodeSignature? signature :=
    if signature = sum ∨ signature ∈ signatures.map (·.2) then some signature else none
  noKey := []
  addKeys := (· ++ ·)
  addSignatures? list := if list.Perm (signatures.map (·.2)) then some sum else none
  sign secret text :=
    if text = message then
      ((signatures.find? fun s => s.1.secret == secret).map (·.2)).getD []
    else []
  accepts keys text signature :=
    decide (keys.Perm (signatures.map (·.1.publicKey)) ∧ text = message ∧ signature = sum)

section Recorded

variable {message sum : Bytes} {signatures : List (Bls.Signer × Bytes)}

theorem mapM_decodeSignature? {list : List Bytes} (h : ∀ s ∈ list, s ∈ signatures.map (·.2)) :
    list.mapM (SignatureScheme.recorded message signatures sum).decodeSignature? = some list := by
  induction list with
  | nil => rfl
  | cons s rest ih =>
    obtain ⟨hs, hrest⟩ := List.forall_mem_cons.mp h
    have hdecode : (SignatureScheme.recorded message signatures sum).decodeSignature? s = some s :=
      if_pos (Or.inr hs)
    rw [List.mapM_cons, hdecode, ih hrest]
    rfl

theorem sumKeys?_recorded {keys : List Bytes} (h : ∀ k ∈ keys, k ∈ signatures.map (·.1.publicKey)) :
    (SignatureScheme.recorded message signatures sum).sumKeys? keys = some keys := by
  have hfrom : ∀ (keys start : List Bytes), (∀ k ∈ keys, k ∈ signatures.map (·.1.publicKey)) →
      keys.foldlM (fun (sum : List Bytes) key =>
        (if key ∈ signatures.map (·.1.publicKey) then some [key] else none).map (sum ++ ·)) start =
          some (start ++ keys) := by
    intro keys
    induction keys with
    | nil => simp
    | cons key rest ih =>
      intro start h
      obtain ⟨hkey, hrest⟩ := List.forall_mem_cons.mp h
      rw [List.foldlM_cons, if_pos hkey]
      exact (ih (start ++ [key]) hrest).trans (by simp)
  exact hfrom keys [] h

/-- The recorded signature of a signer is found by the secret number. -/
theorem sign_recorded (hnodup : (signatures.map (·.1.secret)).Nodup) {s : Bls.Signer × Bytes}
    (hs : s ∈ signatures) :
    (SignatureScheme.recorded message signatures sum).sign s.1.secret message = s.2 := by
  have hfind : signatures.find? (fun t => t.1.secret == s.1.secret) = some s := by
    induction signatures with
    | nil => simp at hs
    | cons t rest ih =>
      obtain ⟨hfresh, hrest⟩ := List.nodup_cons.mp hnodup
      rcases List.mem_cons.mp hs with rfl | hs
      · exact List.find?_cons_of_pos (beq_self_eq_true _)
      · have hother : t.1.secret ≠ s.1.secret := fun heq =>
          hfresh (List.mem_map.mpr ⟨s, hs, heq.symm⟩)
        rw [List.find?_cons_of_neg (by simpa using hother)]
        exact ih hrest hs
  simp [SignatureScheme.recorded, hfind]

/-- The signatures of such a scheme add up, if the signers have different secret numbers. -/
theorem aggregates_recorded (hnodup : (signatures.map (·.1.secret)).Nodup) :
    (SignatureScheme.recorded message signatures sum).Aggregates (signatures.map (·.1))
      message := by
  intro order horder
  have hsigned : (order.map fun signer =>
      (SignatureScheme.recorded message signatures sum).sign signer.secret message).Perm
        (signatures.map (·.2)) := by
    have hperm := horder.map fun signer =>
      (SignatureScheme.recorded message signatures sum).sign signer.secret message
    rw [List.map_map] at hperm
    exact hperm.trans (List.Perm.of_eq (List.map_congr_left fun s hs => sign_recorded hnodup hs))
  refine ⟨sum, sum, ?_, if_pos (Or.inl rfl), fun keys hkeys => ⟨keys.map (·.publicKey), ?_, ?_⟩⟩
  · rw [SignatureScheme.aggregate?, mapM_decodeSignature? fun s hs => hsigned.mem_iff.mp hs]
    exact if_pos hsigned
  all_goals
    have hknown := hkeys.map Bls.Signer.publicKey
    rw [List.map_map] at hknown
  · exact sumKeys?_recorded fun k hk => hknown.mem_iff.mp hk
  · exact decide_eq_true ⟨hknown, rfl, rfl⟩

end Recorded

namespace Bls

/-- A byte string by its hexadecimal digits, in lines. -/
def digits (lines : List String) : Bytes := lines.flatMap fun line => (Hex.decode? line).getD []

/-- The first of two signers, which are in the order of their keys. -/
def firstSigner : Signer where
  secret := 45826502405662034821546726679693186761755129164460299413634640906135110275216
  publicKey := digits [
    "8352a2e550204bc8d7d310073588adccc017c0b12b02ddef783dc20edde748fb",
    "fa2919ee1276b859eddec65a9fdfb94c"]

/-- The second one. -/
def secondSigner : Signer where
  secret := 43618114791389496707064559905062083889556226031895328346313659804146172728588
  publicKey := digits [
    "b8fdfcac9fac329323d6b0e5f674f974c6a5e785c20e654caefde0c8d34f8c0f",
    "724d496b267c66cb85b7b815725382ec"]

/-- Their signatures of one message, the second one first. -/
def pairSignatures : List (Signer × Bytes) := [
  (secondSigner, digits [
    "b314e00d72bd8b6f20cec36680a40b17b8aba0fb87919e3edc902c7dbe360534",
    "29ce348e847a3e0f1afb7dc5d72ffc870cf3092582a2096096b5477afc23279f",
    "25e2dae43bf7d77d5483e63435054bd6e7df764fcdf53c98c8865ac739797497"]),
  (firstSigner, digits [
    "989b9ac4bfa6e4c946f982969dbd6817fd16ff8321763a211aa8d5a6aac774ef",
    "82150da1fbfc5fa8328b51041f64434810414d2fcbd9e6d84cacaf091b161963",
    "d48c75a16c4417058bfc4b838c7f5dbda22b2fa74f669448bee8fc4901119a7b"])]

/-- The sum of the two signatures. -/
def pairSum : Bytes := digits [
    "b685508ae4a735e18325b3c0af078e1fb1fc24c44d5440534ab12c2f8cbff5dc",
    "3bb22f02e189758eb74839b61224751606351a370acf82cb1a809f57de097ecd",
    "79cf236ab77d58829a307e9bd0ee23b01db4bb9a853617a3d292f1f23645139e"]

end Bls

namespace Certificate

open Bls

/-- A certificate whose bitmap and signature are to be replaced. -/
def draft : Certificate :=
  { (default : Certificate) with height := 5, signers := [0xff, 0xff], signature := [0] }

/-- The chain that the certificate is about. -/
def draftChain : ChainId := ⟨[4, 0, 0, 1], rfl⟩

/-- The answers of `Bls.scheme` for this certificate and these signers. -/
def pairScheme : SignatureScheme :=
  .recorded (draft.signingBytes draftChain) pairSignatures pairSum

/-- The signers with their weights. -/
def pair : List (Signer × UInt64) := [(firstSigner, 10), (secondSigner, 15)]

/-- The two sign in the reverse order of their keys, and their weights are enough together. -/
theorem signWith?_agrees_pair :
    pairScheme.Aggregates (pick (pair.map Prod.fst) [1, 0]) (draft.signingBytes draftChain) ∧
      ∃ signed, draft.signWith? pairScheme draftChain (pair.map Prod.fst) [1, 0] = some signed ∧
        signed.SignedBy pairScheme draftChain pair 25 [1, 0] ∧
        signed.verifySignatureWith pairScheme draftChain (committee pair 25) = .ok () := by
  have hscheme : pairScheme.Aggregates (pick (pair.map Prod.fst) [1, 0])
      (draft.signingBytes draftChain) :=
    @aggregates_recorded _ _ pairSignatures (by decide)
  obtain ⟨signed, hsign, hsigned, -⟩ := signWith?_agrees pairScheme draft draftChain pair 25
    (by decide) (by decide) (by decide) hscheme
  refine ⟨hscheme, signed, hsign, hsigned, ?_⟩
  rw [hsigned.verdict, if_pos (by decide)]

end Certificate

end ChainHub
