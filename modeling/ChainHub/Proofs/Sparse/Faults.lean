import ChainHub.Proofs.Sparse.Membership

/-!
# Which sparse proofs are refused

A sparse proof is refused for its shape only: the length of its bitmap, how many siblings the bitmap
asks for, and the lengths of the siblings listed. Siblings are taken one by one on the way up, so
the first of those asked for that has a wrong length is met before it shows that they are too few,
and a surplus is found last.

* `climbFault?`, `climb_eq_ok_or_error`: the fault that a climb meets, and what it leaves otherwise.
* `shapeFault?`: what is wrong with a proof, read off its bitmap and the lengths of its siblings.
* `rootOf_eq_error_iff`, `exists_rootOf_iff`: a proof is refused for this fault and no other.
* `JudgedByShape`, `rootOf_judgedByShape`: which fault that is.
-/

namespace ChainHub.Sparse

/-! ## Faults -/

/-- What a climb meets that asks for some of the siblings, by the lengths of those listed: one of a
wrong length, or too few of them. -/
def climbFault? (asked : Nat) (lengths : List Nat) : Option SparseError :=
  match (lengths.take asked).find? (· ≠ 32) with
  | some got => some (.siblingLength got)
  | none => if lengths.length < asked then some .missingSiblings else none

/-- What is wrong with a proof, by its bitmap and the lengths of its siblings. -/
def shapeFault? (bitmap : Bytes) (lengths : List Nat) : Option SparseError :=
  if bitmap.length = 0 ∨ bitmap.length = 32 then
    (climbFault? (Bitmap.ones bitmap) lengths).or
      (if Bitmap.ones bitmap < lengths.length then
        some (.unusedSiblings (lengths.length - Bitmap.ones bitmap))
      else none)
  else some (.bitmapLength bitmap.length)

section

variable {asked got : Nat} {lengths : List Nat}

theorem climbFault?_zero : climbFault? 0 lengths = none := by
  rw [climbFault?, List.take_zero]
  exact if_neg (Nat.not_lt_zero _)

theorem climbFault?_nil : climbFault? (asked + 1) [] = some .missingSiblings := by
  rw [climbFault?, List.take_nil]
  exact if_pos (Nat.zero_lt_succ _)

theorem climbFault?_cons_of_ne (h : got ≠ 32) :
    climbFault? (asked + 1) (got :: lengths) = some (.siblingLength got) := by
  rw [climbFault?, List.take_succ_cons, List.find?_cons_of_pos (by simpa using h)]

theorem climbFault?_cons_of_eq (h : got = 32) :
    climbFault? (asked + 1) (got :: lengths) = climbFault? asked lengths := by
  unfold climbFault?
  rw [List.take_succ_cons, List.find?_cons_of_neg (by simpa using h), List.length_cons]
  simp only [Nat.add_lt_add_iff_right]

/-- When all that are asked for have the right length, it is their number that counts. -/
theorem climbFault?_of_forall (h : ∀ got ∈ lengths.take asked, got = 32) :
    climbFault? asked lengths =
      if lengths.length < asked then some .missingSiblings else none := by
  have hnone : (lengths.take asked).find? (· ≠ 32) = none := by
    simpa using h
  unfold climbFault?
  rw [hnone]

end

/-! ## The climb -/

/-- **A climb stops at the first fault**, and leaves what is not asked for. The induction is on the
levels; those without a sibling change nothing. -/
theorem climb_eq_ok_or_error : ∀ (levels : List (Bool × Bool)) (siblings : List Bytes)
    (node : Digest),
    (climb levels siblings node).map Prod.snd =
      match climbFault? (levels.countP Prod.fst) (siblings.map List.length) with
      | some fault => .error fault
      | none => .ok (siblings.drop (levels.countP Prod.fst))
  | [], siblings, node => by
    rw [List.countP_nil, climbFault?_zero]
    rfl
  | (false, right) :: levels, siblings, node => by
    rw [climb_absent, climb_eq_ok_or_error levels, List.countP_cons_of_neg (by simp)]
  | (true, right) :: levels, [], node => by
    rw [List.countP_cons_of_pos rfl, List.map_nil, climbFault?_nil]
    rfl
  | (true, right) :: levels, raw :: siblings, node => by
    rw [List.countP_cons_of_pos rfl, List.map_cons]
    by_cases hlen : raw.length = 32
    · obtain ⟨sibling, rfl⟩ : ∃ sibling : Digest, raw = sibling.toList := ⟨⟨raw, hlen⟩, rfl⟩
      rw [climb_sibling, climb_eq_ok_or_error levels, climbFault?_cons_of_eq hlen,
        List.drop_succ_cons]
    · have hnone : FixedBytes.ofList? 32 raw = none := dif_neg hlen
      rw [climbFault?_cons_of_ne hlen, climb.eq_def]
      simp only [if_true, hnone]
      rfl

/-! ## Roots -/

theorem bitmapBits_eq_ok {bitmap : Bytes} (h : bitmap.length = 0 ∨ bitmap.length = 32) :
    bitmapBits bitmap = .ok ((List.range depth).map (Bitmap.test bitmap)) := by
  unfold bitmapBits
  exact if_pos h

/-- A bitmap asks for as many siblings as it has one bits. -/
theorem countP_levels {bitmap : Bytes} (h : bitmap.length = 0 ∨ bitmap.length = 32) (key : Digest) :
    (((List.range depth).map (Bitmap.test bitmap)).zip (keyBits key).reverse).countP Prod.fst =
      Bitmap.ones bitmap := by
  have hbits : 8 * bitmap.length ≤ depth := by
    unfold depth
    omega
  have hlen : ((List.range depth).map (Bitmap.test bitmap)).length ≤
      (keyBits key).reverse.length := by
    simp
  rw [← Bitmap.countP_test hbits, ← Function.id_comp Prod.fst, ← List.countP_map,
    List.map_fst_zip hlen, List.countP_map, Function.id_comp]

section

variable {key : Digest} {value : Bytes} {proof : Proof}

/-- **A proof is refused for its fault, and leads to a root without one.** -/
theorem rootOf_eq_ok_or_error :
    (rootOf key value proof).map (fun _ => ()) =
      match shapeFault? proof.bitmap (proof.siblings.map List.length) with
      | some fault => .error fault
      | none => .ok () := by
  unfold rootOf shapeFault?
  by_cases hsize : proof.bitmap.length = 0 ∨ proof.bitmap.length = 32
  · have hclimb := climb_eq_ok_or_error
      (((List.range depth).map (Bitmap.test proof.bitmap)).zip (keyBits key).reverse)
      proof.siblings (sparseLeafHash key value)
    rw [countP_levels hsize] at hclimb
    rw [bitmapBits_eq_ok hsize, if_pos hsize]
    show Except.map _ (climb _ _ _ >>= _) = _
    cases hfault : climbFault? (Bitmap.ones proof.bitmap) (proof.siblings.map List.length) with
    | some fault =>
      rw [hfault] at hclimb
      rw [Attempt.map_eq_error_iff.mp hclimb]
      rfl
    | none =>
      rw [hfault] at hclimb
      obtain ⟨⟨root, rest⟩, hroot, hrest⟩ := Attempt.map_eq_ok_iff.mp hclimb
      have hlen : rest.length = proof.siblings.length - Bitmap.ones proof.bitmap := by
        rw [show rest = _ from hrest, List.length_drop]
      rw [hroot, List.length_map, ← hlen, Option.none_or]
      cases rest with
      | nil =>
        rw [List.length_nil] at hlen
        rw [if_neg (by omega)]
        rfl
      | cons raw rest =>
        rw [List.length_cons] at hlen
        rw [if_pos (by omega)]
        rfl
  · unfold bitmapBits
    rw [if_neg hsize, if_neg hsize]
    rfl

theorem rootOf_eq_error_iff {fault : SparseError} :
    rootOf key value proof = .error fault ↔
      shapeFault? proof.bitmap (proof.siblings.map List.length) = some fault := by
  rw [← Attempt.map_eq_error_iff (f := fun _ => ()), rootOf_eq_ok_or_error]
  cases shapeFault? proof.bitmap (proof.siblings.map List.length) <;> simp

theorem exists_rootOf_iff :
    (∃ root, rootOf key value proof = .ok root) ↔
      shapeFault? proof.bitmap (proof.siblings.map List.length) = none := by
  have hmap : (∃ root, rootOf key value proof = .ok root) ↔
      (rootOf key value proof).map (fun _ => ()) = .ok () := by
    simp [Attempt.map_eq_ok_iff]
  rw [hmap, rootOf_eq_ok_or_error]
  cases shapeFault? proof.bitmap (proof.siblings.map List.length) <;> simp

end

/-! ## Shapes -/

section

variable {bitmap : Bytes} {asked : Nat} {lengths : List Nat}

theorem climbFault?_eq_none_iff :
    climbFault? asked lengths = none ↔
      (∀ got ∈ lengths.take asked, got = 32) ∧ asked ≤ lengths.length := by
  by_cases h : ∀ got ∈ lengths.take asked, got = 32
  · rw [climbFault?_of_forall h, and_iff_right h]
    simp
  · cases hfind : (lengths.take asked).find? (· ≠ 32) with
    | none => exact absurd (by simpa using hfind) h
    | some got =>
      unfold climbFault?
      rw [hfind]
      simp [h]

/-- A proof without a fault is complete. -/
theorem shapeFault?_eq_none_iff :
    shapeFault? bitmap lengths = none ↔
      (bitmap.length = 0 ∨ bitmap.length = 32) ∧ lengths.length = Bitmap.ones bitmap ∧
        ∀ got ∈ lengths, got = 32 := by
  unfold shapeFault?
  by_cases hsize : bitmap.length = 0 ∨ bitmap.length = 32
  · rw [if_pos hsize, Option.or_eq_none_iff, climbFault?_eq_none_iff]
    constructor
    · rintro ⟨⟨hall, hle⟩, hmore⟩
      have hge : ¬ Bitmap.ones bitmap < lengths.length := by simpa using hmore
      rw [List.take_of_length_le (Nat.le_of_not_lt hge)] at hall
      exact ⟨hsize, by omega, hall⟩
    · rintro ⟨-, hlen, hall⟩
      refine ⟨⟨fun got hgot => hall got (List.mem_of_mem_take hgot), by omega⟩, ?_⟩
      rw [if_neg (by omega)]
  · rw [if_neg hsize]
    exact iff_of_false nofun fun h => hsize h.1

/-- When all siblings that are asked for have the right length, their number is judged. -/
theorem shapeFault?_of_forall (hsize : bitmap.length = 0 ∨ bitmap.length = 32)
    (h : ∀ got ∈ lengths.take (Bitmap.ones bitmap), got = 32) :
    shapeFault? bitmap lengths =
      if lengths.length < Bitmap.ones bitmap then some .missingSiblings
      else if Bitmap.ones bitmap < lengths.length then
        some (.unusedSiblings (lengths.length - Bitmap.ones bitmap))
      else none := by
  unfold shapeFault?
  rw [if_pos hsize, climbFault?_of_forall h]
  split <;> rfl

end

/-- The first few of some siblings have a length if their lengths say so. -/
theorem forall_length_take {siblings : List Bytes} {asked : Nat}
    (h : ∀ raw ∈ siblings.take asked, raw.length = 32) :
    ∀ got ∈ (siblings.map List.length).take asked, got = 32 := by
  rw [← List.map_take]
  exact List.forall_mem_map.mpr h

/-- What the shape of a proof says about it. -/
structure JudgedByShape (key : Digest) (value : Bytes) (proof : Proof) : Prop where
  /-- There is a root if and only if the proof is complete. -/
  arrives : (∃ root, rootOf key value proof = .ok root) ↔
    (proof.bitmap.length = 0 ∨ proof.bitmap.length = 32) ∧
      proof.siblings.length = Bitmap.ones proof.bitmap ∧ ∀ raw ∈ proof.siblings, raw.length = 32
  /-- A bitmap of another length is reported before anything else. -/
  misfits : ¬ (proof.bitmap.length = 0 ∨ proof.bitmap.length = 32) →
    rootOf key value proof = .error (.bitmapLength proof.bitmap.length)
  /-- Next comes the first sibling of a wrong length among those that are asked for. -/
  mismeasures : (proof.bitmap.length = 0 ∨ proof.bitmap.length = 32) → ∀ raw,
    ((proof.siblings.take (Bitmap.ones proof.bitmap)).find? fun raw => raw.length ≠ 32) = some raw →
      rootOf key value proof = .error (.siblingLength raw.length)
  /-- Without such a sibling, one is missing if and only if there are fewer. -/
  misses : (proof.bitmap.length = 0 ∨ proof.bitmap.length = 32) →
    (∀ raw ∈ proof.siblings.take (Bitmap.ones proof.bitmap), raw.length = 32) →
      (rootOf key value proof = .error .missingSiblings ↔
        proof.siblings.length < Bitmap.ones proof.bitmap)
  /-- Some are left over if and only if there are more, and they are counted. -/
  leavesOver : (proof.bitmap.length = 0 ∨ proof.bitmap.length = 32) →
    (∀ raw ∈ proof.siblings.take (Bitmap.ones proof.bitmap), raw.length = 32) → ∀ remaining,
      (rootOf key value proof = .error (.unusedSiblings remaining) ↔
        Bitmap.ones proof.bitmap < proof.siblings.length ∧
          remaining = proof.siblings.length - Bitmap.ones proof.bitmap)
  /-- Another key, another value and other siblings of the same lengths end in the same way. -/
  alike : ∀ other stored siblings, siblings.map List.length = proof.siblings.map List.length →
    (rootOf other stored { proof with siblings }).map (fun _ => ()) =
      (rootOf key value proof).map (fun _ => ())

/-- **A sparse proof is judged by its shape**, that is by its bitmap and by the lengths of the
siblings it lists. Key, value and hashes play no part in it. -/
theorem rootOf_judgedByShape (key : Digest) (value : Bytes) (proof : Proof) :
    JudgedByShape key value proof where
  arrives := by
    rw [exists_rootOf_iff, shapeFault?_eq_none_iff]
    simp
  misfits hsize := by
    rw [rootOf_eq_error_iff, shapeFault?, if_neg hsize]
  mismeasures hsize raw hraw := by
    have hfind : ((proof.siblings.map List.length).take (Bitmap.ones proof.bitmap)).find? (· ≠ 32) =
        some raw.length := by
      rw [← List.map_take, List.find?_map]
      exact congrArg (Option.map List.length) hraw
    rw [rootOf_eq_error_iff, shapeFault?, if_pos hsize, climbFault?, hfind]
    rfl
  misses hsize hall := by
    rw [rootOf_eq_error_iff, shapeFault?_of_forall hsize (forall_length_take hall),
      List.length_map]
    split
    · simp [*]
    · split <;> simp [*]
  leavesOver hsize hall remaining := by
    rw [rootOf_eq_error_iff, shapeFault?_of_forall hsize (forall_length_take hall),
      List.length_map]
    split
    · simp
      omega
    · split
      · simp [*, eq_comm]
      · simp [*]
  alike other stored siblings h := by
    rw [rootOf_eq_ok_or_error, rootOf_eq_ok_or_error, h]

end ChainHub.Sparse
