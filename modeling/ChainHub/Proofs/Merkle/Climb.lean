import ChainHub.Merkle.LeafProof
import ChainHub.Proofs.Attempt

/-!
# One layer of a proof of several leaves

* `Ascending`: the positions of a proof, strictly ascending and below the number of leaves.
* `Climbs`: what one layer of a proof does, as a relation with one case for each way up.
* `climbLayer_eq_ok_iff`: `climbLayer` computes this relation.
* `Climbs.shape`: how many siblings a layer uses does not depend on the nodes.
-/

namespace ChainHub.Merkle

/-! ## Positions -/

/-- Strictly ascending positions from `lo` on and below `width`. -/
def Ascending (width : Nat) : (lo : Nat) → List Nat → Prop
  | _, [] => True
  | lo, i :: rest => lo ≤ i ∧ i < width ∧ Ascending width (i + 1) rest

theorem Ascending.mono {width : Nat} {lo lo' : Nat} (hlo : lo' ≤ lo) :
    ∀ {positions : List Nat}, Ascending width lo positions → Ascending width lo' positions
  | [], _ => trivial
  | _ :: _, h => ⟨Nat.le_trans hlo h.1, h.2⟩

theorem Ascending.bounds {width : Nat} :
    ∀ {lo : Nat} {positions : List Nat}, Ascending width lo positions →
      ∀ i ∈ positions, lo ≤ i ∧ i < width
  | _, [], _, i, hi => by cases hi
  | lo, first :: rest, h, i, hi => by
    rcases List.mem_cons.mp hi with rfl | hi
    · exact ⟨h.1, h.2.1⟩
    · have := Ascending.bounds h.2.2 i hi
      exact ⟨by have := h.1; omega, this.2⟩

/-- What lies below all positions is not one of them. -/
theorem Ascending.notMem {width lo i : Nat} {positions : List Nat}
    (h : Ascending width lo positions) (hi : i < lo) : i ∉ positions := fun hmem =>
  Nat.not_le.mpr hi (h.bounds i hmem).1

/-- No position lies beyond the last node, the first one included. -/
theorem Ascending.head_ne {width lo i : Nat} {positions : List Nat}
    (h : Ascending width lo positions) (hi : width ≤ i) : ∀ j ∈ positions.head?, j ≠ i := by
  intro j hj
  have := (h.bounds j (List.mem_of_mem_head? hj)).2
  omega

theorem Ascending.nodup {width : Nat} :
    ∀ {lo : Nat} {positions : List Nat}, Ascending width lo positions → positions.Nodup
  | _, [], _ => List.nodup_nil
  | _, first :: _, h =>
    List.nodup_cons.mpr ⟨h.2.2.notMem (Nat.lt_succ_self first), Ascending.nodup h.2.2⟩

/-- Ascending positions that do not go on with the next one leave it out. -/
theorem Ascending.skip {width lo : Nat} {positions : List Nat} (h : Ascending width lo positions)
    (hhead : ∀ j ∈ positions.head?, j ≠ lo) : Ascending width (lo + 1) positions := by
  cases positions with
  | nil => trivial
  | cons j rest =>
    have hj := hhead j rfl
    exact ⟨by have := h.1; omega, h.2⟩

theorem ascending_of_isAscending {width : Nat} :
    ∀ {i : Nat} {rest : List Nat}, isAscending (i :: rest) = true →
      (∀ last ∈ (i :: rest).getLast?, last < width) → Ascending width i (i :: rest)
  | i, [], _, hlast => ⟨Nat.le_refl _, hlast i rfl, trivial⟩
  | i, j :: rest, h, hlast => by
    simp only [isAscending, Bool.and_eq_true, decide_eq_true_eq] at h
    have htail := ascending_of_isAscending h.2 hlast
    exact ⟨Nat.le_refl _, by have := htail.2.1; omega, htail.mono h.1⟩

theorem checkIndexes_eq_ok {size leaves : Nat} {indexes : List Nat}
    (h : checkIndexes size indexes leaves = .ok ()) :
    indexes ≠ [] ∧ indexes.length = leaves ∧ Ascending size 0 indexes := by
  cases indexes with
  | nil => cases h
  | cons i rest =>
    unfold checkIndexes at h
    obtain ⟨last, hlast⟩ : ∃ last, (i :: rest).getLast? = some last :=
      ⟨_, List.getLast?_eq_some_getLast (List.cons_ne_nil i rest)⟩
    rw [hlast] at h
    by_cases hcount : (i :: rest).length = leaves
    · by_cases hasc : isAscending (i :: rest) = true
      · by_cases hrange : size ≤ last
        · simp only [hcount, hasc, hrange, ne_eq, not_true_eq_false, if_true, if_false] at h
          cases h
        · refine ⟨List.cons_ne_nil i rest, hcount, ?_⟩
          refine (ascending_of_isAscending hasc ?_).mono (Nat.zero_le i)
          intro l hl
          rw [hlast] at hl
          cases hl
          omega
      · simp only [hcount, hasc, ne_eq, not_true_eq_false, if_false] at h
        cases h
    · simp only [hcount, ne_eq, not_false_eq_true, if_true] at h
      cases h

/-- Positions in order and within bounds. -/
theorem ascending_of_pairwise {width : Nat} :
    ∀ {lo : Nat} {positions : List Nat}, positions.Pairwise (· < ·) →
      (∀ i ∈ positions, lo ≤ i ∧ i < width) → Ascending width lo positions
  | _, [], _, _ => trivial
  | lo, i :: rest, h, hbounds => by
    rw [List.pairwise_cons] at h
    rw [List.forall_mem_cons] at hbounds
    exact ⟨hbounds.1.1, hbounds.1.2,
      ascending_of_pairwise h.2 fun j hj => ⟨h.1 j hj, (hbounds.2 j hj).2⟩⟩

theorem Ascending.isAscending {width : Nat} :
    ∀ {lo : Nat} {positions : List Nat}, Ascending width lo positions → isAscending positions = true
  | _, [], _ => rfl
  | _, [_], _ => rfl
  | _, i :: j :: rest, h => by
    have hlt : i < j := h.2.2.1
    simp only [Merkle.isAscending, hlt, decide_true, Bool.true_and]
    exact Ascending.isAscending h.2.2

/-- Ascending positions pass the check. -/
theorem checkIndexes_of_ascending {size : Nat} {positions : List Nat} (hne : positions ≠ [])
    (h : Ascending size 0 positions) : checkIndexes size positions positions.length = .ok () := by
  have hlast : positions.getLast? = some (positions.getLast hne) :=
    List.getLast?_eq_some_getLast hne
  have hlt := (h.bounds _ (List.getLast_mem hne)).2
  unfold checkIndexes
  rw [hlast]
  simp [h.isAscending, Nat.not_le.mpr hlt, pure, Except.pure]

/-! ## One layer -/

/-- One layer of a proof: known nodes and the siblings used give the known nodes above. -/
inductive Climbs (width : Nat) :
    List (Nat × Digest) → List Digest → List (Nat × Digest) → Prop
  | done : Climbs width [] [] []
  | left {i : Nat} {node sibling : Digest} {rest above : List (Nat × Digest)}
      {used : List Digest} (hi : i % 2 = 1) (h : Climbs width rest used above) :
      Climbs width ((i, node) :: rest) (sibling :: used) ((i / 2, branchHash sibling node) :: above)
  | right {i : Nat} {node sibling : Digest} {rest above : List (Nat × Digest)}
      {used : List Digest} (hi : i % 2 = 0) (hw : i + 1 < width)
      (hhead : ∀ j ∈ (rest.map Prod.fst).head?, j ≠ i + 1) (h : Climbs width rest used above) :
      Climbs width ((i, node) :: rest) (sibling :: used) ((i / 2, branchHash node sibling) :: above)
  | pair {i : Nat} {node next : Digest} {rest above : List (Nat × Digest)} {used : List Digest}
      (hi : i % 2 = 0) (hw : i + 1 < width) (h : Climbs width rest used above) :
      Climbs width ((i, node) :: (i + 1, next) :: rest) used
        ((i / 2, branchHash node next) :: above)
  | last {i : Nat} {node : Digest} {rest above : List (Nat × Digest)} {used : List Digest}
      (hi : i % 2 = 0) (hw : width ≤ i + 1) (h : Climbs width rest used above) :
      Climbs width ((i, node) :: rest) used ((i / 2, node) :: above)

section Equations

variable {width i : Nat} {node : Digest} {rest : List (Nat × Digest)} {siblings : List Digest}

theorem climbLayer_left (hi : i % 2 = 1) (sibling : Digest) :
    climbLayer width ((i, node) :: rest) (sibling :: siblings) =
      (climbLayer width rest siblings).map fun r =>
        ((i / 2, branchHash sibling node) :: r.1, r.2) := by
  cases rest with
  | nil => simp [climbLayer, hi, Except.map]
  | cons next rest =>
    simp only [climbLayer, if_pos hi]
    cases climbLayer width (next :: rest) siblings <;> rfl

theorem climbLayer_right (hi : i % 2 = 0) (hw : i + 1 < width)
    (hhead : ∀ j ∈ (rest.map Prod.fst).head?, j ≠ i + 1) (sibling : Digest) :
    climbLayer width ((i, node) :: rest) (sibling :: siblings) =
      (climbLayer width rest siblings).map fun r =>
        ((i / 2, branchHash node sibling) :: r.1, r.2) := by
  have hodd : ¬ i % 2 = 1 := by omega
  cases rest with
  | nil => simp [climbLayer, hodd, hw, Except.map]
  | cons next rest =>
    have hj : next.1 ≠ i + 1 := hhead _ rfl
    simp only [climbLayer, if_neg hodd, if_pos hw, if_neg hj]
    cases climbLayer width (next :: rest) siblings <;> rfl

theorem climbLayer_pair (hi : i % 2 = 0) (hw : i + 1 < width) (next : Digest) :
    climbLayer width ((i, node) :: (i + 1, next) :: rest) siblings =
      (climbLayer width rest siblings).map fun r =>
        ((i / 2, branchHash node next) :: r.1, r.2) := by
  have hodd : ¬ i % 2 = 1 := by omega
  simp only [climbLayer, if_neg hodd, if_pos hw, if_pos]
  cases climbLayer width rest siblings <;> rfl

theorem climbLayer_last (hi : i % 2 = 0) (hw : width ≤ i + 1) :
    climbLayer width ((i, node) :: rest) siblings =
      (climbLayer width rest siblings).map fun r => ((i / 2, node) :: r.1, r.2) := by
  have hodd : ¬ i % 2 = 1 := by omega
  have hlast : ¬ i + 1 < width := by omega
  cases rest with
  | nil => simp [climbLayer, hodd, hlast, Except.map]
  | cons next rest =>
    simp only [climbLayer, if_neg hodd, if_neg hlast]
    cases climbLayer width (next :: rest) siblings <;> rfl

theorem climbLayer_missing (hneed : i % 2 = 1 ∨
    (i + 1 < width ∧ ∀ j ∈ (rest.map Prod.fst).head?, j ≠ i + 1)) :
    climbLayer width ((i, node) :: rest) [] = .error .missingSiblings := by
  cases rest with
  | nil =>
    by_cases hi : i % 2 = 1
    · simp [climbLayer, hi]
    · simp [climbLayer, hi, (hneed.resolve_left hi).1]
  | cons next rest =>
    by_cases hi : i % 2 = 1
    · simp [climbLayer, hi]
    · have hj : next.1 ≠ i + 1 := (hneed.resolve_left hi).2 _ rfl
      simp [climbLayer, hi, (hneed.resolve_left hi).1, hj]

end Equations

theorem Climbs.eq_ok {width : Nat} {nodes above : List (Nat × Digest)} {used : List Digest}
    (h : Climbs width nodes used above) (rest : List Digest) :
    climbLayer width nodes (used ++ rest) = .ok (above, rest) := by
  induction h with
  | done => rfl
  | left hi _ ih =>
    rw [List.cons_append, climbLayer_left hi, ih]
    rfl
  | right hi hw hhead _ ih =>
    rw [List.cons_append, climbLayer_right hi hw hhead, ih]
    rfl
  | pair hi hw _ ih =>
    rw [climbLayer_pair hi hw, ih]
    rfl
  | last hi hw _ ih =>
    rw [climbLayer_last hi hw, ih]
    rfl

theorem climbs_of_eq_ok {width : Nat} {nodes above : List (Nat × Digest)}
    {siblings rest : List Digest} (h : climbLayer width nodes siblings = .ok (above, rest)) :
    ∃ used, siblings = used ++ rest ∧ Climbs width nodes used above := by
  induction hn : nodes.length using Nat.strongRecOn generalizing nodes siblings above with
  | ind n ih =>
    subst hn
    rcases nodes with - | ⟨⟨i, node⟩, tail⟩
    · cases h
      exact ⟨[], rfl, .done⟩
    · have htail : tail.length < ((i, node) :: tail).length := by simp
      by_cases hi : i % 2 = 1
      · cases siblings with
        | nil =>
          rw [climbLayer_missing (Or.inl hi)] at h
          cases h
        | cons sibling siblings =>
          rw [climbLayer_left hi] at h
          obtain ⟨⟨above, left⟩, hr, hf⟩ := Attempt.map_eq_ok_iff.mp h
          cases hf
          obtain ⟨used, rfl, hc⟩ := ih _ htail hr rfl
          exact ⟨sibling :: used, rfl, .left hi hc⟩
      · have hi : i % 2 = 0 := by omega
        by_cases hw : i + 1 < width
        · by_cases hhead : ∀ j ∈ (tail.map Prod.fst).head?, j ≠ i + 1
          · cases siblings with
            | nil =>
              rw [climbLayer_missing (Or.inr ⟨hw, hhead⟩)] at h
              cases h
            | cons sibling siblings =>
              rw [climbLayer_right hi hw hhead] at h
              obtain ⟨⟨above, left⟩, hr, hf⟩ := Attempt.map_eq_ok_iff.mp h
              cases hf
              obtain ⟨used, rfl, hc⟩ := ih _ htail hr rfl
              exact ⟨sibling :: used, rfl, .right hi hw hhead hc⟩
          · rcases tail with - | ⟨⟨j, next⟩, tail⟩
            · simp at hhead
            · have hj : j = i + 1 := by simpa using hhead
              subst hj
              rw [climbLayer_pair hi hw] at h
              obtain ⟨⟨above, left⟩, hr, hf⟩ := Attempt.map_eq_ok_iff.mp h
              cases hf
              have hlt : tail.length < ((i, node) :: (i + 1, next) :: tail).length := by
                rw [List.length_cons, List.length_cons]
                omega
              obtain ⟨used, rfl, hc⟩ := ih tail.length hlt hr rfl
              exact ⟨used, rfl, .pair hi hw hc⟩
        · have hw : width ≤ i + 1 := by omega
          rw [climbLayer_last hi hw] at h
          obtain ⟨⟨above, left⟩, hr, hf⟩ := Attempt.map_eq_ok_iff.mp h
          cases hf
          obtain ⟨used, rfl, hc⟩ := ih _ htail hr rfl
          exact ⟨used, rfl, .last hi hw hc⟩

/-- **What one layer does** with the siblings it uses. -/
theorem climbLayer_eq_ok_iff {width : Nat} {nodes above : List (Nat × Digest)}
    {siblings rest : List Digest} :
    climbLayer width nodes siblings = .ok (above, rest) ↔
      ∃ used, siblings = used ++ rest ∧ Climbs width nodes used above := by
  constructor
  · exact climbs_of_eq_ok
  · rintro ⟨used, rfl, h⟩
    exact h.eq_ok rest

/-- The positions of the layer above. -/
theorem Climbs.ascending {width : Nat} {nodes above : List (Nat × Digest)} {used : List Digest}
    (h : Climbs width nodes used above) :
    ∀ {lo : Nat}, lo % 2 = 0 → Ascending width lo (nodes.map Prod.fst) →
      Ascending ((width + 1) / 2) (lo / 2) (above.map Prod.fst) := by
  induction h with
  | done => exact fun _ _ => trivial
  | @left i _ _ _ _ _ hi _ ih =>
    intro lo hlo hasc
    obtain ⟨hle, hlt, hrest⟩ := hasc
    refine ⟨by omega, by omega, (ih (by omega) hrest).mono (by omega)⟩
  | @right i _ _ _ _ _ hi hw hhead _ ih =>
    intro lo hlo hasc
    obtain ⟨hle, hlt, hrest⟩ := hasc
    refine ⟨by omega, by omega, (ih (by omega) (hrest.skip hhead)).mono (by omega)⟩
  | @pair i _ _ _ _ _ hi hw _ ih =>
    intro lo hlo hasc
    obtain ⟨hle, hlt, -, -, hrest⟩ := hasc
    refine ⟨by omega, by omega, (ih (by omega) hrest).mono (by omega)⟩
  | @last i _ rest _ _ hi hw _ ih =>
    intro lo hlo hasc
    obtain ⟨hle, hlt, hrest⟩ := hasc
    have hskip : Ascending width (i + 2) (rest.map Prod.fst) := hrest.skip (hrest.head_ne hw)
    refine ⟨by omega, by omega, (ih (by omega) hskip).mono (by omega)⟩

theorem Climbs.ne_nil {width : Nat} {nodes above : List (Nat × Digest)} {used : List Digest}
    (h : Climbs width nodes used above) (hne : nodes ≠ []) : above ≠ [] := by
  cases h with
  | done => exact absurd rfl hne
  | left => exact List.cons_ne_nil _ _
  | right => exact List.cons_ne_nil _ _
  | pair => exact List.cons_ne_nil _ _
  | last => exact List.cons_ne_nil _ _

/-- Other nodes at the same positions use up the same siblings. -/
theorem Climbs.shape {width : Nat} {nodes above : List (Nat × Digest)} {used : List Digest}
    (h : Climbs width nodes used above) :
    ∀ {others : List (Nat × Digest)} {more : List Digest},
      others.map Prod.fst = nodes.map Prod.fst → more.length = used.length →
      ∃ next, Climbs width others more next ∧ next.map Prod.fst = above.map Prod.fst := by
  induction h with
  | done =>
    intro others more hp hm
    rw [List.map_eq_nil_iff.mp hp, List.length_eq_zero_iff.mp hm]
    exact ⟨[], .done, rfl⟩
  | @left i _ _ _ _ _ hi _ ih =>
    intro others more hp hm
    obtain ⟨⟨j, node⟩, rest, rfl, rfl, hrest⟩ := List.map_eq_cons_iff.mp hp
    obtain ⟨sibling, more, rfl⟩ := List.exists_cons_of_length_eq_add_one hm
    obtain ⟨next, hnext, hpos⟩ := ih hrest (by simpa using hm)
    exact ⟨_, .left hi hnext, by simp [hpos]⟩
  | @right i _ _ _ _ _ hi hw hhead _ ih =>
    intro others more hp hm
    obtain ⟨⟨j, node⟩, rest, rfl, rfl, hrest⟩ := List.map_eq_cons_iff.mp hp
    obtain ⟨sibling, more, rfl⟩ := List.exists_cons_of_length_eq_add_one hm
    obtain ⟨next, hnext, hpos⟩ := ih hrest (by simpa using hm)
    exact ⟨_, .right hi hw (hrest ▸ hhead) hnext, by simp [hpos]⟩
  | @pair i _ _ _ _ _ hi hw _ ih =>
    intro others more hp hm
    obtain ⟨⟨j, node⟩, rest, rfl, rfl, hrest⟩ := List.map_eq_cons_iff.mp hp
    obtain ⟨⟨k, node'⟩, rest, rfl, rfl, htail⟩ := List.map_eq_cons_iff.mp hrest
    obtain ⟨next, hnext, hpos⟩ := ih htail hm
    exact ⟨_, .pair hi hw hnext, by simp [hpos]⟩
  | @last i _ _ _ _ hi hw _ ih =>
    intro others more hp hm
    obtain ⟨⟨j, node⟩, rest, rfl, rfl, hrest⟩ := List.map_eq_cons_iff.mp hp
    obtain ⟨next, hnext, hpos⟩ := ih hrest hm
    exact ⟨_, .last hi hw hnext, by simp [hpos]⟩

end ChainHub.Merkle
