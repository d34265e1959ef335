import ChainHub.Proofs.Merkle.LeafProof
import ChainHub.Proofs.Merkle.RightWitness

/-!
# Trees prove their leaves

A tree lists the siblings of any of its leaves, whichever are chosen, and a proof takes them in the
order in which they are listed. So a proof is refused only for what it shows. The siblings do not
see the leaves that they prove: they serve whatever is put in their place.

* `Tree.exists_climbs`: a layer can be climbed with the siblings that it gives.
* `climbLayers_treeSiblings`: so can all layers of a tree.
* `Tree.prove_ofLeaves`, `rootOfLeaves_treeSiblings`: a tree proves its leaves at ascending
  positions, and the proof leads to its root.
* `replaceAt`: some leaves with others put at given positions.
* `Tree.prove_reroots`: the siblings of a tree lead to the root of every tree that differs from it
  at the proven positions only.
* `Tree.prove_eq_of_rootOfLeaves`: no other proof leads to the root of a tree.
-/

namespace ChainHub.Merkle

/-! ## One layer -/

/-- A layer can be climbed with the siblings that it gives. -/
theorem Tree.exists_climbs {layer : List Digest} {positions : List Nat} :
    ∀ {lo : Nat} {nodes : List (Nat × Digest)}, nodes.map Prod.fst = positions →
      Ascending layer.length lo positions →
      ∃ above, Climbs layer.length nodes (Tree.siblings layer positions).1 above := by
  induction positions using siblings_induction with
  | nil =>
    intro lo nodes hnodes _
    rw [List.map_eq_nil_iff.mp hnodes]
    exact ⟨[], .done⟩
  | left i rest hi ih =>
    intro lo nodes hnodes hasc
    obtain ⟨⟨j, node⟩, tail, rfl, rfl, htail⟩ := List.map_eq_cons_iff.mp hnodes
    obtain ⟨above, habove⟩ := ih htail hasc.2.2
    have hlt := hasc.2.1
    have hsib : layer[j - 1]? = some layer[j - 1] := List.getElem?_eq_getElem (by omega)
    rw [siblings_left hi, hsib]
    exact ⟨_, .left hi habove⟩
  | pair i rest hi ih =>
    intro lo nodes hnodes hasc
    obtain ⟨⟨j, node⟩, tail, rfl, rfl, htail⟩ := List.map_eq_cons_iff.mp hnodes
    obtain ⟨⟨k, next⟩, tail, rfl, hk, hrest⟩ := List.map_eq_cons_iff.mp htail
    obtain rfl : k = j + 1 := hk
    obtain ⟨-, -, -, hlt, hasc⟩ := hasc
    obtain ⟨above, habove⟩ := ih hrest hasc
    rw [siblings_pair hi]
    exact ⟨_, .pair hi hlt habove⟩
  | gap i rest hi hhead ih =>
    intro lo nodes hnodes hasc
    obtain ⟨⟨j, node⟩, tail, rfl, rfl, htail⟩ := List.map_eq_cons_iff.mp hnodes
    obtain ⟨above, habove⟩ := ih htail hasc.2.2
    rw [siblings_gap hi hhead]
    by_cases hlt : j + 1 < layer.length
    · rw [List.getElem?_eq_getElem hlt]
      exact ⟨_, .right hi hlt (htail ▸ hhead) habove⟩
    · rw [List.getElem?_eq_none (by omega)]
      exact ⟨_, .last hi (by omega) habove⟩

/-! ## All layers -/

theorem climbLayers_treeSiblings {layer : List Digest} (hsize : layer.length + 1 < UInt64.size)
    {nodes : List (Nat × Digest)} (hasc : Ascending layer.length 0 (nodes.map Prod.fst))
    (hcov : Covers nodes layer) :
    ∃ last, climbLayers layer.length nodes (treeSiblings layer (nodes.map Prod.fst)) =
      .ok (last, []) := by
  induction layer using layer_induction generalizing nodes with
  | top layer hle =>
    rw [treeSiblings_of_le hle, climbLayers_of_le hle]
    exact ⟨nodes, rfl⟩
  | up layer hlt ih =>
    obtain ⟨above, hclimbs⟩ := Tree.exists_climbs rfl hasc
    obtain ⟨-, hpos, hup⟩ := hclimbs.covers hasc hcov
    have hasc' := hclimbs.ascending rfl hasc
    rw [← length_pairUp] at hasc'
    rw [treeSiblings_of_lt hlt, hclimbs.climbLayers hlt hsize, ← hpos, ← length_pairUp]
    have hhalf : (pairUp layer).length < layer.length := by
      rw [length_pairUp]
      omega
    exact ih (by omega) hasc' (hup rfl)

section

variable {L : List Bytes} {size : UInt64} {indexes : List UInt64} {leaves : List Digest}

theorem checkIndexes_map_toNat (hne : indexes ≠ [])
    (hasc : Ascending L.length 0 (indexes.map UInt64.toNat))
    (hcount : indexes.length = leaves.length) :
    checkIndexes L.length (indexes.map UInt64.toNat) leaves.length = .ok () := by
  have hcheck := checkIndexes_of_ascending (by simpa using hne) hasc
  rwa [List.length_map, hcount] at hcheck

/-- The siblings of a tree lead from its leaves to its root. -/
theorem rootOfLeaves_treeSiblings (hsize : size.toNat = L.length)
    (hroom : L.length + 1 < UInt64.size) (hne : indexes ≠ [])
    (hasc : Ascending L.length 0 (indexes.map UInt64.toNat))
    (hcount : indexes.length = leaves.length)
    (hcov : Covers ((indexes.map UInt64.toNat).zip leaves) (L.map leafHash)) :
    rootOfLeaves size indexes leaves (treeSiblings (L.map leafHash) (indexes.map UInt64.toNat)) =
      .ok (Tree.ofLeaves L).root := by
  have hwidth : L.length = (L.map leafHash).length := (List.length_map _).symm
  have hfst : ((indexes.map UInt64.toNat).zip leaves).map Prod.fst = indexes.map UInt64.toNat :=
    map_fst_zip (by rw [List.length_map, hcount])
  have hcheck := checkIndexes_map_toNat hne hasc hcount
  have hasc' : Ascending (L.map leafHash).length 0
      (((indexes.map UInt64.toNat).zip leaves).map Prod.fst) := by rwa [hfst, ← hwidth]
  rw [hwidth] at hroom
  obtain ⟨last, hlast⟩ := climbLayers_treeSiblings hroom hasc' hcov
  have hnodes : (indexes.map UInt64.toNat).zip leaves ≠ [] := fun hnil => by
    rw [hnil, List.map_nil, eq_comm, List.map_eq_nil_iff] at hfst
    exact hne hfst
  obtain ⟨root, rfl⟩ := climbLayers_last hlast hasc' hnodes
  have hroot := climbLayers_covers hlast hasc' hcov (List.append_nil _).symm _
    List.mem_cons_self
  rw [hfst] at hlast
  rw [rootOfLeaves_eq_ok_iff, hsize]
  refine ⟨hcheck, ?_⟩
  rw [hwidth, hlast, root_ofLeaves, ← hroot]

/-- A tree lists these siblings. -/
theorem Tree.prove_ofLeaves {positions : List Nat} (hne : positions ≠ [])
    (hasc : Ascending L.length 0 positions) :
    (Tree.ofLeaves L).prove positions = .ok (treeSiblings (L.map leafHash) positions) := by
  have hsize : (Tree.ofLeaves L).size = L.length := by
    rw [Tree.ofLeaves, Tree.size_layersFrom, List.length_map]
  unfold prove
  rw [hsize, checkIndexes_of_ascending hne hasc]
  rfl

end

/-! ## Replaced leaves -/

/-- Some leaves with others put at the given positions. -/
def replaceAt (leaves : List Bytes) : List (Nat × Bytes) → List Bytes
  | [] => leaves
  | (i, data) :: replacements => (replaceAt leaves replacements).set i data

section ReplaceAt

variable {leaves : List Bytes} {replacements : List (Nat × Bytes)}

@[simp]
theorem length_replaceAt : (replaceAt leaves replacements).length = leaves.length := by
  induction replacements with
  | nil => rfl
  | cons p replacements ih => rw [replaceAt, List.length_set, ih]

theorem getElem?_replaceAt_of_not_mem {k : Nat} (h : k ∉ replacements.map Prod.fst) :
    (replaceAt leaves replacements)[k]? = leaves[k]? := by
  induction replacements with
  | nil => rfl
  | cons p replacements ih =>
    rw [List.map_cons, List.mem_cons, not_or] at h
    rw [replaceAt, List.getElem?_set_ne (Ne.symm h.1), ih h.2]

theorem getElem?_replaceAt_of_mem {k : Nat} {data : Bytes}
    (hnodup : (replacements.map Prod.fst).Nodup) (hmem : (k, data) ∈ replacements)
    (hk : k < leaves.length) : (replaceAt leaves replacements)[k]? = some data := by
  induction replacements with
  | nil => cases hmem
  | cons p replacements ih =>
    rw [List.map_cons, List.nodup_cons] at hnodup
    rcases List.mem_cons.mp hmem with rfl | hmem
    · rw [replaceAt, List.getElem?_set_self (by rwa [length_replaceAt])]
    · have hne : p.1 ≠ k := fun heq => hnodup.1 (heq ▸ List.mem_map_of_mem hmem)
      rw [replaceAt, List.getElem?_set_ne hne, ih hnodup.2 hmem]

/-- Leaves that are put where they are change nothing. -/
theorem replaceAt_eq_self (h : ∀ p ∈ replacements, leaves[p.1]? = some p.2) :
    replaceAt leaves replacements = leaves := by
  induction replacements with
  | nil => rfl
  | cons p replacements ih =>
    rw [List.forall_mem_cons] at h
    rw [replaceAt, ih h.2]
    obtain ⟨hlt, hdata⟩ := List.getElem?_eq_some_iff.mp h.1
    rw [← hdata, List.set_getElem_self]

end ReplaceAt

section

variable {L data : List Bytes} {positions : List Nat}

/-- A tree has the new leaves where they have been put. -/
theorem covers_replaceAt (hcount : positions.length = data.length)
    (hasc : Ascending L.length 0 positions) :
    Covers (positions.zip (data.map leafHash))
      ((replaceAt L (positions.zip data)).map leafHash) := by
  have hfst := List.map_fst_zip (Nat.le_of_eq hcount)
  rw [List.zip_map_right]
  rintro p hp
  obtain ⟨⟨i, bytes⟩, hmem, rfl⟩ := List.mem_map.mp hp
  have hi : i ∈ positions := (List.of_mem_zip hmem).1
  have hget := getElem?_replaceAt_of_mem (by rw [hfst]; exact hasc.nodup) hmem
    (hasc.bounds i hi).2
  exact List.getElem?_map.trans (congrArg (Option.map leafHash) hget)

/-- The siblings of some positions do not see the leaves there. -/
theorem treeSiblings_replaceAt (hcount : positions.length = data.length)
    (hasc : Ascending L.length 0 positions) :
    treeSiblings ((replaceAt L (positions.zip data)).map leafHash) positions =
      treeSiblings (L.map leafHash) positions := by
  have hfst := List.map_fst_zip (Nat.le_of_eq hcount)
  refine treeSiblings_congr (by simp) (by rwa [List.length_map]) fun k hk => ?_
  rw [List.getElem?_map, List.getElem?_map, getElem?_replaceAt_of_not_mem (by rwa [hfst])]

end

/-! ## Beyond the limit -/

/-- The layer above one of 2 ^ 64 - 1 nodes cannot be counted. -/
theorem climbLayers_of_full {layer : List Digest} (hfull : layer.length + 1 = UInt64.size)
    {nodes : List (Nat × Digest)} (hasc : Ascending layer.length 0 (nodes.map Prod.fst)) :
    climbLayers layer.length nodes (treeSiblings layer (nodes.map Prod.fst)) = Attempt.abort := by
  have hlt : 1 < layer.length := by
    have hsize : 2 < UInt64.size := by decide
    omega
  obtain ⟨above, hclimbs⟩ := Tree.exists_climbs rfl hasc
  rw [treeSiblings_of_lt hlt, climbLayers, dif_neg (by omega), hclimbs.eq_ok]
  dsimp only
  rw [if_neg (by omega)]

section

variable {L : List Bytes} {size : UInt64} {indexes : List UInt64} {leaves : List Digest}

theorem rootOfLeaves_of_full (hsize : size.toNat = L.length) (hfull : L.length + 1 = UInt64.size)
    (hne : indexes ≠ []) (hasc : Ascending L.length 0 (indexes.map UInt64.toNat))
    (hcount : indexes.length = leaves.length) :
    rootOfLeaves size indexes leaves (treeSiblings (L.map leafHash) (indexes.map UInt64.toNat)) =
      Attempt.abort := by
  have hwidth : L.length = (L.map leafHash).length := (List.length_map _).symm
  have hfst : ((indexes.map UInt64.toNat).zip leaves).map Prod.fst = indexes.map UInt64.toNat :=
    map_fst_zip (by rw [List.length_map, hcount])
  have hclimb := @climbLayers_of_full (L.map leafHash) (by rwa [← hwidth])
    ((indexes.map UInt64.toNat).zip leaves) (by rwa [hfst, ← hwidth])
  rw [hfst, ← hwidth] at hclimb
  unfold rootOfLeaves
  dsimp only
  rw [hsize, checkIndexes_map_toNat hne hasc hcount, hclimb]
  rfl

/-- From the leaves of another tree, which differs at their positions only, the siblings of a tree
lead to the root of the other one. -/
theorem rootOfLeaves_replaceAt (hsize : size.toNat = L.length) (hne : indexes ≠ [])
    (hasc : Ascending L.length 0 (indexes.map UInt64.toNat)) {data : List Bytes}
    (hcount : (indexes.map UInt64.toNat).length = data.length) :
    rootOfLeaves size indexes (data.map leafHash)
        (treeSiblings (L.map leafHash) (indexes.map UInt64.toNat)) =
      if L.length + 1 < UInt64.size then
        .ok (Tree.ofLeaves (replaceAt L ((indexes.map UInt64.toNat).zip data))).root
      else Attempt.abort := by
  have hcount' : indexes.length = (data.map leafHash).length := by
    rwa [List.length_map, ← List.length_map UInt64.toNat]
  split
  · rename_i hroom
    have hlen : (replaceAt L ((indexes.map UInt64.toNat).zip data)).length = L.length :=
      length_replaceAt
    have hroot := rootOfLeaves_treeSiblings (hsize.trans hlen.symm) (by rwa [hlen]) hne
      (by rwa [hlen]) hcount' (covers_replaceAt hcount hasc)
    rwa [treeSiblings_replaceAt hcount hasc] at hroot
  · rename_i hfull
    have hbound : size.toNat < UInt64.size := size.toNat_lt
    exact rootOfLeaves_of_full hsize (by omega) hne hasc hcount'

/-- Indexes in order and below the size are ascending positions. -/
theorem ascending_toNat_of_pairwise (hasc : indexes.Pairwise (· < ·))
    (hlt : ∀ i ∈ indexes, i < size) : Ascending size.toNat 0 (indexes.map UInt64.toNat) := by
  refine ascending_of_pairwise (List.pairwise_map.mpr hasc) fun i hi => ⟨Nat.zero_le i, ?_⟩
  obtain ⟨index, hmem, rfl⟩ := List.mem_map.mp hi
  exact hlt index hmem

theorem ascending_map_toNat (hsize : size.toNat = L.length) (hasc : indexes.Pairwise (· < ·))
    (hlt : ∀ i ∈ indexes, i < size) : Ascending L.length 0 (indexes.map UInt64.toNat) :=
  hsize ▸ ascending_toNat_of_pairwise hasc hlt

/-- **The siblings of a tree lead to the root of every tree with other leaves at their positions.**
A tree lists siblings for any of its positions in ascending order. Whatever leaves are put at these
positions, the new tree lists the same siblings and they lead to its root; from the leaves that are
there they lead to the root of the tree itself. Only 2 ^ 64 - 1 leaves, more than any memory holds,
would be too many to be counted. -/
theorem Tree.prove_reroots (hsize : size.toNat = L.length) (hne : indexes ≠ [])
    (hasc : indexes.Pairwise (· < ·)) (hlt : ∀ i ∈ indexes, i < size) :
    ∃ siblings, (Tree.ofLeaves L).prove (indexes.map UInt64.toNat) = .ok siblings ∧
      (∀ data : List Bytes, data.length = indexes.length →
        let L' := replaceAt L ((indexes.map UInt64.toNat).zip data)
        (Tree.ofLeaves L').prove (indexes.map UInt64.toNat) = .ok siblings ∧
          rootOfLeaves size indexes (data.map leafHash) siblings =
            if L.length + 1 < UInt64.size then .ok (Tree.ofLeaves L').root else Attempt.abort) ∧
      (∀ data : List Bytes, List.Forall₂ (fun i bytes => L[i.toNat]? = some bytes) indexes data →
        rootOfLeaves size indexes (data.map leafHash) siblings =
          if L.length + 1 < UInt64.size then .ok (Tree.ofLeaves L).root else Attempt.abort) := by
  have hpositions : indexes.map UInt64.toNat ≠ [] := by simpa using hne
  have hascending := ascending_map_toNat hsize hasc hlt
  refine ⟨treeSiblings (L.map leafHash) (indexes.map UInt64.toNat),
    Tree.prove_ofLeaves hpositions hascending, fun data hcount => ⟨?_, ?_⟩, fun data hsame => ?_⟩
  · have hzip : (indexes.map UInt64.toNat).length = data.length := by
      rw [List.length_map, hcount]
    rw [Tree.prove_ofLeaves hpositions (by rwa [length_replaceAt]),
      treeSiblings_replaceAt hzip hascending]
  · exact rootOfLeaves_replaceAt hsize hne hascending (by rw [List.length_map, hcount])
  · have hroot := rootOfLeaves_replaceAt hsize hne hascending
      (by rw [List.length_map, hsame.length_eq])
    rwa [replaceAt_eq_self fun p hp => ?_] at hroot
    rw [List.zip_map_left] at hp
    obtain ⟨⟨i, bytes⟩, hmem, rfl⟩ := List.mem_map.mp hp
    exact (List.forall₂_iff_zip.mp hsame).2 hmem

/-- Three of five leaves: one takes its left neighbour, one its right one, and the last is carried
up. -/
theorem Tree.prove_reroots_five :
    (5 : UInt64).toNat = ([[0], [1], [2], [3], [4]] : List Bytes).length ∧
      ([1, 2, 4] : List UInt64) ≠ [] ∧ ([1, 2, 4] : List UInt64).Pairwise (· < ·) ∧
      (∀ i ∈ ([1, 2, 4] : List UInt64), i < 5) ∧
      ∃ siblings, (Tree.ofLeaves [[0], [1], [2], [3], [4]]).prove [1, 2, 4] = .ok siblings ∧
        rootOfLeaves 5 [1, 2, 4] [leafHash [10], leafHash [20], leafHash [40]] siblings =
          .ok (Tree.ofLeaves [[0], [10], [20], [3], [40]]).root := by
  have hsize : (5 : UInt64).toNat = ([[0], [1], [2], [3], [4]] : List Bytes).length := by decide
  have hne : ([1, 2, 4] : List UInt64) ≠ [] := by decide
  have hasc : ([1, 2, 4] : List UInt64).Pairwise (· < ·) := by simp
  have hlt : ∀ i ∈ ([1, 2, 4] : List UInt64), i < 5 := by simp
  obtain ⟨siblings, hprove, hreroots, -⟩ := Tree.prove_reroots hsize hne hasc hlt
  have hroot := (hreroots [[10], [20], [40]] rfl).2
  rw [if_pos (by decide)] at hroot
  exact ⟨hsize, hne, hasc, hlt, siblings, hprove, hroot⟩

/-! ## What a proof shows -/

/-- **Only the proof of a tree leads to its root.** Whoever chooses positions, leaf hashes and
siblings: if they lead to the root of a tree, the hashes are those of its leaves at these positions
and the siblings are the ones that the tree lists for them, unless two of the hashed strings
collide. -/
theorem Tree.prove_eq_of_rootOfLeaves {siblings : List Digest} (hsize : size.toNat = L.length)
    (h : rootOfLeaves size indexes leaves siblings = .ok (Tree.ofLeaves L).root) :
    Collision (leafProofInputs size indexes leaves siblings ++ treeInputs L) ∨
      (List.Forall₂ (fun i leaf => ∃ data, L[i.toNat]? = some data ∧ leaf = leafHash data)
          indexes leaves ∧
        (Tree.ofLeaves L).prove (indexes.map UInt64.toNat) = .ok siblings) := by
  refine or_iff_not_imp_left.mpr fun hS => ?_
  obtain ⟨hcovers, hsiblings⟩ := rootOfLeaves_sound hS (List.subset_append_right _ _) hsize
    (List.subset_append_left _ _) h
  obtain ⟨hne, hcount, hasc⟩ := checkIndexes_eq_ok (rootOfLeaves_eq_ok_iff.mp h).1
  rw [List.length_map] at hcount
  rw [hsize] at hasc
  refine ⟨List.forall₂_iff_zip.mpr ⟨hcount, fun {i leaf} hmem => ?_⟩, ?_⟩
  · have hnode : (i.toNat, leaf) ∈ (indexes.map UInt64.toNat).zip leaves := by
      rw [List.zip_map_left]
      exact List.mem_map.mpr ⟨(i, leaf), hmem, rfl⟩
    have hleaf := hcovers _ hnode
    rw [List.getElem?_map] at hleaf
    obtain ⟨data, hdata, hhash⟩ := Option.map_eq_some_iff.mp hleaf
    exact ⟨data, hdata, hhash.symm⟩
  · rw [Tree.prove_ofLeaves hne hasc, hsiblings]

/-- Two of three leaves, with the siblings that lead to the root. -/
theorem Tree.prove_eq_of_rootOfLeaves_three :
    ∃ siblings, (3 : UInt64).toNat = ([[0], [1], [2]] : List Bytes).length ∧
      rootOfLeaves 3 [0, 2] [leafHash [0], leafHash [2]] siblings =
        .ok (Tree.ofLeaves [[0], [1], [2]]).root ∧
      (Collision (leafProofInputs 3 [0, 2] [leafHash [0], leafHash [2]] siblings ++
          treeInputs [[0], [1], [2]]) ∨
        (List.Forall₂ (fun (i : UInt64) leaf =>
            ∃ data, ([[0], [1], [2]] : List Bytes)[i.toNat]? = some data ∧ leaf = leafHash data)
            [0, 2] [leafHash [0], leafHash [2]] ∧
          (Tree.ofLeaves [[0], [1], [2]]).prove [0, 2] = .ok siblings)) := by
  have hsize : (3 : UInt64).toNat = ([[0], [1], [2]] : List Bytes).length := by decide
  have hroot := @rootOfLeaves_replaceAt [[0], [1], [2]] 3 [0, 2] hsize (by decide)
    (by simp [Ascending]) [[0], [2]] (by decide)
  rw [if_pos (by decide)] at hroot
  exact ⟨_, hsize, hroot, Tree.prove_eq_of_rootOfLeaves hsize hroot⟩

end

end ChainHub.Merkle
