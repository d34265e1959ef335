import ChainHub.Proofs.Merkle.Prove
import Mathlib.Data.List.Dedup

/-!
# The length of a proof of several leaves

How many siblings a proof lists follows from the size of the tree and from the positions alone: in
every layer a known node needs the other child of its parent, unless that one is known, too, or not
there. A proof of this length leads to some root, whatever its hashes are, and no other does.

* `proofLength`: the number of siblings, counted layer by layer without looking at a hash.
* `Climbs.uses`: one layer of a climb uses as many siblings as it needs.
* `climbLayers_of_enough`, `climbLayers_of_short`: a climb ends with one node and the siblings
  beyond the length, or for want of siblings.
* `length_treeSiblings`: a tree lists as many.
* `JudgedByLength`, `proofLength_judges`: all that the number of siblings says about a proof.
-/

namespace ChainHub.Merkle

/-! ## Counting -/

/-- The position of the other child of the same parent. -/
def partner (i : Nat) : Nat := if i % 2 = 0 then i + 1 else i - 1

/-- How many siblings the known positions of a layer of `width` nodes need: those of their partners
that are there but not known. -/
def siblingsNeeded (width : Nat) (positions : List Nat) : Nat :=
  positions.countP fun i => partner i < width ∧ partner i ∉ positions

/-- The positions of the nodes above. -/
def parents (positions : List Nat) : List Nat := (positions.map (· / 2)).dedup

/-- How many siblings a proof of the given positions lists in a tree of `width` leaves. -/
def proofLength (width : Nat) (positions : List Nat) : Nat :=
  if _h : width ≤ 1 then 0
  else siblingsNeeded width positions + proofLength ((width + 1) / 2) (parents positions)
termination_by width
decreasing_by omega

theorem proofLength_of_le {width : Nat} (h : width ≤ 1) (positions : List Nat) :
    proofLength width positions = 0 := by
  rw [proofLength, dif_pos h]

theorem proofLength_of_lt {width : Nat} (h : 1 < width) (positions : List Nat) :
    proofLength width positions =
      siblingsNeeded width positions + proofLength ((width + 1) / 2) (parents positions) := by
  rw [proofLength, dif_neg (by omega)]

theorem partner_partner (i : Nat) : partner (partner i) = i := by
  unfold partner
  split <;> split <;> omega

section

variable {width i : Nat} {rest : List Nat}

/-- A position whose partner is not among those that follow needs it, if it is there. -/
theorem siblingsNeeded_cons (h : partner i ∉ rest) :
    siblingsNeeded width (i :: rest) =
      siblingsNeeded width rest + if partner i < width then 1 else 0 := by
  have hself : partner i ≠ i := by
    unfold partner
    split <;> omega
  have hrest : ∀ j ∈ rest, partner j ≠ i := by
    rintro j hj rfl
    rw [partner_partner] at h
    exact h hj
  unfold siblingsNeeded
  rw [List.countP_cons]
  congr 1
  · refine List.countP_congr fun j hj => ?_
    simp [hrest j hj]
  · simp [hself, h]

/-- Two partners need nothing. -/
theorem siblingsNeeded_pair (hi : i ∉ rest) (h : partner i ∉ rest) :
    siblingsNeeded width (i :: partner i :: rest) = siblingsNeeded width rest := by
  have hrest : ∀ j ∈ rest, partner j ≠ i ∧ partner j ≠ partner i := by
    refine fun j hj => ⟨?_, fun heq => hi ?_⟩
    · rintro rfl
      rw [partner_partner] at h
      exact h hj
    · rwa [← partner_partner i, ← heq, partner_partner]
  unfold siblingsNeeded
  rw [List.countP_cons_of_neg (by simp), List.countP_cons_of_neg (by simp [partner_partner])]
  refine List.countP_congr fun j hj => ?_
  simp [hrest j hj]

theorem parents_cons (h : ∀ j ∈ rest, j / 2 ≠ i / 2) :
    parents (i :: rest) = i / 2 :: parents rest := by
  unfold parents
  rw [List.map_cons, List.dedup_cons_of_notMem]
  simpa using h

/-- Two children have one parent. -/
theorem parents_cons_cons {j : Nat} (hj : j / 2 = i / 2) :
    parents (i :: j :: rest) = parents (j :: rest) := by
  unfold parents
  rw [List.map_cons, List.map_cons, hj, List.dedup_cons_of_mem List.mem_cons_self]

end

/-! ## One layer -/

/-- Positions that start behind the second child of a node have other parents. -/
theorem Ascending.half_ne {width lo i : Nat} {positions : List Nat}
    (h : Ascending width lo positions) (hi : i / 2 < lo / 2) :
    ∀ j ∈ positions, j / 2 ≠ i / 2 := by
  intro j hj
  have := (h.bounds j hj).1
  omega

/-- **A layer uses as many siblings as it needs**, and the parents are known afterwards. The
positions ascend, so all that follow have other parents. -/
theorem Climbs.uses {width : Nat} {nodes above : List (Nat × Digest)} {used : List Digest}
    (h : Climbs width nodes used above) :
    ∀ {lo : Nat}, Ascending width lo (nodes.map Prod.fst) →
      used.length = siblingsNeeded width (nodes.map Prod.fst) ∧
        above.map Prod.fst = parents (nodes.map Prod.fst) := by
  induction h with
  | done => exact fun _ => ⟨rfl, rfl⟩
  | @left i _ _ rest _ _ hi _ ih =>
    intro lo hasc
    obtain ⟨-, hlt, hrest⟩ := hasc
    obtain ⟨hlen, hpos⟩ := ih hrest
    have hpartner : partner i = i - 1 := if_neg (by omega)
    have hout : partner i ∉ rest.map Prod.fst := hrest.notMem (by omega)
    rw [List.map_cons, List.map_cons, siblingsNeeded_cons hout, if_pos (by omega),
      parents_cons (hrest.half_ne (by omega)), List.length_cons, hlen, hpos]
    exact ⟨rfl, rfl⟩
  | @right i _ _ rest _ _ hi hw hhead _ ih =>
    intro lo hasc
    obtain ⟨-, -, hrest⟩ := hasc
    obtain ⟨hlen, hpos⟩ := ih hrest
    have hskip := hrest.skip hhead
    have hpartner : partner i = i + 1 := if_pos hi
    have hout : partner i ∉ rest.map Prod.fst := hskip.notMem (by omega)
    rw [List.map_cons, List.map_cons, siblingsNeeded_cons hout, if_pos (by omega),
      parents_cons (hskip.half_ne (by omega)), List.length_cons, hlen, hpos]
    exact ⟨rfl, rfl⟩
  | @pair i _ _ rest _ _ hi hw _ ih =>
    intro lo hasc
    obtain ⟨-, -, -, -, hrest⟩ := hasc
    obtain ⟨hlen, hpos⟩ := ih hrest
    have hpartner : i + 1 = partner i := (if_pos hi).symm
    have hself : i ∉ rest.map Prod.fst := hrest.notMem (by omega)
    have hout : partner i ∉ rest.map Prod.fst := hrest.notMem (by omega)
    have hhalf : partner i / 2 = i / 2 := by omega
    have hparent : ∀ j ∈ rest.map Prod.fst, j / 2 ≠ partner i / 2 := hrest.half_ne (by omega)
    rw [List.map_cons, List.map_cons, List.map_cons, hpartner, siblingsNeeded_pair hself hout,
      parents_cons_cons hhalf, parents_cons hparent, hhalf, hlen, hpos]
    exact ⟨rfl, rfl⟩
  | @last i _ rest _ _ hi hw _ ih =>
    intro lo hasc
    obtain ⟨-, -, hrest⟩ := hasc
    obtain ⟨hlen, hpos⟩ := ih hrest
    have hskip := hrest.skip (hrest.head_ne hw)
    have hpartner : partner i = i + 1 := if_pos hi
    have hout : partner i ∉ rest.map Prod.fst := hskip.notMem (by omega)
    rw [List.map_cons, List.map_cons, siblingsNeeded_cons hout, if_neg (by omega),
      parents_cons (hskip.half_ne (by omega)), hlen, hpos]
    exact ⟨rfl, rfl⟩

/-- As many siblings as a layer needs are enough, whatever they are. -/
theorem exists_climbs_of_length {width : Nat} {nodes : List (Nat × Digest)} {used : List Digest}
    (hasc : Ascending width 0 (nodes.map Prod.fst))
    (hused : used.length = siblingsNeeded width (nodes.map Prod.fst)) :
    ∃ above, Climbs width nodes used above := by
  -- Some layer of this width lists siblings; others of the same number do as well.
  obtain ⟨layer, rfl⟩ : ∃ layer : List Digest, layer.length = width :=
    ⟨List.replicate width emptyRoot, List.length_replicate⟩
  obtain ⟨above, hclimbs⟩ := Tree.exists_climbs rfl hasc
  obtain ⟨next, hnext, -⟩ := hclimbs.shape rfl (hused.trans (hclimbs.uses hasc).1.symm)
  exact ⟨next, hnext⟩

/-- A layer fails only for want of siblings. -/
theorem climbLayer_eq_error {width : Nat} {nodes : List (Nat × Digest)} {siblings : List Digest}
    {e : MerkleError} (h : climbLayer width nodes siblings = .error e) : e = .missingSiblings := by
  fun_induction climbLayer width nodes siblings <;>
    simp_all [Attempt.bind_eq_error_iff, pure, Except.pure]

/-- With fewer siblings than it needs a layer fails. -/
theorem climbLayer_of_short {width : Nat} {nodes : List (Nat × Digest)} {siblings : List Digest}
    (hasc : Ascending width 0 (nodes.map Prod.fst))
    (hshort : siblings.length < siblingsNeeded width (nodes.map Prod.fst)) :
    climbLayer width nodes siblings = .error .missingSiblings := by
  cases h : climbLayer width nodes siblings with
  | error e => rw [climbLayer_eq_error h]
  | ok r =>
    obtain ⟨above, left⟩ := r
    obtain ⟨used, rfl, hclimbs⟩ := climbLayer_eq_ok_iff.mp h
    have hlen := (hclimbs.uses hasc).1
    rw [List.length_append] at hshort
    omega

/-! ## All layers -/

section Layers

variable {width : Nat} {nodes : List (Nat × Digest)} {siblings : List Digest}

/-- With enough siblings for a layer the climb goes on above it, with those that are left. -/
theorem exists_climbLayers_above (hlt : 1 < width) (hsize : width + 1 < UInt64.size)
    (hasc : Ascending width 0 (nodes.map Prod.fst))
    (henough : siblingsNeeded width (nodes.map Prod.fst) ≤ siblings.length) :
    ∃ above, above.map Prod.fst = parents (nodes.map Prod.fst) ∧
      Ascending ((width + 1) / 2) 0 (above.map Prod.fst) ∧ (nodes ≠ [] → above ≠ []) ∧
      climbLayers width nodes siblings =
        climbLayers ((width + 1) / 2) above
          (siblings.drop (siblingsNeeded width (nodes.map Prod.fst))) := by
  have htake : (siblings.take (siblingsNeeded width (nodes.map Prod.fst))).length =
      siblingsNeeded width (nodes.map Prod.fst) := by
    rw [List.length_take, Nat.min_eq_left henough]
  obtain ⟨above, hclimbs⟩ := exists_climbs_of_length hasc htake
  have hclimb := hclimbs.climbLayers hlt hsize
    (siblings.drop (siblingsNeeded width (nodes.map Prod.fst)))
  rw [List.take_append_drop] at hclimb
  exact ⟨above, (hclimbs.uses hasc).2, hclimbs.ascending rfl hasc, hclimbs.ne_nil, hclimb⟩

/-- **A climb with enough siblings ends with one node and the siblings beyond its length.** -/
theorem climbLayers_of_enough (hsize : width + 1 < UInt64.size)
    (hasc : Ascending width 0 (nodes.map Prod.fst)) (hne : nodes ≠ [])
    (henough : proofLength width (nodes.map Prod.fst) ≤ siblings.length) :
    ∃ root, climbLayers width nodes siblings =
      .ok ([(0, root)], siblings.drop (proofLength width (nodes.map Prod.fst))) := by
  induction hn : width using Nat.strongRecOn generalizing width nodes siblings with
  | ind n ih =>
    subst hn
    by_cases hwidth : width ≤ 1
    · have hclimb := climbLayers_of_le hwidth nodes siblings
      obtain ⟨root, rfl⟩ := climbLayers_last hclimb hasc hne
      refine ⟨root, ?_⟩
      rw [hclimb, proofLength_of_le hwidth, List.drop_zero]
    · have hlt : 1 < width := by omega
      rw [proofLength_of_lt hlt] at henough ⊢
      obtain ⟨above, hpos, hup, hnodes, hclimb⟩ :=
        @exists_climbLayers_above width nodes siblings hlt hsize hasc (by omega)
      rw [hclimb, ← hpos, ← List.drop_drop]
      exact ih ((width + 1) / 2) (by omega) (by omega) hup (hnodes hne)
        (by rw [hpos, List.length_drop]; omega) rfl

/-- **A climb without enough siblings ends in the layer where they run out.** -/
theorem climbLayers_of_short (hsize : width + 1 < UInt64.size)
    (hasc : Ascending width 0 (nodes.map Prod.fst))
    (hshort : siblings.length < proofLength width (nodes.map Prod.fst)) :
    climbLayers width nodes siblings = Attempt.refuse .missingSiblings := by
  induction hn : width using Nat.strongRecOn generalizing width nodes siblings with
  | ind n ih =>
    subst hn
    by_cases hwidth : width ≤ 1
    · rw [proofLength_of_le hwidth] at hshort
      exact absurd hshort (Nat.not_lt_zero _)
    · have hlt : 1 < width := by omega
      rw [proofLength_of_lt hlt] at hshort
      by_cases hlayer : siblings.length < siblingsNeeded width (nodes.map Prod.fst)
      · rw [climbLayers, dif_neg hwidth, climbLayer_of_short hasc hlayer]
      · obtain ⟨above, hpos, hup, -, hclimb⟩ :=
          @exists_climbLayers_above width nodes siblings hlt hsize hasc (by omega)
        rw [hclimb]
        exact ih ((width + 1) / 2) (by omega) (by omega) hup
          (by rw [hpos, List.length_drop]; omega) rfl

end Layers

/-- The nodes of a layer at some of its positions. -/
theorem exists_covers {layer : List Digest} {lo : Nat} {positions : List Nat}
    (hasc : Ascending layer.length lo positions) :
    ∃ nodes, nodes.map Prod.fst = positions ∧ Covers nodes layer := by
  refine ⟨positions.map fun i => (i, layer[i]?.getD emptyRoot), ?_, fun p hp => ?_⟩
  · rw [List.map_map]
    exact List.map_id positions
  · obtain ⟨i, hi, rfl⟩ := List.mem_map.mp hp
    have hlt := (hasc.bounds i hi).2
    rw [List.getElem?_eq_getElem hlt, Option.getD_some]

/-- **A tree lists as many siblings**: with them a climb from its own nodes arrives, and leaves none
of them over. -/
theorem length_treeSiblings {layer : List Digest} {positions : List Nat}
    (hsize : layer.length + 1 < UInt64.size) (hne : positions ≠ [])
    (hasc : Ascending layer.length 0 positions) :
    (treeSiblings layer positions).length = proofLength layer.length positions := by
  obtain ⟨nodes, hnodes, hcov⟩ := exists_covers hasc
  subst hnodes
  have hnodes : nodes ≠ [] := fun hnil => hne (by rw [hnil, List.map_nil])
  obtain ⟨last, hlast⟩ := climbLayers_treeSiblings hsize hasc hcov
  rcases Nat.lt_or_ge (treeSiblings layer (nodes.map Prod.fst)).length
    (proofLength layer.length (nodes.map Prod.fst)) with hshort | henough
  · cases hlast.symm.trans (climbLayers_of_short hsize hasc hshort)
  · obtain ⟨root, hroot⟩ := climbLayers_of_enough hsize hasc hnodes henough
    have hrest := (Prod.mk.inj (Except.ok.inj (hlast.symm.trans hroot))).2
    have hle := List.drop_eq_nil_iff.mp hrest.symm
    exact Nat.le_antisymm hle henough

/-! ## Roots -/

/-- What the number of siblings says about a proof, where `n` of them are needed. -/
structure JudgedByLength (n : Nat) (size : UInt64) (indexes : List UInt64)
    (leaves siblings : List Digest) : Prop where
  /-- There is a root if and only if the number is right. -/
  arrives : (∃ root, rootOfLeaves size indexes leaves siblings = .ok root) ↔ siblings.length = n
  /-- One is missing if and only if there are fewer. -/
  misses : rootOfLeaves size indexes leaves siblings = Attempt.refuse .missingSiblings ↔
    siblings.length < n
  /-- Some are left over if and only if there are more, and they are counted. -/
  leavesOver : ∀ remaining,
    rootOfLeaves size indexes leaves siblings = Attempt.refuse (.unusedSiblings remaining) ↔
      n < siblings.length ∧ remaining = siblings.length - n
  /-- A proof that leads to a root leads to one from any other leaves, too. -/
  replaced : ∀ root others, rootOfLeaves size indexes leaves siblings = .ok root →
    others.length = leaves.length → ∃ next, rootOfLeaves size indexes others siblings = .ok next
  /-- As soon as there are enough, the climb ends with a single node. -/
  single : n ≤ siblings.length → ∃ root,
    climbLayers size.toNat ((indexes.map UInt64.toNat).zip leaves) siblings =
      .ok ([(0, root)], siblings.drop n)

section Roots

variable {size : UInt64} {indexes : List UInt64} {leaves siblings : List Digest}

variable (hroom : size.toNat + 1 < UInt64.size) (hne : indexes ≠ [])
  (hasc : Ascending size.toNat 0 (indexes.map UInt64.toNat))
  (hcount : leaves.length = indexes.length)

include hne hasc hcount in
/-- What is climbed from has passed the check of its positions. -/
theorem checkIndexes_zip :
    checkIndexes size.toNat (indexes.map UInt64.toNat) leaves.length = .ok () ∧
      ((indexes.map UInt64.toNat).zip leaves).map Prod.fst = indexes.map UInt64.toNat ∧
      (indexes.map UInt64.toNat).zip leaves ≠ [] := by
  have hpositions : indexes.map UInt64.toNat ≠ [] := by simpa using hne
  have hcount' : (indexes.map UInt64.toNat).length = leaves.length := by
    rw [List.length_map, hcount]
  have hfst := map_fst_zip hcount'
  refine ⟨?_, hfst, fun hnil => hpositions (by rw [← hfst, hnil, List.map_nil])⟩
  rw [← hcount']
  exact checkIndexes_of_ascending hpositions hasc

include hroom hne hasc hcount

theorem rootOfLeaves_of_short
    (hshort : siblings.length < proofLength size.toNat (indexes.map UInt64.toNat)) :
    rootOfLeaves size indexes leaves siblings = Attempt.refuse .missingSiblings := by
  obtain ⟨hcheck, hfst, -⟩ := checkIndexes_zip hne hasc hcount
  have hclimb := @climbLayers_of_short size.toNat ((indexes.map UInt64.toNat).zip leaves) siblings
    hroom (by rwa [hfst]) (by rwa [hfst])
  unfold rootOfLeaves
  dsimp only
  rw [hcheck, hclimb]
  rfl

/-- A climb with enough siblings arrives, and is refused for what is left over. -/
theorem rootOfLeaves_of_enough
    (henough : proofLength size.toNat (indexes.map UInt64.toNat) ≤ siblings.length) :
    ∃ root,
      climbLayers size.toNat ((indexes.map UInt64.toNat).zip leaves) siblings =
        .ok ([(0, root)], siblings.drop (proofLength size.toNat (indexes.map UInt64.toNat))) ∧
      rootOfLeaves size indexes leaves siblings =
        if siblings.length = proofLength size.toNat (indexes.map UInt64.toNat) then .ok root
        else Attempt.refuse (.unusedSiblings
          (siblings.length - proofLength size.toNat (indexes.map UInt64.toNat))) := by
  obtain ⟨hcheck, hfst, hnodes⟩ := checkIndexes_zip hne hasc hcount
  obtain ⟨root, hclimb⟩ := @climbLayers_of_enough size.toNat
    ((indexes.map UInt64.toNat).zip leaves) siblings hroom (by rwa [hfst]) hnodes (by rwa [hfst])
  rw [hfst] at hclimb
  refine ⟨root, hclimb, ?_⟩
  have hleft : (siblings.drop (proofLength size.toNat (indexes.map UInt64.toNat))).length =
      siblings.length - proofLength size.toNat (indexes.map UInt64.toNat) := List.length_drop
  unfold rootOfLeaves
  dsimp only
  rw [hcheck, hclimb, ← hleft]
  cases hrest : siblings.drop (proofLength size.toNat (indexes.map UInt64.toNat)) with
  | nil =>
    rw [hrest, List.length_nil] at hleft
    rw [if_pos (by omega)]
    rfl
  | cons sibling rest =>
    rw [hrest, List.length_cons] at hleft
    rw [if_neg (by omega)]
    rfl

/-- **The number of siblings judges a proof.** -/
theorem judgedByLength :
    JudgedByLength (proofLength size.toNat (indexes.map UInt64.toNat)) size indexes leaves
      siblings := by
  rcases Nat.lt_trichotomy siblings.length (proofLength size.toNat (indexes.map UInt64.toNat))
    with hshort | hexact | hlong
  · have h := rootOfLeaves_of_short hroom hne hasc hcount hshort
    exact {
      arrives := by simp [h, Nat.ne_of_lt hshort]
      misses := by simp [h, hshort]
      leavesOver := by simp [h, Attempt.refuse, Nat.lt_asymm hshort]
      replaced := fun root others hroot => rootOfLeaves_shape hroot
      single := fun henough => absurd hshort (Nat.not_lt.mpr henough) }
  · obtain ⟨root, hclimb, h⟩ :=
      rootOfLeaves_of_enough hroom hne hasc hcount (Nat.le_of_eq hexact.symm)
    rw [if_pos hexact] at h
    exact {
      arrives := by simp [h, hexact]
      misses := by simp [h, hexact, Attempt.refuse]
      leavesOver := by simp [h, hexact, Attempt.refuse]
      replaced := fun root others hroot => rootOfLeaves_shape hroot
      single := fun _ => ⟨root, hclimb⟩ }
  · obtain ⟨root, hclimb, h⟩ := rootOfLeaves_of_enough hroom hne hasc hcount (Nat.le_of_lt hlong)
    rw [if_neg (Nat.ne_of_gt hlong)] at h
    exact {
      arrives := by simp [h, Nat.ne_of_gt hlong]
      misses := by simp [h, Attempt.refuse, Nat.lt_asymm hlong]
      leavesOver := fun remaining => by simp [h, Attempt.refuse, hlong, eq_comm]
      replaced := fun root others hroot => rootOfLeaves_shape hroot
      single := fun _ => ⟨root, hclimb⟩ }

end Roots

/-- **The shape of a proof depends only on the size of the tree and on the positions.** For
positions in ascending order there is one number of siblings, and every tree of this size lists as
many. By this number all proofs are judged, whatever their leaves and siblings are. -/
theorem proofLength_judges {size : UInt64} {indexes : List UInt64}
    (hroom : size.toNat + 1 < UInt64.size) (hne : indexes ≠ [])
    (hasc : indexes.Pairwise (· < ·)) (hlt : ∀ i ∈ indexes, i < size) :
    (∀ L : List Bytes, L.length = size.toNat →
      ∃ siblings, (Tree.ofLeaves L).prove (indexes.map UInt64.toNat) = .ok siblings ∧
        siblings.length = proofLength size.toNat (indexes.map UInt64.toNat)) ∧
      ∀ leaves siblings : List Digest, leaves.length = indexes.length →
        JudgedByLength (proofLength size.toNat (indexes.map UInt64.toNat)) size indexes leaves
          siblings := by
  have hascending := ascending_toNat_of_pairwise hasc hlt
  have hpositions : indexes.map UInt64.toNat ≠ [] := by simpa using hne
  refine ⟨fun L hL => ?_, fun leaves siblings hcount =>
    judgedByLength hroom hne hascending hcount⟩
  have hlayer : (L.map leafHash).length = size.toNat := (List.length_map _).trans hL
  refine ⟨_, Tree.prove_ofLeaves hpositions (hL.symm ▸ hascending), ?_⟩
  rw [length_treeSiblings (by rwa [hlayer]) hpositions (by rwa [hlayer]), hlayer]

/-- Three of ten leaves. In the lowest layer each of them needs its partner; above, the first two
are partners. -/
theorem proofLength_judges_ten :
    (10 : UInt64).toNat + 1 < UInt64.size ∧ ([1, 2, 7] : List UInt64) ≠ [] ∧
      ([1, 2, 7] : List UInt64).Pairwise (· < ·) ∧ (∀ i ∈ ([1, 2, 7] : List UInt64), i < 10) ∧
      (∀ L : List Bytes, L.length = 10 →
        ∃ siblings, (Tree.ofLeaves L).prove [1, 2, 7] = .ok siblings ∧ siblings.length = 5) ∧
      ∀ leaves siblings : List Digest, leaves.length = 3 →
        JudgedByLength 5 10 [1, 2, 7] leaves siblings := by
  have hroom : (10 : UInt64).toNat + 1 < UInt64.size := by decide
  have hne : ([1, 2, 7] : List UInt64) ≠ [] := List.cons_ne_nil _ _
  have hasc : ([1, 2, 7] : List UInt64).Pairwise (· < ·) := by simp
  have hlt : ∀ i ∈ ([1, 2, 7] : List UInt64), i < 10 := by simp
  have hfive :
      proofLength (10 : UInt64).toNat (([1, 2, 7] : List UInt64).map UInt64.toNat) = 5 := by
    simp [proofLength, siblingsNeeded, parents, partner]
  have hjudges := proofLength_judges hroom hne hasc hlt
  rw [hfive] at hjudges
  exact ⟨hroom, hne, hasc, hlt, hjudges⟩

end ChainHub.Merkle
