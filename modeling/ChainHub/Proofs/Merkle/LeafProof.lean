import ChainHub.Proofs.Merkle.Siblings
import Mathlib.Data.List.Forall2

/-!
# Proofs of several leaves are sound and serve every replacement

`rootOfLeaves` goes up layer by layer. Each property of a layer is an induction on `Climbs`; the
layers are then put together along `layersFrom`.

* `rootOfLeaves_sound`: a proof that leads to the root of a tree shows leaves of this tree, and its
  siblings are those of the tree, unless two hashed strings collide.
* `rootOfLeaves_shape`: whether there is a root does not depend on the leaves.
* `rootOfLeaves_replace`: the siblings of a tree lead to the new root when leaves at the shown
  positions have been replaced.
-/

namespace ChainHub.Merkle

/-! ## Hashed strings -/

/-- The strings that are hashed in one layer of a proof. -/
def climbLayerInputs (width : Nat) : List (Nat × Digest) → List Digest → List Bytes
  | [], _ => []
  | [(i, node)], siblings =>
    match siblings with
    | [] => []
    | sibling :: _ =>
      if i % 2 = 1 then [branchInput sibling node]
      else if i + 1 < width then [branchInput node sibling] else []
  | (i, node) :: (j, next) :: rest, siblings =>
    if i % 2 = 1 then
      match siblings with
      | [] => []
      | left :: siblings =>
        branchInput left node :: climbLayerInputs width ((j, next) :: rest) siblings
    else if i + 1 < width then
      if j = i + 1 then branchInput node next :: climbLayerInputs width rest siblings
      else
        match siblings with
        | [] => []
        | right :: siblings =>
          branchInput node right :: climbLayerInputs width ((j, next) :: rest) siblings
    else climbLayerInputs width ((j, next) :: rest) siblings

/-- The strings that are hashed in all layers of a proof. -/
def climbLayersInputs (width : Nat) (nodes : List (Nat × Digest)) (siblings : List Digest) :
    List Bytes :=
  if _h : width ≤ 1 then []
  else
    climbLayerInputs width nodes siblings ++
      match climbLayer width nodes siblings with
      | .error _ => []
      | .ok (nodes, siblings) => climbLayersInputs ((width + 1) / 2) nodes siblings
termination_by width
decreasing_by omega

/-- The strings that are hashed for the root of a proof. -/
def leafProofInputs (size : UInt64) (indexes : List UInt64) (leaves siblings : List Digest) :
    List Bytes :=
  climbLayersInputs size.toNat ((indexes.map UInt64.toNat).zip leaves) siblings

section Equations

variable {width i : Nat} {node : Digest} {rest : List (Nat × Digest)} {siblings : List Digest}

theorem climbLayerInputs_left (hi : i % 2 = 1) (sibling : Digest) :
    climbLayerInputs width ((i, node) :: rest) (sibling :: siblings) =
      branchInput sibling node :: climbLayerInputs width rest siblings := by
  cases rest with
  | nil => simp [climbLayerInputs, hi]
  | cons next rest => simp only [climbLayerInputs, if_pos hi]

theorem climbLayerInputs_right (hi : i % 2 = 0) (hw : i + 1 < width)
    (hhead : ∀ j ∈ (rest.map Prod.fst).head?, j ≠ i + 1) (sibling : Digest) :
    climbLayerInputs width ((i, node) :: rest) (sibling :: siblings) =
      branchInput node sibling :: climbLayerInputs width rest siblings := by
  have hodd : ¬ i % 2 = 1 := by omega
  cases rest with
  | nil => simp [climbLayerInputs, hodd, hw]
  | cons next rest =>
    have hj : next.1 ≠ i + 1 := hhead _ rfl
    simp only [climbLayerInputs, if_neg hodd, if_pos hw, if_neg hj]

theorem climbLayerInputs_pair (hi : i % 2 = 0) (hw : i + 1 < width) (next : Digest) :
    climbLayerInputs width ((i, node) :: (i + 1, next) :: rest) siblings =
      branchInput node next :: climbLayerInputs width rest siblings := by
  have hodd : ¬ i % 2 = 1 := by omega
  simp only [climbLayerInputs, if_neg hodd, if_pos hw, if_pos]

theorem climbLayerInputs_last (hi : i % 2 = 0) (hw : width ≤ i + 1) :
    climbLayerInputs width ((i, node) :: rest) siblings = climbLayerInputs width rest siblings := by
  have hodd : ¬ i % 2 = 1 := by omega
  have hlast : ¬ i + 1 < width := by omega
  cases rest with
  | nil => cases siblings <;> simp [climbLayerInputs, hodd, hlast]
  | cons next rest => simp only [climbLayerInputs, if_neg hodd, if_neg hlast]

end Equations

/-! ## One layer of a tree -/

/-- **A layer that leads to the nodes above shows nodes of the tree and uses its siblings.** -/
theorem Climbs.sound {S : List Bytes} (hS : ¬ Collision S) {layer : List Digest}
    (hlayer : pairInputs layer ⊆ S) {nodes above : List (Nat × Digest)} {used : List Digest}
    (h : Climbs layer.length nodes used above) :
    ∀ {lo : Nat} {rest : List Digest}, Ascending layer.length lo (nodes.map Prod.fst) →
      climbLayerInputs layer.length nodes (used ++ rest) ⊆ S → Covers above (pairUp layer) →
      Covers nodes layer ∧
        Tree.siblings layer (nodes.map Prod.fst) = (used, above.map Prod.fst) := by
  induction h with
  | done => exact fun _ _ _ => ⟨by simp [Covers], rfl⟩
  | @left i node sibling _ _ _ hi _ ih =>
    intro lo rest hasc hin habove
    obtain ⟨-, hlt, hrest⟩ := hasc
    rw [List.cons_append, climbLayerInputs_left hi, List.cons_subset] at hin
    rw [covers_cons] at habove
    obtain ⟨hcov, hsib⟩ := ih hrest hin.2 habove.2
    have hl : layer[i - 1]? = some layer[i - 1] := List.getElem?_eq_getElem (by omega)
    have hr : layer[i - 1 + 1]? = some layer[i] := by
      rw [Nat.sub_add_cancel (by omega)]
      exact List.getElem?_eq_getElem hlt
    obtain ⟨hup, hmem⟩ := getElem?_pairUp (by omega) hl hr
    rw [show (i - 1) / 2 = i / 2 by omega, habove.1] at hup
    obtain ⟨hsame, hnode⟩ := branchInput_injective
      (eq_of_keccak256_eq hS hin.1 (hlayer hmem) (Option.some.inj hup))
    refine ⟨covers_cons.mpr ⟨?_, hcov⟩, ?_⟩
    · rw [hnode]
      exact List.getElem?_eq_getElem hlt
    · rw [List.map_cons, Tree.siblings_left hi, hsib, hl, hsame]
      rfl
  | @right i node sibling _ _ _ hi hw hhead _ ih =>
    intro lo rest hasc hin habove
    obtain ⟨-, hlt, hrest⟩ := hasc
    rw [List.cons_append, climbLayerInputs_right hi hw hhead, List.cons_subset] at hin
    rw [covers_cons] at habove
    obtain ⟨hcov, hsib⟩ := ih hrest hin.2 habove.2
    have hl : layer[i]? = some layer[i] := List.getElem?_eq_getElem hlt
    have hr : layer[i + 1]? = some layer[i + 1] := List.getElem?_eq_getElem hw
    obtain ⟨hup, hmem⟩ := getElem?_pairUp hi hl hr
    rw [habove.1] at hup
    obtain ⟨hnode, hsame⟩ := branchInput_injective
      (eq_of_keccak256_eq hS hin.1 (hlayer hmem) (Option.some.inj hup))
    refine ⟨covers_cons.mpr ⟨hl.trans (congrArg some hnode.symm), hcov⟩, ?_⟩
    rw [List.map_cons, Tree.siblings_gap hi hhead, hsib, hr, hsame]
    rfl
  | @pair i node next _ _ _ hi hw _ ih =>
    intro lo rest hasc hin habove
    obtain ⟨-, hlt, -, -, hrest⟩ := hasc
    rw [climbLayerInputs_pair hi hw, List.cons_subset] at hin
    rw [covers_cons] at habove
    obtain ⟨hcov, hsib⟩ := ih hrest hin.2 habove.2
    have hl : layer[i]? = some layer[i] := List.getElem?_eq_getElem hlt
    have hr : layer[i + 1]? = some layer[i + 1] := List.getElem?_eq_getElem hw
    obtain ⟨hup, hmem⟩ := getElem?_pairUp hi hl hr
    rw [habove.1] at hup
    obtain ⟨hnode, hnext⟩ := branchInput_injective
      (eq_of_keccak256_eq hS hin.1 (hlayer hmem) (Option.some.inj hup))
    refine ⟨covers_cons.mpr ⟨hl.trans (congrArg some hnode.symm),
      covers_cons.mpr ⟨hr.trans (congrArg some hnext.symm), hcov⟩⟩, ?_⟩
    rw [List.map_cons, List.map_cons, Tree.siblings_pair hi, hsib]
    rfl
  | @last i node rest' _ _ hi hw _ ih =>
    intro lo rest hasc hin habove
    obtain ⟨-, hlt, hrest⟩ := hasc
    rw [climbLayerInputs_last hi hw] at hin
    rw [covers_cons] at habove
    obtain ⟨hcov, hsib⟩ := ih hrest hin habove.2
    have hhead := hrest.head_ne hw
    refine ⟨covers_cons.mpr ⟨(getElem?_pairUp_last hi hw).symm.trans habove.1, hcov⟩, ?_⟩
    rw [List.map_cons, Tree.siblings_gap hi hhead, hsib, List.getElem?_eq_none hw]
    rfl

/-- A layer that is climbed with the siblings of the tree leads to the nodes above. -/
theorem Climbs.covers {layer : List Digest} {nodes above : List (Nat × Digest)}
    {used : List Digest} (h : Climbs layer.length nodes used above) :
    ∀ {lo : Nat}, Ascending layer.length lo (nodes.map Prod.fst) → Covers nodes layer →
      used.length = (Tree.siblings layer (nodes.map Prod.fst)).1.length ∧
        above.map Prod.fst = (Tree.siblings layer (nodes.map Prod.fst)).2 ∧
        (used = (Tree.siblings layer (nodes.map Prod.fst)).1 → Covers above (pairUp layer)) := by
  induction h with
  | done => exact fun _ _ => ⟨rfl, rfl, fun _ => by simp [Covers]⟩
  | @left i node sibling _ _ _ hi _ ih =>
    intro lo hasc hcov
    obtain ⟨-, hlt, hrest⟩ := hasc
    rw [covers_cons] at hcov
    obtain ⟨hlen, hpos, hup⟩ := ih hrest hcov.2
    have hl : layer[i - 1]? = some layer[i - 1] := List.getElem?_eq_getElem (by omega)
    have hr : layer[i - 1 + 1]? = some node := by
      rw [Nat.sub_add_cancel (by omega)]
      exact hcov.1
    rw [List.map_cons, List.map_cons, Tree.siblings_left hi, hl]
    refine ⟨by simp [hlen, Nat.add_comm], by rw [hpos], fun hused => ?_⟩
    obtain ⟨rfl, htail⟩ := List.cons.inj hused
    refine covers_cons.mpr ⟨?_, hup htail⟩
    rw [← (getElem?_pairUp (by omega) hl hr).1, show (i - 1) / 2 = i / 2 by omega]
  | @right i node sibling _ _ _ hi hw hhead _ ih =>
    intro lo hasc hcov
    obtain ⟨-, hlt, hrest⟩ := hasc
    rw [covers_cons] at hcov
    obtain ⟨hlen, hpos, hup⟩ := ih hrest hcov.2
    have hr : layer[i + 1]? = some layer[i + 1] := List.getElem?_eq_getElem hw
    rw [List.map_cons, List.map_cons, Tree.siblings_gap hi hhead, hr]
    refine ⟨by simp [hlen, Nat.add_comm], by rw [hpos], fun hused => ?_⟩
    obtain ⟨rfl, htail⟩ := List.cons.inj hused
    exact covers_cons.mpr ⟨(getElem?_pairUp hi hcov.1 hr).1, hup htail⟩
  | @pair i node next _ _ _ hi hw _ ih =>
    intro lo hasc hcov
    obtain ⟨-, hlt, -, -, hrest⟩ := hasc
    rw [covers_cons, covers_cons] at hcov
    obtain ⟨hlen, hpos, hup⟩ := ih hrest hcov.2.2
    rw [List.map_cons, List.map_cons, List.map_cons, Tree.siblings_pair hi]
    exact ⟨hlen, by rw [hpos], fun hused =>
      covers_cons.mpr ⟨(getElem?_pairUp hi hcov.1 hcov.2.1).1, hup hused⟩⟩
  | @last i node rest _ _ hi hw _ ih =>
    intro lo hasc hcov
    obtain ⟨-, hlt, hrest⟩ := hasc
    rw [covers_cons] at hcov
    obtain ⟨hlen, hpos, hup⟩ := ih hrest hcov.2
    have hhead := hrest.head_ne hw
    rw [List.map_cons, List.map_cons, Tree.siblings_gap hi hhead, List.getElem?_eq_none hw]
    exact ⟨hlen, by rw [hpos], fun hused =>
      covers_cons.mpr ⟨(getElem?_pairUp_last hi hw).trans hcov.1, hup hused⟩⟩

/-! ## All layers -/

/-- The last layer is where climbing stops. -/
theorem climbLayers_of_le {width : Nat} (h : width ≤ 1) (nodes : List (Nat × Digest))
    (siblings : List Digest) : climbLayers width nodes siblings = .ok (nodes, siblings) := by
  rw [climbLayers, dif_pos h]

/-- The lowest layer of a climb that arrives, and the climb from the layer above. -/
theorem climbLayers_of_lt {width : Nat} (hw : 1 < width) {nodes last : List (Nat × Digest)}
    {siblings rest : List Digest} (h : climbLayers width nodes siblings = .ok (last, rest)) :
    width + 1 < UInt64.size ∧ ∃ above used left, siblings = used ++ left ∧
      Climbs width nodes used above ∧
        climbLayers ((width + 1) / 2) above left = .ok (last, rest) := by
  rw [climbLayers, dif_neg (by omega)] at h
  cases hc : climbLayer width nodes siblings with
  | error e =>
    rw [hc] at h
    cases h
  | ok r =>
    obtain ⟨above, left⟩ := r
    rw [hc] at h
    dsimp only at h
    split at h
    · rename_i hsize
      obtain ⟨used, hused, hclimbs⟩ := climbLayer_eq_ok_iff.mp hc
      exact ⟨hsize, above, used, left, hused, hclimbs, h⟩
    · cases h

theorem Climbs.climbLayers {width : Nat} (hw : 1 < width) (hsize : width + 1 < UInt64.size)
    {nodes above : List (Nat × Digest)} {used : List Digest} (h : Climbs width nodes used above)
    (left : List Digest) :
    climbLayers width nodes (used ++ left) = climbLayers ((width + 1) / 2) above left := by
  rw [Merkle.climbLayers, dif_neg (by omega), h.eq_ok left]
  dsimp only
  rw [if_pos hsize]

theorem climbLayersInputs_of_lt {width : Nat} (hw : 1 < width) {nodes above : List (Nat × Digest)}
    {used : List Digest} (h : Climbs width nodes used above) (left : List Digest) :
    climbLayersInputs width nodes (used ++ left) =
      climbLayerInputs width nodes (used ++ left) ++
        climbLayersInputs ((width + 1) / 2) above left := by
  conv_lhs => rw [climbLayersInputs, dif_neg (by omega), h.eq_ok left]

theorem layerInputs_of_lt {layer : List Digest} (h : 1 < layer.length) :
    layerInputs layer = pairInputs layer ++ layerInputs (pairUp layer) := by
  unfold layerInputs
  rw [layersFrom_of_lt h, List.flatMap_cons]

/-- The siblings that a tree over a layer gives for the known positions. -/
def treeSiblings (layer : List Digest) (positions : List Nat) : List Digest :=
  Tree.allSiblings (layersFrom layer).dropLast positions

theorem treeSiblings_of_le {layer : List Digest} (h : layer.length ≤ 1) (positions : List Nat) :
    treeSiblings layer positions = [] := by
  rw [treeSiblings, layersFrom_of_le h]
  rfl

theorem treeSiblings_of_lt {layer : List Digest} (h : 1 < layer.length) (positions : List Nat) :
    treeSiblings layer positions =
      (Tree.siblings layer positions).1 ++
        treeSiblings (pairUp layer) (Tree.siblings layer positions).2 := by
  unfold treeSiblings
  rw [layersFrom_of_lt h, List.dropLast_cons_of_ne_nil (layersFrom_ne_nil _)]
  rfl

/-- A layer of at most one node is its own root. -/
theorem getElem?_of_length_le_one {layer : List Digest} (h : layer.length ≤ 1) {i : Nat}
    (hi : i < layer.length) : layer[i]? = some (layerRoot layer) := by
  obtain ⟨node, rfl⟩ : ∃ node, layer = [node] := List.length_eq_one_iff.mp (by omega)
  obtain rfl : i = 0 := by rw [List.length_singleton] at hi; omega
  rw [layerRoot_singleton]
  rfl

/-- **A climb that arrives at the root shows nodes of the tree and uses its siblings.** -/
theorem climbLayers_sound {S : List Bytes} (hS : ¬ Collision S) {layer : List Digest}
    (hlayer : layerInputs layer ⊆ S) {nodes last : List (Nat × Digest)}
    {siblings rest : List Digest}
    (h : climbLayers layer.length nodes siblings = .ok (last, rest))
    (hasc : Ascending layer.length 0 (nodes.map Prod.fst))
    (hin : climbLayersInputs layer.length nodes siblings ⊆ S)
    (hlast : ∀ p ∈ last, p.2 = layerRoot layer) :
    Covers nodes layer ∧ siblings = treeSiblings layer (nodes.map Prod.fst) ++ rest := by
  induction layer using layer_induction generalizing nodes siblings with
  | top layer hle =>
    rw [climbLayers_of_le hle] at h
    obtain ⟨rfl, rfl⟩ := Prod.mk.inj (Except.ok.inj h)
    refine ⟨fun p hp => ?_, by rw [treeSiblings_of_le hle, List.nil_append]⟩
    have hpos := hasc.bounds p.1 (List.mem_map_of_mem hp)
    rw [hlast p hp]
    exact getElem?_of_length_le_one hle hpos.2
  | up layer hlt ih =>
    obtain ⟨-, above, used, left, rfl, hclimbs, habove⟩ := climbLayers_of_lt hlt h
    rw [climbLayersInputs_of_lt hlt hclimbs, List.append_subset] at hin
    rw [layerInputs_of_lt hlt, List.append_subset] at hlayer
    have hup := hclimbs.ascending rfl hasc
    rw [← length_pairUp] at habove hin hup
    obtain ⟨hcov, hleft⟩ := ih hlayer.2 habove hup hin.2 (by rwa [layerRoot_pairUp hlt])
    obtain ⟨hnodes, hsib⟩ := hclimbs.sound hS hlayer.1 hasc hin.1 hcov
    refine ⟨hnodes, ?_⟩
    rw [treeSiblings_of_lt hlt, hsib, List.append_assoc, ← hleft]

/-- A climb with the siblings of the tree arrives at the root. -/
theorem climbLayers_covers {layer : List Digest} {nodes last : List (Nat × Digest)}
    {siblings rest : List Digest}
    (h : climbLayers layer.length nodes siblings = .ok (last, rest))
    (hasc : Ascending layer.length 0 (nodes.map Prod.fst)) (hcov : Covers nodes layer)
    (hsib : siblings = treeSiblings layer (nodes.map Prod.fst) ++ rest) :
    ∀ p ∈ last, p.2 = layerRoot layer := by
  induction layer using layer_induction generalizing nodes siblings with
  | top layer hle =>
    rw [climbLayers_of_le hle] at h
    obtain ⟨rfl, -⟩ := Prod.mk.inj (Except.ok.inj h)
    intro p hp
    have hpos := hasc.bounds p.1 (List.mem_map_of_mem hp)
    have hnode := hcov p hp
    rw [getElem?_of_length_le_one hle hpos.2] at hnode
    exact (Option.some.inj hnode).symm
  | up layer hlt ih =>
    obtain ⟨-, above, used, left, rfl, hclimbs, habove⟩ := climbLayers_of_lt hlt h
    obtain ⟨hlength, hpos, hup⟩ := hclimbs.covers hasc hcov
    rw [treeSiblings_of_lt hlt, List.append_assoc] at hsib
    obtain ⟨hused, hleft⟩ := List.append_inj hsib hlength
    have hasc' := hclimbs.ascending rfl hasc
    rw [← length_pairUp] at habove hasc'
    rw [← layerRoot_pairUp hlt]
    exact ih habove hasc' (hup hused) (by rw [hpos, hleft])

/-- Two trees that differ at the known positions only have the same siblings. -/
theorem treeSiblings_congr {layer other : List Digest} (hlen : other.length = layer.length)
    {positions : List Nat} (hasc : Ascending layer.length 0 positions)
    (h : ∀ k, k ∉ positions → other[k]? = layer[k]?) :
    treeSiblings other positions = treeSiblings layer positions := by
  induction layer using layer_induction generalizing other positions with
  | top layer hle => rw [treeSiblings_of_le hle, treeSiblings_of_le (by omega)]
  | up layer hlt ih =>
    have hsib : Tree.siblings other positions = Tree.siblings layer positions :=
      Tree.siblings_congr 0 rfl hasc fun k _ hk => h k hk
    rw [treeSiblings_of_lt hlt, treeSiblings_of_lt (by omega), hsib]
    congr 1
    refine ih (by rw [length_pairUp, length_pairUp, hlen]) ?_ ?_
    · rw [length_pairUp]
      exact Tree.ascending_siblings 0 rfl hasc
    · intro k hk
      have hout : ∀ i, i / 2 = k → i ∉ positions := fun i hi hmem =>
        hk (hi ▸ Tree.half_mem_siblings i hmem)
      exact pairUp_congr hlen (h _ (hout _ (by omega))) (h _ (hout _ (by omega)))

/-- Other nodes at the same positions, and as many siblings, arrive as well. -/
theorem climbLayers_shape {width : Nat} {nodes last others : List (Nat × Digest)}
    {siblings rest more : List Digest} (h : climbLayers width nodes siblings = .ok (last, rest))
    (hpos : others.map Prod.fst = nodes.map Prod.fst) (hmore : more.length = siblings.length) :
    ∃ next surplus, climbLayers width others more = .ok (next, surplus) ∧
      surplus.length = rest.length ∧ next.map Prod.fst = last.map Prod.fst := by
  induction hn : width using Nat.strongRecOn generalizing width nodes others siblings more with
  | ind n ih =>
    subst hn
    by_cases hlen : width ≤ 1
    · rw [climbLayers_of_le hlen] at h
      obtain ⟨rfl, rfl⟩ := Prod.mk.inj (Except.ok.inj h)
      exact ⟨others, more, climbLayers_of_le hlen _ _, hmore, hpos⟩
    · have hlt : 1 < width := by omega
      obtain ⟨hsize, above, used, left, rfl, hclimbs, habove⟩ := climbLayers_of_lt hlt h
      rw [List.length_append] at hmore
      have htake : (more.take used.length).length = used.length := by
        rw [List.length_take]
        omega
      have hdrop : (more.drop used.length).length = left.length := by
        rw [List.length_drop]
        omega
      obtain ⟨up, hup, huppos⟩ := hclimbs.shape hpos htake
      obtain ⟨next, surplus, hnext, hsurplus, hnextpos⟩ :=
        ih ((width + 1) / 2) (by omega) habove huppos hdrop rfl
      refine ⟨next, surplus, ?_, hsurplus, hnextpos⟩
      rw [← List.take_append_drop used.length more, hup.climbLayers hlt hsize, hnext]

/-- Climbing ends with exactly one node. -/
theorem climbLayers_last {width : Nat} {nodes last : List (Nat × Digest)}
    {siblings rest : List Digest} (h : climbLayers width nodes siblings = .ok (last, rest))
    (hasc : Ascending width 0 (nodes.map Prod.fst)) (hne : nodes ≠ []) :
    ∃ node, last = [(0, node)] := by
  induction hn : width using Nat.strongRecOn generalizing width nodes siblings with
  | ind n ih =>
    subst hn
    by_cases hlen : width ≤ 1
    · rw [climbLayers_of_le hlen] at h
      obtain ⟨rfl, -⟩ := Prod.mk.inj (Except.ok.inj h)
      obtain ⟨⟨i, node⟩, tail, rfl⟩ := List.exists_cons_of_ne_nil hne
      obtain ⟨-, hlt, htail⟩ := hasc
      obtain rfl : i = 0 := by omega
      cases tail with
      | nil => exact ⟨node, rfl⟩
      | cons p tail =>
        obtain ⟨hle, hlt', -⟩ := htail
        omega
    · obtain ⟨-, above, used, left, -, hclimbs, habove⟩ := climbLayers_of_lt (by omega) h
      exact ih ((width + 1) / 2) (by omega) habove (hclimbs.ascending rfl hasc)
        (hclimbs.ne_nil hne) rfl

/-! ## Roots -/

theorem map_fst_zip {indexes : List Nat} {leaves : List Digest}
    (h : indexes.length = leaves.length) : (indexes.zip leaves).map Prod.fst = indexes :=
  List.map_fst_zip (Nat.le_of_eq h)

theorem rootOfLeaves_eq_ok_iff {size : UInt64} {indexes : List UInt64}
    {leaves siblings : List Digest} {root : Digest} :
    rootOfLeaves size indexes leaves siblings = .ok root ↔
      checkIndexes size.toNat (indexes.map UInt64.toNat) leaves.length = .ok () ∧
        climbLayers size.toNat ((indexes.map UInt64.toNat).zip leaves) siblings =
          .ok ([(0, root)], []) := by
  unfold rootOfLeaves
  rw [Attempt.bind_eq_ok_iff]
  constructor
  · rintro ⟨⟨⟩, hcheck, h⟩
    rw [Attempt.lift_eq_ok_iff] at hcheck
    obtain ⟨⟨nodes, rest⟩, hclimb, h⟩ := Attempt.bind_eq_ok_iff.mp h
    refine ⟨hcheck, ?_⟩
    obtain ⟨hne, hcount, hasc⟩ := checkIndexes_eq_ok hcheck
    have hfst := map_fst_zip hcount
    obtain ⟨node, rfl⟩ := climbLayers_last hclimb (by rwa [hfst])
      (fun hnil => hne (by rw [← hfst, hnil, List.map_nil]))
    cases rest with
    | nil =>
      cases h
      exact hclimb
    | cons sibling rest => cases h
  · rintro ⟨hcheck, hclimb⟩
    refine ⟨(), Attempt.lift_eq_ok_iff.mpr hcheck, ?_⟩
    rw [hclimb]
    rfl

/-- **A proof that leads to the root of a tree is a proof of this tree**: it shows leaves where the
tree has them, and its siblings are those that the tree gives. -/
theorem rootOfLeaves_sound {S : List Bytes} (hS : ¬ Collision S) {L : List Bytes}
    (hL : treeInputs L ⊆ S) {size : UInt64} (hsize : size.toNat = L.length)
    {indexes : List UInt64} {leaves siblings : List Digest}
    (hin : leafProofInputs size indexes leaves siblings ⊆ S)
    (h : rootOfLeaves size indexes leaves siblings = .ok (Tree.ofLeaves L).root) :
    Covers ((indexes.map UInt64.toNat).zip leaves) (L.map leafHash) ∧
      siblings = treeSiblings (L.map leafHash) (indexes.map UInt64.toNat) := by
  obtain ⟨hcheck, hclimb⟩ := rootOfLeaves_eq_ok_iff.mp h
  obtain ⟨hne, hcount, hasc⟩ := checkIndexes_eq_ok hcheck
  have hfst := map_fst_zip hcount
  have hLne : L ≠ [] := by
    rintro rfl
    obtain ⟨j, hj⟩ := List.exists_mem_of_ne_nil _ hne
    have := (hasc.bounds j hj).2
    simp [hsize] at this
  have hwidth : size.toNat = (L.map leafHash).length := by rw [hsize, List.length_map]
  rw [leafProofInputs, hwidth] at hin
  rw [hwidth] at hclimb hasc
  rw [treeInputs, if_neg hLne, List.append_subset] at hL
  have := climbLayers_sound hS hL.2 hclimb (by rwa [hfst]) hin (by simp [root_ofLeaves])
  rwa [hfst, List.append_nil] at this

/-- Such a proof shows the data of the leaves. -/
theorem rootOfLeaves_shows {S : List Bytes} (hS : ¬ Collision S) {L : List Bytes}
    (hL : treeInputs L ⊆ S) {size : UInt64} (hsize : size.toNat = L.length)
    {indexes : List UInt64} {shown : List Bytes} {siblings : List Digest}
    (hshown : shown.map leafInput ⊆ S)
    (hin : leafProofInputs size indexes (shown.map leafHash) siblings ⊆ S)
    (h : rootOfLeaves size indexes (shown.map leafHash) siblings = .ok (Tree.ofLeaves L).root) :
    List.Forall₂ (fun i data => L[i.toNat]? = some data) indexes shown := by
  obtain ⟨hcovers, -⟩ := rootOfLeaves_sound hS hL hsize hin h
  obtain ⟨-, hcount, -⟩ := checkIndexes_eq_ok (rootOfLeaves_eq_ok_iff.mp h).1
  rw [List.length_map, List.length_map] at hcount
  refine List.forall₂_iff_zip.mpr ⟨hcount, fun {i data} hmem => ?_⟩
  have hnode : (i.toNat, leafHash data) ∈ (indexes.map UInt64.toNat).zip (shown.map leafHash) := by
    rw [List.zip_map]
    exact List.mem_map.mpr ⟨(i, data), hmem, rfl⟩
  have hleaf := hcovers _ hnode
  rw [List.getElem?_map] at hleaf
  obtain ⟨other, hother, hhash⟩ := Option.map_eq_some_iff.mp hleaf
  have hLne : L ≠ [] := by
    rintro rfl
    cases hother
  rw [treeInputs, if_neg hLne, List.append_subset] at hL
  have heq := eq_of_keccak256_eq hS
    (hL.1 (List.mem_map.mpr ⟨other, List.mem_of_getElem? hother, rfl⟩))
    (hshown (List.mem_map.mpr ⟨data, (List.of_mem_zip hmem).2, rfl⟩)) hhash
  rw [hother, leafInput_injective heq]

/-- **Whether a proof leads to a root does not depend on the leaves.** -/
theorem rootOfLeaves_shape {size : UInt64} {indexes : List UInt64}
    {leaves siblings others : List Digest} {root : Digest}
    (h : rootOfLeaves size indexes leaves siblings = .ok root)
    (hlen : others.length = leaves.length) :
    ∃ next, rootOfLeaves size indexes others siblings = .ok next := by
  obtain ⟨hcheck, hclimb⟩ := rootOfLeaves_eq_ok_iff.mp h
  obtain ⟨hne, hcount, -⟩ := checkIndexes_eq_ok hcheck
  have hsame : ((indexes.map UInt64.toNat).zip others).map Prod.fst =
      ((indexes.map UInt64.toNat).zip leaves).map Prod.fst := by
    rw [map_fst_zip hcount, map_fst_zip (hcount.trans hlen.symm)]
  obtain ⟨last, surplus, hnext, hsurplus, hpos⟩ := climbLayers_shape hclimb hsame rfl
  obtain rfl := List.length_eq_zero_iff.mp hsurplus
  obtain ⟨⟨i, next⟩, tail, rfl, hi, htail⟩ := List.map_eq_cons_iff.mp hpos
  obtain rfl := List.map_eq_nil_iff.mp htail
  refine ⟨next, rootOfLeaves_eq_ok_iff.mpr ⟨by rwa [hlen], ?_⟩⟩
  rw [hnext, ← show i = 0 from hi]

/-- **The siblings of a tree serve every replacement of the leaves that they prove.** When they lead
to some root at all, they lead from the leaves of another tree, which may differ at the proven
positions, to its root. -/
theorem rootOfLeaves_replace {L L' : List Bytes} (hlen : L'.length = L.length)
    {size : UInt64} (hsize : size.toNat = L.length) {indexes : List UInt64}
    {leaves siblings : List Digest} {root : Digest}
    (h : rootOfLeaves size indexes leaves siblings = .ok root)
    (hsib : siblings = treeSiblings (L.map leafHash) (indexes.map UInt64.toNat))
    (hsame : ∀ k, k ∉ indexes.map UInt64.toNat → L'[k]? = L[k]?)
    (hcov : Covers ((indexes.map UInt64.toNat).zip leaves) (L'.map leafHash)) :
    root = (Tree.ofLeaves L').root := by
  obtain ⟨hcheck, hclimb⟩ := rootOfLeaves_eq_ok_iff.mp h
  obtain ⟨-, hcount, hasc⟩ := checkIndexes_eq_ok hcheck
  have hfst := map_fst_zip hcount
  have hwidth : size.toNat = (L'.map leafHash).length := by rw [hsize, List.length_map, hlen]
  have hmaps : (L'.map leafHash).length = (L.map leafHash).length := by
    rw [List.length_map, List.length_map, hlen]
  rw [hwidth] at hclimb hasc
  have hsame' : treeSiblings (L'.map leafHash) (indexes.map UInt64.toNat) =
      treeSiblings (L.map leafHash) (indexes.map UInt64.toNat) :=
    treeSiblings_congr hmaps (hmaps ▸ hasc) fun k hk => by
      rw [List.getElem?_map, List.getElem?_map, hsame k hk]
  have hroot := climbLayers_covers hclimb (by rwa [hfst]) hcov
    (by rw [hfst, hsame', List.append_nil, hsib])
  exact hroot _ List.mem_cons_self

end ChainHub.Merkle
