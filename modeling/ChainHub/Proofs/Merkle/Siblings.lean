import ChainHub.Proofs.Merkle.Climb
import ChainHub.Proofs.Merkle.Sketch

/-!
# The siblings of positions in a tree

* `Tree.siblings_induction`: the ways in which positions of a layer go up.
* `Tree.siblings_congr`: siblings of given positions do not depend on the nodes there.
* `getElem?_pairUp`, `getElem?_pairUp_last`: where the nodes of the next layer come from.
* `Covers`: known nodes are where a layer has them.
-/

namespace ChainHub.Merkle

/-! ## Siblings -/

namespace Tree

section Equations

variable {layer : List Digest} {i : Nat} {rest : List Nat}

theorem siblings_left (hi : i % 2 = 1) :
    siblings layer (i :: rest) =
      (layer[i - 1]?.toList ++ (siblings layer rest).1, i / 2 :: (siblings layer rest).2) := by
  cases rest with
  | nil => simp [siblings, hi]
  | cons j rest => simp [siblings, hi]

theorem siblings_pair (hi : i % 2 = 0) :
    siblings layer (i :: (i + 1) :: rest) =
      ((siblings layer rest).1, i / 2 :: (siblings layer rest).2) := by
  simp [siblings, hi]

theorem siblings_gap (hi : i % 2 = 0) (hhead : ∀ j ∈ rest.head?, j ≠ i + 1) :
    siblings layer (i :: rest) =
      (layer[i + 1]?.toList ++ (siblings layer rest).1, i / 2 :: (siblings layer rest).2) := by
  cases rest with
  | nil => simp [siblings, hi]
  | cons j rest => simp [siblings, hi, hhead j rfl]

end Equations

/-- Known positions are taken from the left: an odd one, two that are neighbours, or an even one
without its neighbour. -/
theorem siblings_induction {P : List Nat → Prop} (nil : P [])
    (left : ∀ i rest, i % 2 = 1 → P rest → P (i :: rest))
    (pair : ∀ i rest, i % 2 = 0 → P rest → P (i :: (i + 1) :: rest))
    (gap : ∀ i rest, i % 2 = 0 → (∀ j ∈ rest.head?, j ≠ i + 1) → P rest → P (i :: rest)) :
    ∀ positions, P positions
  | [] => nil
  | [i] => by
    by_cases hi : i % 2 = 1
    · exact left i [] hi nil
    · exact gap i [] (by omega) (by simp) nil
  | i :: j :: rest => by
    by_cases hi : i % 2 = 1
    · exact left i _ hi (siblings_induction nil left pair gap (j :: rest))
    · by_cases hj : j = i + 1
      · rw [hj]
        exact pair i rest (by omega) (siblings_induction nil left pair gap rest)
      · exact gap i _ (by omega) (by simpa using hj)
          (siblings_induction nil left pair gap (j :: rest))

/-- Every known position has its parent among those of the layer above. -/
theorem half_mem_siblings {layer : List Digest} {positions : List Nat} :
    ∀ i ∈ positions, i / 2 ∈ (siblings layer positions).2 := by
  induction positions using siblings_induction with
  | nil => simp
  | left i rest hi ih =>
    rw [siblings_left hi, List.forall_mem_cons]
    exact ⟨List.mem_cons_self, fun j hj => List.mem_cons_of_mem _ (ih j hj)⟩
  | pair i rest hi ih =>
    have hnext : (i + 1) / 2 = i / 2 := by omega
    rw [siblings_pair hi, List.forall_mem_cons, List.forall_mem_cons, hnext]
    exact ⟨List.mem_cons_self, List.mem_cons_self, fun j hj => List.mem_cons_of_mem _ (ih j hj)⟩
  | gap i rest hi hhead ih =>
    rw [siblings_gap hi hhead, List.forall_mem_cons]
    exact ⟨List.mem_cons_self, fun j hj => List.mem_cons_of_mem _ (ih j hj)⟩

/-- The positions of the layer above are ascending, too. -/
theorem ascending_siblings {layer : List Digest} {width : Nat} {positions : List Nat} :
    ∀ lo : Nat, lo % 2 = 0 → Ascending width lo positions →
      Ascending ((width + 1) / 2) (lo / 2) (siblings layer positions).2 := by
  induction positions using siblings_induction with
  | nil => exact fun _ _ _ => trivial
  | left i rest hi ih =>
    intro lo hlo hasc
    obtain ⟨hle, hlt, hrest⟩ := hasc
    rw [siblings_left hi]
    exact ⟨by omega, by omega, (ih (i + 1) (by omega) hrest).mono (by omega)⟩
  | pair i rest hi ih =>
    intro lo hlo hasc
    obtain ⟨hle, hlt, -, -, hrest⟩ := hasc
    rw [siblings_pair hi]
    exact ⟨by omega, by omega, (ih (i + 2) (by omega) hrest).mono (by omega)⟩
  | gap i rest hi hhead ih =>
    intro lo hlo hasc
    obtain ⟨hle, hlt, hrest⟩ := hasc
    rw [siblings_gap hi hhead]
    exact ⟨by omega, by omega, (ih (i + 2) (by omega) (hrest.skip hhead)).mono (by omega)⟩

/-- **The siblings do not see the known nodes**: two layers that differ only there have the same
ones. -/
theorem siblings_congr {layer other : List Digest} {width : Nat} {positions : List Nat} :
    ∀ lo : Nat, lo % 2 = 0 → Ascending width lo positions →
      (∀ k, lo ≤ k → k ∉ positions → other[k]? = layer[k]?) →
      siblings other positions = siblings layer positions := by
  induction positions using siblings_induction with
  | nil => exact fun _ _ _ _ => rfl
  | left i rest hi ih =>
    intro lo hlo hasc h
    obtain ⟨hle, hlt, hrest⟩ := hasc
    have hsib : i - 1 ∉ i :: rest := by
      intro hmem
      rcases List.mem_cons.mp hmem with heq | hmem
      · omega
      · exact hrest.notMem (by omega) hmem
    have htail : siblings other rest = siblings layer rest := by
      refine ih (i + 1) (by omega) hrest fun k hk hout => h k (by omega) ?_
      rw [List.mem_cons, not_or]
      exact ⟨by omega, hout⟩
    rw [siblings_left hi, siblings_left hi, h (i - 1) (by omega) hsib, htail]
  | pair i rest hi ih =>
    intro lo hlo hasc h
    obtain ⟨hle, hlt, -, -, hrest⟩ := hasc
    have htail : siblings other rest = siblings layer rest := by
      refine ih (i + 2) (by omega) hrest fun k hk hout => h k (by omega) ?_
      rw [List.mem_cons, List.mem_cons, not_or, not_or]
      exact ⟨by omega, by omega, hout⟩
    rw [siblings_pair hi, siblings_pair hi, htail]
  | gap i rest hi hhead ih =>
    intro lo hlo hasc h
    obtain ⟨hle, hlt, hrest⟩ := hasc
    have hskip := hrest.skip hhead
    have hsib : i + 1 ∉ i :: rest := by
      intro hmem
      rcases List.mem_cons.mp hmem with heq | hmem
      · omega
      · exact hskip.notMem (by omega) hmem
    have htail : siblings other rest = siblings layer rest := by
      refine ih (i + 2) (by omega) hskip fun k hk hout => h k (by omega) ?_
      rw [List.mem_cons, not_or]
      exact ⟨by omega, hout⟩
    rw [siblings_gap hi hhead, siblings_gap hi hhead, h (i + 1) (by omega) hsib, htail]

end Tree

/-! ## Nodes of a layer and of the next one -/

/-- The known nodes are where a layer has them. -/
def Covers (nodes : List (Nat × Digest)) (layer : List Digest) : Prop :=
  ∀ p ∈ nodes, layer[p.1]? = some p.2

theorem covers_cons {p : Nat × Digest} {nodes : List (Nat × Digest)} {layer : List Digest} :
    Covers (p :: nodes) layer ↔ layer[p.1]? = some p.2 ∧ Covers nodes layer :=
  List.forall_mem_cons

/-- Two neighbours and the node above them. -/
theorem getElem?_pairUp : ∀ {layer : List Digest} {i : Nat} {left right : Digest}, i % 2 = 0 →
    layer[i]? = some left → layer[i + 1]? = some right →
    (pairUp layer)[i / 2]? = some (branchHash left right) ∧
      branchInput left right ∈ pairInputs layer
  | [], _, _, _, _, hl, _ => by simp at hl
  | [_], i, _, _, _, _, hr => by simp at hr
  | a :: b :: rest, i, left, right, hi, hl, hr => by
    by_cases h0 : i = 0
    · subst h0
      simp only [List.getElem?_cons_zero, Option.some.injEq, Nat.zero_add,
        List.getElem?_cons_succ] at hl hr
      subst hl hr
      exact ⟨rfl, List.mem_cons_self⟩
    · obtain ⟨j, rfl⟩ : ∃ j, i = j + 2 := ⟨i - 2, by omega⟩
      simp only [List.getElem?_cons_succ] at hl hr
      have ih := getElem?_pairUp (i := j) (by omega) hl hr
      have hhalf : (j + 2) / 2 = j / 2 + 1 := by omega
      rw [pairUp, hhalf, List.getElem?_cons_succ]
      exact ⟨ih.1, List.mem_cons_of_mem _ ih.2⟩

/-- A last node without a partner is carried up. -/
theorem getElem?_pairUp_last : ∀ {layer : List Digest} {i : Nat}, i % 2 = 0 →
    layer.length ≤ i + 1 → (pairUp layer)[i / 2]? = layer[i]?
  | [], i, _, _ => by simp [pairUp]
  | [a], i, _, _ => by
    by_cases h0 : i = 0
    · subst h0
      rfl
    · show [a][i / 2]? = [a][i]?
      rw [List.getElem?_eq_none (by rw [List.length_singleton]; omega),
        List.getElem?_eq_none (by rw [List.length_singleton]; omega)]
  | a :: b :: rest, i, hi, hlen => by
    obtain ⟨j, rfl⟩ : ∃ j, i = j + 2 := ⟨i - 2, by simp only [List.length_cons] at hlen; omega⟩
    have ih : (pairUp rest)[j / 2]? = rest[j]? := getElem?_pairUp_last (by omega)
      (by simp only [List.length_cons] at hlen; omega)
    have hhalf : (j + 2) / 2 = j / 2 + 1 := by omega
    rw [pairUp, hhalf, List.getElem?_cons_succ, ih]
    rfl

/-- Layers that agree on two neighbours agree on the node above. -/
theorem pairUp_congr {layer other : List Digest} (hlen : other.length = layer.length) {k : Nat}
    (hl : other[2 * k]? = layer[2 * k]?) (hr : other[2 * k + 1]? = layer[2 * k + 1]?) :
    (pairUp other)[k]? = (pairUp layer)[k]? := by
  have hk : 2 * k / 2 = k := by omega
  by_cases hlt : 2 * k + 1 < layer.length
  · have h₁ := getElem?_pairUp (i := 2 * k) (by omega)
      (List.getElem?_eq_getElem (l := layer) (by omega)) (List.getElem?_eq_getElem hlt)
    have h₂ := getElem?_pairUp (i := 2 * k) (by omega)
      (hl.trans (List.getElem?_eq_getElem (by omega))) (hr.trans (List.getElem?_eq_getElem hlt))
    rw [hk] at h₁ h₂
    rw [h₁.1, h₂.1]
  · have h₁ : (pairUp layer)[2 * k / 2]? = layer[2 * k]? :=
      getElem?_pairUp_last (by omega) (by omega)
    have h₂ : (pairUp other)[2 * k / 2]? = other[2 * k]? :=
      getElem?_pairUp_last (by omega) (by omega)
    rw [hk] at h₁ h₂
    rw [h₁, h₂, hl]

end ChainHub.Merkle
