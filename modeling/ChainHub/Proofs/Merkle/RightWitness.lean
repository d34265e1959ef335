import ChainHub.Proofs.Merkle.Siblings

/-!
# The right witness of a tree leads to its root

A tree lists for a number of leaves what lies to the right of them (`Tree.rightWitness`); whoever
knows the path of these leaves goes up from there (`rootOfRightWitness`). The two meet at every
number of leaves, from none to all.

* `Tree.climb_rightSiblings`: from any node of a layer, with the path of the nodes to its left and
  the right siblings above it, the climb ends at the root.
* `Tree.exists_boundary`: so it does from the node with which a right witness starts.
* `Tree.rootOfRightWitness_layersFrom`: the right witness of a layer leads to its root.
* `Accumulator.rootOfRightWitness_rightWitness`: so does that of a tree, from any beginning of its
  leaves.
* `Accumulator.isPrefix_of_rootOfRightWitness`: no witness leads there from other leaves.

The first three are said of a layer of nodes, whatever they are, so the induction goes from a layer
to the next one: the nodes to the left of an even position are paired among themselves, and neither
their path nor the witness changes. The last one is read off the sketch that a witness extends.
-/

namespace ChainHub.Merkle

/-! ## The climb, step by step -/

section Climb

variable {mismatch : MerkleError} {position : Nat} {node left right : Digest}
  {path witness : List Digest}

theorem climb_done : climb mismatch position node [] [] = .ok node := by
  rw [climb.eq_def]
  rfl

theorem climb_left (h : position % 2 = 1) :
    climb mismatch position node (left :: path) witness =
      climb mismatch (position / 2) (branchHash left node) path witness := by
  rw [climb.eq_def, if_neg (by simp), if_pos h]

theorem climb_right (h : position % 2 = 0) :
    climb mismatch position node path (right :: witness) =
      climb mismatch (position / 2) (branchHash node right) path witness := by
  rw [climb.eq_def, if_neg (by simp), if_neg (by omega)]

/-- Once the witness is used up, an even position is carried up to where the path goes on. -/
theorem climb_carried (h : position % 2 = 0) (hpos : position ≠ 0) (hpath : path ≠ []) :
    climb mismatch position node path [] = climb mismatch (position / 2) node path [] := by
  rw [climb.eq_def, if_neg (by simpa using hpath), if_neg (by omega), if_neg hpos]

end Climb

/-! ## From a layer to the next one -/

/-- The first nodes of the next layer are those over the first nodes, in pairs. -/
theorem take_pairUp {layer : List Digest} {n : Nat} (h : 2 * n ≤ layer.length) :
    (pairUp layer).take n = pairUp (layer.take (2 * n)) := by
  have hlen : (layer.take (2 * n)).length = 2 * n := by
    rw [List.length_take]
    omega
  have heven : (layer.take (2 * n)).length % 2 = 0 := by omega
  have happend := pairUp_append heven (layer.drop (2 * n))
  rw [List.take_append_drop] at happend
  rw [happend, List.take_left']
  rw [length_pairUp, hlen]
  omega

/-- The path of an even number of nodes is that of the nodes above them. -/
theorem pathOf_take_pairUp {layer : List Digest} {n : Nat} (heven : n % 2 = 0)
    (h : n ≤ layer.length) : pathOf ((pairUp layer).take (n / 2)) = pathOf (layer.take n) := by
  have htwice : 2 * (n / 2) = n := by omega
  rw [take_pairUp (by omega), htwice, pathOf_pairUp]
  rw [List.length_take]
  omega

theorem pathOf_take_of_odd {layer : List Digest} {n : Nat} {left : Digest} (hodd : n % 2 = 1)
    (hleft : layer[n - 1]? = some left) :
    pathOf (layer.take n) = left :: pathOf ((pairUp layer).take (n / 2)) := by
  obtain ⟨hlt, -⟩ := List.getElem?_eq_some_iff.mp hleft
  have htake : layer.take n = layer.take (n - 1) ++ [left] := by
    have hsucc : n = n - 1 + 1 := by omega
    rw [hsucc, List.take_add_one, Nat.add_sub_cancel, hleft]
    rfl
  have hhalf : n / 2 = (n - 1) / 2 := by omega
  rw [htake, pathOf_concat_of_even (by rw [List.length_take]; omega), hhalf,
    pathOf_take_pairUp (by omega) (by omega)]

theorem pathOf_ne_nil {layer : List Digest} (h : layer ≠ []) : pathOf layer ≠ [] := by
  induction layer using digit_induction with
  | nil => exact absurd rfl h
  | even layer hne heven ih =>
    have hpos := List.length_pos_iff.mpr hne
    rw [← pathOf_pairUp heven]
    exact ih (List.length_pos_iff.mp (by rw [length_pairUp]; omega))
  | odd front last heven _ =>
    rw [pathOf_concat_of_even heven]
    exact List.cons_ne_nil _ _

namespace Tree

/-! ## Right siblings -/

/-- The last node of a layer has nothing to its right, nor has any node above it. -/
theorem rightSiblings_of_last {layer : List Digest} {position : Nat}
    (h : layer.length ≤ position + 1) : rightSiblings (layersFrom layer) position = [] := by
  induction layer using layer_induction generalizing position with
  | top layer hle => rw [layersFrom_of_le hle, rightSiblings, if_pos hle]
  | up layer hmore ih =>
    have hup : (pairUp layer).length = (layer.length + 1) / 2 := length_pairUp layer
    have hnone : layer[position + 1]? = none := List.getElem?_eq_none (by omega)
    rw [layersFrom_of_lt hmore, rightSiblings, if_neg (by omega), hnone, ih (by omega)]
    simp

/-- **Right siblings lead to the root**: from any node of a layer, with the path of the nodes to its
left. -/
theorem climb_rightSiblings {layer : List Digest} {position : Nat} {node : Digest}
    (mismatch : MerkleError) (hnode : layer[position]? = some node) :
    climb mismatch position node (pathOf (layer.take position))
      (rightSiblings (layersFrom layer) position) = .ok (layerRoot layer) := by
  induction layer using layer_induction generalizing position node with
  | top layer hle =>
    -- A single node is the root.
    obtain ⟨hlt, -⟩ := List.getElem?_eq_some_iff.mp hnode
    obtain rfl : position = 0 := by omega
    obtain ⟨only, rfl⟩ := List.length_eq_one_iff.mp (show layer.length = 1 by omega)
    obtain rfl : only = node := by simpa using hnode
    rw [layersFrom_of_le hle, rightSiblings, if_pos hle, List.take_zero, pathOf_nil, climb_done,
      layerRoot_singleton]
  | up layer hmore ih =>
    obtain ⟨hlt, -⟩ := List.getElem?_eq_some_iff.mp hnode
    have hup : (pairUp layer).length = (layer.length + 1) / 2 := length_pairUp layer
    rw [layersFrom_of_lt hmore, rightSiblings, if_neg (by omega), ← layerRoot_pairUp hmore]
    by_cases hodd : position % 2 = 1
    · obtain ⟨left, hleft⟩ : ∃ left, layer[position - 1]? = some left :=
        ⟨_, List.getElem?_eq_getElem (by omega)⟩
      have hparent : (pairUp layer)[position / 2]? = some (branchHash left node) := by
        have hhalf : position / 2 = (position - 1) / 2 := by omega
        have hnext : position - 1 + 1 = position := by omega
        rw [hhalf]
        exact (getElem?_pairUp (by omega) hleft (by rw [hnext]; exact hnode)).1
      rw [if_neg (by omega), List.nil_append, pathOf_take_of_odd hodd hleft, climb_left hodd,
        ih hparent]
    have heven : position % 2 = 0 := by omega
    rw [if_pos heven, ← pathOf_take_pairUp heven (by omega)]
    by_cases hlast : layer.length ≤ position + 1
    · -- The last node of an odd layer is carried up; nothing is to its right.
      have hparent : (pairUp layer)[position / 2]? = some node :=
        (getElem?_pairUp_last heven hlast).trans hnode
      have hpath : pathOf ((pairUp layer).take (position / 2)) ≠ [] := by
        refine pathOf_ne_nil (List.length_pos_iff.mp ?_)
        rw [List.length_take]
        omega
      have hnone : layer[position + 1]? = none := List.getElem?_eq_none hlast
      have hgo := ih hparent
      rw [rightSiblings_of_last (by omega)] at hgo ⊢
      rw [hnone, Option.toList_none, List.nil_append, climb_carried heven (by omega) hpath, hgo]
    · obtain ⟨right, hright⟩ : ∃ right, layer[position + 1]? = some right :=
        ⟨_, List.getElem?_eq_getElem (by omega)⟩
      rw [hright, Option.toList_some, List.singleton_append, climb_right heven,
        ih (getElem?_pairUp heven hnode hright).1]

/-! ## The right witness -/

theorem trailingZeros_of_odd {size : Nat} (h : size % 2 = 1) : trailingZeros size = 0 := by
  rw [trailingZeros, dif_neg (by omega), if_pos h]

theorem trailingZeros_of_even {size : Nat} (hpos : 0 < size) (heven : size % 2 = 0) :
    trailingZeros size = trailingZeros (size / 2) + 1 := by
  rw [trailingZeros, dif_neg (by omega), if_neg (by omega)]

theorem shiftRight_trailingZeros_of_odd {size : Nat} (h : size % 2 = 1) :
    size >>> trailingZeros size = size := by
  rw [trailingZeros_of_odd h]
  rfl

theorem shiftRight_trailingZeros_of_even {size : Nat} (hpos : 0 < size) (heven : size % 2 = 0) :
    size >>> trailingZeros size = (size / 2) >>> trailingZeros (size / 2) := by
  rw [trailingZeros_of_even hpos heven, Nat.add_comm, Nat.shiftRight_add]
  rfl

/-- The node with which the right witness of some but not all of the leaves starts. -/
def boundary? (layers : List (List Digest)) (size : Nat) : Option Digest :=
  ((layers.drop (trailingZeros size)).headD [])[size >>> trailingZeros size]?

theorem boundary?_of_odd {layer : List Digest} {above : List (List Digest)} {size : Nat}
    (h : size % 2 = 1) : boundary? (layer :: above) size = layer[size]? := by
  rw [boundary?, shiftRight_trailingZeros_of_odd h, trailingZeros_of_odd h]
  rfl

theorem boundary?_of_even {layer : List Digest} {above : List (List Digest)} {size : Nat}
    (hpos : 0 < size) (heven : size % 2 = 0) :
    boundary? (layer :: above) size = boundary? above (size / 2) := by
  rw [boundary?, shiftRight_trailingZeros_of_even hpos heven, trailingZeros_of_even hpos heven,
    List.drop_succ_cons]
  rfl

/-- **The layers have this node, and from there the right siblings lead to the root.** An even
number of leaves lies below half as many nodes of the next layer. -/
theorem exists_boundary {layer : List Digest} {size : Nat} (mismatch : MerkleError)
    (hpos : 0 < size) (hlt : size < layer.length) :
    ∃ node, boundary? (layersFrom layer) size = some node ∧
      climb mismatch (size >>> trailingZeros size) node (pathOf (layer.take size))
          (rightSiblings ((layersFrom layer).drop (trailingZeros size))
            (size >>> trailingZeros size)) =
        .ok (layerRoot layer) := by
  induction layer using layer_induction generalizing size with
  | top layer hle => omega
  | up layer hmore ih =>
    have hup : (pairUp layer).length = (layer.length + 1) / 2 := length_pairUp layer
    by_cases hodd : size % 2 = 1
    · have hnode := List.getElem?_eq_getElem hlt
      refine ⟨layer[size], ?_, ?_⟩
      · rw [layersFrom_of_lt hmore, boundary?_of_odd hodd, hnode]
      · rw [shiftRight_trailingZeros_of_odd hodd, trailingZeros_of_odd hodd, List.drop_zero]
        exact climb_rightSiblings mismatch hnode
    · have heven : size % 2 = 0 := by omega
      rw [layersFrom_of_lt hmore, boundary?_of_even hpos heven,
        shiftRight_trailingZeros_of_even hpos heven, trailingZeros_of_even hpos heven,
        List.drop_succ_cons, ← pathOf_take_pairUp heven (by omega), ← layerRoot_pairUp hmore]
      exact ih (by omega) (by omega)

theorem rightWitness_eq_cons {tree : Tree} {size : Nat} {node : Digest} (hpos : 0 < size)
    (hlt : size < tree.size) (hnode : boundary? tree.layers size = some node) :
    tree.rightWitness size =
      node :: rightSiblings (tree.layers.drop (trailingZeros size))
        (size >>> trailingZeros size) := by
  rw [rightWitness, if_neg (by omega), if_neg (by omega)]
  show (boundary? _ _).toList ++ _ = _
  rw [hnode]
  rfl

theorem size_layersFrom (layer : List Digest) :
    (Tree.mk (layersFrom layer)).size = layer.length := by
  unfold size
  rw [layersFrom]
  split <;> rfl

/-- **The right witness leads to the root**, whatever number of leaves it is for. -/
theorem rootOfRightWitness_layersFrom {layer : List Digest} {size : Nat} (hle : size ≤ layer.length)
    (hsize : size < UInt64.size) :
    rootOfRightWitness (UInt64.ofNat size) (pathOf (layer.take size))
      ((Tree.mk (layersFrom layer)).rightWitness size) = .ok (layerRoot layer) := by
  have hnat : (UInt64.ofNat size).toNat = size := UInt64.toNat_ofNat_of_lt' hsize
  have hlen : (pathOf (layer.take size)).length = onesCount size := by
    rw [length_pathOf, List.length_take, Nat.min_eq_left hle]
  unfold rootOfRightWitness
  rw [hnat, if_neg (by rw [hlen]; exact fun h => h rfl)]
  by_cases hall : layer.length ≤ size
  · -- All leaves are known.
    rw [rightWitness, size_layersFrom, if_pos hall, List.take_of_length_le hall, rootOfPath_pathOf]
  by_cases hnone : size = 0
  · -- No leaf is known; the witness is the root itself.
    subst hnone
    rw [rightWitness, size_layersFrom, if_neg hall, if_pos rfl, List.take_zero, pathOf_nil]
    exact climb_done
  · have hpos : 0 < size := Nat.pos_of_ne_zero hnone
    obtain ⟨node, hnode, hclimb⟩ := exists_boundary
      (.pathMismatch (onesCount size) (pathOf (layer.take size)).length) hpos
      (Nat.lt_of_not_le hall)
    rw [rightWitness_eq_cons hpos (by rw [size_layersFrom]; omega) hnode]
    exact hclimb

end Tree

end ChainHub.Merkle

namespace ChainHub.Accumulator

open Merkle

/-- **The right witness of a tree extends every beginning of its leaves to its root.** The node that
it starts with is always there. The beginning is summed up leaf by leaf and the witness is read off
the layers, so the two know nothing of each other but the number of leaves. -/
theorem rootOfRightWitness_rightWitness {L : List Bytes} {k : UInt64} (h : k.toNat ≤ L.length) :
    (0 < k.toNat → k.toNat < L.length →
      (Tree.boundary? (Tree.ofLeaves L).layers k.toNat).isSome = true) ∧
    ∃ acc, empty.appendAll? (L.take k.toNat) = some acc ∧ acc.size = k ∧
      rootOfRightWitness acc.size acc.path ((Tree.ofLeaves L).rightWitness k.toNat) =
        .ok (Tree.ofLeaves L).root := by
  have hlen : (L.take k.toNat).length = k.toNat := by
    rw [List.length_take, Nat.min_eq_left h]
  have hsize : (ofLeaves (L.take k.toNat)).size = k := by
    show UInt64.ofNat (L.take k.toNat).length = k
    rw [hlen, UInt64.ofNat_toNat]
  have happend : empty.appendAll? (L.take k.toNat) = some (ofLeaves (L.take k.toNat)) := by
    rw [appendAll?_empty_eq_some_iff, hlen]
    exact ⟨k.toNat_lt, rfl⟩
  have hroot := @Tree.rootOfRightWitness_layersFrom (L.map leafHash) k.toNat
    (by rwa [List.length_map]) k.toNat_lt
  rw [UInt64.ofNat_toNat, ← List.map_take] at hroot
  refine ⟨fun hpos hlt => ?_, ofLeaves (L.take k.toNat), happend, hsize, ?_⟩
  · obtain ⟨node, hnode, -⟩ := @Tree.exists_boundary (L.map leafHash) k.toNat default hpos
      (by rwa [List.length_map])
    exact Option.isSome_of_eq_some hnode
  · rw [hsize]
    exact hroot

/-- Five of seven leaves: one step to the left, one to the right and one to the left again. -/
theorem rootOfRightWitness_rightWitness_seven :
    (5 : UInt64).toNat ≤ ([[0], [1], [2], [3], [4], [5], [6]] : List Bytes).length ∧
      ∃ acc, empty.appendAll? [[0], [1], [2], [3], [4]] = some acc ∧ acc.size = 5 ∧
        rootOfRightWitness acc.size acc.path
            ((Tree.ofLeaves [[0], [1], [2], [3], [4], [5], [6]]).rightWitness 5) =
          .ok (Tree.ofLeaves [[0], [1], [2], [3], [4], [5], [6]]).root := by
  have h : (5 : UInt64).toNat ≤ ([[0], [1], [2], [3], [4], [5], [6]] : List Bytes).length := by
    decide
  exact ⟨h, (rootOfRightWitness_rightWitness h).2⟩

/-! ## Whose root a witness leads to -/

/-- **A witness leads to the root of a tree only from a beginning of its leaves**, and without a
witness only from all of them, unless two of the strings hashed on the way collide. The witness is
any list of hashes, and nothing is said of the number of leaves of the tree: the root fixes the
leaves in order from the first one on, however many there are. -/
theorem isPrefix_of_rootOfRightWitness {P L : List Bytes} {acc : Accumulator}
    {witness : List Digest} (hP : empty.appendAll? P = some acc)
    (h : rootOfRightWitness acc.size acc.path witness = .ok (Tree.ofLeaves L).root) :
    Collision (empty.appendAllInputs P ++ rightWitnessInputs acc.size acc.path witness ++
        treeInputs L) ∨
      (P <+: L ∧ (witness = [] → P = L)) := by
  refine or_iff_not_imp_left.mpr fun hS => ?_
  have hinputs := List.Subset.refl (empty.appendAllInputs P ++
    rightWitnessInputs acc.size acc.path witness ++ treeInputs L)
  rw [List.append_subset, List.append_subset] at hinputs
  obtain ⟨⟨hP', hwitness⟩, hL⟩ := hinputs
  exact ((Sketch.drawn_empty _).appendAll hP hP').isPrefix hS hwitness hL h

/-- Three of five leaves, with the right witness of the tree over all five. -/
theorem isPrefix_of_rootOfRightWitness_five :
    ∃ acc witness, empty.appendAll? [[1], [2], [3]] = some acc ∧
      rootOfRightWitness acc.size acc.path witness =
        .ok (Tree.ofLeaves [[1], [2], [3], [4], [5]]).root ∧
      (Collision (empty.appendAllInputs [[1], [2], [3]] ++
          rightWitnessInputs acc.size acc.path witness ++
          treeInputs [[1], [2], [3], [4], [5]]) ∨
        (([[1], [2], [3]] : List Bytes) <+: [[1], [2], [3], [4], [5]] ∧
          (witness = [] → ([[1], [2], [3]] : List Bytes) = [[1], [2], [3], [4], [5]]))) := by
  have hP : empty.appendAll? [[1], [2], [3]] = some (ofLeaves [[1], [2], [3]]) :=
    appendAll?_empty_eq_some_iff.mpr ⟨by decide, rfl⟩
  have h := @Tree.rootOfRightWitness_layersFrom ([[1], [2], [3], [4], [5]].map leafHash) 3
    (by decide) (by decide)
  exact ⟨_, _, hP, h, isPrefix_of_rootOfRightWitness hP h⟩

end ChainHub.Accumulator
