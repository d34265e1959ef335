import ChainHub.Merkle.Accumulator
import Mathlib.Data.List.Basic

/-!
# Accumulators compute the root of the layered tree

A tree is built layer by layer (`layersFrom`), an accumulator leaf by leaf (`Accumulator.append?`).
Both see the same binary digits of the number of leaves: `pathOf` splits a layer along them, and
each side is compared with it.

* `layerRoot`: the root over a layer of nodes; pairing the nodes up does not change it
  (`layerRoot_pairUp`).
* `layer_induction`: from a layer to the next one, up to the root.
* `pathOf`: the roots of the perfect subtrees of a layer, lowest first.
* `digit_induction`: the same along the binary digits of the number of nodes.
* `carry?_pathOf`: one more node carries through the path.
* `length_pathOf`: a path has one node for each one bit of the number of nodes.
* `rootOfPath_pathOf`: the path has the root of the layer.
* `Accumulator.appendAll?_empty_eq_some_iff`: appending leaves one by one gives the root, the size
  and the path of the whole list, and fails only when the size would not fit into 64 bits.
* `Accumulator.HasRoom`: what it takes for one more leaf.
-/

namespace ChainHub.Merkle

/-! ## Pairing up -/

/-- The root of the tree over a layer of nodes. -/
def layerRoot (layer : List Digest) : Digest :=
  (((layersFrom layer).getLastD []).head?).getD emptyRoot

theorem root_ofLeaves (leaves : List Bytes) :
    (Tree.ofLeaves leaves).root = layerRoot (leaves.map leafHash) := rfl

theorem layersFrom_of_le {layer : List Digest} (h : layer.length ≤ 1) :
    layersFrom layer = [layer] := by
  rw [layersFrom, dif_pos h]

theorem layersFrom_of_lt {layer : List Digest} (h : 1 < layer.length) :
    layersFrom layer = layer :: layersFrom (pairUp layer) := by
  rw [layersFrom, dif_neg (by omega)]

/-- Induction from a layer to the next one. -/
theorem layer_induction {P : List Digest → Prop} (top : ∀ layer, layer.length ≤ 1 → P layer)
    (up : ∀ layer, 1 < layer.length → P (pairUp layer) → P layer) : ∀ layer, P layer := by
  intro layer
  induction layer using layersFrom.induct with
  | case1 layer h => exact top layer h
  | case2 layer h ih => exact up layer (by omega) ih

theorem layersFrom_ne_nil (layer : List Digest) : layersFrom layer ≠ [] := by
  rw [layersFrom]
  split <;> simp

@[simp]
theorem layerRoot_nil : layerRoot [] = emptyRoot := by
  simp [layerRoot, layersFrom_of_le]

@[simp]
theorem layerRoot_singleton (node : Digest) : layerRoot [node] = node := by
  simp [layerRoot, layersFrom_of_le]

theorem layerRoot_pairUp {layer : List Digest} (h : 1 < layer.length) :
    layerRoot (pairUp layer) = layerRoot layer := by
  unfold layerRoot
  rw [layersFrom_of_lt h]
  cases hl : layersFrom (pairUp layer) with
  | nil => exact absurd hl (layersFrom_ne_nil _)
  | cons first rest => rfl

/-- Nodes behind an even number of nodes are paired among themselves. -/
theorem pairUp_append : ∀ {front : List Digest}, front.length % 2 = 0 → ∀ back,
    pairUp (front ++ back) = pairUp front ++ pairUp back
  | [], _, _ => rfl
  | [_], h, _ => by simp at h
  | left :: right :: rest, h, back => by
    have hrest : rest.length % 2 = 0 := by
      simp only [List.length_cons] at h
      omega
    simp only [List.cons_append, pairUp, pairUp_append hrest back]

theorem pairUp_concat {front : List Digest} (h : front.length % 2 = 0) (node : Digest) :
    pairUp (front ++ [node]) = pairUp front ++ [node] :=
  pairUp_append h [node]

theorem pairUp_concat_two {front : List Digest} (h : front.length % 2 = 0) (left right : Digest) :
    pairUp (front ++ [left] ++ [right]) = pairUp front ++ [branchHash left right] := by
  rw [List.append_assoc]
  exact pairUp_append h [left, right]

/-! ## Paths -/

/-- The roots of the perfect subtrees of a layer, lowest first. -/
def pathOf (layer : List Digest) : List Digest :=
  if h : layer = [] then []
  else if layer.length % 2 = 1 then layer.getLast h :: pathOf (pairUp layer.dropLast)
  else pathOf (pairUp layer)
termination_by layer.length
decreasing_by
  all_goals
    have := List.length_pos_iff.mpr h
    simp only [length_pairUp, List.length_dropLast]
    omega

@[simp]
theorem pathOf_nil : pathOf [] = [] := by
  rw [pathOf, dif_pos rfl]

theorem pathOf_pairUp {layer : List Digest} (h : layer.length % 2 = 0) :
    pathOf (pairUp layer) = pathOf layer := by
  by_cases hnil : layer = []
  · rw [hnil]
    rfl
  · conv_rhs => rw [pathOf, dif_neg hnil, if_neg (by omega)]

theorem pathOf_concat_of_even {front : List Digest} (h : front.length % 2 = 0) (node : Digest) :
    pathOf (front ++ [node]) = node :: pathOf front := by
  have hodd : (front ++ [node]).length % 2 = 1 := by
    simp only [List.length_append, List.length_singleton]
    omega
  rw [pathOf, dif_neg (by simp), if_pos hodd, List.getLast_concat, List.dropLast_concat,
    pathOf_pairUp h]

theorem pathOf_concat_two {front : List Digest} (h : front.length % 2 = 0) (left right : Digest) :
    pathOf (front ++ [left] ++ [right]) = pathOf (pairUp front ++ [branchHash left right]) := by
  rw [← pairUp_concat_two h, pathOf_pairUp]
  simp only [List.length_append, List.length_singleton]
  omega

/-- A layer is even, or it is an even one with one more node. -/
theorem even_or_concat (layer : List Digest) :
    layer.length % 2 = 0 ∨ ∃ front last, layer = front ++ [last] ∧ front.length % 2 = 0 := by
  by_cases h : layer.length % 2 = 0
  · exact Or.inl h
  · have hne : layer ≠ [] := by
      rintro rfl
      exact h rfl
    refine Or.inr ⟨layer.dropLast, layer.getLast hne, (List.dropLast_concat_getLast hne).symm, ?_⟩
    rw [List.length_dropLast]
    omega

/-- Induction from a layer to the next one, where the last node of an odd layer is left out. -/
theorem digit_induction {P : List Digest → Prop} (nil : P [])
    (even : ∀ layer, layer ≠ [] → layer.length % 2 = 0 → P (pairUp layer) → P layer)
    (odd : ∀ front last, front.length % 2 = 0 → P (pairUp front) → P (front ++ [last])) :
    ∀ layer, P layer := by
  intro layer
  induction hn : layer.length using Nat.strongRecOn generalizing layer with
  | ind n ih =>
    subst hn
    rcases even_or_concat layer with h | ⟨front, last, rfl, h⟩
    · by_cases hnil : layer = []
      · exact hnil ▸ nil
      · have hpos := List.length_pos_iff.mpr hnil
        exact even layer hnil h (ih _ (by rw [length_pairUp]; omega) _ rfl)
    · have hlen : (front ++ [last]).length = front.length + 1 := by simp
      exact odd front last h (ih _ (by rw [hlen, length_pairUp]; omega) _ rfl)

/-- **A path has one node for each one bit** of the number of leaves. -/
theorem length_pathOf (layer : List Digest) : (pathOf layer).length = onesCount layer.length := by
  induction layer using digit_induction with
  | nil =>
    rw [pathOf_nil, onesCount]
    rfl
  | even layer hne h ih =>
    have hpos := List.length_pos_iff.mpr hne
    have hhalf : (pairUp layer).length = layer.length / 2 := by
      rw [length_pairUp]
      omega
    rw [onesCount, dif_neg (by omega), ← pathOf_pairUp h, ih, hhalf]
    omega
  | odd front last h ih =>
    have hlen : (front ++ [last]).length = front.length + 1 := by simp
    have hhalf : (pairUp front).length = (front.length + 1) / 2 := length_pairUp front
    rw [onesCount, dif_neg (by omega), pathOf_concat_of_even h, List.length_cons,
      ← pathOf_pairUp h, ih, hhalf, hlen]
    omega

/-- A path with one node for each one bit of a size is long enough for one more node. -/
theorem exists_carry {size : Nat} {path : List Digest} (node : Digest)
    (h : path.length = onesCount size) : ∃ next, carry? size node path = some next := by
  induction path generalizing size node with
  | nil =>
    have heven : ¬ size % 2 = 1 := by
      intro hodd
      rw [onesCount, dif_neg (by omega), List.length_nil] at h
      omega
    exact ⟨[node], by rw [carry?, if_neg heven]⟩
  | cons left path ih =>
    by_cases hodd : size % 2 = 1
    · rw [onesCount, dif_neg (by omega), List.length_cons] at h
      have hrest : path.length = onesCount (size / 2) := by omega
      obtain ⟨next, hnext⟩ := ih (branchHash left node) hrest
      exact ⟨next, by rw [carry?, if_pos hodd, hnext]⟩
    · exact ⟨node :: left :: path, by rw [carry?, if_neg hodd]⟩

/-- **One more node carries through the path** of the nodes before it. -/
theorem carry?_pathOf (layer : List Digest) (node : Digest) :
    carry? layer.length node (pathOf layer) = some (pathOf (layer ++ [node])) := by
  induction layer using digit_induction generalizing node with
  | nil =>
    rw [pathOf_concat_of_even rfl]
    simp [carry?]
  | even layer _ h _ =>
    rw [pathOf_concat_of_even h]
    cases pathOf layer with
    | nil => simp [carry?, h]
    | cons left path => simp [carry?, h]
  | odd front last h ih =>
    have hlen : (front ++ [last]).length = front.length + 1 := by simp
    have hhalf : (front.length + 1) / 2 = (pairUp front).length := by
      rw [length_pairUp]
    rw [pathOf_concat_of_even h, hlen, carry?, if_pos (by omega), hhalf, ← pathOf_pairUp h, ih,
      pathOf_concat_two h]

/-- The root of a path with one more node below it. -/
def rootAbove (node : Digest) (path : List Digest) : Digest :=
  path.foldl (fun root left => branchHash left root) node

theorem layerRoot_concat (front : List Digest) (node : Digest) :
    layerRoot (front ++ [node]) = rootAbove node (pathOf front) := by
  induction front using digit_induction generalizing node with
  | nil => simp [rootAbove]
  | even front hne h ih =>
    have hpos := List.length_pos_iff.mpr hne
    rw [← layerRoot_pairUp (by simpa using hpos), pairUp_concat h, ih, pathOf_pairUp h]
  | odd front last h ih =>
    rw [← layerRoot_pairUp (by simp), pairUp_concat_two h, ih, pathOf_pairUp h,
      pathOf_concat_of_even h]
    rfl

theorem rootOfPath_concat (front : List Digest) (node : Digest) :
    rootOfPath (pathOf (front ++ [node])) = rootAbove node (pathOf front) := by
  induction front using digit_induction generalizing node with
  | nil => exact congrArg rootOfPath (pathOf_concat_of_even rfl node)
  | even front _ h _ =>
    rw [pathOf_concat_of_even h]
    rfl
  | odd front last h ih =>
    rw [pathOf_concat_two h, ih, pathOf_pairUp h, pathOf_concat_of_even h]
    rfl

/-- **The path of a layer has the root of the layer.** -/
theorem rootOfPath_pathOf (layer : List Digest) : rootOfPath (pathOf layer) = layerRoot layer := by
  rcases List.eq_nil_or_concat layer with rfl | ⟨front, node, rfl⟩
  · simp [rootOfPath]
  · rw [List.concat_eq_append, rootOfPath_concat, layerRoot_concat]

end ChainHub.Merkle

namespace ChainHub.Accumulator

open Merkle

/-! ## Accumulators -/

/-- The accumulator of a list of leaves. -/
def ofLeaves (leaves : List Bytes) : Accumulator where
  root := layerRoot (leaves.map leafHash)
  size := UInt64.ofNat leaves.length
  path := pathOf (leaves.map leafHash)

/-- The accumulator holds some list of leaves. -/
def Built (acc : Accumulator) : Prop :=
  ∃ leaves : List Bytes, leaves.length < UInt64.size ∧ acc = ofLeaves leaves

@[simp]
theorem ofLeaves_nil : ofLeaves [] = empty := by
  simp [ofLeaves, empty]

theorem size_ofLeaves {leaves : List Bytes} (h : leaves.length < UInt64.size) :
    (ofLeaves leaves).size.toNat = leaves.length :=
  UInt64.toNat_ofNat_of_lt' h

/-- **The root of an accumulator is that of the layered tree.** -/
theorem root_eq_root_ofLeaves (leaves : List Bytes) :
    (ofLeaves leaves).root = (Tree.ofLeaves leaves).root := rfl

theorem append?_ofLeaves {leaves : List Bytes} (h : leaves.length < UInt64.size) (data : Bytes) :
    (ofLeaves leaves).append? data =
      if leaves.length + 1 < UInt64.size then some (ofLeaves (leaves ++ [data])) else none := by
  have hcarry : carry? leaves.length (leafHash data) (pathOf (leaves.map leafHash)) =
      some (pathOf ((leaves ++ [data]).map leafHash)) := by
    have := carry?_pathOf (leaves.map leafHash) (leafHash data)
    rwa [List.length_map, ← List.map_singleton, ← List.map_append] at this
  have hsize : (ofLeaves leaves).size + 1 = UInt64.ofNat (leaves ++ [data]).length := by
    rw [List.length_append, List.length_singleton, UInt64.ofNat_add]
    rfl
  unfold append?
  rw [size_ofLeaves h, hsize]
  show (carry? _ _ (pathOf (leaves.map leafHash))).bind _ = _
  rw [hcarry, Option.bind_some, rootOfPath_pathOf]
  rfl

theorem appendAll?_ofLeaves :
    ∀ (more : List Bytes) {leaves : List Bytes}, leaves.length < UInt64.size →
      (ofLeaves leaves).appendAll? more =
        if (leaves ++ more).length < UInt64.size then some (ofLeaves (leaves ++ more)) else none
  | [], leaves, h => by
    rw [List.append_nil, if_pos h]
    rfl
  | data :: more, leaves, h => by
    show ((ofLeaves leaves).append? data).bind (fun acc => acc.appendAll? more) = _
    rw [append?_ofLeaves h]
    by_cases hone : leaves.length + 1 < UInt64.size
    · rw [if_pos hone, Option.bind_some, appendAll?_ofLeaves more (by simpa using hone),
        List.append_assoc, List.singleton_append]
    · rw [if_neg hone, if_neg (by rw [List.length_append, List.length_cons]; omega)]
      rfl

/-- **Appending leaves to nothing gives their accumulator**, unless there are too many. -/
theorem appendAll?_empty_eq_some_iff {leaves : List Bytes} {acc : Accumulator} :
    empty.appendAll? leaves = some acc ↔ leaves.length < UInt64.size ∧ acc = ofLeaves leaves := by
  rw [← ofLeaves_nil, appendAll?_ofLeaves leaves (by decide), List.nil_append]
  split
  · rename_i h
    simp [h, eq_comm]
  · rename_i h
    simp [h]

theorem built_empty : Built empty := ⟨[], by decide, ofLeaves_nil.symm⟩

theorem Built.append {acc next : Accumulator} {data : Bytes} (hacc : Built acc)
    (h : acc.append? data = some next) : Built next := by
  obtain ⟨leaves, hlen, rfl⟩ := hacc
  rw [append?_ofLeaves hlen] at h
  split at h
  · rename_i hone
    exact ⟨leaves ++ [data], by simpa using hone, (Option.some.inj h).symm⟩
  · cases h

/-- Only the size of an accumulator can stand in the way of one more leaf. -/
theorem Built.append_eq_none {acc : Accumulator} {data : Bytes} (hacc : Built acc)
    (h : acc.append? data = none) : acc.size.toNat + 1 = UInt64.size := by
  obtain ⟨leaves, hlen, rfl⟩ := hacc
  rw [append?_ofLeaves hlen] at h
  split at h
  · cases h
  · rw [size_ofLeaves hlen]
    omega

/-- One more leaf fits: the path is as long as the size asks for, and the size can grow. -/
structure HasRoom (acc : Accumulator) : Prop where
  path : acc.path.length = onesCount acc.size.toNat
  size : acc.size.toNat + 1 < UInt64.size

theorem HasRoom.exists_append {acc : Accumulator} (h : acc.HasRoom) (data : Bytes) :
    ∃ next, acc.append? data = some next := by
  obtain ⟨path, hpath⟩ := exists_carry (leafHash data) h.path
  refine ⟨⟨rootOfPath path, acc.size + 1, path⟩, ?_⟩
  unfold append?
  rw [hpath]
  exact if_pos h.size

/-- What holds a list of leaves has the path that it should have. -/
theorem Built.hasRoom {acc : Accumulator} (hacc : Built acc)
    (h : acc.size.toNat + 1 < UInt64.size) : acc.HasRoom := by
  obtain ⟨leaves, hlen, rfl⟩ := hacc
  refine ⟨?_, h⟩
  rw [size_ofLeaves hlen]
  exact (length_pathOf _).trans (congrArg onesCount (List.length_map ..))

theorem size_of_append {acc next : Accumulator} {data : Bytes}
    (h : acc.append? data = some next) : next.size.toNat = acc.size.toNat + 1 := by
  unfold append? at h
  cases hc : carry? acc.size.toNat (leafHash data) acc.path with
  | none => simp [hc] at h
  | some path =>
    simp only [hc, Option.bind_eq_bind, Option.bind_some] at h
    split at h
    · rename_i hlt
      cases h
      rw [UInt64.toNat_add]
      exact Nat.mod_eq_of_lt hlt
    · cases h

/-! ## Several leaves -/

theorem appendAll?_append (acc : Accumulator) (first more : List Bytes) :
    acc.appendAll? (first ++ more) =
      (acc.appendAll? first).bind fun next => next.appendAll? more := by
  unfold appendAll?
  rw [List.foldlM_append]
  rfl

theorem appendAll?_singleton {acc next : Accumulator} {data : Bytes}
    (h : acc.append? data = some next) : acc.appendAll? [data] = some next := by
  unfold appendAll?
  rw [List.foldlM_cons, h]
  rfl

theorem size_of_appendAll : ∀ {more : List Bytes} {acc next : Accumulator},
    acc.appendAll? more = some next → next.size.toNat = acc.size.toNat + more.length
  | [], acc, next, h => by
    cases h
    rfl
  | data :: more, acc, next, h => by
    obtain ⟨mid, hmid, hnext⟩ := Option.bind_eq_some_iff.mp h
    rw [size_of_appendAll hnext, size_of_append hmid, List.length_cons]
    omega

end ChainHub.Accumulator
