import ChainHub.Proofs.Merkle.Layers
import Mathlib.Data.Nat.BitIndices
import Mathlib.Data.Nat.Log
import Mathlib.Order.Bounds.Basic

/-!
# Trees split at powers of two

Pairing a layer up from the left joins nodes of the first 2 ^ k among themselves until a single one
is left of them. Only then does it join this one with what the nodes behind have become. So a tree
splits at the largest power of two below its number of leaves, and so does each half in turn. A
path splits there as well, at every one bit of the number of leaves.

* `layerRoot_append`, `pathOf_append`: the first 2 ^ k nodes of a layer keep to themselves.
* `splitRoot`: the root by recursion on the halves.
* `Tree.root_splits`: it is the root of the layered tree.
* `Parts`: leaves in perfect parts, one for each one bit of their number.
* `Accumulator.exists_sumsUp`: an accumulator holds the roots of the trees over these parts, and the
  root of the tree over all leaves.
-/

namespace ChainHub.Merkle

/-! ## The first nodes of a layer -/

theorem pairUp_of_le {layer : List Digest} (h : layer.length ≤ 1) : pairUp layer = layer := by
  match layer, h with
  | [], _ => rfl
  | [_], _ => rfl

/-- **The first 2 ^ k nodes of a layer become the left half of the tree** if no more nodes are
behind them. The induction is on `k`: one layer up, it is half as many nodes on the left. -/
theorem layerRoot_append {k : Nat} : ∀ {front back : List Digest}, front.length = 2 ^ k →
    back ≠ [] → back.length ≤ 2 ^ k →
    layerRoot (front ++ back) = branchHash (layerRoot front) (layerRoot back) := by
  induction k with
  | zero =>
    intro front back hfront hback hle
    obtain ⟨left, rfl⟩ := List.length_eq_one_iff.mp hfront
    obtain ⟨right, rfl⟩ :=
      List.length_eq_one_iff.mp (Nat.le_antisymm hle (List.length_pos_iff.mpr hback))
    rw [← layerRoot_pairUp (by simp)]
    simp [pairUp]
  | succ k ih =>
    intro front back hfront hback hle
    have hpow : 2 ^ (k + 1) = 2 * 2 ^ k := Nat.pow_succ'
    have hpos : 0 < 2 ^ k := Nat.two_pow_pos k
    have hback' : 0 < back.length := List.length_pos_iff.mpr hback
    have hup : layerRoot (pairUp back) = layerRoot back := by
      by_cases hone : back.length ≤ 1
      · rw [pairUp_of_le hone]
      · exact layerRoot_pairUp (by omega)
    rw [← layerRoot_pairUp (by rw [List.length_append]; omega), pairUp_append (by omega),
      ih (by rw [length_pairUp]; omega)
        (List.length_pos_iff.mp (by rw [length_pairUp]; omega)) (by rw [length_pairUp]; omega),
      layerRoot_pairUp (by omega), hup]

/-- **The first 2 ^ k nodes of a layer give the last entry of its path** if fewer nodes are behind
them. -/
theorem pathOf_append {k : Nat} : ∀ {front back : List Digest}, front.length = 2 ^ k →
    back.length < 2 ^ k → pathOf (front ++ back) = pathOf back ++ [layerRoot front] := by
  induction k with
  | zero =>
    intro front back hfront hlt
    obtain ⟨node, rfl⟩ := List.length_eq_one_iff.mp hfront
    obtain rfl := List.length_eq_zero_iff.mp (Nat.lt_one_iff.mp hlt)
    have hpath : pathOf ([] ++ [node]) = node :: pathOf [] := pathOf_concat_of_even rfl node
    rw [List.append_nil, layerRoot_singleton, pathOf_nil]
    rwa [pathOf_nil, List.nil_append] at hpath
  | succ k ih =>
    intro front back hfront hlt
    have hpow : 2 ^ (k + 1) = 2 * 2 ^ k := Nat.pow_succ'
    have hpos : 0 < 2 ^ k := Nat.two_pow_pos k
    have heven : ∀ {back : List Digest}, back.length % 2 = 0 → back.length < 2 ^ (k + 1) →
        pathOf (front ++ back) = pathOf back ++ [layerRoot front] := by
      intro back hback hlt
      rw [← pathOf_pairUp (by rw [List.length_append]; omega), pairUp_append (by omega),
        ih (by rw [length_pairUp]; omega) (by rw [length_pairUp]; omega), pathOf_pairUp hback,
        layerRoot_pairUp (by omega)]
    rcases even_or_concat back with h | ⟨rest, last, rfl, h⟩
    · exact heven h hlt
    · rw [List.length_append, List.length_singleton] at hlt
      rw [← List.append_assoc, pathOf_concat_of_even (by rw [List.length_append]; omega),
        pathOf_concat_of_even h, heven h (by omega), List.cons_append]

/-! ## Splitting -/

/-- The largest power of two below a number of leaves. -/
def splitSize (n : Nat) : Nat := 2 ^ Nat.log 2 (n - 1)

theorem isGreatest_splitSize {n : Nat} (h : 2 ≤ n) :
    IsGreatest {s | (∃ k, s = 2 ^ k) ∧ s < n} (splitSize n) := by
  constructor
  · have hle := Nat.pow_log_le_self 2 (show n - 1 ≠ 0 by omega)
    exact ⟨⟨_, rfl⟩, by unfold splitSize; omega⟩
  · rintro _ ⟨⟨k, rfl⟩, hlt⟩
    exact Nat.pow_le_pow_right (by omega) (Nat.le_log_of_pow_le (by omega) (by omega))

theorem splitSize_lt {n : Nat} (h : 2 ≤ n) : splitSize n < n := (isGreatest_splitSize h).1.2

theorem splitSize_pos (n : Nat) : 0 < splitSize n := Nat.two_pow_pos _

/-- There are at least as many leaves before the split as behind it. -/
theorem le_two_mul_splitSize (n : Nat) : n ≤ 2 * splitSize n := by
  have hlt := Nat.lt_pow_succ_log_self (show 1 < 2 by omega) (n - 1)
  rw [Nat.pow_succ'] at hlt
  unfold splitSize
  omega

/-- The root of a tree by recursion: the leaves are split at the largest power of two. -/
def splitRoot : List Bytes → Digest
  | [] => emptyRoot
  | [data] => leafHash data
  | first :: second :: rest =>
    let leaves := first :: second :: rest
    branchHash (splitRoot (leaves.take (splitSize leaves.length)))
      (splitRoot (leaves.drop (splitSize leaves.length)))
termination_by leaves => leaves.length
decreasing_by
  all_goals
    have hlt := splitSize_lt (show 2 ≤ (first :: second :: rest).length by simp)
    have hpos := splitSize_pos (first :: second :: rest).length
    simp only [List.length_take, List.length_drop]
    omega

theorem splitRoot_eq_branchHash {leaves : List Bytes} (h : 2 ≤ leaves.length) :
    splitRoot leaves = branchHash (splitRoot (leaves.take (splitSize leaves.length)))
      (splitRoot (leaves.drop (splitSize leaves.length))) := by
  match leaves, h with
  | first :: second :: rest, _ => rw [splitRoot]

namespace Tree

theorem root_eq_branchHash {leaves : List Bytes} (h : 2 ≤ leaves.length) :
    (ofLeaves leaves).root = branchHash (ofLeaves (leaves.take (splitSize leaves.length))).root
      (ofLeaves (leaves.drop (splitSize leaves.length))).root := by
  have hlt := splitSize_lt h
  have hle := le_two_mul_splitSize leaves.length
  have hfront : ((leaves.take (splitSize leaves.length)).map leafHash).length =
      splitSize leaves.length := by
    rw [List.length_map, List.length_take]
    omega
  have hback : ((leaves.drop (splitSize leaves.length)).map leafHash).length =
      leaves.length - splitSize leaves.length := by
    rw [List.length_map, List.length_drop]
  have happend := layerRoot_append hfront (List.length_pos_iff.mp (by omega))
    (hback.trans_le (show _ ≤ splitSize leaves.length by omega))
  rw [← List.map_append, List.take_append_drop] at happend
  exact happend

theorem root_eq_splitRoot (leaves : List Bytes) : (ofLeaves leaves).root = splitRoot leaves := by
  induction leaves using splitRoot.induct with
  | case1 =>
    rw [splitRoot]
    exact layerRoot_nil
  | case2 data =>
    rw [splitRoot]
    exact layerRoot_singleton _
  | case3 first second rest leaves ihfront ihback =>
    have h : 2 ≤ leaves.length := by simp [leaves]
    rw [root_eq_branchHash h, ihfront, ihback, splitRoot_eq_branchHash h]

/-- **Pairing layer by layer is splitting at the largest power of two.** A tree over two or more
leaves has the trees over the two portions as its halves, and what remains at the end is the hash of
a single leaf. -/
theorem root_splits (leaves : List Bytes) :
    (ofLeaves leaves).root = splitRoot leaves ∧
    (∀ data, leaves = [data] → (ofLeaves leaves).root = leafHash data) ∧
    (2 ≤ leaves.length →
      IsGreatest {s | (∃ k, s = 2 ^ k) ∧ s < leaves.length} (splitSize leaves.length) ∧
      (ofLeaves leaves).root =
        branchHash (ofLeaves (leaves.take (splitSize leaves.length))).root
          (ofLeaves (leaves.drop (splitSize leaves.length))).root) := by
  refine ⟨root_eq_splitRoot leaves, ?_, fun h => ⟨isGreatest_splitSize h, root_eq_branchHash h⟩⟩
  rintro data rfl
  exact layerRoot_singleton _

end Tree

/-! ## Perfect parts -/

/-- The leaves fall into perfect parts, the last part first: one for each one bit of their number,
lowest first, and as many leaves in it as the bit counts for. -/
structure Parts (leaves : List Bytes) (parts : List (List Bytes)) : Prop where
  flatten : parts.reverse.flatten = leaves
  lengths : parts.map List.length = leaves.length.bitIndices.map (2 ^ ·)

/-- A number with one more bit above all others. -/
theorem bitIndices_two_pow_add {k m : Nat} (h : m < 2 ^ k) :
    (2 ^ k + m).bitIndices = m.bitIndices ++ [k] := by
  have hbelow : ∀ i ∈ m.bitIndices, i < k := fun i hi =>
    (Nat.pow_lt_pow_iff_right (by omega)).mp ((Nat.two_pow_le_of_mem_bitIndices hi).trans_lt h)
  have hsorted : (m.bitIndices ++ [k]).SortedLT := by
    rw [List.sortedLT_iff_pairwise, List.pairwise_append]
    refine ⟨Nat.bitIndices_sorted.pairwise, List.pairwise_singleton _ _, fun i hi j hj => ?_⟩
    rw [List.mem_singleton.mp hj]
    exact hbelow i hi
  have hsum := Nat.bitIndices_sum_map_two_pow hsorted
  rwa [List.map_append, List.sum_append, Nat.sum_map_two_pow_bitIndices, List.map_singleton,
    List.sum_singleton, Nat.add_comm] at hsum

theorem Parts.append {front back : List Bytes} {parts : List (List Bytes)} {k : Nat}
    (h : Parts back parts) (hfront : front.length = 2 ^ k) (hback : back.length < 2 ^ k) :
    Parts (front ++ back) (parts ++ [front]) where
  flatten := by
    rw [List.reverse_append, List.reverse_singleton, List.flatten_append, h.flatten,
      List.flatten_singleton]
  lengths := by
    rw [List.map_append, h.lengths, List.length_append, hfront, bitIndices_two_pow_add hback,
      List.map_append, List.map_singleton, List.map_singleton, hfront]

/-- The highest one bit of the number of leaves stands for the first part. -/
theorem exists_append_of_ne_nil {leaves : List Bytes} (h : leaves ≠ []) :
    ∃ k front back, leaves = front ++ back ∧ front.length = 2 ^ k ∧ back.length < 2 ^ k := by
  have hle := Nat.pow_log_le_self 2 (List.length_pos_iff.mpr h).ne'
  have hlt := Nat.lt_pow_succ_log_self (show 1 < 2 by omega) leaves.length
  rw [Nat.pow_succ'] at hlt
  refine ⟨Nat.log 2 leaves.length, leaves.take (2 ^ Nat.log 2 leaves.length),
    leaves.drop (2 ^ Nat.log 2 leaves.length), (List.take_append_drop _ _).symm, ?_, ?_⟩
  · rw [List.length_take]
    omega
  · rw [List.length_drop]
    omega

/-- **The path of some leaves holds the roots of the trees over their perfect parts.** -/
theorem exists_parts (leaves : List Bytes) :
    ∃ parts, Parts leaves parts ∧
      pathOf (leaves.map leafHash) = parts.map fun part => (Tree.ofLeaves part).root := by
  induction hn : leaves.length using Nat.strongRecOn generalizing leaves with
  | ind n ih =>
    subst hn
    by_cases hnil : leaves = []
    · subst hnil
      exact ⟨[], ⟨rfl, by simp⟩, by simp⟩
    · obtain ⟨k, front, back, rfl, hfront, hback⟩ := exists_append_of_ne_nil hnil
      have hpos : 0 < 2 ^ k := Nat.two_pow_pos k
      obtain ⟨parts, hparts, hpath⟩ := ih _ (by rw [List.length_append]; omega) back rfl
      refine ⟨parts ++ [front], hparts.append hfront hback, ?_⟩
      rw [List.map_append, pathOf_append ((List.length_map leafHash).trans hfront)
        ((List.length_map leafHash).trans_lt hback), hpath, List.map_append]
      rfl

end ChainHub.Merkle

namespace ChainHub.Accumulator

open Merkle

/-- What an accumulator holds of its leaves. -/
structure SumsUp (acc : Accumulator) (leaves : List Bytes) : Prop where
  size : acc.size.toNat = leaves.length
  path : ∃ parts, Parts leaves parts ∧ acc.path = parts.map fun part => (Tree.ofLeaves part).root
  root : acc.root = (Tree.ofLeaves leaves).root
  root_path : acc.root = rootOfPath acc.path
  root_nil : leaves = [] → acc.root = emptyRoot

theorem sumsUp_ofLeaves {leaves : List Bytes} (h : leaves.length < UInt64.size) :
    (ofLeaves leaves).SumsUp leaves where
  size := size_ofLeaves h
  path := exists_parts leaves
  root := rfl
  root_path := (rootOfPath_pathOf _).symm
  root_nil := by
    rintro rfl
    exact layerRoot_nil

/-- **Leaf by leaf an accumulator comes to the root of the layered tree.** No path is ever too
short, and the last leaf is appended to what sums up those before it. -/
theorem exists_sumsUp {leaves : List Bytes} (h : leaves.length < UInt64.size) :
    ∃ acc, empty.appendAll? leaves = some acc ∧ acc.SumsUp leaves ∧
      ∀ first last, leaves = first ++ [last] →
        ∃ before, empty.appendAll? first = some before ∧ before.append? last = some acc := by
  refine ⟨ofLeaves leaves, appendAll?_empty_eq_some_iff.mpr ⟨h, rfl⟩, sumsUp_ofLeaves h, ?_⟩
  rintro first last rfl
  rw [List.length_append, List.length_singleton] at h
  have hfirst : first.length < UInt64.size := by omega
  refine ⟨ofLeaves first, appendAll?_empty_eq_some_iff.mpr ⟨hfirst, rfl⟩, ?_⟩
  rw [append?_ofLeaves hfirst, if_pos h]

/-- Seven leaves, in parts of one, two and four. -/
theorem exists_sumsUp_seven :
    ([[0], [1], [2], [3], [4], [5], [6]] : List Bytes).length < UInt64.size ∧
      ∃ acc, empty.appendAll? [[0], [1], [2], [3], [4], [5], [6]] = some acc ∧
        acc.SumsUp [[0], [1], [2], [3], [4], [5], [6]] := by
  have h : ([[0], [1], [2], [3], [4], [5], [6]] : List Bytes).length < UInt64.size := by decide
  obtain ⟨acc, hacc, hsum, -⟩ := exists_sumsUp h
  exact ⟨h, acc, hacc, hsum⟩

end ChainHub.Accumulator
