import ChainHub.Proofs.Bitmap
import ChainHub.Sparse.Basic
import Mathlib.Data.List.Zip

/-!
# Proofs of a sparse tree lead to its root

A sparse tree lists the siblings on the way to a key and leaves out the empty ones
(`Sparse.Tree.prove`); the check puts them back where the bitmap has no bit and goes up from the
leaf (`Sparse.climb`). The two meet at the root of the tree.

* `rootAlong`: the root that siblings on the way to a leaf lead to.
* `rootAlong_siblingsOnWay`: those of a tree lead to its root.
* `climb_present`: putting the empty siblings back undoes leaving them out.
* `Tree.Holds`, `Tree.Holds.rootOf_prove`: the proof of a value that a tree holds leads to the root
  of the tree.

Leaves may have any hash, the one of an empty subtree included: it is then left out and put back
like the others.
-/

namespace ChainHub.Sparse

/-! ## Ways -/

@[simp]
theorem length_byteBits (b : UInt8) : (byteBits b).length = 8 := by
  simp [byteBits]

theorem byteBits_injective {a b : UInt8} (h : byteBits a = byteBits b) : a = b := by
  have hbits : ∀ i < 8, a.toNat.testBit (7 - i) = b.toNat.testBit (7 - i) := by
    intro i hi
    have hget := congrArg (·[i]?) h
    simpa [byteBits, hi] using hget
  apply UInt8.toNat_inj.mp
  apply Nat.eq_of_testBit_eq
  intro i
  by_cases hi : i < 8
  · have hflip : 7 - (7 - i) = i := by omega
    have := hbits (7 - i) (by omega)
    rwa [hflip] at this
  · have hle : 2 ^ 8 ≤ 2 ^ i := Nat.pow_le_pow_right (by decide) (by omega)
    rw [Nat.testBit_lt_two_pow (Nat.lt_of_lt_of_le a.toNat_lt hle),
      Nat.testBit_lt_two_pow (Nat.lt_of_lt_of_le b.toNat_lt hle)]

theorem length_flatMap_byteBits (bytes : Bytes) :
    (bytes.flatMap byteBits).length = 8 * bytes.length := by
  induction bytes with
  | nil => rfl
  | cons b bytes ih =>
    rw [List.flatMap_cons, List.length_append, length_byteBits, ih, List.length_cons]
    omega

theorem flatMap_byteBits_injective : ∀ {bytes other : Bytes}, bytes.length = other.length →
    bytes.flatMap byteBits = other.flatMap byteBits → bytes = other
  | [], [], _, _ => rfl
  | a :: bytes, b :: other, hlen, h => by
    obtain ⟨hhead, htail⟩ := List.append_inj h (by simp)
    rw [byteBits_injective hhead, flatMap_byteBits_injective (Nat.succ.inj hlen) htail]

@[simp]
theorem length_keyBits (key : Digest) : (keyBits key).length = depth := by
  unfold keyBits
  rw [length_flatMap_byteBits, key.length_toList]
  rfl

/-- Different keys have different ways. -/
theorem keyBits_injective {key other : Digest} (h : keyBits key = keyBits other) : key = other :=
  FixedBytes.ext (flatMap_byteBits_injective (by simp) h)

/-! ## Up along a way -/

theorem mem_side {right : Bool} {way : List Bool} {hash : Digest} {leaves : Leaves} :
    (way, hash) ∈ side right leaves ↔ (right :: way, hash) ∈ leaves := by
  unfold side
  rw [List.mem_filterMap]
  constructor
  · rintro ⟨⟨_ | ⟨b, rest⟩, leaf⟩, hmem, h⟩
    · cases h
    · by_cases hb : b = right
      · subst hb
        cases h.symm.trans (if_pos rfl)
        exact hmem
      · cases h.symm.trans (if_neg hb)
  · intro hmem
    exact ⟨_, hmem, if_pos rfl⟩

/-- The root that siblings on the way to a leaf lead to, both top down. -/
def rootAlong (leaf : Digest) (way : List Bool) (siblings : List Digest) : Digest :=
  (siblings.zip way).foldr (fun step node => branchBeside step.2 node step.1) leaf

/-- The same, both bottom up. -/
theorem rootAlong_eq_foldl {leaf : Digest} {way : List Bool} {siblings : List Digest}
    (h : siblings.length = way.length) :
    rootAlong leaf way siblings =
      (siblings.reverse.zip way.reverse).foldl
        (fun node step => branchBeside step.2 node step.1) leaf := by
  unfold rootAlong
  rw [← List.foldl_reverse, List.zip, List.reverse_zipWith h]

theorem rootAlong_cons (leaf : Digest) (b : Bool) (way : List Bool) (sibling : Digest)
    (siblings : List Digest) :
    rootAlong leaf (b :: way) (sibling :: siblings) =
      branchBeside b (rootAlong leaf way siblings) sibling := rfl

theorem length_siblingsOnWay : ∀ (way : List Bool) (leaves : Leaves),
    (siblingsOnWay way leaves).length = way.length
  | [], _ => rfl
  | b :: way, leaves => by
    rw [siblingsOnWay, List.length_cons, List.length_cons, length_siblingsOnWay way]

theorem subtreeRoot_succ {levels : Nat} {leaves : Leaves} (h : leaves ≠ []) (b : Bool) :
    subtreeRoot (levels + 1) leaves =
      branchBeside b (subtreeRoot levels (side b leaves))
        (subtreeRoot levels (side (!b) leaves)) := by
  cases leaves with
  | nil => exact absurd rfl h
  | cons leaf leaves => cases b <;> rfl

/-- **The siblings on the way to a leaf lead to the root**, if the way leads to that leaf only and
no leaf is above its end. -/
theorem rootAlong_siblingsOnWay {leaf : Digest} : ∀ {way : List Bool} {leaves : Leaves},
    (way, leaf) ∈ leaves → (∀ other ∈ leaves, other.1.length = way.length) →
    (∀ hash, (way, hash) ∈ leaves → hash = leaf) →
    rootAlong leaf way (siblingsOnWay way leaves) = subtreeRoot way.length leaves
  | [], [], hmem, _, _ => by cases hmem
  | [], (first, hash) :: rest, _, hlen, honly => by
    have hfirst : first = [] := List.length_eq_zero_iff.mp (hlen _ List.mem_cons_self)
    subst hfirst
    exact (honly hash List.mem_cons_self).symm
  | b :: way, leaves, hmem, hlen, honly => by
    have ih := rootAlong_siblingsOnWay (mem_side.mpr hmem)
      (fun other hother => Nat.succ.inj (hlen _ (mem_side.mp hother)))
      (fun hash hhash => honly hash (mem_side.mp hhash))
    rw [siblingsOnWay, rootAlong_cons, ih, List.length_cons,
      subtreeRoot_succ (List.ne_nil_of_mem hmem) b]

/-! ## Leaving empty siblings out -/

/-- The siblings that a proof lists. -/
def present (siblings : List Digest) : List Bytes :=
  (siblings.filter (· != emptySubtree)).map (·.toList)

theorem present_cons_empty (siblings : List Digest) :
    present (emptySubtree :: siblings) = present siblings := by
  unfold present
  rw [List.filter_cons_of_neg (by simp)]

theorem present_cons_of_ne {sibling : Digest} (h : sibling ≠ emptySubtree)
    (siblings : List Digest) :
    present (sibling :: siblings) = sibling.toList :: present siblings := by
  unfold present
  rw [List.filter_cons_of_pos (by simpa using h), List.map_cons]

section Climb

variable {right : Bool} {levels : List (Bool × Bool)} {siblings : List Bytes} {node : Digest}

theorem climb_absent :
    climb ((false, right) :: levels) siblings node =
      climb levels siblings (branchBeside right node emptySubtree) := by
  rw [climb.eq_def]
  rfl

theorem climb_sibling (sibling : Digest) :
    climb ((true, right) :: levels) (sibling.toList :: siblings) node =
      climb levels siblings (branchBeside right node sibling) := by
  rw [climb.eq_def]
  simp only [FixedBytes.ofList?_toList, if_true]

end Climb

/-- **Putting the empty siblings back undoes leaving them out.** -/
theorem climb_present : ∀ (siblings : List Digest) (way : List Bool) (node : Digest),
    siblings.length = way.length →
    climb ((siblings.map (· != emptySubtree)).zip way) (present siblings) node =
      .ok ((siblings.zip way).foldl (fun node step => branchBeside step.2 node step.1) node, [])
  | [], [], _, _ => rfl
  | sibling :: siblings, right :: way, node, h => by
    have ih := fun node => climb_present siblings way node (Nat.succ.inj h)
    rw [List.map_cons, List.zip_cons_cons, List.zip_cons_cons, List.foldl_cons]
    by_cases hempty : sibling = emptySubtree
    · subst hempty
      rw [bne_self_eq_false, present_cons_empty, climb_absent, ih]
    · rw [bne_iff_ne.mpr hempty, present_cons_of_ne hempty, climb_sibling, ih]

/-- The bits of the bitmap say which siblings are not empty. -/
theorem bitmapBits_ofBits {siblings : List Digest} (h : siblings.length = depth) :
    bitmapBits (Bitmap.ofBits 32 fun i => siblings.getD i emptySubtree != emptySubtree) =
      .ok (siblings.map (· != emptySubtree)) := by
  rw [bitmapBits, if_pos (Or.inr (Bitmap.length_ofBits _ _))]
  congr 1
  apply List.ext_getElem
  · simp [h]
  · intro i hi hi'
    have hlt : i < siblings.length := by simpa using hi'
    have hdepth : i < 8 * 32 := by
      rw [h] at hlt
      exact hlt
    simp [Bitmap.test_ofBits hdepth, hlt]

namespace Tree

/-- The tree has the value under the key; a tree keeps only the leaf hash of a value. -/
structure Holds (tree : Tree) (key : Digest) (value : Bytes) : Prop where
  entry : tree.entries[key]? = some (sparseLeafHash key value)

theorem holds_insert (tree : Tree) (key : Digest) (value : Bytes) :
    (tree.insert key value).Holds key value :=
  ⟨Std.ExtTreeMap.getElem?_insert_self⟩

theorem Holds.insert {tree : Tree} {key other : Digest} {value : Bytes} (h : tree.Holds key value)
    (hne : other ≠ key) (stored : Bytes) : (tree.insert other stored).Holds key value := by
  refine ⟨?_⟩
  unfold Tree.insert
  rw [Std.ExtTreeMap.getElem?_insert, if_neg (by simpa using hne)]
  exact h.entry

theorem mem_leaves {tree : Tree} {key hash : Digest} :
    (keyBits key, hash) ∈ tree.leaves ↔ tree.entries[key]? = some hash := by
  unfold leaves
  rw [List.mem_map]
  constructor
  · rintro ⟨⟨other, hash'⟩, hmem, heq⟩
    obtain ⟨hway, rfl⟩ := Prod.mk.inj heq
    rw [← keyBits_injective hway]
    exact Std.ExtTreeMap.mem_toList_iff_getElem?_eq_some.mp hmem
  · intro h
    exact ⟨(key, hash), Std.ExtTreeMap.mem_toList_iff_getElem?_eq_some.mpr h, rfl⟩

theorem length_of_mem_leaves {tree : Tree} {leaf : List Bool × Digest} (h : leaf ∈ tree.leaves) :
    leaf.1.length = depth := by
  obtain ⟨entry, -, rfl⟩ := List.mem_map.mp h
  exact length_keyBits entry.1

/-- **The proof of a key leads to the root of the tree**, from the leaf that is stored under it. -/
theorem Holds.rootOf_prove {tree : Tree} {key : Digest} {value : Bytes} (h : tree.Holds key value) :
    ∃ proof, tree.prove key = some proof ∧ rootOf key value proof = .ok tree.root := by
  have hkey : tree.entries.contains key = true := by
    rw [Std.ExtTreeMap.contains_eq_isSome_getElem?, h.entry]
    rfl
  have hlen := length_siblingsOnWay (keyBits key) tree.leaves
  have hroot := rootAlong_siblingsOnWay (mem_leaves.mpr h.entry)
    (fun other hother => (length_of_mem_leaves hother).trans (length_keyBits key).symm)
    (fun hash hhash => Option.some.inj ((mem_leaves.mp hhash).symm.trans h.entry))
  rw [rootAlong_eq_foldl hlen, length_keyBits] at hroot
  have hdepth : (siblingsOnWay (keyBits key) tree.leaves).reverse.length = depth := by
    rw [List.length_reverse, hlen, length_keyBits]
  have hbits := bitmapBits_ofBits hdepth
  have hclimb := climb_present (siblingsOnWay (keyBits key) tree.leaves).reverse
    (keyBits key).reverse (sparseLeafHash key value)
    (by rw [List.length_reverse, List.length_reverse, hlen])
  refine ⟨_, if_pos hkey, ?_⟩
  unfold rootOf
  rw [hbits]
  show (climb _ (present _) _ >>= _) = _
  rw [hclimb, hroot]
  rfl

theorem Holds.includes_prove {tree : Tree} {key : Digest} {value : Bytes}
    (h : tree.Holds key value) :
    ∃ proof, tree.prove key = some proof ∧ includes tree.root key value proof = true := by
  obtain ⟨proof, hprove, hroot⟩ := h.rootOf_prove
  refine ⟨proof, hprove, ?_⟩
  unfold includes
  rw [hroot]
  exact decide_eq_true rfl

end Tree

end ChainHub.Sparse
