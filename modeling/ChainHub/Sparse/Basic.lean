import ChainHub.Bitmap
import ChainHub.Hash.Node

/-!
# Sparse Merkle trees

Model of `state_key`, `smt_leaf_hash`, `smt_branch_hash`, `calculate_root`, `verify_inclusion` and
the builder `SparseMerkleTree`.

The state of a chain is a map from 32-byte keys to values. Its root is that of a binary tree with
256 levels in which the bits of a key, most significant first, lead from the root to its leaf. An
empty subtree counts as 32 zero bytes, and so does a branch over two of them.

A proof lists only the siblings that are not empty, bottom up. Bit `i` of its bitmap says whether
level `i`, counted from the leaf, has one; a proof without siblings may leave the bitmap out.

* `Sparse.Tree`: a tree by its leaves, with `root` and `prove`.
* `Sparse.rootOf`: the root that a proof leads to.
* `Sparse.includes`: whether it is the expected one.

Out of scope: `SparseMerkleTree` finds the two halves of a sorted array by `partition_point`. Here
`side` filters the leaves by their next bit, which does not depend on their order.
-/

namespace ChainHub.Sparse

/-- The number of levels (`SMT_DEPTH`). -/
def depth : Nat := 256

/-- The root of an empty subtree. -/
def emptySubtree : Digest := FixedBytes.zero 32

/-- Why a proof is refused (`SmtError`). -/
inductive SparseError
  | bitmapLength (got : Nat)
  | siblingLength (got : Nat)
  | missingSiblings
  | unusedSiblings (remaining : Nat)
deriving DecidableEq, Inhabited

/-- The wording of the error. -/
def SparseError.message : SparseError → String
  | .bitmapLength got => s!"Bitmap must be 0 or 32 bytes, got {got}"
  | .siblingLength got => s!"Sibling hash must be 32 bytes, got {got}"
  | .missingSiblings => "Bitmap references more siblings than provided"
  | .unusedSiblings remaining => s!"{remaining} sibling hashes left unused"

/-- A proof that a value is stored under a key (`SparseMerkleProof`). -/
structure Proof where
  /-- 32 bytes, or none when every sibling is empty. -/
  bitmap : Bytes
  /-- The siblings that are not empty, bottom up. -/
  siblings : List Bytes
deriving DecidableEq, Inhabited

/-- What is hashed for the key of a record. -/
def keyInput (module : String) (substore recordKey : Bytes) : Bytes :=
  module.toUTF8.data.toList ++ substore ++ recordKey

/-- The key under which a chain keeps a record of a module's substore (`state_key`). -/
def stateKey (module : String) (substore recordKey : Bytes) : Digest :=
  keccak256 (keyInput module substore recordKey)

/-- What is hashed for the leaf of a key. -/
def sparseLeafInput (key : Digest) (value : Bytes) : Bytes :=
  0x00 :: (key.toList ++ (keccak256 value).toList)

/-- The leaf of a key (`smt_leaf_hash`). -/
def sparseLeafHash (key : Digest) (value : Bytes) : Digest := keccak256 (sparseLeafInput key value)

/-- The branch over two subtrees (`smt_branch_hash`). -/
def sparseBranchHash (left right : Digest) : Digest :=
  if left = emptySubtree ∧ right = emptySubtree then emptySubtree else branchHash left right

/-- The branch over a node and its sibling; `right` says on which side the node is. -/
def branchBeside (right : Bool) (node sibling : Digest) : Digest :=
  if right then sparseBranchHash sibling node else sparseBranchHash node sibling

/-- The bits of a byte, most significant first. -/
def byteBits (b : UInt8) : List Bool := (List.range 8).map fun i => b.toNat.testBit (7 - i)

/-- The way from the root to the leaf of a key: `true` is right (`key_bit` at every depth). -/
def keyBits (key : Digest) : List Bool := key.toList.flatMap byteBits

/-! ## Proofs -/

/-- Goes up from a node, as the loop of `calculate_root` does. For each level it is known whether
the proof has a sibling for it and on which side of it the node is. Returns the siblings that are
left, too. -/
def climb : List (Bool × Bool) → List Bytes → Digest → Except SparseError (Digest × List Bytes)
  | [], siblings, node => .ok (node, siblings)
  | (present, right) :: levels, siblings, node =>
    if present then
      match siblings with
      | [] => .error .missingSiblings
      | raw :: siblings =>
        match FixedBytes.ofList? 32 raw with
        | none => .error (.siblingLength raw.length)
        | some sibling => climb levels siblings (branchBeside right node sibling)
    else climb levels siblings (branchBeside right node emptySubtree)

/-- The bits of a bitmap, from the leaf up; a bitmap that is left out has none set. -/
def bitmapBits (bitmap : Bytes) : Except SparseError (List Bool) :=
  if bitmap.length = 0 ∨ bitmap.length = 32 then .ok ((List.range depth).map (Bitmap.test bitmap))
  else .error (.bitmapLength bitmap.length)

/-- The root of a tree in which `value` is stored under `key`, according to a proof
(`calculate_root`). -/
def rootOf (key : Digest) (value : Bytes) (proof : Proof) : Except SparseError Digest := do
  let bits ← bitmapBits proof.bitmap
  let levels := bits.zip (keyBits key).reverse
  match ← climb levels proof.siblings (sparseLeafHash key value) with
  | (root, []) => return root
  | (_, rest) => throw (.unusedSiblings rest.length)

/-- Whether a proof shows that `value` is stored under `key` in the tree with the given root
(`verify_inclusion`). -/
def includes (root key : Digest) (value : Bytes) (proof : Proof) : Bool :=
  match rootOf key value proof with
  | .ok computed => computed = root
  | .error _ => false

/-! ## Trees -/

/-- Leaves with what is left of the way to them. -/
abbrev Leaves := List (List Bool × Digest)

/-- The leaves on one side, with the first step taken off their ways. -/
def side (right : Bool) (leaves : Leaves) : Leaves :=
  leaves.filterMap fun leaf =>
    match leaf.1 with
    | [] => none
    | b :: way => if b = right then some (way, leaf.2) else none

/-- The root of a subtree with the given number of levels (`subtree_root`). -/
def subtreeRoot : (levels : Nat) → Leaves → Digest
  | _, [] => emptySubtree
  | 0, (_, leaf) :: _ => leaf
  | levels + 1, leaves =>
    sparseBranchHash (subtreeRoot levels (side false leaves))
      (subtreeRoot levels (side true leaves))

/-- The siblings on the way to a leaf, top down. -/
def siblingsOnWay : List Bool → Leaves → List Digest
  | [], _ => []
  | b :: way, leaves =>
    subtreeRoot way.length (side (!b) leaves) :: siblingsOnWay way (side b leaves)

/-- A tree by its keys and leaves (`SparseMerkleTree`). -/
structure Tree where
  entries : Std.ExtTreeMap Digest Digest

namespace Tree

/-- The tree without entries. -/
def empty : Tree := ⟨∅⟩

/-- The tree with `value` stored under `key`. -/
def insert (tree : Tree) (key : Digest) (value : Bytes) : Tree :=
  ⟨tree.entries.insert key (sparseLeafHash key value)⟩

/-- The leaves with the ways to them. -/
def leaves (tree : Tree) : Leaves := tree.entries.toList.map fun e => (keyBits e.1, e.2)

/-- The root of the tree. -/
def root (tree : Tree) : Digest := subtreeRoot depth tree.leaves

/-- The proof for a key that is stored. -/
def prove (tree : Tree) (key : Digest) : Option Proof :=
  if tree.entries.contains key then
    let bottomUp := (siblingsOnWay (keyBits key) tree.leaves).reverse
    some {
      bitmap := Bitmap.ofBits 32 fun i => bottomUp.getD i emptySubtree != emptySubtree
      siblings := (bottomUp.filter (· != emptySubtree)).map (·.toList) }
  else none

end Tree

end ChainHub.Sparse
