import ChainHub.Failure
import ChainHub.Hash.Node

/-!
# Merkle trees of messages

Model of the builder `MerkleTree` (`new`, `size`, `root`, `right_witness`, `prove`) and of
`check_indexes` and `MerkleError`, which it shares with the checks of proofs.

The leaves of a tree are paired from the left, layer by layer; a last node without a partner is
carried up unchanged. The same shape arises by splitting at the largest power of two below the
number of leaves.

* `Merkle.Tree`: all layers of a tree, bottom up.
* `Tree.rightWitness`: what extends a known beginning of the leaves to the root.
* `Tree.prove`: the siblings that lead from some of the leaves to the root.

Out of scope: sizes and positions of a tree that is built in memory have no bound here.
-/

namespace ChainHub.Merkle

/-- Why a proof is refused (`MerkleError`). -/
inductive MerkleError
  | emptyProof
  | countMismatch (indexes leaves : Nat)
  | notAscending
  | outOfRange (index size : Nat)
  | missingSiblings
  | unusedSiblings (remaining : Nat)
  | pathMismatch (expected got : Nat)
deriving DecidableEq, Inhabited

/-- The wording of the error. -/
def MerkleError.message : MerkleError → String
  | .emptyProof => "Proof must cover at least one leaf"
  | .countMismatch indexes leaves => s!"Got {indexes} indexes for {leaves} leaves"
  | .notAscending => "Indexes must be strictly ascending"
  | .outOfRange index size => s!"Index {index} out of range for tree of size {size}"
  | .missingSiblings => "Not enough sibling hashes"
  | .unusedSiblings remaining => s!"{remaining} sibling hashes left unused"
  | .pathMismatch expected got =>
    s!"Append path has {got} entries, size requires {expected}"

/-- The number of one bits of a number (`count_ones`). -/
def onesCount (n : Nat) : Nat := if _h : n = 0 then 0 else n % 2 + onesCount (n / 2)
termination_by n
decreasing_by omega

/-- The number of zero bits below the lowest one bit (`trailing_zeros`); none for zero. -/
def trailingZeros (n : Nat) : Nat :=
  if _h : n = 0 then 0 else if n % 2 = 1 then 0 else trailingZeros (n / 2) + 1
termination_by n
decreasing_by omega

/-- Whether every number is below the next one. -/
def isAscending : List Nat → Bool
  | a :: b :: rest => a < b && isAscending (b :: rest)
  | _ => true

/-- Checks the positions of a proof against the number of leaf hashes and the size of the tree
(`check_indexes`). -/
def checkIndexes (size : Nat) (indexes : List Nat) (leaves : Nat) : Except MerkleError Unit := do
  match indexes.getLast? with
  | none => throw .emptyProof
  | some last =>
    if indexes.length ≠ leaves then throw (.countMismatch indexes.length leaves)
    unless isAscending indexes do throw .notAscending
    if size ≤ last then throw (.outOfRange last size)

/-- The layer above: neighbours are paired from the left. -/
def pairUp : List Digest → List Digest
  | left :: right :: rest => branchHash left right :: pairUp rest
  | rest => rest

theorem length_pairUp : ∀ layer : List Digest, (pairUp layer).length = (layer.length + 1) / 2
  | [] => rfl
  | [_] => by simp [pairUp]
  | _ :: _ :: rest => by
    have ih := length_pairUp rest
    simp only [pairUp, List.length_cons, ih]
    omega

/-- A layer and all layers above it, up to the one with at most one node. -/
def layersFrom (layer : List Digest) : List (List Digest) :=
  if _h : layer.length ≤ 1 then [layer] else layer :: layersFrom (pairUp layer)
termination_by layer.length
decreasing_by
  rw [length_pairUp]
  omega

/-- A tree with all its layers, the leaf hashes first (`MerkleTree`). -/
structure Tree where
  layers : List (List Digest)
deriving DecidableEq, Inhabited

namespace Tree

/-- The tree over the given leaves (`new`). -/
def ofLeaves (leaves : List Bytes) : Tree := ⟨layersFrom (leaves.map leafHash)⟩

/-- The number of leaves. -/
def size (tree : Tree) : Nat := (tree.layers.headD []).length

/-- The root; a tree without leaves has a root of its own. -/
def root (tree : Tree) : Digest := ((tree.layers.getLastD []).head?).getD emptyRoot

/-- The right siblings on the way up from the node at `position` of the first layer. -/
def rightSiblings : List (List Digest) → (position : Nat) → List Digest
  | [], _ => []
  | layer :: above, position =>
    if layer.length ≤ 1 then []
    else
      let sibling := if position % 2 = 0 then layer[position + 1]?.toList else []
      sibling ++ rightSiblings above (position / 2)

/-- What extends the first `size` leaves to the root of the tree: the node to the right of the
smallest perfect subtree among them, and the right siblings on its way up (`right_witness`). -/
def rightWitness (tree : Tree) (size : Nat) : List Digest :=
  if tree.size ≤ size then []
  else if size = 0 then [tree.root]
  else
    let height := trailingZeros size
    let position := size >>> height
    let layers := tree.layers.drop height
    (layers.headD [])[position]?.toList ++ rightSiblings layers position

/-- One layer of a proof: the siblings that the known positions need, and the known positions of the
layer above. -/
def siblings (layer : List Digest) : List Nat → List Digest × List Nat
  | [] => ([], [])
  | [i] =>
    if i % 2 = 1 then (layer[i - 1]?.toList, [i / 2]) else (layer[i + 1]?.toList, [i / 2])
  | i :: j :: rest =>
    if i % 2 = 1 then
      let (s, above) := siblings layer (j :: rest)
      (layer[i - 1]?.toList ++ s, i / 2 :: above)
    else if j = i + 1 then
      let (s, above) := siblings layer rest
      (s, i / 2 :: above)
    else
      let (s, above) := siblings layer (j :: rest)
      (layer[i + 1]?.toList ++ s, i / 2 :: above)

/-- The siblings of all layers. -/
def allSiblings : List (List Digest) → List Nat → List Digest
  | [], _ => []
  | layer :: above, known =>
    let (s, known) := siblings layer known
    s ++ allSiblings above known

/-- The siblings that prove the leaves at the given positions, bottom up and from left to right
within a layer (`prove`). -/
def prove (tree : Tree) (indexes : List Nat) : Except MerkleError (List Digest) := do
  checkIndexes tree.size indexes indexes.length
  return allSiblings tree.layers.dropLast indexes

end Tree

end ChainHub.Merkle
