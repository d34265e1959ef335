import ChainHub.Merkle.Basic

/-!
# Proofs of several leaves

Model of `calculate_root_from_proof`.

`rootOfLeaves` computes the root of a tree from the hashes of some of its leaves and the siblings
that are needed beside them, bottom up and from left to right within a layer. It takes the siblings
in the order in which `Tree.prove` lists them.

The inner loop runs over an index into the layer and skips one entry when two known nodes are
neighbours; `climbLayer` is the recursion over the layer with a case for each of its branches.
-/

namespace ChainHub.Merkle

/-- One layer: the known nodes of a layer of `width` nodes, with their positions, give those of the
layer above. Returns the siblings that are left, too. -/
def climbLayer (width : Nat) : List (Nat × Digest) → List Digest →
    Except MerkleError (List (Nat × Digest) × List Digest)
  | [], siblings => .ok ([], siblings)
  | [(i, node)], siblings =>
    if i % 2 = 1 then
      match siblings with
      | [] => .error .missingSiblings
      | left :: siblings => .ok ([(i / 2, branchHash left node)], siblings)
    else if i + 1 < width then
      match siblings with
      | [] => .error .missingSiblings
      | right :: siblings => .ok ([(i / 2, branchHash node right)], siblings)
    else .ok ([(i / 2, node)], siblings)
  | (i, node) :: (j, next) :: rest, siblings =>
    if i % 2 = 1 then
      match siblings with
      | [] => .error .missingSiblings
      | left :: siblings => do
        let (above, siblings) ← climbLayer width ((j, next) :: rest) siblings
        return ((i / 2, branchHash left node) :: above, siblings)
    else if i + 1 < width then
      if j = i + 1 then do
        let (above, siblings) ← climbLayer width rest siblings
        return ((i / 2, branchHash node next) :: above, siblings)
      else
        match siblings with
        | [] => .error .missingSiblings
        | right :: siblings => do
          let (above, siblings) ← climbLayer width ((j, next) :: rest) siblings
          return ((i / 2, branchHash node right) :: above, siblings)
    else do
      let (above, siblings) ← climbLayer width ((j, next) :: rest) siblings
      return ((i / 2, node) :: above, siblings)

/-- All layers from one of `width` nodes up to the root. Returns the known nodes of the last layer
and the siblings that are left. The width of a layer plus one has to fit into 64 bits. -/
def climbLayers (width : Nat) (nodes : List (Nat × Digest)) (siblings : List Digest) :
    Attempt MerkleError (List (Nat × Digest) × List Digest) :=
  if _h : width ≤ 1 then .ok (nodes, siblings)
  else
    match climbLayer width nodes siblings with
    | .error e => .refuse e
    | .ok (nodes, siblings) =>
      if width + 1 < UInt64.size then climbLayers ((width + 1) / 2) nodes siblings else .abort
termination_by width
decreasing_by omega

/-- The root of a tree of `size` leaves, given the hashes of the leaves at `indexes`
(`calculate_root_from_proof`). -/
def rootOfLeaves (size : UInt64) (indexes : List UInt64) (leaves siblings : List Digest) :
    Attempt MerkleError Digest := do
  let positions := indexes.map UInt64.toNat
  Attempt.lift (checkIndexes size.toNat positions leaves.length)
  match ← climbLayers size.toNat (positions.zip leaves) siblings with
  | (nodes, []) =>
    match nodes with
    | (_, root) :: _ => return root
    | [] => .abort
  | (_, rest) => .refuse (.unusedSiblings rest.length)

end ChainHub.Merkle
