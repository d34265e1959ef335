import ChainHub.Merkle.Basic
import ChainHub.Wire

/-!
# Accumulators

Model of `MerkleAccumulator` with its `append`, of `root_from_append_path` and of
`calculate_root_from_right_witness`.

An accumulator is what has to be kept of a Merkle tree to append further leaves: its size, its root
and its path, which holds the roots of the perfect subtrees that its leaves fall into, lowest first.
There is one such subtree for every one bit of the size.

* `Accumulator.append?`: one more leaf. Like adding one to the size, it carries through the trailing
  one bits.
* `rootOfPath`: the root that a path stands for.
* `rootOfRightWitness`: the root of a longer tree that begins with the leaves of a path.

The loop of `calculate_root_from_right_witness` is the recursion `climb`. It stops with an error at
position zero when only the path is left over, where the loop would not end; the length of the path,
which is checked before, rules that out.

The aborts of `append` (a path too short for the size, a size of 2⁶⁴) are the `none` of `append?`.
-/

namespace ChainHub

/-- The state of a tree to which leaves are appended (`MerkleAccumulator`). -/
structure Accumulator where
  root : Digest
  size : UInt64
  /-- The roots of the perfect subtrees, lowest first. -/
  path : List Digest
deriving DecidableEq

namespace Merkle

/-- The root of the tree that a path stands for (`root_from_append_path`). -/
def rootOfPath : List Digest → Digest
  | [] => emptyRoot
  | first :: rest => rest.foldl (fun root left => branchHash left root) first

/-- The path after a node has been put beside the subtrees of the trailing one bits of `size`, or
`none` if the path is too short for the size: the loop of `append`. -/
def carry? : (size : Nat) → (node : Digest) → List Digest → Option (List Digest)
  | size, node, [] => if size % 2 = 1 then none else some [node]
  | size, node, left :: path =>
    if size % 2 = 1 then carry? (size / 2) (branchHash left node) path
    else some (node :: left :: path)

/-- Goes up from the node behind the known leaves. An odd position takes its left sibling from the
path. An even one takes its right sibling from the witness, or is carried up once that is used
up. -/
def climb (mismatch : MerkleError) (position : Nat) (node : Digest) (path witness : List Digest) :
    Except MerkleError Digest :=
  if path.isEmpty && witness.isEmpty then .ok node
  else if position % 2 = 1 then
    match path with
    | [] => .error mismatch
    | left :: path => climb mismatch (position / 2) (branchHash left node) path witness
  else
    match witness with
    | right :: witness => climb mismatch (position / 2) (branchHash node right) path witness
    | [] =>
      if position = 0 then .error mismatch else climb mismatch (position / 2) node path []
termination_by position + witness.length
decreasing_by
  all_goals try simp only [List.length_cons, List.length_nil]
  all_goals omega

/-- The root of a tree whose first `size` leaves are summed up by `path` and whose other leaves are
covered by `witness` (`calculate_root_from_right_witness`). -/
def rootOfRightWitness (size : UInt64) (path witness : List Digest) : Except MerkleError Digest :=
  let n := size.toNat
  let mismatch := .pathMismatch (onesCount n) path.length
  if path.length ≠ onesCount n then .error mismatch
  else
    match witness with
    | [] => .ok (rootOfPath path)
    | first :: witness => climb mismatch (n >>> trailingZeros n) first path witness

end Merkle

namespace Accumulator

open Merkle

/-- The accumulator without leaves. -/
def empty : Accumulator := ⟨emptyRoot, 0, []⟩

instance : Inhabited Accumulator := ⟨empty⟩

/-- One more leaf (`append`). There is no result when the path is shorter than the size asks for, or
when the size would not fit into 64 bits. -/
def append? (acc : Accumulator) (data : Bytes) : Option Accumulator := do
  let path ← carry? acc.size.toNat (leafHash data) acc.path
  if acc.size.toNat + 1 < UInt64.size then some ⟨rootOfPath path, acc.size + 1, path⟩ else none

/-- Several more leaves. -/
def appendAll? (acc : Accumulator) (leaves : List Bytes) : Option Accumulator :=
  leaves.foldlM append? acc

instance : Wire Accumulator where
  encode acc := Wire.encode acc.root ++ Wire.encode acc.size ++ Wire.encode acc.path
  read := do
    let root ← Wire.read
    let size ← Wire.read
    let path ← Wire.read
    return { root, size, path }

end Accumulator

end ChainHub
