import ChainHub.Hash.Keccak

/-!
# Tree nodes

Model of `leaf_hash`, `branch_hash` and `EMPTY_HASH`.

Every tree hashes its leaves and its inner nodes with a different first byte, so a leaf can never
be taken for an inner node. What is hashed is kept as a definition of its own (`leafInput`,
`branchInput`): statements that hold unless two hashed strings collide name these strings.
-/

namespace ChainHub

/-- What is hashed for a leaf that holds `data`. -/
def leafInput (data : Bytes) : Bytes := 0x00 :: data

/-- What is hashed for an inner node with the given children. -/
def branchInput (left right : Digest) : Bytes := 0x01 :: (left.toList ++ right.toList)

/-- The hash of a leaf that holds `data` (`leaf_hash`). -/
def leafHash (data : Bytes) : Digest := keccak256 (leafInput data)

/-- The hash of an inner node with the given children (`branch_hash`). -/
def branchHash (left right : Digest) : Digest := keccak256 (branchInput left right)

/-- The root of a tree without leaves (`EMPTY_HASH`). -/
def emptyRoot : Digest := keccak256 []

theorem leafInput_injective {a b : Bytes} (h : leafInput a = leafInput b) : a = b :=
  List.cons.inj h |>.2

theorem branchInput_injective {a b c d : Digest} (h : branchInput a b = branchInput c d) :
    a = c ∧ b = d := by
  have hlist : a.toList ++ b.toList = c.toList ++ d.toList := (List.cons.inj h).2
  obtain ⟨h₁, h₂⟩ := List.append_inj hlist (by simp)
  exact ⟨FixedBytes.ext h₁, FixedBytes.ext h₂⟩

theorem leafInput_ne_branchInput (data : Bytes) (left right : Digest) :
    leafInput data ≠ branchInput left right := by
  simp [leafInput, branchInput]

end ChainHub
