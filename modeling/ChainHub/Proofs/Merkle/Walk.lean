import ChainHub.Proofs.Merkle.RightWitness
import Mathlib.Data.Nat.Bitwise

/-!
# The walk from a right witness ends and uses up everything

From the node behind the known leaves `rootOfRightWitness` walks up round by round, as long as there
is something left of the path or of the witness. What a round does hangs on the lowest bit of a
position that is halved each time. Nothing is gained in a round that only carries the node up, so
that the walk ends at all rests on the path: it has one node for each one bit of the position.

* `Rounds`: the rounds of a walk until path and witness are used up. A walk that went on for ever,
  or came to an odd position without a path, would have none.
* `Rounds.unique`, `Rounds.lefts_eq`, `Rounds.rights_eq`: there is one way to walk, and it takes the
  nodes of the path on the left and those of the witness on the right, in order.
* `exists_rounds`: a walk whose path fits its position ends after a bounded number of rounds.
* `rootOfRightWitness_walks`: when a witness is refused, and what is computed from it otherwise.
-/

namespace ChainHub.Merkle

/-! ## One bits -/

theorem onesCount_zero : onesCount 0 = 0 := by
  rw [onesCount, dif_pos rfl]

theorem onesCount_eq (n : Nat) : onesCount n = n % 2 + onesCount (n / 2) := by
  by_cases h : n = 0
  · rw [h, onesCount_zero]
  · conv_lhs => rw [onesCount, dif_neg h]

/-- The one bits are counted bit by bit. -/
theorem onesCount_eq_countP {bits n : Nat} (h : n < 2 ^ bits) :
    onesCount n = (List.range bits).countP n.testBit := by
  induction bits generalizing n with
  | zero =>
    obtain rfl : n = 0 := by simpa using h
    rw [onesCount_zero, List.range_zero, List.countP_nil]
  | succ bits ih =>
    have hhalf : n / 2 < 2 ^ bits := by
      rw [Nat.pow_succ] at h
      omega
    have hshift : n.testBit ∘ Nat.succ = (n / 2).testBit := funext fun i => Nat.testBit_succ n i
    rw [onesCount_eq, ih hhalf, List.range_succ_eq_map, List.countP_cons, List.countP_map, hshift,
      Nat.testBit_zero, Nat.add_comm]
    congr 1
    rcases Nat.mod_two_eq_zero_or_one n with hbit | hbit <;> simp [hbit]

/-- The position behind the known leaves has the one bits of their number. -/
theorem onesCount_shiftRight_trailingZeros (n : Nat) :
    onesCount (n >>> trailingZeros n) = onesCount n := by
  induction n using Nat.strongRecOn with
  | ind n ih =>
    by_cases hodd : n % 2 = 1
    · rw [Tree.shiftRight_trailingZeros_of_odd hodd]
    · by_cases hpos : 0 < n
      · rw [Tree.shiftRight_trailingZeros_of_even hpos (by omega), ih (n / 2) (by omega),
          onesCount_eq n, show n % 2 = 0 by omega, Nat.zero_add]
      · obtain rfl : n = 0 := by omega
        rw [Nat.zero_shiftRight]

/-! ## Rounds -/

/-- What one round of a walk does. -/
inductive Round
  /-- The node gets a left sibling from the path. -/
  | left (sibling : Digest)
  /-- The node gets a right sibling from the witness. -/
  | right (sibling : Digest)
  /-- The node is carried up. -/
  | carry

namespace Round

/-- The node after a round. -/
def above (node : Digest) : Round → Digest
  | left sibling => branchHash sibling node
  | right sibling => branchHash node sibling
  | carry => node

/-- What a round takes from the path. -/
def left? : Round → Option Digest
  | left sibling => some sibling
  | _ => none

/-- What a round takes from the witness. -/
def right? : Round → Option Digest
  | right sibling => some sibling
  | _ => none

end Round

/-- The rounds of a walk from a position on, until both path and witness are used up. -/
inductive Rounds : (position : Nat) → (path witness : List Digest) → List Round → Prop
  | done (position : Nat) : Rounds position [] [] []
  | left {position : Nat} {sibling : Digest} {path witness : List Digest} {rounds : List Round}
      (hodd : position % 2 = 1) (h : Rounds (position / 2) path witness rounds) :
      Rounds position (sibling :: path) witness (.left sibling :: rounds)
  | right {position : Nat} {sibling : Digest} {path witness : List Digest} {rounds : List Round}
      (heven : position % 2 = 0) (h : Rounds (position / 2) path witness rounds) :
      Rounds position path (sibling :: witness) (.right sibling :: rounds)
  | carry {position : Nat} {first : Digest} {path : List Digest} {rounds : List Round}
      (heven : position % 2 = 0) (h : Rounds (position / 2) (first :: path) [] rounds) :
      Rounds position (first :: path) [] (.carry :: rounds)

section

variable {position : Nat} {path witness : List Digest} {rounds other : List Round}

/-- There is only one way to walk. -/
theorem Rounds.unique (h : Rounds position path witness rounds)
    (h' : Rounds position path witness other) : other = rounds := by
  induction h generalizing other with
  | done => cases h'; rfl
  | left hodd _ ih =>
    cases h' with
    | left _ h' => rw [ih h']
    | right heven _ => omega
    | carry heven _ => omega
  | right heven _ ih =>
    cases h' with
    | left hodd _ => omega
    | right _ h' => rw [ih h']
  | carry heven _ ih =>
    cases h' with
    | left hodd _ => omega
    | carry _ h' => rw [ih h']

/-- The left siblings are the nodes of the path, lowest first. -/
theorem Rounds.lefts_eq (h : Rounds position path witness rounds) :
    rounds.filterMap Round.left? = path := by
  induction h with
  | done => rfl
  | left _ _ ih => exact congrArg _ ih
  | right _ _ ih => exact ih
  | carry _ _ ih => exact ih

/-- The right siblings are the nodes of the witness, in order. -/
theorem Rounds.rights_eq (h : Rounds position path witness rounds) :
    rounds.filterMap Round.right? = witness := by
  induction h with
  | done => rfl
  | left _ _ ih => exact ih
  | right _ _ ih => exact congrArg _ ih
  | carry _ _ ih => exact ih

/-- Position zero never turns odd: from there on no node of a path is taken. -/
theorem Rounds.position_ne_zero {first : Digest}
    (h : Rounds position (first :: path) [] rounds) : position ≠ 0 := by
  generalize hpath : first :: path = nodes at h
  generalize hwitness : ([] : List Digest) = siblings at h
  induction h with
  | done => cases hpath
  | left hodd => omega
  | right => cases hwitness
  | carry _ _ ih =>
    have := ih hpath rfl
    omega

/-- **The climb computes what the rounds say.** -/
theorem Rounds.climb_eq (mismatch : MerkleError) (h : Rounds position path witness rounds) :
    ∀ node, climb mismatch position node path witness = .ok (rounds.foldl Round.above node) := by
  induction h with
  | done => exact fun node => climb_done
  | left hodd _ ih => exact fun node => (climb_left hodd).trans (ih _)
  | right heven _ ih => exact fun node => (climb_right heven).trans (ih _)
  | carry heven h ih =>
    have hpos : _ ≠ 0 := (Rounds.carry heven h).position_ne_zero
    exact fun node => (climb_carried heven hpos (List.cons_ne_nil _ _)).trans (ih node)

/-- Without a path, what is left of the witness is taken at position zero. -/
theorem rounds_zero : ∀ witness : List Digest, Rounds 0 [] witness (witness.map .right)
  | [] => .done 0
  | _ :: witness => .right rfl (rounds_zero witness)

/-- **A walk whose path fits its position ends.** Each round that takes nothing, or takes a node of
the path, uses up a bit of the position; every other one takes a node of the witness. -/
theorem exists_rounds {bits : Nat} (hbits : position < 2 ^ bits)
    (hpath : path.length = onesCount position) :
    ∃ rounds, Rounds position path witness rounds ∧ rounds.length ≤ bits + witness.length := by
  induction bits generalizing position path witness with
  | zero =>
    obtain rfl : position = 0 := by simpa using hbits
    obtain rfl : path = [] := List.length_eq_zero_iff.mp (hpath.trans onesCount_zero)
    exact ⟨_, rounds_zero witness, Nat.le_of_eq (by rw [List.length_map, Nat.zero_add])⟩
  | succ bits ih =>
    have hhalf : position / 2 < 2 ^ bits := by
      rw [Nat.pow_succ] at hbits
      omega
    rw [onesCount_eq] at hpath
    by_cases hodd : position % 2 = 1
    · -- The path has a node for this bit.
      obtain ⟨sibling, path, rfl⟩ :=
        List.exists_cons_of_length_eq_add_one (hpath.trans (by rw [hodd, Nat.add_comm]))
      obtain ⟨rounds, hrounds, hlen⟩ := @ih (position / 2) path witness hhalf
        (by rw [List.length_cons] at hpath; omega)
      exact ⟨_, .left hodd hrounds, by rw [List.length_cons]; omega⟩
    · have heven : position % 2 = 0 := by omega
      have hpath' : path.length = onesCount (position / 2) := by omega
      cases witness with
      | cons sibling witness =>
        obtain ⟨rounds, hrounds, hlen⟩ := @ih (position / 2) path witness hhalf hpath'
        refine ⟨_, .right heven hrounds, ?_⟩
        rw [List.length_cons, List.length_cons]
        omega
      | nil =>
        cases path with
        | nil => exact ⟨[], .done position, Nat.zero_le _⟩
        | cons first path =>
          obtain ⟨rounds, hrounds, hlen⟩ := @ih (position / 2) (first :: path) [] hhalf hpath'
          exact ⟨_, .carry heven hrounds, by rw [List.length_cons]; omega⟩

end

/-! ## Roots -/

/-- The walk of a witness: a node to start with, and the nodes that are right siblings. -/
structure WalksThrough (size : UInt64) (path : List Digest) (first : Digest) (rest : List Digest)
    (rounds : List Round) : Prop where
  /-- There is no other way to walk from the position behind the known leaves. -/
  only : ∀ other, Rounds (size.toNat >>> trailingZeros size.toNat) path rest other ↔ other = rounds
  /-- It ends after at most 64 rounds and one for each further node of the witness. -/
  bounded : rounds.length ≤ 64 + rest.length
  /-- Each node of the path is a left sibling once, lowest first. -/
  lefts : rounds.filterMap Round.left? = path
  /-- Each further node of the witness is a right sibling once, in order. -/
  rights : rounds.filterMap Round.right? = rest
  /-- The root is computed from the first node by these rounds and nothing else. -/
  root : rootOfRightWitness size path (first :: rest) = .ok (rounds.foldl Round.above first)

section

variable {size : UInt64} {path : List Digest}

theorem rootOfRightWitness_of_ne (h : path.length ≠ onesCount size.toNat)
    (witness : List Digest) :
    rootOfRightWitness size path witness =
      .error (.pathMismatch (onesCount size.toNat) path.length) := by
  unfold rootOfRightWitness
  exact if_pos h

theorem rootOfRightWitness_nil (h : path.length = onesCount size.toNat) :
    rootOfRightWitness size path [] = .ok (rootOfPath path) := by
  unfold rootOfRightWitness
  exact if_neg (not_not_intro h)

/-- A path that fits has a walk for every witness. -/
theorem exists_walksThrough (h : path.length = onesCount size.toNat) (first : Digest)
    (rest : List Digest) : ∃ rounds, WalksThrough size path first rest rounds := by
  have hle : size.toNat >>> trailingZeros size.toNat ≤ size.toNat := Nat.shiftRight_le _ _
  obtain ⟨rounds, hrounds, hbounded⟩ := @exists_rounds _ path rest 64
    (Nat.lt_of_le_of_lt hle size.toNat_lt)
    (h.trans (onesCount_shiftRight_trailingZeros size.toNat).symm)
  refine ⟨rounds, fun other => ⟨hrounds.unique, fun heq => heq ▸ hrounds⟩, hbounded,
    hrounds.lefts_eq, hrounds.rights_eq, ?_⟩
  unfold rootOfRightWitness
  exact (if_neg (not_not_intro h)).trans (hrounds.climb_eq _ first)

end

/-- **A witness is refused only for a path of the wrong length, and is used up otherwise.** The path
has to have one node for each one bit of the size. Then an empty witness leaves the root of the
path, and any other one is walked through in at most 64 rounds and one for each further node. -/
theorem rootOfRightWitness_walks (size : UInt64) (path : List Digest) :
    let ones := (List.range 64).countP size.toNat.testBit
    (∀ witness,
      (∃ expected got,
          rootOfRightWitness size path witness = .error (.pathMismatch expected got)) ↔
        path.length ≠ ones) ∧
    (path.length ≠ ones → ∀ witness,
      rootOfRightWitness size path witness = .error (.pathMismatch ones path.length)) ∧
    (path.length = ones →
      rootOfRightWitness size path [] = .ok (rootOfPath path) ∧
        ∀ first rest, ∃ rounds, WalksThrough size path first rest rounds) := by
  intro ones
  have hones : ones = onesCount size.toNat := (onesCount_eq_countP size.toNat_lt).symm
  rw [hones]
  refine ⟨fun witness => ⟨?_, fun hne => ⟨_, _, rootOfRightWitness_of_ne hne witness⟩⟩,
    rootOfRightWitness_of_ne, fun hlen =>
      ⟨rootOfRightWitness_nil hlen, exists_walksThrough hlen⟩⟩
  rintro ⟨expected, got, herror⟩ hlen
  -- With a path of the right length there is a root.
  cases witness with
  | nil => cases herror.symm.trans (rootOfRightWitness_nil hlen)
  | cons first rest =>
    obtain ⟨rounds, hwalks⟩ := exists_walksThrough hlen first rest
    cases herror.symm.trans hwalks.root

end ChainHub.Merkle
