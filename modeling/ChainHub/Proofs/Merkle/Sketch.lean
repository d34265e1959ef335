import ChainHub.Proofs.Merkle.Layers

/-!
# What a root says about the leaves

A root that was computed from some leaves and some hashes of unknown origin is the root of a sketch:
a tree in which whole subtrees may be unknown. Two sketches with the same root have the same shape
and the same leaves wherever both are known, unless two of the strings hashed for them collide.

* `Collision`: two different strings of a list have the same hash.
* `treeInputs`, `Accumulator.appendInputs`, `rightWitnessInputs`: the strings that are hashed to
  build a tree, to append a leaf, and to extend a path by a witness.
* `Sketch.known_isPrefix`: what a sketch knows at its beginning is the beginning of every complete
  tree with the same root.
* `Drawn.isPrefix`: a witness extends an accumulator to the root of a tree only if the leaves of the
  accumulator begin the leaves of the tree.

Nothing here depends on the number of leaves behind the unknown subtrees. The root does not commit
to it, and need not: the match runs from the root down and meets the known leaves in order.
-/

namespace ChainHub

/-- Two different byte strings among `inputs` have the same hash. -/
def Collision (inputs : List Bytes) : Prop :=
  ∃ a ∈ inputs, ∃ b ∈ inputs, a ≠ b ∧ keccak256 a = keccak256 b

theorem Collision.mono {inputs more : List Bytes} (h : Collision inputs) (hsub : inputs ⊆ more) :
    Collision more := by
  obtain ⟨a, ha, b, hb, hne, heq⟩ := h
  exact ⟨a, hsub ha, b, hsub hb, hne, heq⟩

/-- Without a collision equal hashes have equal inputs. -/
theorem eq_of_keccak256_eq {inputs : List Bytes} (hS : ¬ Collision inputs) {a b : Bytes}
    (ha : a ∈ inputs) (hb : b ∈ inputs) (h : keccak256 a = keccak256 b) : a = b := by
  by_contra hne
  exact hS ⟨a, ha, b, hb, hne, h⟩

namespace Merkle

/-! ## Hashed strings -/

/-- The strings that are hashed to pair a layer up. -/
def pairInputs : List Digest → List Bytes
  | left :: right :: rest => branchInput left right :: pairInputs rest
  | _ => []

/-- The strings that are hashed for the inner nodes over a layer. -/
def layerInputs (layer : List Digest) : List Bytes := (layersFrom layer).flatMap pairInputs

/-- The strings that are hashed to build a tree. -/
def treeInputs (leaves : List Bytes) : List Bytes :=
  if leaves = [] then [[]] else leaves.map leafInput ++ layerInputs (leaves.map leafHash)

/-- The strings that are hashed to carry a node through a path. -/
def carryInputs : (size : Nat) → (node : Digest) → List Digest → List Bytes
  | _, _, [] => []
  | size, node, left :: path =>
    if size % 2 = 1 then
      branchInput left node :: carryInputs (size / 2) (branchHash left node) path
    else []

/-- The strings that are hashed to go up from a node along a path. -/
def aboveInputs : (node : Digest) → List Digest → List Bytes
  | _, [] => []
  | node, left :: path => branchInput left node :: aboveInputs (branchHash left node) path

/-- The strings that are hashed for the root of a path. -/
def pathInputs : List Digest → List Bytes
  | [] => [[]]
  | first :: rest => aboveInputs first rest

/-- The strings that are hashed to go up from the node behind the known leaves. -/
def climbInputs (position : Nat) (node : Digest) (path witness : List Digest) : List Bytes :=
  if path.isEmpty && witness.isEmpty then []
  else if position % 2 = 1 then
    match path with
    | [] => []
    | left :: path =>
      branchInput left node :: climbInputs (position / 2) (branchHash left node) path witness
  else
    match witness with
    | right :: witness =>
      branchInput node right :: climbInputs (position / 2) (branchHash node right) path witness
    | [] => if position = 0 then [] else climbInputs (position / 2) node path []
termination_by position + witness.length
decreasing_by
  all_goals try simp only [List.length_cons, List.length_nil]
  all_goals omega

/-- The strings that are hashed to extend a path by a witness. -/
def rightWitnessInputs (size : UInt64) (path : List Digest) : (witness : List Digest) → List Bytes
  | [] => pathInputs path
  | first :: witness =>
    climbInputs (size.toNat >>> trailingZeros size.toNat) first path witness

end Merkle

open Merkle

/-- The strings that are hashed to append a leaf. -/
def Accumulator.appendInputs (acc : Accumulator) (data : Bytes) : List Bytes :=
  leafInput data :: carryInputs acc.size.toNat (leafHash data) acc.path
    ++ (carry? acc.size.toNat (leafHash data) acc.path).elim [] pathInputs

/-- The strings that are hashed to append several leaves. -/
def Accumulator.appendAllInputs (acc : Accumulator) : List Bytes → List Bytes
  | [] => []
  | data :: more =>
    acc.appendInputs data ++ (acc.append? data).elim [] fun next => next.appendAllInputs more

/-- Appending a beginning of some leaves hashes no other strings than appending all of them. -/
theorem Accumulator.appendAllInputs_subset : ∀ {first more : List Bytes} {acc : Accumulator},
    first <+: more → acc.appendAllInputs first ⊆ acc.appendAllInputs more
  | [], _, _, _ => List.nil_subset _
  | data :: first, more, acc, h => by
    obtain ⟨rest, rfl⟩ := h
    unfold Accumulator.appendAllInputs
    refine List.append_subset.mpr ⟨List.subset_append_left _ _, ?_⟩
    refine List.Subset.trans ?_ (List.subset_append_right _ _)
    cases acc.append? data with
    | none => exact List.nil_subset _
    | some next => exact appendAllInputs_subset (List.prefix_append first rest)

/-! ## Sketches -/

/-- A tree of which some subtrees are known by their hash only. -/
inductive Sketch
  | unknown (hash : Digest)
  | leaf (data : Bytes)
  | branch (left right : Sketch)

namespace Sketch

/-- The root of a sketch. -/
def hash : Sketch → Digest
  | unknown hash => hash
  | leaf data => leafHash data
  | branch left right => branchHash left.hash right.hash

/-- The strings that are hashed for the root. -/
def inputs : Sketch → List Bytes
  | unknown _ => []
  | leaf data => [leafInput data]
  | branch left right => branchInput left.hash right.hash :: (left.inputs ++ right.inputs)

/-- Whether nothing is unknown. -/
def isComplete : Sketch → Bool
  | unknown _ => false
  | leaf _ => true
  | branch left right => left.isComplete && right.isComplete

/-- The leaves from left to right. -/
def leaves : Sketch → List Bytes
  | unknown _ => []
  | leaf data => [data]
  | branch left right => left.leaves ++ right.leaves

/-- The leaves before the first unknown subtree. -/
def known : Sketch → List Bytes
  | unknown _ => []
  | leaf data => [data]
  | branch left right => if left.isComplete then left.leaves ++ right.known else left.known

theorem known_of_isComplete : ∀ {t : Sketch}, t.isComplete = true → t.known = t.leaves
  | unknown _, h => by simp [isComplete] at h
  | leaf _, _ => rfl
  | branch left right, h => by
    simp only [isComplete, Bool.and_eq_true] at h
    rw [known, if_pos h.1, known_of_isComplete h.2, leaves]

theorem leaves_ne_nil : ∀ {t : Sketch}, t.isComplete = true → t.leaves ≠ []
  | unknown _, h => by simp [isComplete] at h
  | leaf _, _ => by simp [leaves]
  | branch left right, h => by
    simp only [isComplete, Bool.and_eq_true] at h
    simp [leaves, leaves_ne_nil h.1]

/-- An unknown right neighbour adds nothing to what is known. -/
theorem known_branch_unknown (t : Sketch) (right : Digest) :
    (branch t (unknown right)).known = t.known := by
  rw [known]
  split
  · rename_i h
    rw [known, List.append_nil, known_of_isComplete h]
  · rfl

/-- A sketch that knows a leaf does not have the root of the empty tree. -/
theorem hash_ne_emptyRoot {S : List Bytes} (hS : ¬ Collision S) (hnil : [] ∈ S) {t : Sketch}
    (ht : t.inputs ⊆ S) (hknown : t.known ≠ []) : t.hash ≠ emptyRoot := by
  intro h
  cases t with
  | unknown hash => exact hknown rfl
  | leaf data =>
    have heq := eq_of_keccak256_eq hS (ht List.mem_cons_self) hnil h
    exact List.cons_ne_nil _ _ heq
  | branch left right =>
    have heq := eq_of_keccak256_eq hS (ht List.mem_cons_self) hnil h
    exact List.cons_ne_nil _ _ heq

/-- **The known beginning of a sketch begins every complete tree with the same root.** The
induction is on the sketch, from the root down; a collision is the only way to leave the match. -/
theorem known_isPrefix {S : List Bytes} (hS : ¬ Collision S) :
    ∀ {t u : Sketch}, t.inputs ⊆ S → u.inputs ⊆ S → u.isComplete = true → t.hash = u.hash →
      t.known <+: u.leaves ∧ (t.isComplete = true → t.leaves = u.leaves)
  | unknown hash, u, _, _, _, _ => ⟨List.nil_prefix, fun h => by simp [isComplete] at h⟩
  | leaf data, u, ht, hu, hc, h => by
    cases u with
    | unknown hash => simp [isComplete] at hc
    | leaf data' =>
      have heq := leafInput_injective
        (eq_of_keccak256_eq hS (ht List.mem_cons_self) (hu List.mem_cons_self) h)
      subst heq
      exact ⟨List.prefix_rfl, fun _ => rfl⟩
    | branch left right =>
      exact absurd (eq_of_keccak256_eq hS (ht List.mem_cons_self) (hu List.mem_cons_self) h)
        (leafInput_ne_branchInput _ _ _)
  | branch left right, u, ht, hu, hc, h => by
    cases u with
    | unknown hash => simp [isComplete] at hc
    | leaf data =>
      exact absurd (eq_of_keccak256_eq hS (hu List.mem_cons_self) (ht List.mem_cons_self) h.symm)
        (leafInput_ne_branchInput _ _ _)
    | branch left' right' =>
      obtain ⟨hl, hr⟩ := branchInput_injective
        (eq_of_keccak256_eq hS (ht List.mem_cons_self) (hu List.mem_cons_self) h)
      simp only [isComplete, Bool.and_eq_true] at hc
      simp only [inputs, List.cons_subset, List.append_subset] at ht hu
      obtain ⟨hlk, hlc⟩ := known_isPrefix hS ht.2.1 hu.2.1 hc.1 hl
      obtain ⟨hrk, hrc⟩ := known_isPrefix hS ht.2.2 hu.2.2 hc.2 hr
      refine ⟨?_, fun hcomplete => ?_⟩
      · unfold known
        split
        · rename_i hleft
          rw [leaves, hlc hleft]
          exact (List.prefix_append_right_inj _).mpr hrk
        · exact hlk.trans (List.prefix_append _ _)
      · simp only [isComplete, Bool.and_eq_true] at hcomplete
        rw [leaves, leaves, hlc hcomplete.1, hrc hcomplete.2]

/-! ## Trees -/

/-- The layer of sketches above. -/
def pairTrees : List Sketch → List Sketch
  | left :: right :: rest => branch left right :: pairTrees rest
  | rest => rest

theorem length_pairTrees : ∀ ts : List Sketch, (pairTrees ts).length = (ts.length + 1) / 2
  | [] => rfl
  | [_] => by simp [pairTrees]
  | _ :: _ :: rest => by
    simp only [pairTrees, List.length_cons, length_pairTrees rest]
    omega

theorem map_hash_pairTrees : ∀ ts : List Sketch,
    (pairTrees ts).map hash = pairUp (ts.map hash)
  | [] => rfl
  | [_] => rfl
  | left :: right :: rest => by
    simp only [pairTrees, List.map_cons, pairUp, map_hash_pairTrees rest, hash]

theorem leaves_pairTrees : ∀ ts : List Sketch,
    (pairTrees ts).flatMap leaves = ts.flatMap leaves
  | [] => rfl
  | [_] => rfl
  | left :: right :: rest => by
    simp only [pairTrees, List.flatMap_cons, leaves, leaves_pairTrees rest, List.append_assoc]

theorem inputs_pairTrees : ∀ ts : List Sketch,
    (pairTrees ts).flatMap inputs ⊆ ts.flatMap inputs ++ pairInputs (ts.map hash)
  | [] => by simp [pairTrees]
  | [_] => by simp [pairTrees]
  | left :: right :: rest => by
    have ih := inputs_pairTrees rest
    intro x hx
    simp only [pairTrees, List.flatMap_cons, inputs, List.map_cons, pairInputs, List.mem_append,
      List.mem_cons] at hx ⊢
    rcases hx with (rfl | hx | hx) | hx
    · exact Or.inr (Or.inl rfl)
    · exact Or.inl (Or.inl hx)
    · exact Or.inl (Or.inr (Or.inl hx))
    · rcases List.mem_append.mp (ih hx) with hx | hx
      · exact Or.inl (Or.inr (Or.inr hx))
      · exact Or.inr (Or.inr hx)

theorem isComplete_pairTrees : ∀ {ts : List Sketch}, (∀ t ∈ ts, t.isComplete = true) →
    ∀ t ∈ pairTrees ts, t.isComplete = true
  | [], h => h
  | [_], h => h
  | left :: right :: rest, h => by
    simp only [List.forall_mem_cons, pairTrees, isComplete, Bool.and_eq_true] at h ⊢
    exact ⟨⟨h.1, h.2.1⟩, isComplete_pairTrees h.2.2⟩

theorem exists_of_layer {ts : List Sketch} (hne : ts ≠ []) (hc : ∀ t ∈ ts, t.isComplete = true) :
    ∃ u : Sketch, u.hash = layerRoot (ts.map hash) ∧ u.isComplete = true ∧
      u.leaves = ts.flatMap leaves ∧ u.inputs ⊆ ts.flatMap inputs ++ layerInputs (ts.map hash) := by
  induction hn : ts.length using Nat.strongRecOn generalizing ts with
  | ind n ih =>
    subst hn
    by_cases hlen : ts.length ≤ 1
    · obtain ⟨t, rfl⟩ : ∃ t, ts = [t] :=
        List.length_eq_one_iff.mp (Nat.le_antisymm hlen (List.length_pos_iff.mpr hne))
      exact ⟨t, by simp, hc t (by simp), by simp, by simp⟩
    · have hpairs : pairTrees ts ≠ [] := by
        apply List.length_pos_iff.mp
        rw [length_pairTrees]
        omega
      obtain ⟨u, hroot, hcomplete, hleaves, hinputs⟩ := ih (pairTrees ts).length
        (by rw [length_pairTrees]; omega) hpairs (isComplete_pairTrees hc) rfl
      refine ⟨u, ?_, hcomplete, ?_, ?_⟩
      · rw [hroot, map_hash_pairTrees, layerRoot_pairUp (by rw [List.length_map]; omega)]
      · rw [hleaves, leaves_pairTrees]
      · intro x hx
        have hlayers : layerInputs (ts.map hash) =
            pairInputs (ts.map hash) ++ layerInputs ((pairTrees ts).map hash) := by
          unfold layerInputs
          rw [layersFrom_of_lt (by rw [List.length_map]; omega), List.flatMap_cons,
            map_hash_pairTrees]
        rw [hlayers, ← List.append_assoc]
        rcases List.mem_append.mp (hinputs hx) with h | h
        · exact List.mem_append_left _ (inputs_pairTrees ts h)
        · exact List.mem_append_right _ h

/-- A tree over some leaves is a complete sketch. -/
theorem exists_of_leaves {L : List Bytes} (hne : L ≠ []) :
    ∃ u : Sketch, u.hash = (Tree.ofLeaves L).root ∧ u.isComplete = true ∧ u.leaves = L ∧
      u.inputs ⊆ treeInputs L := by
  have hall : ∀ t ∈ L.map leaf, t.isComplete = true := by simp [isComplete]
  obtain ⟨u, hroot, hcomplete, hleaves, hinputs⟩ := exists_of_layer (by simpa using hne) hall
  have hmap : (L.map leaf).map hash = L.map leafHash := by
    rw [List.map_map]
    rfl
  rw [hmap] at hroot hinputs
  have hflat : (L.map leaf).flatMap inputs = L.map leafInput := by
    rw [List.flatMap_map, List.map_eq_flatMap]
    rfl
  refine ⟨u, hroot, hcomplete, ?_, ?_⟩
  · simpa [List.flatMap_map, leaves] using hleaves
  · rw [treeInputs, if_neg hne, ← hflat]
    exact hinputs

/-! ## Paths -/

/-- The leaves below the subtrees of a path, which is listed from the right to the left. -/
def leavesOf : List Sketch → List Bytes
  | [] => []
  | t :: ts => leavesOf ts ++ t.leaves

/-- The strings hashed for the subtrees of a path. -/
def inputsOf (ts : List Sketch) : List Bytes := ts.flatMap inputs

/-- Complete sketches of the subtrees of a path. -/
structure Path (path : List Digest) (ts : List Sketch) : Prop where
  hash_eq : path = ts.map hash
  complete : ∀ t ∈ ts, t.isComplete = true

theorem path_nil : Path [] [] := ⟨rfl, by simp⟩

theorem Path.cons {path : List Digest} {t : Sketch} {ts : List Sketch} (ht : t.isComplete = true)
    (h : Path path ts) : Path (t.hash :: path) (t :: ts) :=
  ⟨by rw [h.hash_eq, List.map_cons], List.forall_mem_cons.mpr ⟨ht, h.complete⟩⟩

/-- The first subtree of a path, and the rest. -/
theorem Path.cons_inv {left : Digest} {path : List Digest} {ts : List Sketch}
    (h : Path (left :: path) ts) :
    ∃ t rest, ts = t :: rest ∧ left = t.hash ∧ t.isComplete = true ∧ Path path rest := by
  cases ts with
  | nil => exact absurd h.hash_eq (by simp)
  | cons t rest =>
    obtain ⟨hleft, hpath⟩ := List.cons.inj h.hash_eq
    obtain ⟨ht, hrest⟩ := List.forall_mem_cons.mp h.complete
    exact ⟨t, rest, rfl, hleft, ht, hpath, hrest⟩

theorem Path.eq_nil {ts : List Sketch} (h : Path [] ts) : ts = [] := by
  cases ts with
  | nil => rfl
  | cons t rest => exact absurd h.hash_eq (by simp)

/-- Carrying a subtree through a path merges it with its left neighbours. -/
theorem exists_path_of_carry {t : Sketch} (ht : t.isComplete = true) :
    ∀ {size : Nat} {path next : List Digest} {ts : List Sketch}, Path path ts →
      carry? size t.hash path = some next →
      ∃ us, Path next us ∧ leavesOf us = leavesOf ts ++ t.leaves ∧
        inputsOf us ⊆ inputsOf ts ++ t.inputs ++ carryInputs size t.hash path
  | size, [], next, ts, hts, h => by
    rw [hts.eq_nil]
    unfold carry? at h
    split at h
    · cases h
    · cases h
      exact ⟨[t], path_nil.cons ht, by simp [leavesOf], by simp [inputsOf]⟩
  | size, left :: path, next, ts, hts, h => by
    obtain ⟨l, rest, rfl, rfl, hl, hrest⟩ := hts.cons_inv
    rw [carry?] at h
    split at h
    · rename_i hodd
      have hbranch : (branch l t).isComplete = true := by simp [isComplete, hl, ht]
      obtain ⟨us, hus, hleaves, hinputs⟩ := exists_path_of_carry hbranch hrest h
      refine ⟨us, hus, ?_, ?_⟩
      · rw [hleaves, leavesOf, leaves, List.append_assoc]
      · rw [carryInputs, if_pos hodd]
        refine List.Subset.trans hinputs ?_
        simp only [inputsOf, inputs, List.flatMap_cons]
        intro x hx
        simp only [List.mem_append, List.mem_cons, hash] at hx ⊢
        tauto
    · cases h
      refine ⟨t :: l :: rest, (hrest.cons hl).cons ht, by simp [leavesOf], ?_⟩
      intro x hx
      simp only [inputsOf, List.flatMap_cons, List.mem_append] at hx ⊢
      tauto

/-- The sketch of a path with one more subtree below it. -/
theorem exists_of_rootAbove {t : Sketch} (ht : t.isComplete = true) :
    ∀ {path : List Digest} {ts : List Sketch}, Path path ts →
      ∃ u : Sketch, u.hash = rootAbove t.hash path ∧ u.isComplete = true ∧
        u.leaves = leavesOf ts ++ t.leaves ∧
        u.inputs ⊆ inputsOf ts ++ t.inputs ++ aboveInputs t.hash path
  | [], ts, hts => by
    rw [hts.eq_nil]
    exact ⟨t, rfl, ht, by simp [leavesOf], by simp [inputsOf, aboveInputs]⟩
  | left :: path, ts, hts => by
    obtain ⟨l, rest, rfl, rfl, hl, hrest⟩ := hts.cons_inv
    have hbranch : (branch l t).isComplete = true := by simp [isComplete, hl, ht]
    obtain ⟨u, hroot, hcomplete, hleaves, hinputs⟩ := exists_of_rootAbove hbranch hrest
    refine ⟨u, hroot, hcomplete, ?_, ?_⟩
    · rw [hleaves, leavesOf, leaves, List.append_assoc]
    · refine List.Subset.trans hinputs ?_
      intro x hx
      simp only [inputsOf, inputs, aboveInputs, List.flatMap_cons, List.mem_append, List.mem_cons,
        hash] at hx ⊢
      tauto

/-- Going up from the node behind the known leaves gives a sketch that begins with them. -/
theorem exists_of_climb {mismatch : MerkleError} {position : Nat} {node root : Digest}
    {path witness : List Digest} (h : climb mismatch position node path witness = .ok root)
    {t : Sketch} (hnode : node = t.hash) {ts : List Sketch} (hts : Path path ts) :
    ∃ u : Sketch, u.hash = root ∧ u.known = leavesOf ts ++ t.known ∧
      u.inputs ⊆ inputsOf ts ++ t.inputs ++ climbInputs position node path witness := by
  induction position, node, path, witness using climb.induct generalizing t ts with
  | case1 position node path witness hend =>
    rw [climb.eq_def, if_pos hend] at h
    simp only [Bool.and_eq_true, List.isEmpty_iff] at hend
    obtain ⟨rfl, rfl⟩ := hend
    rw [hts.eq_nil]
    exact ⟨t, hnode ▸ Except.ok.inj h, by simp [leavesOf], by simp⟩
  | case2 position node witness hodd hend =>
    rw [climb.eq_def, if_neg hend, if_pos hodd] at h
    cases h
  | case3 position node witness hodd left path hend ih =>
    rw [climb.eq_def, if_neg hend, if_pos hodd] at h
    obtain ⟨l, rest, rfl, rfl, hl, hrest⟩ := hts.cons_inv
    obtain ⟨u, hroot, hknown, hinputs⟩ := ih h (t := branch l t) (by rw [hnode, hash]) hrest
    refine ⟨u, hroot, ?_, ?_⟩
    · rw [hknown, leavesOf, known, if_pos hl, List.append_assoc]
    · rw [climbInputs.eq_def, if_neg hend, if_pos hodd]
      refine List.Subset.trans hinputs ?_
      intro x hx
      simp only [inputsOf, inputs, List.flatMap_cons, List.mem_append, List.mem_cons, hnode] at hx ⊢
      tauto
  | case4 position node path hodd right witness hend ih =>
    rw [climb.eq_def, if_neg hend, if_neg hodd] at h
    obtain ⟨u, hroot, hknown, hinputs⟩ :=
      ih h (t := branch t (unknown right)) (by rw [hnode]; rfl) hts
    refine ⟨u, hroot, by rw [hknown, known_branch_unknown], ?_⟩
    rw [climbInputs.eq_def, if_neg hend, if_neg hodd]
    refine List.Subset.trans hinputs ?_
    intro x hx
    simp only [inputs, hash, List.append_nil, List.mem_append, List.mem_cons, hnode] at hx ⊢
    tauto
  | case5 node path hodd hend =>
    rw [climb.eq_def, if_neg hend, if_neg hodd, if_pos rfl] at h
    cases h
  | case6 position node path hodd hend hpos ih =>
    rw [climb.eq_def, if_neg hend, if_neg hodd] at h
    simp only [if_neg hpos] at h
    obtain ⟨u, hroot, hknown, hinputs⟩ := ih h hnode hts
    refine ⟨u, hroot, hknown, ?_⟩
    rw [climbInputs.eq_def, if_neg hend, if_neg hodd]
    simpa only [if_neg hpos] using hinputs

/-! ## Accumulators -/

/-- The path of an accumulator stands for subtrees over `leaves`, hashed from strings of `S`. -/
def Drawn (S : List Bytes) (acc : Accumulator) (leaves : List Bytes) : Prop :=
  ∃ ts, Path acc.path ts ∧ leavesOf ts = leaves ∧ inputsOf ts ⊆ S

theorem drawn_empty (S : List Bytes) : Drawn S .empty [] :=
  ⟨[], path_nil, rfl, List.nil_subset _⟩

theorem Drawn.append {S : List Bytes} {acc next : Accumulator} {leaves : List Bytes} {data : Bytes}
    (hacc : Drawn S acc leaves) (h : acc.append? data = some next)
    (hS : acc.appendInputs data ⊆ S) : Drawn S next (leaves ++ [data]) := by
  obtain ⟨ts, hts, hleaves, hinputs⟩ := hacc
  obtain ⟨path, hcarry, hif⟩ := Option.bind_eq_some_iff.mp h
  split at hif
  · cases hif
    obtain ⟨us, hus, husleaves, husinputs⟩ := exists_path_of_carry (t := leaf data) rfl hts hcarry
    refine ⟨us, hus, by rw [husleaves, hleaves, Sketch.leaves],
      List.Subset.trans husinputs ?_⟩
    unfold Accumulator.appendInputs at hS
    intro x hx
    simp only [inputs, List.mem_append, List.mem_singleton] at hx
    rcases hx with (hx | rfl) | hx
    · exact hinputs hx
    · exact hS (by simp)
    · exact hS (by simp only [List.mem_append, List.mem_cons]; exact Or.inl (Or.inr hx))
  · cases hif

theorem Drawn.appendAll {S : List Bytes} :
    ∀ {more : List Bytes} {acc next : Accumulator} {leaves : List Bytes}, Drawn S acc leaves →
      acc.appendAll? more = some next → acc.appendAllInputs more ⊆ S →
      Drawn S next (leaves ++ more)
  | [], acc, next, leaves, hacc, h, _ => by
    cases h
    rwa [List.append_nil]
  | data :: more, acc, next, leaves, hacc, h, hS => by
    obtain ⟨mid, hmid, hnext⟩ := Option.bind_eq_some_iff.mp h
    rw [Accumulator.appendAllInputs, hmid, Option.elim_some, List.append_subset] at hS
    have := (hacc.append hmid hS.1).appendAll hnext hS.2
    rwa [List.append_assoc, List.singleton_append] at this

/-- A tree without leaves has a root that nothing known leads to. -/
theorem known_eq_nil {S : List Bytes} (hS : ¬ Collision S) {t : Sketch} (ht : t.inputs ⊆ S)
    (hL : treeInputs [] ⊆ S) (h : t.hash = (Tree.ofLeaves []).root) : t.known = [] := by
  by_contra hne
  refine hash_ne_emptyRoot hS (hL (by simp [treeInputs])) ht hne ?_
  rw [h, root_ofLeaves]
  exact layerRoot_nil

/-- **A sketch with the root of a tree knows a beginning of its leaves**, and all of them if nothing
is unknown. -/
theorem known_isPrefix_of_root {S : List Bytes} (hS : ¬ Collision S) {t : Sketch} {L : List Bytes}
    (ht : t.inputs ⊆ S) (hL : treeInputs L ⊆ S) (h : t.hash = (Tree.ofLeaves L).root) :
    t.known <+: L ∧ (t.isComplete = true → t.leaves = L) := by
  by_cases hne : L = []
  · subst hne
    have hknown := known_eq_nil hS ht hL h
    refine ⟨hknown ▸ List.nil_prefix, fun hcomplete => ?_⟩
    rw [← known_of_isComplete hcomplete, hknown]
  · obtain ⟨u, hroot, hcomplete, hleaves, hinputs⟩ := exists_of_leaves hne
    rw [← hleaves]
    exact known_isPrefix hS ht (List.Subset.trans hinputs hL) hcomplete (h.trans hroot.symm)

/-- The sketch of a path that is extended by a witness. -/
theorem exists_of_rightWitness {size : UInt64} {path witness : List Digest} {root : Digest}
    {ts : List Sketch} (hts : Path path ts) (hne : path = [] → witness ≠ [])
    (h : rootOfRightWitness size path witness = .ok root) :
    ∃ u : Sketch, u.hash = root ∧ u.known = leavesOf ts ∧ (witness = [] → u.isComplete = true) ∧
      u.inputs ⊆ inputsOf ts ++ rightWitnessInputs size path witness := by
  unfold rootOfRightWitness at h
  dsimp only at h
  split at h
  · cases h
  · cases witness with
    | nil =>
      cases path with
      | nil => exact absurd rfl (hne rfl)
      | cons left path =>
        obtain ⟨t, rest, rfl, rfl, ht, hrest⟩ := hts.cons_inv
        obtain ⟨u, hroot, hcomplete, hleaves, hinputs⟩ := exists_of_rootAbove ht hrest
        refine ⟨u, hroot.trans (Except.ok.inj h), ?_, fun _ => hcomplete,
          List.Subset.trans hinputs ?_⟩
        · rw [known_of_isComplete hcomplete, hleaves, leavesOf]
        · intro x hx
          simp only [inputsOf, rightWitnessInputs, pathInputs, List.flatMap_cons,
            List.mem_append] at hx ⊢
          tauto
    | cons first witness =>
      obtain ⟨u, hroot, hknown, hinputs⟩ := exists_of_climb h (t := unknown first) rfl hts
      refine ⟨u, hroot, ?_, (fun hnil => nomatch hnil), ?_⟩
      · rw [hknown, known, List.append_nil]
      · rwa [inputs, List.append_nil] at hinputs

/-- **An accumulator that a witness extends to the root of a tree holds a beginning of its leaves.**
Without a witness it holds all of them. -/
theorem Drawn.isPrefix {S : List Bytes} (hS : ¬ Collision S) {acc : Accumulator}
    {P L : List Bytes} {witness : List Digest} (hacc : Drawn S acc P)
    (hw : rightWitnessInputs acc.size acc.path witness ⊆ S) (hL : treeInputs L ⊆ S)
    (h : rootOfRightWitness acc.size acc.path witness = .ok (Tree.ofLeaves L).root) :
    P <+: L ∧ (witness = [] → P = L) := by
  obtain ⟨ts, hts, hleaves, hinputs⟩ := hacc
  by_cases hempty : acc.path = [] ∧ witness = []
  · -- Nothing is known and nothing is added: the root is that of the empty tree.
    obtain ⟨hpath, rfl⟩ := hempty
    rw [hpath] at hts hw h
    have hP : P = [] := by rw [← hleaves, hts.eq_nil, leavesOf]
    refine ⟨hP ▸ List.nil_prefix, fun _ => ?_⟩
    by_contra hne
    have hL' : L ≠ [] := fun hnil => hne (hP.trans hnil.symm)
    obtain ⟨u, hroot, hcomplete, huleaves, huinputs⟩ := exists_of_leaves hL'
    refine hash_ne_emptyRoot hS (hw (by simp [rightWitnessInputs, pathInputs]))
      (List.Subset.trans huinputs hL) ?_ (hroot.trans ?_)
    · rw [known_of_isComplete hcomplete]
      exact leaves_ne_nil hcomplete
    · unfold rootOfRightWitness at h
      dsimp only at h
      split at h
      · cases h
      · exact (Except.ok.inj h).symm
  · obtain ⟨u, hroot, hknown, hcomplete, huinputs⟩ :=
      exists_of_rightWitness hts (fun hp hw => hempty ⟨hp, hw⟩) h
    obtain ⟨hbegin, hall⟩ := known_isPrefix_of_root hS
      (List.Subset.trans huinputs (List.append_subset.mpr ⟨hinputs, hw⟩)) hL hroot
    rw [hknown, hleaves] at hbegin
    refine ⟨hbegin, fun hnil => ?_⟩
    rw [← hall (hcomplete hnil), ← known_of_isComplete (hcomplete hnil), hknown, hleaves]

end Sketch

end ChainHub
