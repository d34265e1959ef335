import ChainHub.Proofs.Attempt
import ChainHub.Proofs.Merkle.Sketch
import ChainHub.Proofs.Sparse.Prove
import Mathlib.Data.List.Induction

/-!
# A sparse tree holds what was last inserted, and nothing else

Values are inserted one after the other into an empty tree; a key may be used again. The tree then
proves for each of these keys the value last inserted under it. No other value can be proven for any
key, whatever the proof is, unless two of the hashed strings collide or one of them hashes to the 32
zero bytes that stand for an empty subtree.

* `subtreeInputs`, `rootOfInputs`: the strings that are hashed for the root of a tree, and for the
  root that a proof leads to.
* `exists_along_of_climb`: a proof that leads to a root gives a sibling for each level.
* `mem_of_rootAlong`: only a leaf of a tree has siblings that lead to the root of the tree.
* `Tree.ofInserts_exact`: what a tree says of the inserts that it comes from.

The second and the third are about the same siblings seen from both ends. A proof is checked from
the leaf up; what it shows is read from the root down, where each branch has to be the one of the
tree.
-/

namespace ChainHub.Sparse

/-! ## Hashed strings -/

/-- One of the strings hashes to what stands for an empty subtree. -/
def HitsEmpty (inputs : List Bytes) : Prop := ∃ a ∈ inputs, keccak256 a = emptySubtree

/-- What is hashed for the branch over a node and its sibling, unless both are empty. -/
def besideInput (right : Bool) (node sibling : Digest) : Bytes :=
  if right then branchInput sibling node else branchInput node sibling

/-- The strings that are hashed for the branch over a node and its sibling. -/
def besideInputs (right : Bool) (node sibling : Digest) : List Bytes :=
  if node = emptySubtree ∧ sibling = emptySubtree then [] else [besideInput right node sibling]

/-- The strings that are hashed to go up along a way. -/
def alongInputs (leaf : Digest) : List Bool → List Digest → List Bytes
  | b :: way, sibling :: siblings =>
    besideInputs b (rootAlong leaf way siblings) sibling ++ alongInputs leaf way siblings
  | _, _ => []

/-- The strings that are hashed to go up from a node with the siblings of a proof. -/
def climbInputs : List (Bool × Bool) → List Bytes → Digest → List Bytes
  | [], _, _ => []
  | (present, right) :: levels, siblings, node =>
    if present then
      match siblings with
      | [] => []
      | raw :: siblings =>
        match FixedBytes.ofList? 32 raw with
        | none => []
        | some sibling =>
          besideInputs right node sibling ++
            climbInputs levels siblings (branchBeside right node sibling)
    else
      besideInputs right node emptySubtree ++
        climbInputs levels siblings (branchBeside right node emptySubtree)

/-- The strings that are hashed for a leaf. -/
def leafInputs (key : Digest) (value : Bytes) : List Bytes := [value, sparseLeafInput key value]

/-- The strings that are hashed for the root that a proof leads to. -/
def rootOfInputs (key : Digest) (value : Bytes) (proof : Proof) : List Bytes :=
  match bitmapBits proof.bitmap with
  | .error _ => []
  | .ok bits =>
    leafInputs key value ++
      climbInputs (bits.zip (keyBits key).reverse) proof.siblings (sparseLeafHash key value)

/-- The strings that are hashed for the root of a subtree. -/
def subtreeInputs : (levels : Nat) → Leaves → List Bytes
  | _, [] => []
  | 0, _ :: _ => []
  | levels + 1, leaves =>
    let left := side false leaves
    let right := side true leaves
    besideInputs false (subtreeRoot levels left) (subtreeRoot levels right) ++
      (subtreeInputs levels left ++ subtreeInputs levels right)

/-! ## Branches -/

section Branches

variable {right : Bool} {node sibling : Digest}

theorem besideInput_injective {node' sibling' : Digest}
    (h : besideInput right node sibling = besideInput right node' sibling') :
    node = node' ∧ sibling = sibling' := by
  cases right with
  | false => exact branchInput_injective h
  | true => exact (branchInput_injective h).symm

/-- Only a branch over two empty subtrees is not hashed. -/
theorem branchBeside_eq_keccak256 (h : ¬ (node = emptySubtree ∧ sibling = emptySubtree)) :
    branchBeside right node sibling = keccak256 (besideInput right node sibling) := by
  cases right with
  | false => exact if_neg h
  | true => exact if_neg fun hboth => h (And.symm hboth)

theorem mem_besideInputs (h : ¬ (node = emptySubtree ∧ sibling = emptySubtree)) :
    besideInput right node sibling ∈ besideInputs right node sibling := by
  rw [besideInputs, if_neg h]
  exact List.mem_singleton_self _

theorem branchBeside_empty : branchBeside right emptySubtree emptySubtree = emptySubtree := by
  cases right <;> simp [branchBeside, sparseBranchHash]

/-- A branch that is not empty is not over two empty subtrees. -/
theorem not_both_empty (h : branchBeside right node sibling ≠ emptySubtree) :
    ¬ (node = emptySubtree ∧ sibling = emptySubtree) := by
  rintro ⟨rfl, rfl⟩
  exact h branchBeside_empty

/-- **A branch that is not empty fixes the node and its sibling.** -/
theorem eq_of_branchBeside_eq {S : List Bytes} (hS : ¬ Collision S)
    {node' sibling' : Digest} (hne : branchBeside right node sibling ≠ emptySubtree)
    (hin : besideInputs right node sibling ⊆ S) (hin' : besideInputs right node' sibling' ⊆ S)
    (h : branchBeside right node sibling = branchBeside right node' sibling') :
    node = node' ∧ sibling = sibling' := by
  have hboth := not_both_empty hne
  have hboth' := not_both_empty (h ▸ hne)
  rw [branchBeside_eq_keccak256 hboth, branchBeside_eq_keccak256 hboth'] at h
  exact besideInput_injective
    (eq_of_keccak256_eq hS (hin (mem_besideInputs hboth)) (hin' (mem_besideInputs hboth')) h)

end Branches

/-! ## Leaves -/

theorem sparseLeafInput_injective {key other : Digest} {value stored : Bytes}
    (h : sparseLeafInput key value = sparseLeafInput other stored) :
    key = other ∧ keccak256 value = keccak256 stored := by
  have hlist : key.toList ++ (keccak256 value).toList = other.toList ++ (keccak256 stored).toList :=
    (List.cons.inj h).2
  obtain ⟨hkey, hhash⟩ := List.append_inj hlist (by simp)
  exact ⟨FixedBytes.ext hkey, FixedBytes.ext hhash⟩

/-- **A leaf fixes its value.** -/
theorem eq_of_sparseLeafHash_eq {S : List Bytes} (hS : ¬ Collision S) {key : Digest}
    {value stored : Bytes} (hin : leafInputs key value ⊆ S) (hin' : leafInputs key stored ⊆ S)
    (h : sparseLeafHash key value = sparseLeafHash key stored) : value = stored := by
  have hinput := eq_of_keccak256_eq hS (hin (by simp [leafInputs])) (hin' (by simp [leafInputs])) h
  exact eq_of_keccak256_eq hS (hin List.mem_cons_self) (hin' List.mem_cons_self)
    (sparseLeafInput_injective hinput).2

/-! ## From the root down -/

theorem alongInputs_cons (leaf : Digest) (b : Bool) (way : List Bool) (sibling : Digest)
    (siblings : List Digest) :
    alongInputs leaf (b :: way) (sibling :: siblings) =
      besideInputs b (rootAlong leaf way siblings) sibling ++ alongInputs leaf way siblings := rfl

/-- The way up from a leaf never meets the hash of an empty subtree. -/
theorem rootAlong_ne {S : List Bytes} (hzero : ¬ HitsEmpty S) {leaf : Digest}
    (hleaf : leaf ≠ emptySubtree) : ∀ {way : List Bool} {siblings : List Digest},
    alongInputs leaf way siblings ⊆ S → rootAlong leaf way siblings ≠ emptySubtree
  | [], [], _ => hleaf
  | [], _ :: _, _ => hleaf
  | _ :: _, [], _ => hleaf
  | b :: way, sibling :: siblings, hin => by
    rw [alongInputs_cons, List.append_subset] at hin
    have hboth : ¬ (rootAlong leaf way siblings = emptySubtree ∧ sibling = emptySubtree) :=
      fun h => rootAlong_ne hzero hleaf hin.2 h.1
    rw [rootAlong_cons, branchBeside_eq_keccak256 hboth]
    exact fun h => hzero ⟨_, hin.1 (mem_besideInputs hboth), h⟩

theorem subtreeInputs_succ (levels : Nat) {leaves : Leaves} (h : leaves ≠ []) (b : Bool) :
    besideInputs b (subtreeRoot levels (side b leaves)) (subtreeRoot levels (side (!b) leaves)) ⊆
        subtreeInputs (levels + 1) leaves ∧
      subtreeInputs levels (side b leaves) ⊆ subtreeInputs (levels + 1) leaves := by
  cases leaves with
  | nil => exact absurd rfl h
  | cons leaf leaves =>
    cases b with
    | false => simp [subtreeInputs]
    | true => simp [subtreeInputs, besideInputs, besideInput, and_comm]

/-- **Only a leaf of a tree has siblings that lead to the root of the tree.** The induction is on
the way, from the root down: a branch that is not empty fixes the node below it. -/
theorem mem_of_rootAlong {S : List Bytes} (hS : ¬ Collision S) (hzero : ¬ HitsEmpty S)
    {leaf : Digest} (hleaf : leaf ≠ emptySubtree) :
    ∀ {way : List Bool} {siblings : List Digest} {leaves : Leaves},
      siblings.length = way.length → alongInputs leaf way siblings ⊆ S →
      subtreeInputs way.length leaves ⊆ S → (∀ other ∈ leaves, other.1.length = way.length) →
      rootAlong leaf way siblings = subtreeRoot way.length leaves → (way, leaf) ∈ leaves
  | [], [], leaves, _, _, _, hlen, h => by
    cases leaves with
    | nil => exact absurd h hleaf
    | cons first rest =>
      have hfirst : first.1 = [] := List.length_eq_zero_iff.mp (hlen _ List.mem_cons_self)
      have hnode : leaf = first.2 := h
      rw [hnode, ← hfirst]
      exact List.mem_cons_self
  | b :: way, sibling :: siblings, leaves, hcount, hin, htree, hlen, h => by
    have hne := rootAlong_ne hzero hleaf hin
    have hleaves : leaves ≠ [] := by
      rintro rfl
      exact hne h
    obtain ⟨hbranch, hbelow⟩ := subtreeInputs_succ way.length hleaves b
    rw [alongInputs_cons, List.append_subset] at hin
    rw [List.length_cons, subtreeRoot_succ hleaves b, rootAlong_cons] at h
    rw [rootAlong_cons] at hne
    obtain ⟨hnode, -⟩ := eq_of_branchBeside_eq hS hne hin.1 (List.Subset.trans hbranch htree) h
    exact mem_side.mp (mem_of_rootAlong hS hzero hleaf (Nat.succ.inj hcount) hin.2
      (List.Subset.trans hbelow htree)
      (fun other hother => Nat.succ.inj (hlen _ (mem_side.mp hother))) hnode)

/-! ## From the leaf up -/

/-- One more level below a leaf. -/
theorem rootAlong_concat (leaf : Digest) (b : Bool) (sibling : Digest) :
    ∀ {way : List Bool} {siblings : List Digest}, siblings.length = way.length →
      rootAlong leaf (way ++ [b]) (siblings ++ [sibling]) =
        rootAlong (branchBeside b leaf sibling) way siblings
  | [], [], _ => rfl
  | _ :: way, _ :: siblings, h => by
    rw [List.cons_append, List.cons_append, rootAlong_cons, rootAlong_cons,
      rootAlong_concat leaf b sibling (Nat.succ.inj h)]

theorem alongInputs_concat (leaf : Digest) (b : Bool) (sibling : Digest) :
    ∀ {way : List Bool} {siblings : List Digest}, siblings.length = way.length →
      alongInputs leaf (way ++ [b]) (siblings ++ [sibling]) =
        alongInputs (branchBeside b leaf sibling) way siblings ++ besideInputs b leaf sibling
  | [], [], _ => List.append_nil _
  | _ :: way, _ :: siblings, h => by
    rw [List.cons_append, List.cons_append, alongInputs_cons, alongInputs_cons,
      rootAlong_concat leaf b sibling (Nat.succ.inj h),
      alongInputs_concat leaf b sibling (Nat.succ.inj h), List.append_assoc]

/-- The sibling that a proof has for a level, and what is left of its list. -/
inductive Takes : (present : Bool) → List Bytes → Digest → List Bytes → Prop
  | listed (sibling : Digest) (rest : List Bytes) :
      Takes true (sibling.toList :: rest) sibling rest
  | absent (siblings : List Bytes) : Takes false siblings emptySubtree siblings

/-- **A level of a climb that arrives takes a sibling.** -/
theorem exists_takes {present right : Bool} {levels : List (Bool × Bool)} {siblings : List Bytes}
    {node : Digest} {r : Digest × List Bytes}
    (h : climb ((present, right) :: levels) siblings node = .ok r) :
    ∃ sibling rest, Takes present siblings sibling rest ∧
      climb levels rest (branchBeside right node sibling) = .ok r := by
  cases present with
  | false => exact ⟨_, _, .absent siblings, climb_absent.symm.trans h⟩
  | true =>
    cases siblings with
    | nil => cases h
    | cons raw siblings =>
      cases hraw : FixedBytes.ofList? 32 raw with
      | none =>
        rw [climb.eq_def] at h
        simp [hraw] at h
      | some sibling =>
        obtain rfl := FixedBytes.ofList?_eq_some_iff.mp hraw
        exact ⟨_, _, .listed sibling siblings, (climb_sibling sibling).symm.trans h⟩

theorem Takes.climbInputs {present : Bool} {siblings rest : List Bytes} {sibling : Digest}
    (h : Takes present siblings sibling rest) (right : Bool) (levels : List (Bool × Bool))
    (node : Digest) :
    climbInputs ((present, right) :: levels) siblings node =
      besideInputs right node sibling ++
        Sparse.climbInputs levels rest (branchBeside right node sibling) := by
  cases h with
  | absent => simp [Sparse.climbInputs]
  | listed => simp [Sparse.climbInputs]

/-- **A proof that leads to a root gives a sibling for each level.** They are listed from the root
down, as the way is. -/
theorem exists_along_of_climb : ∀ {levels : List (Bool × Bool)} {listed rest : List Bytes}
    {node root : Digest}, climb levels listed node = .ok (root, rest) →
    ∃ siblings, siblings.length = (levels.map Prod.snd).reverse.length ∧
      root = rootAlong node (levels.map Prod.snd).reverse siblings ∧
      alongInputs node (levels.map Prod.snd).reverse siblings ⊆ climbInputs levels listed node
  | [], _, _, _, _, h => by
    obtain ⟨rfl, -⟩ := Prod.mk.inj (Except.ok.inj h)
    exact ⟨[], rfl, rfl, List.nil_subset _⟩
  | (present, right) :: levels, listed, rest, node, root, h => by
    obtain ⟨sibling, left, htakes, hrest⟩ := exists_takes h
    obtain ⟨siblings, hlen, hroot, hin⟩ := exists_along_of_climb hrest
    refine ⟨siblings ++ [sibling], ?_, ?_, ?_⟩
    · simpa using hlen
    · rw [List.map_cons, List.reverse_cons, rootAlong_concat _ _ _ hlen]
      exact hroot
    · rw [List.map_cons, List.reverse_cons, alongInputs_concat _ _ _ hlen, htakes.climbInputs,
        List.append_subset]
      exact ⟨List.Subset.trans hin (List.subset_append_right _ _), List.subset_append_left _ _⟩

theorem length_bitmapBits {bitmap : Bytes} {bits : List Bool} (h : bitmapBits bitmap = .ok bits) :
    bits.length = depth := by
  unfold bitmapBits at h
  split at h
  · rw [← Except.ok.inj h, List.length_map, List.length_range]
  · cases h

theorem exists_along_of_rootOf {key root : Digest} {value : Bytes} {proof : Proof}
    (h : rootOf key value proof = .ok root) :
    ∃ siblings, siblings.length = (keyBits key).length ∧
      root = rootAlong (sparseLeafHash key value) (keyBits key) siblings ∧
      leafInputs key value ++ alongInputs (sparseLeafHash key value) (keyBits key) siblings ⊆
        rootOfInputs key value proof := by
  unfold rootOf at h
  obtain ⟨bits, hbits, h⟩ := Attempt.bind_eq_ok_iff.mp h
  obtain ⟨⟨computed, rest⟩, hclimb, h⟩ := Attempt.bind_eq_ok_iff.mp h
  have hroot : computed = root := by
    cases rest with
    | nil => exact Except.ok.inj h
    | cons raw rest => cases h
  have hway : ((bits.zip (keyBits key).reverse).map Prod.snd).reverse = keyBits key := by
    rw [List.map_snd_zip (by simp [length_bitmapBits hbits]), List.reverse_reverse]
  obtain ⟨siblings, hlen, hcomputed, hin⟩ := exists_along_of_climb hclimb
  rw [hway] at hlen hcomputed hin
  refine ⟨siblings, hlen, hroot.symm.trans hcomputed, ?_⟩
  rw [rootOfInputs, hbits]
  exact List.append_subset.mpr
    ⟨List.subset_append_left _ _, List.Subset.trans hin (List.subset_append_right _ _)⟩

/-! ## Trees -/

theorem includes_eq_true_iff {root key : Digest} {value : Bytes} {proof : Proof} :
    includes root key value proof = true ↔ rootOf key value proof = .ok root := by
  unfold includes
  cases rootOf key value proof with
  | error e => simp
  | ok computed => simp

namespace Tree

/-- **A proof against the root of a tree shows one of its leaves**, whatever the proof is. -/
theorem getElem?_entries_of_includes {S : List Bytes} (hS : ¬ Collision S) (hzero : ¬ HitsEmpty S)
    {tree : Tree} (htree : subtreeInputs depth tree.leaves ⊆ S) {key : Digest} {value : Bytes}
    {proof : Proof} (hproof : rootOfInputs key value proof ⊆ S)
    (h : includes tree.root key value proof = true) :
    tree.entries[key]? = some (sparseLeafHash key value) := by
  obtain ⟨siblings, hlen, hroot, hin⟩ := exists_along_of_rootOf (includes_eq_true_iff.mp h)
  have hsub := List.append_subset.mp (List.Subset.trans hin hproof)
  have hleaf : sparseLeafHash key value ≠ emptySubtree := fun h =>
    hzero ⟨sparseLeafInput key value, hsub.1 (by simp [leafInputs]), h⟩
  rw [root, ← length_keyBits key] at hroot
  rw [← length_keyBits key] at htree
  exact mem_leaves.mp (mem_of_rootAlong hS hzero hleaf hlen hsub.2 htree
    (fun other hother => (length_of_mem_leaves hother).trans (length_keyBits key).symm) hroot.symm)

/-! ## Inserts -/

/-- The tree after some inserts into an empty one. -/
def ofInserts (inserts : List (Digest × Bytes)) : Tree :=
  inserts.foldl (fun tree record => tree.insert record.1 record.2) empty

/-- The value last inserted under a key. -/
def lastValue? (inserts : List (Digest × Bytes)) (key : Digest) : Option Bytes :=
  inserts.reverse.lookup key

/-- The strings that are hashed for some inserts and for the root of the tree after them. -/
def insertInputs (inserts : List (Digest × Bytes)) : List Bytes :=
  inserts.flatMap (fun record => leafInputs record.1 record.2) ++
    subtreeInputs depth (ofInserts inserts).leaves

theorem ofInserts_concat (inserts : List (Digest × Bytes)) (key : Digest) (value : Bytes) :
    ofInserts (inserts ++ [(key, value)]) = (ofInserts inserts).insert key value := by
  rw [ofInserts, List.foldl_append]
  rfl

theorem lastValue?_concat (inserts : List (Digest × Bytes)) (other key : Digest) (value : Bytes) :
    lastValue? (inserts ++ [(other, value)]) key =
      if key = other then some value else lastValue? inserts key := by
  rw [lastValue?, List.reverse_append, List.reverse_singleton, List.singleton_append]
  by_cases h : key = other
  · rw [h, List.lookup_cons_self, if_pos rfl]
  · rw [List.lookup_cons, beq_false_of_ne h, if_neg h]
    rfl

/-- **A tree has for each key the leaf of the value last inserted.** -/
theorem getElem?_entries_ofInserts (inserts : List (Digest × Bytes)) (key : Digest) :
    (ofInserts inserts).entries[key]? = (lastValue? inserts key).map (sparseLeafHash key) := by
  induction inserts using List.reverseRecOn with
  | nil => exact Std.ExtTreeMap.getElem?_empty
  | append_singleton inserts record ih =>
    obtain ⟨other, value⟩ := record
    rw [ofInserts_concat, lastValue?_concat, insert, Std.ExtTreeMap.getElem?_insert]
    by_cases h : key = other
    · subst h
      simp
    · rw [if_neg (by simpa using Ne.symm h), if_neg h, ih]

/-- The key of a value has been inserted with it. -/
theorem mem_of_lastValue? {inserts : List (Digest × Bytes)} {key : Digest} {value : Bytes}
    (h : lastValue? inserts key = some value) : (key, value) ∈ inserts := by
  obtain ⟨before, after, hsplit, -⟩ := List.lookup_eq_some_iff.mp h
  rw [← List.mem_reverse, hsplit]
  exact List.mem_append_right _ List.mem_cons_self

theorem isSome_lastValue?_iff {inserts : List (Digest × Bytes)} {key : Digest} :
    (lastValue? inserts key).isSome = true ↔ key ∈ inserts.map Prod.fst := by
  induction inserts using List.reverseRecOn with
  | nil => simp [lastValue?]
  | append_singleton inserts record ih =>
    obtain ⟨other, value⟩ := record
    rw [lastValue?_concat, List.map_append, List.mem_append, ← ih]
    by_cases h : key = other <;> simp [h]

theorem holds_of_lastValue? {inserts : List (Digest × Bytes)} {key : Digest} {value : Bytes}
    (h : lastValue? inserts key = some value) : (ofInserts inserts).Holds key value :=
  ⟨by rw [getElem?_entries_ofInserts, h]; rfl⟩

theorem isSome_prove_iff {tree : Tree} {key : Digest} :
    (tree.prove key).isSome = true ↔ (tree.entries[key]?).isSome = true := by
  rw [prove, ← Std.ExtTreeMap.contains_eq_isSome_getElem?]
  split <;> simp [*]

/-- The tree proves the keys that have been inserted. -/
theorem isSome_prove_ofInserts_iff {inserts : List (Digest × Bytes)} {key : Digest} :
    ((ofInserts inserts).prove key).isSome = true ↔ key ∈ inserts.map Prod.fst := by
  rw [isSome_prove_iff, getElem?_entries_ofInserts, Option.isSome_map, isSome_lastValue?_iff]

/-- The tree depends only on the value last inserted under each key. -/
theorem ofInserts_congr {inserts other : List (Digest × Bytes)}
    (h : ∀ key, lastValue? other key = lastValue? inserts key) :
    ofInserts other = ofInserts inserts := by
  have hentries : (ofInserts other).entries = (ofInserts inserts).entries :=
    Std.ExtTreeMap.ext_getElem? fun key => by
      rw [getElem?_entries_ofInserts, getElem?_entries_ofInserts, h key]
  exact congrArg Tree.mk hentries

/-- **Only the value last inserted under a key can be proven**, unless hashed strings collide or
one of them hashes to an empty subtree. -/
theorem lastValue?_of_includes {inserts : List (Digest × Bytes)} {key : Digest} {value : Bytes}
    {proof : Proof} (hS : ¬ Collision (insertInputs inserts ++ rootOfInputs key value proof))
    (hzero : ¬ HitsEmpty (insertInputs inserts ++ rootOfInputs key value proof))
    (h : includes (ofInserts inserts).root key value proof = true) :
    lastValue? inserts key = some value := by
  have hinputs := List.Subset.refl (insertInputs inserts ++ rootOfInputs key value proof)
  rw [List.append_subset] at hinputs
  obtain ⟨hinserts, hproof⟩ := hinputs
  have hentry := getElem?_entries_of_includes hS hzero
    (List.Subset.trans (List.subset_append_right _ _) hinserts) hproof h
  rw [getElem?_entries_ofInserts] at hentry
  obtain ⟨last, hlast, hhash⟩ := Option.map_eq_some_iff.mp hentry
  have hstored : leafInputs key last ⊆ insertInputs inserts := fun input hmem =>
    List.mem_append_left _ (List.mem_flatMap.mpr ⟨_, mem_of_lastValue? hlast, hmem⟩)
  obtain ⟨siblings, -, -, hshown⟩ := exists_along_of_rootOf (includes_eq_true_iff.mp h)
  have hleaf := (List.append_subset.mp (List.Subset.trans hshown hproof)).1
  rw [hlast, eq_of_sparseLeafHash_eq hS (List.Subset.trans hstored hinserts) hleaf hhash]

/-- **A tree holds exactly the values last inserted.** It proves the keys that have been inserted,
and the proof of a key is accepted for the value last inserted under it. Its root depends on these
values only, not on the order of the inserts nor on values that were replaced. Whatever is accepted
against this root, with whatever proof, is one of these values, unless two of the strings hashed for
the inserts, for the root and for the proof collide or one of them hashes to an empty subtree. -/
theorem ofInserts_exact (inserts : List (Digest × Bytes)) :
    (∀ key, ((ofInserts inserts).prove key).isSome = true ↔ key ∈ inserts.map Prod.fst) ∧
    (∀ key proof, (ofInserts inserts).prove key = some proof →
      ∃ value, lastValue? inserts key = some value ∧
        includes (ofInserts inserts).root key value proof = true) ∧
    (∀ other : List (Digest × Bytes), (∀ key, lastValue? other key = lastValue? inserts key) →
      (ofInserts other).root = (ofInserts inserts).root) ∧
    (∀ key value proof, includes (ofInserts inserts).root key value proof = true →
      Collision (insertInputs inserts ++ rootOfInputs key value proof) ∨
        HitsEmpty (insertInputs inserts ++ rootOfInputs key value proof) ∨
        lastValue? inserts key = some value) := by
  refine ⟨fun key => isSome_prove_ofInserts_iff, fun key proof hproof => ?_,
    fun other h => congrArg root (ofInserts_congr h), fun key value proof h => ?_⟩
  · have hkey : key ∈ inserts.map Prod.fst :=
      isSome_prove_ofInserts_iff.mp (Option.isSome_of_eq_some hproof)
    obtain ⟨value, hvalue⟩ := Option.isSome_iff_exists.mp (isSome_lastValue?_iff.mpr hkey)
    obtain ⟨shown, hshown, hincludes⟩ := (holds_of_lastValue? hvalue).includes_prove
    obtain rfl : proof = shown := Option.some.inj (hproof.symm.trans hshown)
    exact ⟨value, hvalue, hincludes⟩
  · refine or_iff_not_imp_left.mpr fun hS => or_iff_not_imp_left.mpr fun hzero => ?_
    exact lastValue?_of_includes hS hzero h

end Tree

end ChainHub.Sparse
