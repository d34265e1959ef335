import ChainHub.Proofs.Hub.Rollback

/-!
# Snapshots restore exactly

A snapshot says only how long the journal and the list of events were. That is enough: whatever is
written, erased and told after it, however often and in whatever places, the journal entries beyond
this length lead back to the context that the snapshot was taken of. Snapshots may be nested, and
restoring one leaves it and all older ones as good as they were.

* `Context.Op`: what can be done with a request in progress, any number of snapshots included.
* `Context.Since`: the present context can be taken back to an earlier one, by the snapshot of then
  or by way of any that was taken later.
* `Since.run`, `Since.runAll`: no operation changes that, unless it restores an older snapshot.
* `Op.runAll_restores`: a snapshot gives back the very context that it was taken of.
-/

namespace ChainHub.Context

/-! ## Operations -/

/-- What can be done with a request in progress. -/
inductive Op
  | save (slot : Slot) (value : slot.Value)
  | erase (slot : Slot)
  | emit (event : Event)
  | snapshot
  /-- Restores a snapshot by its number; the first one that is taken has the number 0. -/
  | restore (number : Nat)

namespace Op

/-- Carries out an operation, given the snapshots so far, and returns the snapshots after it. -/
def run (op : Op) (taken : List Snapshot) : HubM (List Snapshot) := do
  match op with
  | save slot value =>
    HubM.save slot value
    return taken
  | erase slot =>
    HubM.erase slot
    return taken
  | emit event =>
    HubM.emit event
    return taken
  | snapshot => return taken ++ [← HubM.snapshot]
  | restore number =>
    match taken[number]? with
    | some s => HubM.restore s
    | none => pure ()
    return taken

/-- Carries out operations in order. -/
def runAll : List Op → List Snapshot → HubM (List Snapshot)
  | [], taken => return taken
  | op :: rest, taken => do runAll rest (← op.run taken)

end Op

/-! ## Taking back later -/

variable {c c₁ : Context} {taken : List Snapshot} {number : Nat}

/-- Going back to a later point keeps the way back open. -/
theorem RevertsTo.restore (h : c₁.RevertsTo c) {s : Snapshot}
    (hjournal : c.journal.length ≤ s.journal) (hevents : c.events.length ≤ s.events) :
    (c₁.restore s).RevertsTo c :=
  (c₁.restore_restore c.snapshot s hjournal hevents).trans h

/-- The context `c₁` can be taken back to `c`: by the snapshot of this number, which was taken of
`c`, also after any later one has been restored. -/
structure Since (c : Context) (number : Nat) (taken : List Snapshot) (c₁ : Context) : Prop where
  reverts : c₁.RevertsTo c
  taken_eq : taken[number]? = some c.snapshot
  later : ∀ s ∈ taken.drop number, c.journal.length ≤ s.journal ∧ c.events.length ≤ s.events

/-- A snapshot that has just been taken. -/
theorem since_snapshot (c : Context) (taken : List Snapshot) :
    Since c taken.length (taken ++ [c.snapshot]) c where
  reverts := .refl c
  taken_eq := List.getElem?_concat_length
  later := by
    rw [List.drop_left, List.forall_mem_singleton]
    exact ⟨Nat.le_refl _, Nat.le_refl _⟩

/-- One more snapshot is later than those before it. -/
theorem Since.snapshot (h : Since c number taken c₁) :
    Since c number (taken ++ [c₁.snapshot]) c₁ := by
  obtain ⟨hlt, -⟩ := List.getElem?_eq_some_iff.mp h.taken_eq
  refine ⟨h.reverts, by rw [List.getElem?_append_left hlt, h.taken_eq], ?_⟩
  rw [List.drop_append_of_le_length (Nat.le_of_lt hlt), List.forall_mem_append,
    List.forall_mem_singleton]
  exact ⟨h.later, h.reverts.journal_length_le, h.reverts.events_length_le⟩

/-- A snapshot of no lower number is no older. -/
theorem Since.later_of_le (h : Since c number taken c₁) {n : Nat} {s : Snapshot} (hn : number ≤ n)
    (hs : taken[n]? = some s) : c.journal.length ≤ s.journal ∧ c.events.length ≤ s.events := by
  refine h.later s (List.mem_of_getElem? (i := n - number) ?_)
  rw [List.getElem?_drop, Nat.add_sub_cancel' hn, hs]

/-- **No operation closes the way back**, unless it restores an older snapshot. -/
theorem Since.run (h : Since c number taken c₁) {op : Op}
    (hop : ∀ n, op = .restore n → number ≤ n) :
    ∃ next c₂, op.run taken c₁ = .ok next c₂ ∧ Since c number next c₂ := by
  cases op with
  | save slot value =>
    exact ⟨taken, _, rfl, { h with reverts := h.reverts.trans (revertsTo_write c₁ slot _) }⟩
  | erase slot =>
    exact ⟨taken, _, rfl, { h with reverts := h.reverts.trans (revertsTo_write c₁ slot _) }⟩
  | emit event =>
    exact ⟨taken, _, rfl, { h with reverts := h.reverts.trans (revertsTo_emit c₁ event) }⟩
  | snapshot => exact ⟨_, c₁, rfl, h.snapshot⟩
  | restore n =>
    cases hs : taken[n]? with
    | none => exact ⟨taken, c₁, by simp only [Op.run, hs]; rfl, h⟩
    | some s =>
      obtain ⟨hjournal, hevents⟩ := h.later_of_le (hop n rfl) hs
      exact ⟨taken, c₁.restore s, by simp only [Op.run, hs]; rfl,
        { h with reverts := h.reverts.restore hjournal hevents }⟩

theorem Since.runAll : ∀ {ops : List Op} {taken : List Snapshot} {c₁ : Context},
    Since c number taken c₁ → (∀ n, .restore n ∈ ops → number ≤ n) →
    ∃ next c₂, Op.runAll ops taken c₁ = .ok next c₂ ∧ Since c number next c₂
  | [], taken, c₁, h, _ => ⟨taken, c₁, rfl, h⟩
  | op :: rest, taken, c₁, h, hops => by
    obtain ⟨mid, c₂, hmid, hsince⟩ := h.run fun n hn => hops n (hn ▸ List.mem_cons_self)
    obtain ⟨next, c₃, hnext, hlast⟩ :=
      hsince.runAll fun n hn => hops n (List.mem_cons_of_mem op hn)
    exact ⟨next, c₃, (bind_of_ok hmid).trans hnext, hlast⟩

/-- The snapshot itself is the way back. -/
theorem Since.restore (h : Since c number taken c₁) :
    (Op.restore number).run taken c₁ = .ok taken c := by
  simp only [Op.run, h.taken_eq]
  exact bind_of_ok (HubM.restore_of_revertsTo h.reverts)

/-! ## Snapshots -/

namespace Op

theorem runAll_append : ∀ {first : List Op} {more : List Op} {taken next : List Snapshot}
    {c c₁ : Context}, runAll first taken c = .ok next c₁ →
    runAll (first ++ more) taken c = runAll more next c₁
  | [], _, _, _, _, _, h => by
    cases h
    rfl
  | op :: rest, more, taken, next, c, c₁, h => by
    obtain ⟨mid, c₂, hmid, hrest⟩ := bind_eq_ok_iff.mp h
    exact (bind_of_ok hmid).trans (runAll_append hrest)

/-- **A snapshot restores exactly what was there when it was taken**: every place of the store, the
events and the journal. It does so whatever has been done since, as long as no snapshot older than
it has been restored. Those taken later may have been, in any order and any number of times, and so
may the snapshot itself. -/
theorem runAll_restores (c : Context) (taken : List Snapshot) (ops : List Op)
    (h : ∀ n, .restore n ∈ ops → taken.length ≤ n) :
    ∃ all, runAll (.snapshot :: ops ++ [.restore taken.length]) taken c = .ok all c := by
  obtain ⟨all, c₁, hops, hsince⟩ := (since_snapshot c taken).runAll h
  refine ⟨all, ?_⟩
  have hfirst : runAll (.snapshot :: ops) taken c = .ok all c₁ := hops
  rw [runAll_append hfirst]
  exact bind_of_ok hsince.restore

/-- A cell is written, emptied and written again around two snapshots, and both are restored, the
older one of them twice. -/
def nested : List Op :=
  [.save (.cell "a") [1], .snapshot, .erase (.cell "a"), .save (.cell "b") [2],
    .emit (.custom "told" []), .snapshot, .save (.cell "a") [3], .restore 3, .restore 2,
    .erase (.cell "a"), .restore 2, .save (.cell "b") [4]]

/-- The snapshot of number 1 is taken before these operations and restored after them. The one of
number 0 is older and is left alone. -/
theorem runAll_restores_nested :
    (∀ n, .restore n ∈ nested → [Snapshot.mk 0 0].length ≤ n) ∧
      ∃ all, runAll (.snapshot :: nested ++ [.restore [Snapshot.mk 0 0].length]) [⟨0, 0⟩]
          ((start .empty default (ChainId.mainchain 4)).write (.cell "a") (some [7])) =
        .ok all ((start .empty default (ChainId.mainchain 4)).write (.cell "a") (some [7])) := by
  have h : ∀ n, .restore n ∈ nested → [Snapshot.mk 0 0].length ≤ n := by
    intro n hn
    simp only [nested, List.mem_cons, reduceCtorEq, restore.injEq, List.not_mem_nil, or_false,
      false_or] at hn
    rw [List.length_singleton]
    omega
  exact ⟨h, runAll_restores _ _ nested h⟩

end Op

end ChainHub.Context
