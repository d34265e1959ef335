import ChainHub.Hub.Answer
import ChainHub.Proofs.Hub.Run
import Mathlib.Data.List.Sort

/-!
# Page after page shows every chain once

A client reads the chain accounts in pages. It asks for the first page, then for the one after the
last id that it was shown, and so on until a page is empty.

* `Store.ListsAbove`, `Store.listsAbove_accountsAbove`: the accounts above a byte string of any
  length, which need not be the id of a chain.
* `pageSize`, `Query.answer_chainAccounts`: a page has the first of them.
* `Store.accountsAbove_last`: what lies above the last account of a page is what the page left out,
  so one page goes on where the one before it ends.
* `Browses`, `Browses.flatten_eq`, `exists_browses`: the pages that a client is shown, one after the
  other, are what lies above its first byte string, and there is an end to them.
* `browses_every_account`: what a client is shown page by page, and on a single page.
-/

namespace ChainHub

/-- Tables are in the lexicographic order of bytes. -/
theorem compare_bytes_eq_lt_iff : ∀ {a b : Bytes}, compare a b = .lt ↔ a < b
  | [], [] => by simp
  | [], _ :: _ => by simp
  | _ :: _, [] => by simp
  | x :: a, y :: b => by
    rw [List.compare_cons_cons, List.cons_lt_cons_iff, Ordering.then_eq_lt, Std.compare_eq_lt,
      compare_bytes_eq_lt_iff, Std.LawfulEqOrd.compare_eq_iff_eq]

namespace Store

variable {s : Store} {start : Option Bytes}

/-! ## The accounts above a byte string -/

/-- The list has the accounts whose ids are above a byte string, or all accounts if there is none,
in ascending order of their ids. -/
structure ListsAbove (s : Store) (start : Option Bytes)
    (accounts : List (ChainId × ChainAccount)) : Prop where
  ascending : accounts.Pairwise fun a b => a.1.toList < b.1.toList
  mem_iff : ∀ id account, (id, account) ∈ accounts ↔
    s.get (.account id) = some account ∧ ∀ bytes ∈ start, bytes < id.toList

/-- The accounts whose ids are above a byte string. -/
def accountsAbove (s : Store) (start : Option Bytes) : List (ChainId × ChainAccount) :=
  s.accountList.filter fun e => start.all fun bytes => bytes < e.1.toList

theorem accountList_ascending (s : Store) :
    s.accountList.Pairwise fun a b => a.1.toList < b.1.toList :=
  (Std.ExtTreeMap.ordered_keys_toList (t := s.accounts)).imp fun h =>
    compare_bytes_eq_lt_iff.mp h

theorem mem_accountsAbove_iff {e : ChainId × ChainAccount} :
    e ∈ s.accountsAbove start ↔
      s.get (.account e.1) = some e.2 ∧ ∀ bytes ∈ start, bytes < e.1.toList := by
  have hall : e ∈ s.accountList ↔ s.get (.account e.1) = some e.2 :=
    Std.ExtTreeMap.mem_toList_iff_getElem?_eq_some
  rw [accountsAbove, List.mem_filter, hall, Option.all_eq_true]
  simp only [decide_eq_true_eq]
  rfl

theorem listsAbove_accountsAbove (s : Store) (start : Option Bytes) :
    s.ListsAbove start (s.accountsAbove start) where
  ascending := s.accountList_ascending.sublist List.filter_sublist
  mem_iff _ _ := mem_accountsAbove_iff

/-- No other list has the accounts above a byte string in this way. -/
theorem ListsAbove.eq_accountsAbove {accounts : List (ChainId × ChainAccount)}
    (h : s.ListsAbove start accounts) : accounts = s.accountsAbove start := by
  have hlists := s.listsAbove_accountsAbove start
  have hmem : ∀ e, e ∈ accounts ↔ e ∈ s.accountsAbove start := fun e =>
    (h.mem_iff e.1 e.2).trans (hlists.mem_iff e.1 e.2).symm
  have : Std.Irrefl fun a b : ChainId × ChainAccount => a.1.toList < b.1.toList :=
    ⟨fun _ => List.lt_irrefl _⟩
  have : Std.Antisymm fun a b : ChainId × ChainAccount => a.1.toList < b.1.toList :=
    ⟨fun _ _ hlt hgt => absurd hgt (List.lt_asymm hlt)⟩
  exact h.ascending.eq_of_mem_iff hlists.ascending hmem

/-- **What lies above the last account of a page is what the page left out.** -/
theorem accountsAbove_last {front rest : List (ChainId × ChainAccount)}
    {last : ChainId × ChainAccount} (h : s.accountsAbove start = front ++ last :: rest) :
    s.accountsAbove (some last.1.toList) = rest := by
  have hmem : last ∈ s.accountsAbove start := by simp [h]
  have hlast := (mem_accountsAbove_iff.mp hmem).2
  -- whatever is above the last account is above the first byte string, too
  have hwithin : s.accountsAbove (some last.1.toList) =
      (s.accountsAbove start).filter fun e => last.1.toList < e.1.toList := by
    rw [accountsAbove, accountsAbove, List.filter_filter]
    refine List.filter_congr fun e _ => ?_
    rw [Option.all_some, eq_comm, Bool.and_eq_left_iff_imp, Option.all_eq_true]
    intro habove bytes hbytes
    exact decide_eq_true (List.lt_trans (hlast bytes hbytes) (of_decide_eq_true habove))
  have hascending := (s.listsAbove_accountsAbove start).ascending
  rw [h, List.pairwise_append, List.pairwise_cons] at hascending
  obtain ⟨-, ⟨hrest, -⟩, hfront⟩ := hascending
  rw [hwithin, h, List.filter_append, List.filter_cons_of_neg (by simp)]
  have hnone : front.filter (fun e => decide (last.1.toList < e.1.toList)) = [] :=
    List.filter_eq_nil_iff.mpr fun e he => by
      simpa using List.lt_asymm (hfront e he last (by simp))
  have hall : rest.filter (fun e => decide (last.1.toList < e.1.toList)) = rest :=
    List.filter_eq_self.mpr fun e he => decide_eq_true (hrest e he)
  rw [hnone, hall, List.nil_append]

end Store

/-! ## Pages -/

/-- How many accounts there are on a page, at most. -/
def pageSize (limit : Option UInt32) : Nat := min (limit.elim 10 UInt32.toNat) 50

theorem pageSize_pos {limit : Option UInt32} (h : limit ≠ some 0) : 0 < pageSize limit := by
  unfold pageSize
  cases limit with
  | none => decide
  | some limit =>
    have hlimit : limit ≠ 0 := fun heq => h (congrArg some heq)
    have hpos : 0 < limit.toNat := Nat.pos_of_ne_zero fun heq => hlimit (UInt32.toNat_inj.mp heq)
    exact Nat.lt_min.mpr ⟨hpos, by decide⟩

/-- **A page has the first accounts above a byte string.** -/
theorem Query.answer_chainAccounts (s : Store) (now : UInt64) (start : Option Bytes)
    (limit : Option UInt32) :
    answer s now (.chainAccounts start limit) =
      .ok (.chainAccounts ((s.accountsAbove start).take (pageSize limit))) := rfl

/-- A client is shown these pages: the first one above a byte string, each other one above the last
id before it, until a page is empty. -/
inductive Browses (s : Store) (now : UInt64) (limit : Option UInt32) :
    Option Bytes → List (List (ChainId × ChainAccount)) → Prop
  | done {start : Option Bytes}
      (h : Query.answer s now (.chainAccounts start limit) = .ok (.chainAccounts [])) :
      Browses s now limit start []
  | next {start : Option Bytes} {page : List (ChainId × ChainAccount)}
      {last : ChainId × ChainAccount} {pages : List (List (ChainId × ChainAccount))}
      (h : Query.answer s now (.chainAccounts start limit) = .ok (.chainAccounts page))
      (hlast : page.getLast? = some last)
      (rest : Browses s now limit (some last.1.toList) pages) :
      Browses s now limit start (page :: pages)

section

variable {s : Store} {now : UInt64} {limit : Option UInt32} {start : Option Bytes}
  {page : List (ChainId × ChainAccount)}

/-- Above the last account of a page is what comes after the page. -/
theorem Store.accountsAbove_next {last : ChainId × ChainAccount} {size : Nat}
    (hlast : ((s.accountsAbove start).take size).getLast? = some last) :
    s.accountsAbove (some last.1.toList) = (s.accountsAbove start).drop size := by
  obtain ⟨front, hfront⟩ := List.getLast?_eq_some_iff.mp hlast
  have hsplit : s.accountsAbove start = front ++ last :: (s.accountsAbove start).drop size := by
    rw [List.append_cons, ← hfront, List.take_append_drop]
  exact Store.accountsAbove_last hsplit

/-- **The pages are what lies above the first byte string**, one after the other. -/
theorem Browses.flatten_eq {pages : List (List (ChainId × ChainAccount))} (hlimit : limit ≠ some 0)
    (h : Browses s now limit start pages) : pages.flatten = s.accountsAbove start := by
  induction h with
  | done h =>
    rw [Query.answer_chainAccounts, Except.ok.injEq, Answer.chainAccounts.injEq,
      List.take_eq_nil_iff] at h
    exact (h.resolve_left (Nat.pos_iff_ne_zero.mp (pageSize_pos hlimit))).symm
  | next h hlast _ ih =>
    rw [Query.answer_chainAccounts] at h
    cases h
    rw [List.flatten_cons, ih, Store.accountsAbove_next hlast, List.take_append_drop]

/-- **There is an end to the pages**, since each of them leaves fewer accounts. -/
theorem exists_browses (s : Store) (now : UInt64) (hlimit : limit ≠ some 0)
    (start : Option Bytes) : ∃ pages, Browses s now limit start pages := by
  have hpos := pageSize_pos hlimit
  induction hleft : (s.accountsAbove start).length using Nat.strong_induction_on generalizing start
    with
  | _ left ih =>
    have hanswer := Query.answer_chainAccounts s now start limit
    cases hlast : ((s.accountsAbove start).take (pageSize limit)).getLast? with
    | none =>
      rw [List.getLast?_eq_none_iff.mp hlast] at hanswer
      exact ⟨[], .done hanswer⟩
    | some last =>
      have hnext := Store.accountsAbove_next hlast
      have hfewer : (s.accountsAbove (some last.1.toList)).length < left := by
        have hne : s.accountsAbove start ≠ [] := by
          intro hnil
          rw [hnil, List.take_nil] at hlast
          cases hlast
        have hlen := List.length_pos_iff.mpr hne
        rw [hnext, List.length_drop]
        omega
      obtain ⟨pages, hpages⟩ := ih _ hfewer _ rfl
      exact ⟨_, .next hanswer hlast hpages⟩

end

/-- **Page after page a client is shown every account once**, in ascending order of the ids, and a
single page has the first accounts above any byte string. -/
theorem browses_every_account (r : Run) (now : UInt64) :
    (∀ limit : Option UInt32, limit ≠ some 0 →
      (∃ pages, Browses r.store now limit none pages) ∧
      ∀ pages, Browses r.store now limit none pages → r.store.ListsAbove none pages.flatten) ∧
    ∀ (start : Option Bytes) (limit : Option UInt32),
      ∃ accounts, r.store.ListsAbove start accounts ∧
        Query.answer r.store now (.chainAccounts start limit) =
          .ok (.chainAccounts (accounts.take (min (limit.elim 10 UInt32.toNat) 50))) := by
  constructor
  · intro limit hlimit
    refine ⟨exists_browses _ _ hlimit _, fun pages hpages => ?_⟩
    rw [hpages.flatten_eq hlimit]
    exact r.store.listsAbove_accountsAbove none
  · intro start limit
    exact ⟨_, r.store.listsAbove_accountsAbove start, Query.answer_chainAccounts ..⟩

/-- A run in which three chains register, not in the order of their ids. -/
def Run.crowded : Run :=
  { Run.silent with
    calls := [([0, 1, 0, 0], "gamma"), ([0, 0, 0, 1], "alpha"), ([0, 0, 1, 0], "beta")].map
      fun (id, name) => ⟨⟨1, 100⟩, [], .register ⟨id, name, [⟨List.replicate 48 1, 1⟩], 1⟩⟩ }

/-- With two accounts on a page, three chains are shown in the order of their ids. -/
theorem browses_every_account_crowded :
    (some 2 : Option UInt32) ≠ some 0 ∧
      ∃ pages, Browses Run.crowded.store 300 (some 2) none pages ∧
        pages.flatten.map (fun e => e.1.toList) =
          [[0, 0, 0, 1], [0, 0, 1, 0], [0, 1, 0, 0]] := by
  have hlimit : (some 2 : Option UInt32) ≠ some 0 := by decide
  obtain ⟨⟨pages, hpages⟩, hall⟩ := (browses_every_account Run.crowded 300).1 _ hlimit
  refine ⟨hlimit, pages, hpages, ?_⟩
  rw [(hall pages hpages).eq_accountsAbove]
  decide +kernel

end ChainHub
