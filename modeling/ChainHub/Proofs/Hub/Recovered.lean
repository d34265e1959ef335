import ChainHub.Proofs.Hub.Application

/-!
# What is left of a recovery

The messages of a recovery are delivered one after the other. A message that is refused by a hook or
on delivery is taken back before the next one, so that its report is all that is left of it, however
many modules had worked on it. The frozen outbox is replaced all the same, by that of the recovered
forms of all messages.

* `Recovery.Handles`: how messages are handled in order, one constructor for each way in which the
  delivery of a message can end.
* `Recovery.Aborts`: the delivery of one of them is aborted, and the whole recovery with it.
* `Recovery.recoverMessages_eq_ok_or_aborts`: the messages are handled, whatever the modules do.
* `Recovery.perform_eq_ok_or_aborts`: the recovery succeeds, and the record that it stores does not
  depend on what became of the messages.
-/

namespace ChainHub.Recovery

open HubM

/-- The messages are handled in order from one context to the other, and so many of them are not
discarded. -/
inductive Handles (r : Registry) : List Message → Context → Nat → Context → Prop
  | nil (c : Context) : Handles r [] c 0 c
  /-- What a message does when it is delivered stays. -/
  | delivered {m : Message} {rest : List Message} {c c₁ c₂ : Context} {d : Disposition} {n : Nat}
    (hm : deliverRecovered r m.recovered c = .ok d c₁) (hrest : Handles r rest c₁ n c₂) :
    Handles r (m :: rest) c ((if d = .discarded then 0 else 1) + n) c₂
  /-- Of a message that is refused there is nothing left but a report. -/
  | refused {m : Message} {rest : List Message} {c c' c₂ : Context} {e : HubError} {n : Nat}
    (hm : deliverRecovered r m.recovered c = .error (.error e) c')
    (hrest : Handles r rest (c.emit (.processed m.recovered .discarded .failed)) n c₂) :
    Handles r (m :: rest) c n c₂

/-- The messages are handled in order up to one whose delivery is aborted. -/
inductive Aborts (r : Registry) : List Message → Context → Prop
  | here {m : Message} {rest : List Message} {c c' : Context}
    (hm : deliverRecovered r m.recovered c = .error .abort c') : Aborts r (m :: rest) c
  | delivered {m : Message} {rest : List Message} {c c₁ : Context} {d : Disposition}
    (hm : deliverRecovered r m.recovered c = .ok d c₁) (hrest : Aborts r rest c₁) :
    Aborts r (m :: rest) c
  | refused {m : Message} {rest : List Message} {c c' : Context} {e : HubError}
    (hm : deliverRecovered r m.recovered c = .error (.error e) c')
    (hrest : Aborts r rest (c.emit (.processed m.recovered .discarded .failed))) :
    Aborts r (m :: rest) c

section

variable {r : Registry} {m : Message} {c c₁ : Context}

/-! ## One message -/

theorem recoverMessages_of_ok {d : Disposition} (hm : deliverRecovered r m.recovered c = .ok d c₁)
    (rest : List Message) (delivered : Nat) :
    recoverMessages r (m :: rest) delivered c =
      recoverMessages r rest (delivered + if d = .discarded then 0 else 1) c₁ := by
  have hattempt : (attempt (deliverRecovered r m.recovered)) c = .ok (.ok d) c₁ := attempt_of_ok hm
  refine (bind_of_ok (show snapshot c = .ok c.snapshot c from rfl)).trans
    ((bind_of_ok hattempt).trans ?_)
  cases d with
  | discarded => rfl
  | _ => rfl

/-- **A refused message is taken back** before the next one. -/
theorem recoverMessages_of_refused (hr : r.Journaled) {e : HubError}
    (hm : deliverRecovered r m.recovered c = .error (.error e) c₁) (rest : List Message)
    (delivered : Nat) :
    recoverMessages r (m :: rest) delivered c =
      recoverMessages r rest delivered (c.emit (.processed m.recovered .discarded .failed)) := by
  have hreverts : c₁.RevertsTo c :=
    ((leads_deliverRecovered hr m.recovered).of_error hm).revertsTo
  refine (bind_of_ok (show snapshot c = .ok c.snapshot c from rfl)).trans
    ((bind_of_ok (attempt_of_refused hm)).trans ?_)
  exact (bind_of_ok (restore_of_revertsTo hreverts)).trans rfl

theorem recoverMessages_of_abort (hm : deliverRecovered r m.recovered c = .error .abort c₁)
    (rest : List Message) (delivered : Nat) :
    recoverMessages r (m :: rest) delivered c = .error .abort c₁ :=
  (bind_of_ok (show snapshot c = .ok c.snapshot c from rfl)).trans
    (bind_of_error (attempt_of_abort hm))

/-! ## All messages -/

/-- **Messages are handled one after the other**, unless a delivery is aborted. -/
theorem recoverMessages_eq_ok_or_aborts (hr : r.Journaled) (messages : List Message)
    (delivered : Nat) (c : Context) :
    (∃ n c₁, Handles r messages c n c₁ ∧
      recoverMessages r messages delivered c = .ok (delivered + n) c₁) ∨
      Aborts r messages c ∧
        ∃ c', recoverMessages r messages delivered c = .error .abort c' := by
  induction messages generalizing delivered c with
  | nil => exact Or.inl ⟨0, c, .nil c, rfl⟩
  | cons m rest ih =>
    cases hm : deliverRecovered r m.recovered c with
    | ok d c₁ =>
      rw [recoverMessages_of_ok hm]
      rcases ih (delivered + if d = .discarded then 0 else 1) c₁ with
        ⟨n, c₂, hhandles, hrun⟩ | ⟨haborts, hrun⟩
      · refine Or.inl ⟨_, c₂, .delivered hm hhandles, ?_⟩
        rw [hrun, Nat.add_assoc]
      · exact Or.inr ⟨.delivered hm haborts, hrun⟩
    | error failure c₁ =>
      cases failure with
      | error e =>
        rw [recoverMessages_of_refused hr hm]
        rcases ih delivered (c.emit (.processed m.recovered .discarded .failed)) with
          ⟨n, c₂, hhandles, hrun⟩ | ⟨haborts, hrun⟩
        · exact Or.inl ⟨n, c₂, .refused hm hhandles, hrun⟩
        · exact Or.inr ⟨.refused hm haborts, hrun⟩
      | abort => exact Or.inr ⟨.here hm, c₁, recoverMessages_of_abort hm rest delivered⟩

end

/-- **A checked recovery succeeds and keeps its messages apart.** The record that it stores is that
of the recovered forms of all messages, whatever modules there are and whatever they do about the
messages; before it is stored, the messages are handled one after the other. Only an aborted
delivery can keep this from happening. -/
theorem perform_eq_ok_or_aborts {s : Store} {own : ChainId} {now : UInt64}
    {request : RecoveryRequest} {v : Verified} (hv : verify s own now request = .ok v) :
    ∃ root, Merkle.rootOfLeaves v.outbox.size v.indexes
        (v.messages.map fun m => leafHash m.recovered.encode) v.siblings = .ok root ∧
      ∀ r : Registry, r.Journaled → ∀ c,
        (∃ n c₁, Handles r v.messages c n c₁ ∧ perform r v c =
          .ok n ((c₁.write (.terminatedOutbox v.id) (some { v.outbox with root := root })).emit
            (.terminatedOutboxUpdated v.id root))) ∨
          Aborts r v.messages c ∧ ∃ c', perform r v c = .error .abort c' := by
  obtain ⟨root, hroot⟩ := (checked_of_verify hv).exists_root
  refine ⟨root, hroot, fun r hr c => ?_⟩
  rcases recoverMessages_eq_ok_or_aborts hr v.messages 0 c with
    ⟨n, c₁, hhandles, hrun⟩ | ⟨haborts, c', hrun⟩
  · refine Or.inl ⟨n, c₁, hhandles, ?_⟩
    rw [Nat.zero_add] at hrun
    unfold perform
    rw [bind_of_ok hrun]
    dsimp only
    rw [hroot]
    rfl
  · exact Or.inr ⟨haborts, c', bind_of_error hrun⟩

/-! ## A recovery in part -/

/-- A message of the hub that the silent chain has not received. It comes back to the hub as a call
of the watching module. -/
def strayed (params : Bytes) : Message where
  module := "watchful"
  command := "ping"
  nonce := 0
  fee := 0
  sender := .mainchain 0
  receiver := Run.silentChain
  params := params
  status := .ok

/-- Two of them. The watching module does not let the first one be recovered. -/
def strays : List Message := [strayed [0xfc], strayed []]

/-- What was frozen for the silent chain, had both been sent to it and nothing else. -/
def strayOutbox : TerminatedOutbox where
  root := branchHash (leafHash (strayed [0xfc]).encode) (leafHash (strayed []).encode)
  size := 2
  partnerInboxSize := 0

/-- The recovery of both. -/
def strayRequest : RecoveryRequest where
  chainId := Run.silentChain.toList
  messages := strays.map Message.encode
  indexes := [0, 1]
  siblings := []

/-- The records in which the outbox is frozen. -/
def strayStore : Store :=
  Run.silent.store.put (.terminatedOutbox Run.silentChain) (some strayOutbox)

theorem verify_strays :
    verify strayStore (.mainchain 0) 3000000 strayRequest =
      .ok ⟨Run.silentChain, strayOutbox, strays, [0, 1], []⟩ := by
  have hchecked : ∀ params, (strayed params).encode.length < UInt32.size →
      CheckedMessage strayStore (.mainchain 0) 3000000 Run.silentChain (strayed params).encode
        (strayed params) := by
    intro params hlen
    exact ⟨Message.decode_encode hlen, rfl, rfl, if_pos rfl⟩
  refine verify_eq_ok_iff.mpr
    ⟨by decide, Store.get_put_self _ _ _, rfl, by decide, ?_, rfl, by with_unfolding_all rfl⟩
  exact .cons (hchecked _ (by decide +kernel)) (.cons (hchecked _ (by decide +kernel)) .nil)

/-- The first message leaves but a report, and the second one is handled after it. -/
theorem perform_strays :
    ∃ root c₁,
      Handles (Registry.default.insert Run.watchful.toModule) strays
        (.start strayStore ⟨4, 3000000⟩ (.mainchain 0)) 1 c₁ ∧
      perform (Registry.default.insert Run.watchful.toModule)
          ⟨Run.silentChain, strayOutbox, strays, [0, 1], []⟩
          (.start strayStore ⟨4, 3000000⟩ (.mainchain 0)) =
        .ok 1 ((c₁.write (.terminatedOutbox Run.silentChain)
          (some { strayOutbox with root := root })).emit
            (.terminatedOutboxUpdated Run.silentChain root)) := by
  let r : Registry := Registry.default.insert Run.watchful.toModule
  let v : Verified := ⟨Run.silentChain, strayOutbox, strays, [0, 1], []⟩
  have hcount : (match perform r v (.start strayStore ⟨4, 3000000⟩ (.mainchain 0)) with
      | .ok n _ => some n
      | .error _ _ => none) = some 1 := by
    decide +kernel
  obtain ⟨root, -, hperform⟩ := perform_eq_ok_or_aborts verify_strays
  rcases hperform r (Registry.leads_default.insert Run.watchful.leads_toModule)
    (.start strayStore ⟨4, 3000000⟩ (.mainchain 0)) with ⟨n, c₁, hhandles, hrun⟩ | ⟨-, c', hrun⟩
  · rw [hrun] at hcount
    cases hcount
    exact ⟨root, c₁, hhandles, hrun⟩
  · rw [hrun] at hcount
    cases hcount

end ChainHub.Recovery
