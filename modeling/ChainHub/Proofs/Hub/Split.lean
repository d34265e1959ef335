import ChainHub.Proofs.Hub.Alike
import ChainHub.Proofs.Hub.Relayer

/-!
# Deliveries in parts

A relayer may bring the messages of a chain in one update or in several. What becomes of them does
not depend on it: the first part is delivered with the certificate, the rest is delivered without
one, against the root that the first part has left.

* `Update.processMessages_append`: dealing with messages is dealing with the first ones and then
  with the others.
* `Update.verify_first`, `Update.verify_rest`: the parts pass their checks.
* `Call.deliver_in_parts`: the parts together come to the same records and the same events.

The whole delivery reads the old outbox root of the sender in its channel while it deals with the
rest of the messages, and the delivery of the rest reads the new one; neither sees it.
-/

namespace ChainHub

open HubM

/-- The update with other messages. -/
def UpdateRequest.delivering (u : UpdateRequest) (inbox : InboxUpdate) : UpdateRequest :=
  { u with inbox := inbox }

/-- An update of the same sender with messages only. -/
def UpdateRequest.deliveringOnly (u : UpdateRequest) (threshold : UInt64) (inbox : InboxUpdate) :
    UpdateRequest where
  sender := u.sender
  certificate := []
  validators := []
  threshold := threshold
  inbox := inbox

/-- The messages of an inbox update come in two parts. The first one has a witness of its own, by
which it comes to the same root, and the second one may have any proof. -/
structure InboxUpdate.Splits (all part rest : InboxUpdate) (inbox : Accumulator) : Prop where
  messages : all.messages = part.messages ++ rest.messages
  part_ne_nil : part.messages ≠ []
  rest_ne_nil : rest.messages ≠ []
  proof : part.outboxRootProof = all.outboxRootProof
  witness : rest.witness = all.witness
  root : part.outboxRoot? inbox = all.outboxRoot? inbox

namespace InboxUpdate

variable {u all part rest : InboxUpdate} {inbox next : Accumulator}

theorem isEmpty_of_ne_nil (h : u.messages ≠ []) : u.isEmpty = false := by
  unfold isEmpty
  rw [List.isEmpty_eq_false_iff.mpr h]
  rfl

theorem Splits.isEmpty (h : all.Splits part rest inbox) : all.isEmpty = false := by
  refine isEmpty_of_ne_nil ?_
  rw [h.messages]
  exact List.append_ne_nil_of_left_ne_nil h.part_ne_nil _

/-- The rest comes to the root of the whole, from where the first part has left the inbox. -/
theorem Splits.outboxRoot?_rest (h : all.Splits part rest inbox)
    (hpart : inbox.appendAll? part.messages = some next) :
    rest.outboxRoot? next = all.outboxRoot? inbox := by
  unfold outboxRoot?
  rw [h.messages, Accumulator.appendAll?_append, hpart, Option.bind_some, h.witness]

/-- An honest relayer can stop on the way from the first messages of an outbox to more of them. -/
theorem splits_relay {outbox : List Bytes} {received stop upTo : Nat} (proof other : Sparse.Proof)
    (hinbox : Accumulator.empty.appendAll? (outbox.take received) = some inbox)
    (hfirst : received < stop) (hrest : stop < upTo) (hupTo : upTo ≤ outbox.length)
    (hsize : upTo < UInt64.size) :
    (relay outbox received upTo proof).Splits (relay outbox received stop proof)
      (relay outbox stop upTo other) inbox where
  messages := by
    have hbegin : (outbox.take upTo).take stop = outbox.take stop := by
      rw [List.take_take, Nat.min_eq_left (by omega)]
    have hlen : (outbox.take stop).length = stop := by
      rw [List.length_take, Nat.min_eq_left (by omega)]
    show (outbox.take upTo).drop received =
      (outbox.take stop).drop received ++ (outbox.take upTo).drop stop
    conv_lhs => rw [← List.take_append_drop stop (outbox.take upTo), hbegin]
    rw [List.drop_append_of_le_length (by omega)]
  part_ne_nil := by
    rw [← List.length_pos_iff]
    show 0 < ((outbox.take stop).drop received).length
    rw [List.length_drop, List.length_take]
    omega
  rest_ne_nil := by
    rw [← List.length_pos_iff]
    show 0 < ((outbox.take upTo).drop stop).length
    rw [List.length_drop, List.length_take]
    omega
  proof := rfl
  witness := rfl
  root := by
    rw [outboxRoot?_relay proof hinbox (by omega) (by omega) (by omega),
      outboxRoot?_relay proof hinbox (by omega) hupTo hsize]

end InboxUpdate

namespace Update

/-! ## Processing -/

/-- **Messages are dealt with one part after the other**, unless the first part terminates the
sender. -/
theorem processMessages_append (r : Registry) (id : ChainId) (more : List Bytes) :
    ∀ (first : List Bytes) {o : Outcome}, o.senderTerminated = false →
      processMessages r id (first ++ more) o = (do
        let o ← processMessages r id first o
        if o.senderTerminated = true then return o else processMessages r id more o)
  | [], o, ho => by
    show _ = (pure o >>= _)
    rw [pure_bind, if_neg (by simp [ho])]
    rfl
  | bytes :: first, o, ho => by
    rw [List.cons_append, processMessages, processMessages]
    cases (Wire.decode bytes : Except WireError Message) with
    | error e =>
      simp only [bind_assoc, pure_bind]
      rfl
    | ok m =>
      dsimp only
      cases violation? id m with
      | some code =>
        simp only [bind_assoc, pure_bind]
        rfl
      | none =>
        simp only [bind_assoc]
        congr 1
        funext _
        congr 1
        funext d
        congr 1
        funext account
        by_cases hstatus : account.status = .terminated
        · simp only [if_pos hstatus, pure_bind, if_true]
        · simp only [if_neg hstatus]
          exact processMessages_append r id more first (by cases d <;> exact ho)

/-- The new root is stored where the old one was. -/
theorem storePartnerRoot_eq_ok_iff {v : Verified} {root : Digest}
    (hroot : v.partnerOutboxRoot = some root) {c c' : Context} :
    storePartnerRoot v c = .ok () c' ↔
      ∃ channel, c.store.get (.channel v.sender) = some channel ∧
        c' = c.write (.channel v.sender) (some { channel with partnerOutboxRoot := root }) := by
  unfold storePartnerRoot
  rw [hroot]
  dsimp only
  rw [bind_eq_ok_iff]
  constructor
  · rintro ⟨channel, c₁, hload, hsave⟩
    cases hget : c.store.get (.channel v.sender) with
    | none =>
      rw [load_eq_error hget] at hload
      cases hload
    | some stored =>
      rw [load_eq hget] at hload
      cases hload
      cases hsave
      exact ⟨_, rfl, rfl⟩
  · rintro ⟨channel, hget, rfl⟩
    exact ⟨channel, c, load_eq hget, rfl⟩

/-- What carrying out an update does when its sender is not terminated by it. -/
theorem perform_eq_ok_iff {r : Registry} {messages : List Bytes} {v : Verified} {c c' : Context}
    {o : Outcome} (ho : o.senderTerminated = false) :
    perform r messages v c = .ok o c' ↔ ∃ c₁ c₂, storeVerified v c = .ok () c₁ ∧
      processMessages r v.sender messages {} c₁ = .ok o c₂ ∧ storePartnerRoot v c₂ = .ok () c' := by
  unfold perform
  simp only [bind_eq_ok_iff]
  constructor
  · rintro ⟨⟨⟩, c₁, hstore, o', c₂, hprocess, hrest⟩
    split at hrest
    · rename_i hterminated
      cases hrest
      rw [ho] at hterminated
      cases hterminated
    · obtain ⟨⟨⟩, c₃, hroot, hpure⟩ := bind_eq_ok_iff.mp hrest
      cases hpure
      exact ⟨c₁, c₂, hstore, hprocess, hroot⟩
  · rintro ⟨c₁, c₂, hstore, hprocess, hroot⟩
    refine ⟨(), c₁, hstore, o, c₂, hprocess, ?_⟩
    rw [if_neg (by simp [ho])]
    exact bind_eq_ok_iff.mpr ⟨(), c', hroot, rfl⟩

end Update

/-- An update is accepted when it passes its check and is carried out. -/
theorem Call.run_update_eq_ok_iff {header : BlockHeader} {funds : List Coin}
    {request : UpdateRequest} {s s' : Store} {response : Response} :
    (⟨header, funds, .update request⟩ : Call).run s = .ok response s' ↔
      ∃ own v o c, s.get .own = some own ∧
        Update.verify s own.chainId header.time request = .ok v ∧
        Update.perform .default request.inbox.messages v (.start s header own.chainId) =
          .ok o c ∧
        response = Update.response v.sender o c.events ∧ s' = c.store := by
  show Update.execute .default header request s = _ ↔ _
  exact StoreM.checked_eq_ok_iff

namespace Update

/-! ## The checks -/

theorem verifyCertificate_congr {request request' : UpdateRequest}
    (hcertificate : request'.certificate = request.certificate)
    (hempty : request'.inbox.isEmpty = request.inbox.isEmpty) (id : ChainId)
    (account : ChainAccount) (current : ValidatorSet) (new : Option ValidatorSet) (now : UInt64) :
    verifyCertificate id account current new now request' =
      verifyCertificate id account current new now request := by
  unfold verifyCertificate
  rw [hcertificate, hempty]

/-- The first part passes the check if it comes to the same root. -/
theorem verify_first {s : Store} {own : ChainId} {now : UInt64} {u : UpdateRequest} {v : Verified}
    {inbox inbox₁ : InboxUpdate} (hv : verify s own now (u.delivering inbox) = .ok v)
    (hempty : inbox.isEmpty = false) (hempty₁ : inbox₁.isEmpty = false)
    (hproof : inbox₁.outboxRootProof = inbox.outboxRootProof)
    (hroot : inbox₁.outboxRoot? (s.inboxOf v.sender) = inbox.outboxRoot? (s.inboxOf v.sender)) :
    verify s own now (u.delivering inbox₁) = .ok v := by
  obtain ⟨hid, -, haccount, hlive, hcertified, current, hcurrent, hvalidators, hcertificate,
    hinbox⟩ := verify_eq_ok_iff.mp hv
  obtain ⟨hcontra, -⟩ | ⟨-, root, hsome, hinbox⟩ := hinbox
  · rw [show (u.delivering inbox).inbox = inbox from rfl, hempty] at hcontra
    cases hcontra
  obtain ⟨channel, hchannel, hcomputed, hproves⟩ := verifyInbox_eq_ok_iff.mp hinbox
  refine verify_eq_ok_iff.mpr ⟨hid, ?_, haccount, hlive, hcertified, current, hcurrent, hvalidators,
    ?_, Or.inr ⟨hempty₁, root, hsome, verifyInbox_eq_ok_iff.mpr ⟨channel, hchannel, ?_, ?_⟩⟩⟩
  · show ¬ (u.certificate.isEmpty && inbox₁.isEmpty) = true
    rw [hempty₁, Bool.and_false]
    exact Bool.false_ne_true
  · have hcongr : verifyCertificate v.sender v.account current v.validators now
        (u.delivering inbox₁) = verifyCertificate v.sender v.account current v.validators now
        (u.delivering inbox) := by
      refine verifyCertificate_congr ?_ ?_ _ _ _ _ _
      · rfl
      · exact hempty₁.trans hempty.symm
    exact hcongr.trans hcertificate
  · rw [Store.inboxOf_eq hchannel] at hroot
    exact hroot.trans hcomputed
  · have hsame : (u.delivering inbox₁).inbox.outboxRootProof =
        (u.delivering inbox).inbox.outboxRootProof := hproof
    unfold InboxUpdate.Proves at hproves ⊢
    rw [hsame]
    exact hproves

/-- The rest passes the check without a certificate, once the root that it comes to is stored. -/
theorem verify_rest {s : Store} {own id : ChainId} {now : UInt64} {u : UpdateRequest}
    {inbox : InboxUpdate} (hid : parseChainId u.sender = .ok id) (hempty : inbox.isEmpty = false)
    {account : ChainAccount} (haccount : s.get (.account id) = some account)
    (hactive : account.status = .active) (hlive : s.isLive own id now = true)
    {set : ValidatorSet} (hset : s.get (.validators id) = some set) {channel : Channel}
    (hchannel : s.get (.channel id) = some channel)
    (hroot : inbox.outboxRoot? channel.inbox = some channel.partnerOutboxRoot) :
    verify s own now (u.deliveringOnly set.threshold inbox) =
      .ok ⟨id, account, none, none, some channel.partnerOutboxRoot⟩ := by
  refine verify_eq_ok_iff.mpr ⟨hid, ?_, haccount, hlive, by simp [hactive], set, hset, ?_, rfl,
    Or.inr ⟨hempty, _, rfl, verifyInbox_eq_ok_iff.mpr ⟨channel, hchannel, hroot, rfl⟩⟩⟩
  · show ¬ (true && inbox.isEmpty) = true
    rw [hempty]
    exact Bool.false_ne_true
  · simp [verifyValidators, UpdateRequest.deliveringOnly]

/-! ## The parts of one delivery -/

section

variable {k : Cause} {own : ChainId} {request : UpdateRequest} {v : Verified} {c : Context}
  {first more : List Bytes}

/-- Between the parts the sender is active with the new certificate, and the first part is
received. -/
theorem between_parts (hc : Sound k c) (hv : Checked c.store own k.now request v)
    (hne : v.sender ≠ own) (hcause : k.sender = some v.sender)
    (hcertificate : k.certificate = v.certificate) {o : Outcome} {c₁ c₂ : Context}
    (hstore : storeVerified v c = .ok () c₁)
    (hprocess : processMessages .default v.sender first {} c₁ = .ok o c₂)
    (ho : o.senderTerminated = false) :
    Sound k c₂ ∧ c₂.ownChain = c.ownChain ∧
      c₂.store.get (.account v.sender) = some v.renewed ∧
      (c.store.inboxOf v.sender).appendAll? first = some (c₂.store.inboxOf v.sender) := by
  obtain ⟨⟨stored, hstored, hnothing, -⟩, haccount, -⟩ :=
    (ends_storeVerified hc hv hne hcause hcertificate).of_ok hstore
  have hactive : c₁.store.IsActive v.sender := ⟨v.renewed, haccount, (hv.renewed hne).1⟩
  obtain ⟨handled, hreach, hhandled⟩ :=
    (ends_processMessages hcause (hc.reaches hstored) hactive).of_ok hprocess
  have hboth := hstored.append hreach
  refine ⟨hc.reaches hboth, hboth.ownChain, (hhandled.account_eq ho).trans haccount, ?_⟩
  rw [← hboth.trace.inboxOf v.sender, Action.receivedAll_append, hnothing,
    hhandled.received_eq ho, List.nil_append]

/-- A delivery that does not terminate its sender consists of two parts. -/
theorem exists_parts (hc : Sound k c) (hv : Checked c.store own k.now request v)
    (hne : v.sender ≠ own) (hcause : k.sender = some v.sender)
    (hcertificate : k.certificate = v.certificate) {o : Outcome} {c' : Context}
    (hperform : perform .default (first ++ more) v c = .ok o c')
    (hopen : ¬ c'.store.IsClosed v.sender) :
    ∃ c₁ o₂ c₂ c₃, storeVerified v c = .ok () c₁ ∧
      processMessages .default v.sender first {} c₁ = .ok o₂ c₂ ∧ o₂.senderTerminated = false ∧
      processMessages .default v.sender more o₂ c₂ = .ok o c₃ ∧ o.senderTerminated = false ∧
      storePartnerRoot v c₃ = .ok () c' := by
  have ho : o.senderTerminated = false := by
    by_contra hterminated
    rw [Bool.not_eq_false] at hterminated
    unfold perform at hperform
    simp only [bind_eq_ok_iff] at hperform
    obtain ⟨⟨⟩, c₁, hstore, o', c₂, hprocess, hrest⟩ := hperform
    obtain ⟨⟨stored, hstored, -⟩, haccount, -⟩ :=
      (ends_storeVerified hc hv hne hcause hcertificate).of_ok hstore
    obtain ⟨handled, -, hhandled⟩ := (ends_processMessages hcause (hc.reaches hstored)
      ⟨v.renewed, haccount, (hv.renewed hne).1⟩).of_ok hprocess
    split at hrest
    · cases hrest
      exact hopen (hhandled.isClosed rfl hterminated)
    · rename_i hnot
      obtain ⟨⟨⟩, c₃, -, hpure⟩ := bind_eq_ok_iff.mp hrest
      cases hpure
      exact hnot hterminated
  obtain ⟨c₁, c₃, hstore, hprocess, hroot⟩ := (perform_eq_ok_iff ho).mp hperform
  rw [processMessages_append _ _ _ _ rfl] at hprocess
  obtain ⟨o₂, c₂, hfirst, hmore⟩ := bind_eq_ok_iff.mp hprocess
  have ho₂ : o₂.senderTerminated = false := by
    cases hterminated : o₂.senderTerminated with
    | false => rfl
    | true =>
      rw [if_pos hterminated] at hmore
      cases hmore
      exact absurd hterminated (by simp [ho])
  rw [if_neg (by simp [ho₂])] at hmore
  exact ⟨c₁, o₂, c₂, c₃, hstore, hfirst, ho₂, hmore, ho, hroot⟩

end

end Update

namespace HubM

/-- A computation that ends with a result also does so from a context that is alike. -/
theorem Agree.exists_ok {α β : Type} {g : Gap} {R : α → β → Prop} {x : HubM α} {y : HubM β}
    (h : Agree g R x y) {c d c' : Context} (halike : Alike g c d) {a : α} (hx : x c = .ok a c') :
    ∃ b d', y d = .ok b d' ∧ R a b ∧ Alike g c' d' := by
  have hends := h c d halike
  rw [hx] at hends
  cases hd : y d with
  | ok b d' =>
    rw [hd] at hends
    exact ⟨b, d', rfl, hends⟩
  | error failure d' =>
    rw [hd] at hends
    exact hends.elim

end HubM

/-! ## Both parts -/

/-- Nothing in the block of a request but its time is read. -/
theorem Alike.start (id : ChainId) {header header' : BlockHeader}
    (htime : header'.time = header.time) (s : Store) (own : ChainId) :
    Alike ⟨id, fun root => root, []⟩ (.start s header own) (.start s header' own) where
  slot _ _ := rfl
  channel other := by
    have hmark : (Gap.mark ⟨id, fun root => root, []⟩ other : Channel → Channel) = fun c => c := by
      funext channel
      simp [Gap.mark]
    rw [hmark]
    exact Option.map_id'.symm
  events := rfl
  time := htime
  ownChain := rfl

/-- A request goes on as a new one in which another root is stored for a chain. -/
theorem Alike.resume {id : ChainId} {c d : Context} (h : Alike ⟨id, fun root => root, []⟩ c d)
    {channel : Channel} (hchannel : d.store.get (.channel id) = some channel) (root : Digest)
    {header : BlockHeader} (htime : header.time = c.header.time) :
    Alike ⟨id, fun _ => root, c.events⟩ c
      (.start (d.store.put (.channel id) (some { channel with partnerOutboxRoot := root })) header
        c.ownChain) where
  slot slot hslot := by
    show (d.store.put _ _).get slot = _
    rw [Store.get_put_of_ne _ _ (hslot id).symm, h.slot slot hslot]
  channel other := by
    show (d.store.put _ _).get (.channel other) = _
    have hother := h.channel other
    rw [Store.get_put_channel]
    cases hget : c.store.get (.channel other) with
    | none =>
      rw [hget] at hother
      rw [hother, if_neg]
      · rfl
      · rintro rfl
        rw [hchannel] at hother
        cases hother
    | some stored =>
      rw [hget] at hother
      split
      · rename_i heq
        subst heq
        obtain rfl : channel = stored := by
          have hsame := Option.some.inj (hchannel.symm.trans hother)
          simpa [Gap.mark] using hsame
        simp [Gap.mark]
      · rename_i hne
        rw [hother]
        simp [Gap.mark, hne]
  events := (List.append_nil _).symm
  time := htime
  ownChain := rfl

/-- Contexts that are alike have the same records once the same root is stored in both. -/
theorem Alike.put_root_eq {id : ChainId} {root : Digest} {before : List Event} {c d : Context}
    (h : Alike ⟨id, fun _ => root, before⟩ c d) {channel : Channel}
    (hchannel : c.store.get (.channel id) = some channel) :
    ∃ channel', d.store.get (.channel id) = some channel' ∧
      d.store.put (.channel id) (some { channel' with partnerOutboxRoot := root }) =
        c.store.put (.channel id) (some { channel with partnerOutboxRoot := root }) := by
  have hget : d.store.get (.channel id) =
      some { channel with partnerOutboxRoot := root } := by
    rw [h.channel, hchannel]
    simp [Gap.mark]
  refine ⟨_, hget, Store.ext_get fun slot => ?_⟩
  by_cases hslot : ∃ other, slot = .channel other
  · obtain ⟨other, rfl⟩ := hslot
    rw [Store.get_put_channel, Store.get_put_channel]
    split
    · rfl
    · rename_i hne
      rw [h.channel other, Gap.mark_of_ne hne]
      exact Option.map_id'
  · rw [not_exists] at hslot
    rw [Store.get_put_of_ne _ _ (Ne.symm (hslot id)), Store.get_put_of_ne _ _ (Ne.symm (hslot id)),
      h.slot slot hslot]

namespace Update

/-- The records between the parts of a delivery. -/
structure Between (s : Store) (own : ChainId) (v : Verified) (first : List Bytes) (root : Digest)
    (t : Store) : Prop where
  own : ∃ account, t.get .own = some account ∧ account.chainId = own
  account : t.get (.account v.sender) = some v.renewed
  validators : ∃ set, t.get (.validators v.sender) = some set
  channel : ∃ channel, t.get (.channel v.sender) = some channel ∧
    (s.inboxOf v.sender).appendAll? first = some channel.inbox ∧ channel.partnerOutboxRoot = root

/-- What is checked of the rest of a delivery. -/
def Verified.rest (v : Verified) : Verified :=
  { v with account := v.renewed, certificate := none, validators := none }

/-- They are those of the whole delivery at the same point, with the root stored already. -/
theorem between_of_alike {k : Cause} {s : Store} {own : ChainId} {v : Verified}
    {first : List Bytes} {c d : Context} (hc : Sound k c) (hown : c.ownChain = own)
    (haccount : c.store.get (.account v.sender) = some v.renewed)
    (hinbox : (s.inboxOf v.sender).appendAll? first = some (c.store.inboxOf v.sender))
    (halike : Alike ⟨v.sender, fun root => root, []⟩ c d) {channel : Channel}
    (hchannel : c.store.get (.channel v.sender) = some channel) (root : Digest) :
    Between s own v first root
      (d.store.put (.channel v.sender) (some { channel with partnerOutboxRoot := root })) := by
  have hslot : ∀ {slot : Slot}, (∀ id, slot ≠ .channel id) →
      (d.store.put (.channel v.sender) (some { channel with partnerOutboxRoot := root })).get
        slot = c.store.get slot := by
    intro slot hslot
    rw [Store.get_put_of_ne _ _ (hslot _).symm, halike.slot slot hslot]
  obtain ⟨account, haccountOwn, hid⟩ := hc.own
  obtain ⟨set, hset⟩ := hc.store.validators _ _ haccount
  rw [Store.inboxOf_eq hchannel] at hinbox
  constructor
  case own => exact ⟨account, (hslot (by simp)).trans haccountOwn, hid.trans hown⟩
  case account => exact (hslot (by simp)).trans haccount
  case validators => exact ⟨set, (hslot (by simp)).trans hset⟩
  case channel => exact ⟨_, Store.get_put_self _ _ _, hinbox, rfl⟩

/-- **Carrying out both parts comes to carrying out the whole.** -/
theorem perform_in_parts {k : Cause} {s : Store} {header header₁ header₂ : BlockHeader}
    {own : ChainId} {request : UpdateRequest} {v : Verified} {root : Digest}
    {first more : List Bytes} {o : Outcome} {c' : Context} (hc : Sound k (.start s header own))
    (hv : Checked s own k.now request v) (hne : v.sender ≠ own) (hcause : k.sender = some v.sender)
    (hcertificate : k.certificate = v.certificate) (hroot : v.partnerOutboxRoot = some root)
    (htime₁ : header₁.time = header.time) (htime₂ : header₂.time = header.time)
    (hperform : perform .default (first ++ more) v (.start s header own) = .ok o c')
    (hopen : ¬ c'.store.IsClosed v.sender) :
    ∃ o₁ d o₂ e, perform .default first v (.start s header₁ own) = .ok o₁ d ∧
      Between s own v first root d.store ∧
      perform .default more v.rest (.start d.store header₂ own) = .ok o₂ e ∧
      e.store = c'.store ∧ c'.events = d.events ++ e.events := by
  obtain ⟨c₁, o₂, c₂, c₃, hstore, hfirst, ho₂, hmore, ho, hlast⟩ :=
    exists_parts hc hv hne hcause hcertificate hperform hopen
  obtain ⟨hc₂, hownChain, haccount, hinbox⟩ :=
    between_parts hc hv hne hcause hcertificate hstore hfirst ho₂
  obtain ⟨channel, hchannel⟩ := hc₂.store.channel _ _ haccount
  obtain ⟨channel₃, hchannel₃, rfl⟩ := (storePartnerRoot_eq_ok_iff hroot).mp hlast
  -- The first part runs as the beginning of the whole does, in a block of its own.
  obtain ⟨⟨⟩, d₁, hd₁, -, halike₁⟩ :=
    (blind_storeVerified v).exists_ok (Alike.start v.sender htime₁ s own) hstore
  obtain ⟨o₁, d₂, hd₂, ho₁, halike₂⟩ :=
    (agree_processMessages v.sender first rfl).exists_ok halike₁ hfirst
  have hchannel₂ : d₂.store.get (.channel v.sender) = some channel := by
    rw [halike₂.channel, hchannel]
    simp [Gap.mark]
  -- The rest runs as the remainder of the whole does, with the root stored already.
  have htime : header₂.time = c₂.header.time := by
    rw [htime₂, hc₂.now]
    exact hc.now
  have halike := halike₂.resume hchannel₂ root htime
  rw [hownChain] at halike
  obtain ⟨o₃, e₃, he₃, ho₃, halike₃⟩ :=
    (agree_processMessages v.sender more
      (show o₂.senderTerminated = ({} : Outcome).senderTerminated from ho₂)).exists_ok halike hmore
  obtain ⟨channel', hchannel', hsame⟩ := halike₃.put_root_eq hchannel₃
  refine ⟨o₁, d₂.write (.channel v.sender) (some { channel with partnerOutboxRoot := root }), o₃,
    e₃.write (.channel v.sender) (some { channel' with partnerOutboxRoot := root }), ?_, ?_, ?_,
    hsame, ?_⟩
  · exact (perform_eq_ok_iff (ho₁.symm.trans ho₂)).mpr
      ⟨d₁, d₂, hd₁, hd₂, (storePartnerRoot_eq_ok_iff hroot).mpr ⟨channel, hchannel₂, rfl⟩⟩
  · exact between_of_alike hc₂ hownChain haccount hinbox halike₂ hchannel root
  · exact (perform_eq_ok_iff (ho₃.symm.trans ho)).mpr ⟨_, e₃, rfl, he₃,
      (storePartnerRoot_eq_ok_iff (v := v.rest) hroot).mpr ⟨channel', hchannel', rfl⟩⟩
  · show c₃.events = d₂.events ++ e₃.events
    rw [halike₃.events, halike₂.events]
    rfl

/-- The rest of a delivery passes its check between the parts. -/
theorem verify_between {s t : Store} {own : ChainId} {now : UInt64} {u : UpdateRequest}
    {all part rest : InboxUpdate} {v : Verified} {root : Digest}
    (hbetween : Between s own v part.messages root t)
    (hsplits : all.Splits part rest (s.inboxOf v.sender))
    (hv : Checked s own now (u.delivering all) v) (hne : v.sender ≠ own)
    (hroot : v.partnerOutboxRoot = some root)
    (hcomputed : all.outboxRoot? (s.inboxOf v.sender) = some root) {set : ValidatorSet}
    (hset : t.get (.validators v.sender) = some set) :
    verify t own now (u.deliveringOnly set.threshold rest) = .ok v.rest := by
  obtain ⟨channel, hchannel, hreceived, hstored⟩ := hbetween.channel
  obtain ⟨hactive, hlive⟩ := hv.renewed hne
  have hlive : t.isLive own v.sender now = true := by
    obtain ⟨hmain, -⟩ := (Store.isLive_eq_true_iff hne).mp hv.live
    exact (Store.isLive_eq_true_iff hne).mpr
      ⟨hmain, v.renewed, hbetween.account, hlive hsplits.isEmpty⟩
  have hrest : v.rest = ⟨v.sender, v.renewed, none, none, some channel.partnerOutboxRoot⟩ := by
    simp [Verified.rest, hroot, hstored]
  rw [hrest]
  refine verify_rest hv.sender (InboxUpdate.isEmpty_of_ne_nil hsplits.rest_ne_nil)
    hbetween.account hactive hlive hset hchannel ?_
  rw [hsplits.outboxRoot?_rest hreceived, hcomputed, hstored]

end Update

/-- A call with an update. -/
abbrev Call.ofUpdate (header : BlockHeader) (funds : List Coin) (request : UpdateRequest) : Call :=
  ⟨header, funds, .update request⟩

/-- **Splitting a delivery does not change the result.** Let an update be accepted that does not
terminate its sender, and let its messages come in two parts. Then at the same time the update with
the first part is accepted, and after it one with the rest and nothing else, for which the root that
the first part has left stands in for the certificate. Both together leave the same records and tell
of the same events in the same order. The records before are those of any run (`Run.consistent`). -/
theorem Call.deliver_in_parts {s : Store} (hs : Consistent s) {id : ChainId} {u : UpdateRequest}
    {all part rest : InboxUpdate} {header header₁ header₂ : BlockHeader}
    {funds funds₁ funds₂ : List Coin} {response : Response}
    (hid : parseChainId u.sender = .ok id) (hsplits : all.Splits part rest (s.inboxOf id))
    (htime₁ : header₁.time = header.time) (htime₂ : header₂.time = header.time)
    (haccepted : (ofUpdate header funds (u.delivering all)).response? s = some response)
    (hopen : ¬ ((ofUpdate header funds (u.delivering all)).after s).IsClosed id) :
    ∃ response₁ response₂ s₁ set,
      (ofUpdate header₁ funds₁ (u.delivering part)).response? s = some response₁ ∧
        (ofUpdate header₁ funds₁ (u.delivering part)).after s = s₁ ∧
        s₁.get (.validators id) = some set ∧
        (ofUpdate header₂ funds₂ (u.deliveringOnly set.threshold rest)).response? s₁ =
          some response₂ ∧
        (ofUpdate header₂ funds₂ (u.deliveringOnly set.threshold rest)).after s₁ =
          (ofUpdate header funds (u.delivering all)).after s ∧
        response.events = response₁.events ++ response₂.events := by
  have hrun := run_of_accepted haccepted
  generalize (ofUpdate header funds (u.delivering all)).after s = after at hrun hopen ⊢
  obtain ⟨own, v, o, c', hown, hv, hperform, rfl, rfl⟩ := run_update_eq_ok_iff.mp hrun
  have hchecked := Update.checked_of_verify hv
  obtain rfl : v.sender = id := Except.ok.inj (hchecked.sender.symm.trans hid)
  have hne := hs.ne_own hchecked.account hown
  obtain ⟨root, hroot, hinbox⟩ : ∃ root, v.partnerOutboxRoot = some root ∧
      Update.verifyInbox s own.chainId v.sender v.certificate all = .ok root := by
    rcases hchecked.inbox with ⟨hempty, -⟩ | ⟨-, root, hroot, hinbox⟩
    · exact absurd (hsplits.isEmpty.symm.trans hempty) Bool.false_ne_true
    · exact ⟨root, hroot, hinbox⟩
  obtain ⟨channel₀, hchannel₀, hcomputed, -⟩ := Update.verifyInbox_eq_ok_iff.mp hinbox
  rw [← Store.inboxOf_eq hchannel₀] at hcomputed
  have hmessages : (u.delivering all).inbox.messages = part.messages ++ rest.messages :=
    hsplits.messages
  rw [hmessages] at hperform
  have hcause : (ofUpdate header funds (u.delivering all)).cause.sender = some v.sender :=
    Attempt.toOption_eq_some_iff.mpr hid
  obtain ⟨o₁, d, o₂, e, hpart, hbetween, hrest, hsame, hevents⟩ :=
    Update.perform_in_parts (sound_start hs hown rfl) hchecked hne hcause
      hchecked.certificate.symm hroot htime₁ htime₂ hperform hopen
  have hfirst : (ofUpdate header₁ funds₁ (u.delivering part)).run s =
      .ok (Update.response v.sender o₁ d.events) d.store := by
    refine run_update_eq_ok_iff.mpr ⟨own, v, o₁, d, hown, ?_, hpart, rfl, rfl⟩
    rw [htime₁]
    exact Update.verify_first hv hsplits.isEmpty (InboxUpdate.isEmpty_of_ne_nil hsplits.part_ne_nil)
      hsplits.proof hsplits.root
  obtain ⟨account, hown₁, hownId⟩ := hbetween.own
  obtain ⟨set, hset⟩ := hbetween.validators
  have hsecond : (ofUpdate header₂ funds₂ (u.deliveringOnly set.threshold rest)).run d.store =
      .ok (Update.response v.sender o₂ e.events) e.store := by
    refine run_update_eq_ok_iff.mpr ⟨account, v.rest, o₂, e, hown₁, ?_, ?_, rfl, rfl⟩
    · rw [hownId, htime₂]
      exact Update.verify_between hbetween hsplits hchecked hne hroot hcomputed hset
    · rw [hownId]
      exact hrest
  obtain ⟨haccepted₁, hafter₁⟩ := accepted_of_run hfirst
  obtain ⟨haccepted₂, hafter₂⟩ := accepted_of_run hsecond
  exact ⟨_, _, d.store, set, haccepted₁, hafter₁, hset, haccepted₂, hafter₂.trans hsame, hevents⟩

namespace Run

/-- The silent chain delivers the two messages, from the given one up to the given one. -/
def delivery (received upTo : Nat) : UpdateRequest :=
  silentUpdate.delivering (.relay twoMessages received upTo default)

/-- Both messages can be delivered at once, or one after the other. -/
theorem deliver_in_parts_trusting :
    ∃ response response₁ response₂ s₁ set,
      (Call.ofUpdate ⟨3, 100⟩ [] (delivery 0 2)).response? trusting = some response ∧
        (Call.ofUpdate ⟨3, 100⟩ [] (delivery 0 1)).response? trusting = some response₁ ∧
        (Call.ofUpdate ⟨3, 100⟩ [] (delivery 0 1)).after trusting = s₁ ∧
        s₁.get (.validators silentChain) = some set ∧
        (Call.ofUpdate ⟨4, 100⟩ [] (silentUpdate.deliveringOnly set.threshold
            (.relay twoMessages 1 2 default))).response? s₁ = some response₂ ∧
        (Call.ofUpdate ⟨4, 100⟩ [] (silentUpdate.deliveringOnly set.threshold
            (.relay twoMessages 1 2 default))).after s₁ =
          (Call.ofUpdate ⟨3, 100⟩ [] (delivery 0 2)).after trusting ∧
        response.events = response₁.events ++ response₂.events := by
  have haccepted :
      ((Call.ofUpdate ⟨3, 100⟩ [] (delivery 0 2)).response? trusting).isSome = true := by
    decide +kernel
  have hstatus : (((Call.ofUpdate ⟨3, 100⟩ [] (delivery 0 2)).after trusting).get
      (.account silentChain)).map ChainAccount.status = some .active := by
    decide +kernel
  have hopen : ¬ ((Call.ofUpdate ⟨3, 100⟩ [] (delivery 0 2)).after trusting).IsClosed
      silentChain := by
    rintro ⟨account, hget, hclosed⟩
    rw [hget, Option.map_some, hclosed] at hstatus
    cases hstatus
  have hsplits : (InboxUpdate.relay twoMessages 0 2 default).Splits
      (.relay twoMessages 0 1 default) (.relay twoMessages 1 2 default)
        (trusting.inboxOf silentChain) := by
    rw [inboxOf_trusting]
    exact InboxUpdate.splits_relay default default rfl (by decide) (by decide) (by decide)
      (by decide)
  obtain ⟨response, hresponse⟩ := Option.isSome_iff_exists.mp haccepted
  obtain ⟨response₁, response₂, s₁, set, h⟩ := Call.deliver_in_parts consistent_trusting
    (show parseChainId silentUpdate.sender = .ok silentChain from rfl) hsplits rfl
    (show (BlockHeader.mk 4 100).time = (BlockHeader.mk 3 100).time from rfl) hresponse hopen
  exact ⟨response, response₁, response₂, s₁, set, hresponse, h⟩

end Run

end ChainHub
