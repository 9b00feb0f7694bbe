/-
Runs of the admission of actions.

* `Sound` — what holds between the transactions, the cards and the suspended handlers in every
  state of a run: `sound_of_reachable`.
-/
import Rosclaw.Agentd.ActionAdmission
import Rosclaw.Lib.Machine
import Mathlib.Logic.Relation
import Mathlib.Data.List.Perm.Subperm

namespace Rosclaw.Admission

open Approvals List Option

/-! ### The machine -/

/-- How the daemon answers a handler of `propose`; any exception that is not the channel's own,
and the cancellation of the call, raise. -/
inductive LinkOutcome
  | linked (link : ProposalLink)
  | unavailable
  | raised

inductive Label
  | propose (p : ProposalInput) (interruption : Interruption)
  /-- the daemon answers a handler of `propose` -/
  | proposed (i : Nat) (outcome : LinkOutcome) (now : PyStr)
  | decide (approvalId principal : PyStr) (approve : Bool) (decidedBy : Option PyStr)
      (grantId now : PyStr)
  | cancel (approvalId principal : PyStr)
  | revoke (grantId principal : PyStr)
  | decisionStatus (approvalId now : PyStr)
  | execute (approvalId : PyStr) (ctx : ActionRequestContext) (caller : Caller) (now : PyStr)
      (taken : Bool)
  /-- the channel answers a handler of `execute` -/
  | answer (i : Nat) (a : Answer) (now : PyStr) (taken : Bool)
  /-- the rest of the process writes to the journal -/
  | event (missionId eventType : PyStr) (payload : PyVal)
  /-- missions, bindings, leases, the catalog or the channels change -/
  | environment (E : Environment)
  | restart

inductive Reply
  | proposal (r : ProposeReply)
  | execution (r : ExecuteReply)

namespace Service

/-- The ids that `propose` makes are new. -/
def Fresh (s : Service) (p : ProposalInput) : Prop :=
  s.txns.get? p.txnId = none ∧ s.broker.requests.get? p.approvalId = none ∧
    p.approvalId.isEmpty = false

instance (s : Service) (p : ProposalInput) : Decidable (s.Fresh p) :=
  decidable_of_iff ((s.txns.get? p.txnId).isNone = true ∧
    (s.broker.requests.get? p.approvalId).isNone = true ∧ p.approvalId.isEmpty = false) (by
      rw [Fresh, Option.isNone_iff_eq_none, Option.isNone_iff_eq_none])

/-- The handler of `propose` goes on with the answer of the daemon; the policy decides
simulations only, which do not wait. -/
def resume (H : Host) (s : Service) (i : Nat) (p : Proposing) (outcome : LinkOutcome)
    (now : PyStr) : ProposeReply × Service :=
  match outcome with
  | .linked link => { s with proposing := s.proposing.eraseIdx i }.attach H p (some link) none now
  | .unavailable => { s with proposing := s.proposing.eraseIdx i }.attach H p none none now
  | .raised => (.raised, { s with proposing := s.proposing.eraseIdx i })

end Service

def respond (H : Host) (s : Service) : Label → Option (Option Reply × Service)
  | .propose p interruption =>
      if s.Fresh p then
        let r := s.propose H p interruption
        some (r.1.map .proposal, r.2)
      else none
  | .proposed i outcome now =>
      (s.proposing[i]?).map fun p =>
        let r := s.resume H i p outcome now
        (some (.proposal r.1), r.2)
  | .decide approvalId principal approve decidedBy grantId now =>
      some (none,
        s.withBroker (s.broker.decide H approvalId principal approve decidedBy grantId now).2)
  | .cancel approvalId principal =>
      some (none, s.withBroker (s.broker.cancelRequest approvalId principal).2)
  | .revoke grantId principal => some (none, s.withBroker (s.broker.revoke grantId principal).2)
  | .decisionStatus approvalId now => some (none, s.decisionStatus approvalId now)
  | .execute approvalId ctx caller now taken =>
      let r := s.execute H approvalId ctx caller now taken
      some (r.1.map .execution, r.2)
  | .answer i a now taken =>
      (s.executing[i]?).map fun w =>
        let r := s.answer H i w a now taken
        (r.1.map .execution, r.2)
  | .event missionId eventType payload =>
      some (none, { s with journal := appendEvent s.journal missionId eventType payload })
  | .environment env => some (none, { s with env })
  | .restart => some (none, s.restarted)

/-- The admission service, with the operator, the channels and the rest of the process. -/
def admission (H : Host) : Machine Service Label where
  Init s := ∃ env policyHash, s = { env, broker := { policyHash } }
  step s l := (respond H s l).map Prod.snd

/-! ### The moves of a step -/

/-- An action whose transaction is in such a state may have gone to a channel. -/
def TxnState.sent : TxnState → Bool
  | dispatching | receiptPending | completed | failed => true
  | _ => false

def SameCards (b b' : Broker) : Prop :=
  ∀ id, (b'.requests.get? id).map (fun row => (row.request.requestId, row.request.exactActionJson))
    = (b.requests.get? id).map fun row => (row.request.requestId, row.request.exactActionJson)

def Named (card : ApprovalRequest) : Prop :=
  ∀ exact, ExactAction.ofJson card.exactActionJson = some exact →
    exact.executorIdentity.isEmpty = false

def Ended (txn txn' : ActionTxn) : Prop :=
  (∃ now, txn' = txn.moved .failed {} now) ∨
    ∃ actionId receiptId now now', txn' =
      (txn.moved .receiptPending { actionId, receiptId } now).moved .completed {} now'

/-- What a handler does at once.  In a calm move no card is made for a key that has one. -/
inductive Move (H : Host) (calm : Prop) (s : Service) : Service → Prop
  | quiet (env : Environment) (broker : Broker) (journal : List AgentEvent)
      (h : SameCards s.broker broker) :
      Move H calm s { s with env, broker, journal }
  | create (txn : ActionTxn) (hkey : s.txns.byKey txn.idempotencyKey = none)
      (hid : s.txns.get? txn.txnId = none) (happroval : txn.approvalId = "")
      (hstate : txn.state = .proposed) :
      Move H calm s { s with txns := s.txns.set txn.txnId txn }
  /-- a card is made, and its handler may wait for the daemon -/
  | ask (card : ApprovalRequest) (txn : ActionTxn) (journal : List AgentEvent)
      (hget : s.txns.get? txn.txnId = some txn) (hunattached : txn.approvalId.isEmpty = true)
      (hnew : s.broker.requests.get? card.requestId = none)
      (hid : card.requestId.isEmpty = false) (hnamed : Named card)
      (hcalm : calm → ∀ c ∈ s.cards, c.1 ≠ txn.idempotencyKey) :
      Move H calm s
        { s with
          broker := s.broker.createRequest card
          journal
          cards := s.cards ++ [(txn.idempotencyKey, card.requestId)]
          proposing := s.proposing ++ [⟨txn.idempotencyKey, txn, card.requestId⟩] }
  | leave (proposing : List Proposing) (h : proposing.Sublist s.proposing) :
      Move H calm s { s with proposing }
  | attach (i : Nat) (p : Proposing) (txn : ActionTxn) (hash now : PyStr)
      (hp : s.proposing[i]? = some p) (hget : s.txns.get? p.txn.txnId = some txn)
      (hstate : txn.state = .proposed) (hhash : ∃ card, displayHash H card = .ok hash) :
      Move H calm s
        { s with
          proposing := s.proposing.eraseIdx i
          txns := s.txns.set p.txn.txnId (txn.moved .awaitingOperator
            { approvalId := p.approvalId, displayHash := hash } now) }
  /-- `propose` returns the card of the transaction -/
  | back (txn : ActionTxn) (key txnId approvalId : PyStr)
      (hget : s.txns.get? txnId = some txn) (hattached : txn.approvalId.isEmpty = false)
      (hkey : txn.idempotencyKey = key) (hcard : txn.approvalId = approvalId) :
      Move H calm s { s with returned := s.returned ++ [(key, txnId, approvalId)] }
  | advance (id : PyStr) (txn : ActionTxn) (state : TxnState) (now : PyStr)
      (hget : s.txns.get? id = some txn) (hstate : txn.state = .awaitingOperator)
      (hlegal : state ∈ validTransitions .awaitingOperator) :
      Move H calm s { s with txns := s.txns.set id (txn.moved state {} now) }
  /-- the handler of `execute` goes to its channel, or fails before -/
  | dispatch (txn : ActionTxn) (w : Executing) (grantId now : PyStr) (called : List Called)
      (hget : s.txns.get? w.txnId = some txn) (hstate : txn.state = .approved)
      (hcard : w.approvalId = txn.approvalId)
      (hcalled : called = [] ∨ called = [⟨w.approvalId, txn.idempotencyKey, w.stage⟩]) :
      Move H calm s
        { s with
          txns := s.txns.set w.txnId (txn.moved .dispatching { grantId } now)
          executing := s.executing ++ [w]
          called := s.called ++ called }
  | settle (i : Nat) (w : Executing) (txn txn' : ActionTxn) (hw : s.executing[i]? = some w)
      (hget : s.txns.get? w.txnId = some txn) (hstate : txn.state = .dispatching)
      (hended : Ended txn txn') :
      Move H calm s
        { s with
          executing := s.executing.eraseIdx i
          txns := s.txns.set w.txnId txn' }
  | leaveExecuting (executing : List Executing)
      (h : (executing.map Executing.txnId).Subperm (s.executing.map Executing.txnId)) :
      Move H calm s { s with executing }

abbrev Moves (H : Host) (calm : Prop) : Service → Service → Prop :=
  Relation.ReflTransGen (Move H calm)

/-! ### Rows -/

section Rows

variable {txn txn' txn'' : ActionTxn} {state : TxnState} {now : PyStr}

/-- The row goes on: what identifies it stays, and so does that its action may have gone to a
channel. -/
structure Goes (txn txn' : ActionTxn) : Prop where
  txnId : txn'.txnId = txn.txnId
  key : txn'.idempotencyKey = txn.idempotencyKey
  requestHash : txn'.requestHash = txn.requestHash
  approvalId : txn'.approvalId = txn.approvalId
  displayHash : txn'.displayHash = txn.displayHash
  proposed : txn'.state = .proposed ↔ txn.state = .proposed
  sent : txn.state.sent = true → txn'.state.sent = true

theorem Goes.refl (txn : ActionTxn) : Goes txn txn where
  txnId := rfl
  key := rfl
  requestHash := rfl
  approvalId := rfl
  displayHash := rfl
  proposed := .rfl
  sent h := h

theorem Goes.trans (h : Goes txn txn') (h' : Goes txn' txn'') : Goes txn txn'' where
  txnId := h'.txnId.trans h.txnId
  key := h'.key.trans h.key
  requestHash := h'.requestHash.trans h.requestHash
  approvalId := h'.approvalId.trans h.approvalId
  displayHash := h'.displayHash.trans h.displayHash
  proposed := h'.proposed.trans h.proposed
  sent hsent := h'.sent (h.sent hsent)

theorem goes_moved {fields : TxnFields} (hstate : txn.state ≠ .proposed) (hnew : state ≠ .proposed)
    (hsent : txn.state.sent = true → state.sent = true) (hcard : fields.approvalId = "")
    (hhash : fields.displayHash = "") : Goes txn (txn.moved state fields now) where
  txnId := rfl
  key := rfl
  requestHash := rfl
  approvalId := by
    show orKeep fields.approvalId txn.approvalId = _
    rw [hcard]
    rfl
  displayHash := by
    show orKeep fields.displayHash txn.displayHash = _
    rw [hhash]
    rfl
  proposed := iff_of_false hnew hstate
  sent := hsent

theorem goes_advanced (hstate : txn.state = .awaitingOperator)
    (hlegal : state ∈ validTransitions .awaitingOperator) : Goes txn (txn.moved state {} now) := by
  refine goes_moved (by simp [hstate]) ?_ (by simp [hstate, TxnState.sent]) rfl rfl
  rintro rfl
  simp [validTransitions] at hlegal

theorem goes_dispatched {grantId : PyStr} (hstate : txn.state = .approved) :
    Goes txn (txn.moved .dispatching { grantId } now) :=
  goes_moved (by simp [hstate]) (by simp) (by simp [TxnState.sent]) rfl rfl

theorem Ended.goes (h : Ended txn txn') (hstate : txn.state = .dispatching) : Goes txn txn' := by
  have hproposed : txn.state ≠ .proposed := by simp [hstate]
  rcases h with ⟨now, rfl⟩ | ⟨actionId, receiptId, now, now', rfl⟩
  · exact goes_moved hproposed (by simp) (fun _ => rfl) rfl rfl
  · have hreceived : Goes txn (txn.moved .receiptPending { actionId, receiptId } now) :=
      goes_moved hproposed (by simp) (fun _ => rfl) rfl rfl
    exact hreceived.trans (goes_moved (by simp [ActionTxn.moved]) (by simp) (fun _ => rfl) rfl rfl)

end Rows

/-! ### What holds in every state -/

/-- A handler of `propose` that waits: its card is not that of any transaction yet. -/
structure Waits (b : Broker) (t : Txns) (p : Proposing) : Prop where
  nonempty : p.approvalId.isEmpty = false
  made : (b.requests.get? p.approvalId).isSome = true
  unattached : ∀ {id txn}, t.get? id = some txn → txn.approvalId ≠ p.approvalId
  read : p.txn.state = .proposed
  row : ∃ txn, t.get? p.txn.txnId = some txn ∧ txn.idempotencyKey = p.key

def Sent (t : Txns) (c : Called) : Prop :=
  ∃ id txn, t.get? id = some txn ∧ txn.approvalId = c.approvalId ∧
    txn.idempotencyKey = c.key ∧ txn.state.sent = true

structure Sound (H : Host) (s : Service) : Prop where
  keyed : s.txns.Keyed
  unattached : ∀ {id txn}, s.txns.get? id = some txn →
    (txn.approvalId.isEmpty = true ↔ txn.state = .proposed)
  made : ∀ {id txn}, s.txns.get? id = some txn → txn.approvalId.isEmpty = false →
    (s.broker.requests.get? txn.approvalId).isSome = true
  /-- a display hash that cannot be empty is not -/
  shown : (∀ card hash, displayHash H card = .ok hash → hash.isEmpty = false) →
    ∀ {id txn}, s.txns.get? id = some txn → txn.approvalId.isEmpty = false →
      txn.displayHash.isEmpty = false
  once : ∀ {id id' txn txn'}, s.txns.get? id = some txn → s.txns.get? id' = some txn' →
    txn.approvalId.isEmpty = false → txn.approvalId = txn'.approvalId → id = id'
  cards : ∀ {id row}, s.broker.requests.get? id = some row →
    id.isEmpty = false ∧ row.request.requestId = id ∧ Named row.request
  waiting : ∀ p ∈ s.proposing, Waits s.broker s.txns p
  apart : (s.proposing.map Proposing.approvalId).Nodup
  executing : ∀ w ∈ s.executing, ∃ txn, s.txns.get? w.txnId = some txn ∧ txn.state = .dispatching
  alone : (s.executing.map Executing.txnId).Nodup
  called : ∀ c ∈ s.called, Sent s.txns c
  calledOnce : (s.called.map Called.approvalId).Nodup ∧ (s.called.map Called.key).Nodup

section Sound

variable {H : Host} {s s' : Service} {C : Prop}

variable {a a' txn txn' : ActionTxn} {approvalId grantId hash id id' now : PyStr}
  {b b' broker : Broker} {i j : Nat} {p : Proposing} {t t' : Txns} {w : Executing} {α β : Type}

theorem sameCards_isSome (h : SameCards b b') (id : PyStr) :
    (b'.requests.get? id).isSome = (b.requests.get? id).isSome := by
  have hid := congrArg Option.isSome (h id)
  rwa [isSome_map, isSome_map] at hid

theorem waits_mono (h : Waits b t p)
    (hbroker : ∀ id, (b.requests.get? id).isSome = true → (b'.requests.get? id).isSome = true)
    (hback : ∀ {id txn'}, t'.get? id = some txn' → txn'.approvalId.isEmpty = false →
      ∃ id₀ txn, t.get? id₀ = some txn ∧ txn.approvalId = txn'.approvalId)
    (hforth : ∀ {txn}, t.get? p.txn.txnId = some txn →
      ∃ txn', t'.get? p.txn.txnId = some txn' ∧ txn'.idempotencyKey = txn.idempotencyKey) :
    Waits b' t' p where
  nonempty := h.nonempty
  made := hbroker _ h.made
  unattached hget heq := by
    obtain ⟨id₀, txn, hget₀, hsame⟩ := hback hget (heq ▸ h.nonempty)
    exact h.unattached hget₀ (hsame.trans heq)
  read := h.read
  row := by
    obtain ⟨txn, hget, hkey⟩ := h.row
    obtain ⟨txn', hget', hkey'⟩ := hforth hget
    exact ⟨txn', hget', hkey'.trans hkey⟩

theorem goes_forth (hget : t.get? id = some txn) (hgoes : Goes txn txn')
    (ha : t.get? id' = some a) : ∃ a', (t.set id txn').get? id' = some a' ∧ Goes a a' := by
  rw [Dict.get?_set]
  split
  · next hid =>
    subst hid
    rw [hget, some_inj] at ha
    exact ⟨txn', rfl, ha ▸ hgoes⟩
  · exact ⟨a, ha, .refl a⟩

theorem goes_back (hget : t.get? id = some txn) (hgoes : Goes txn txn')
    (ha' : (t.set id txn').get? id' = some a') : ∃ a, t.get? id' = some a ∧ Goes a a' := by
  rw [Dict.get?_set] at ha'
  split at ha'
  · next hid =>
    subst hid
    exact ⟨txn, hget, some_inj.mp ha' ▸ hgoes⟩
  · exact ⟨a', ha', .refl a'⟩

theorem Sound.update (h : Sound H s) (hget : s.txns.get? id = some txn) (hgoes : Goes txn txn')
    (hidle : ∀ w ∈ s.executing, w.txnId ≠ id) :
    Sound H { s with txns := s.txns.set id txn' } where
  keyed := h.keyed.update hget hgoes.txnId hgoes.key
  unattached hget' := by
    obtain ⟨a, ha, hgoes'⟩ := goes_back hget hgoes hget'
    rw [hgoes'.approvalId, hgoes'.proposed]
    exact h.unattached ha
  made hget' hattached := by
    obtain ⟨a, ha, hgoes'⟩ := goes_back hget hgoes hget'
    rw [hgoes'.approvalId] at hattached ⊢
    exact h.made ha hattached
  shown hhashes _ _ hget' hattached := by
    obtain ⟨a, ha, hgoes'⟩ := goes_back hget hgoes hget'
    rw [hgoes'.displayHash]
    rw [hgoes'.approvalId] at hattached
    exact h.shown hhashes ha hattached
  once hget₁ hget₂ hattached hsame := by
    obtain ⟨a, ha, hgoes₁⟩ := goes_back hget hgoes hget₁
    obtain ⟨b, hb, hgoes₂⟩ := goes_back hget hgoes hget₂
    rw [hgoes₁.approvalId] at hattached hsame
    rw [hgoes₂.approvalId] at hsame
    exact h.once ha hb hattached hsame
  cards := h.cards
  waiting p hp := by
    refine waits_mono (h.waiting p hp) (fun _ h => h) ?_ ?_
    · intro id' a' ha' _
      obtain ⟨a, ha, hgoes'⟩ := goes_back hget hgoes ha'
      exact ⟨id', a, ha, hgoes'.approvalId.symm⟩
    · intro a ha
      obtain ⟨a', ha', hgoes'⟩ := goes_forth hget hgoes ha
      exact ⟨a', ha', hgoes'.key⟩
  apart := h.apart
  executing w hw := by
    obtain ⟨a, ha, hstate⟩ := h.executing w hw
    refine ⟨a, ?_, hstate⟩
    show (s.txns.set id txn').get? w.txnId = some a
    rw [Dict.get?_set_of_ne _ _ fun heq => hidle w hw heq.symm, ha]
  alone := h.alone
  called c hc := by
    obtain ⟨id', a, ha, hcard, hkey, hsent⟩ := h.called c hc
    obtain ⟨a', ha', hgoes'⟩ := goes_forth hget hgoes ha
    exact ⟨id', a', ha', hgoes'.approvalId.trans hcard, hgoes'.key.trans hkey, hgoes'.sent hsent⟩
  calledOnce := h.calledOnce

theorem Sound.quiet (h : Sound H s) (env : Environment) (journal : List AgentEvent)
    (hcards : SameCards s.broker broker) : Sound H { s with env, broker, journal } := by
  have hsome := sameCards_isSome hcards
  refine { h with made := ?_, cards := ?_, waiting := ?_ }
  · intro id txn hget hattached
    show (broker.requests.get? txn.approvalId).isSome = true
    rw [hsome]
    exact h.made hget hattached
  · intro id row hrow
    have hid := hcards id
    rw [show broker.requests.get? id = some row from hrow, map_some] at hid
    obtain ⟨row₀, hrow₀, hsame⟩ := map_eq_some_iff.mp hid.symm
    obtain ⟨hnonempty, hrequest, hnamed⟩ := h.cards hrow₀
    obtain ⟨hrequest', hexact⟩ := Prod.mk.inj hsame
    refine ⟨hnonempty, hrequest' ▸ hrequest, ?_⟩
    intro exact hparse
    rw [← hexact] at hparse
    exact hnamed exact hparse
  · intro p hp
    refine waits_mono (h.waiting p hp) ?_ (fun hget _ => ⟨_, _, hget, rfl⟩)
      fun hget => ⟨_, hget, rfl⟩
    intro id hid
    exact (hsome id).trans hid

theorem Sound.create (h : Sound H s) (hkey : s.txns.byKey txn.idempotencyKey = none)
    (hid : s.txns.get? txn.txnId = none) (happroval : txn.approvalId = "")
    (hstate : txn.state = .proposed) : Sound H { s with txns := s.txns.set txn.txnId txn } := by
  have hold : ∀ {id a}, (s.txns.set txn.txnId txn).get? id = some a →
      a = txn ∨ s.txns.get? id = some a := by
    intro id a ha
    rw [Dict.get?_set] at ha
    split at ha
    · exact .inl (some_inj.mp ha).symm
    · exact .inr ha
  have hkept : ∀ {id a}, s.txns.get? id = some a → (s.txns.set txn.txnId txn).get? id = some a := by
    intro id a ha
    rw [Dict.get?_set_of_ne, ha]
    rintro rfl
    rw [hid] at ha
    cases ha
  have hempty : ¬ txn.approvalId.isEmpty = false := by
    rw [happroval]
    exact Bool.noConfusion
  refine { h with
    keyed := h.keyed.insert hkey
    unattached := ?_, made := ?_, shown := ?_, once := ?_, waiting := ?_, executing := ?_
    called := ?_ }
  · intro id a ha
    rcases hold ha with rfl | ha
    · exact iff_of_true (happroval ▸ rfl) hstate
    · exact h.unattached ha
  · intro id a ha hattached
    rcases hold ha with rfl | ha
    · exact absurd hattached hempty
    · exact h.made ha hattached
  · intro hhashes id a ha hattached
    rcases hold ha with rfl | ha
    · exact absurd hattached hempty
    · exact h.shown hhashes ha hattached
  · intro id id' a b ha hb hattached hsame
    rcases hold ha with rfl | ha
    · exact absurd hattached hempty
    · rcases hold hb with rfl | hb
      · exact absurd (hsame ▸ hattached) hempty
      · exact h.once ha hb hattached hsame
  · intro p hp
    refine waits_mono (h.waiting p hp) (fun _ h => h) ?_ fun hget => ⟨_, hkept hget, rfl⟩
    intro id a ha hattached
    rcases hold ha with rfl | ha
    · exact absurd hattached hempty
    · exact ⟨id, a, ha, rfl⟩
  · intro w hw
    obtain ⟨a, ha, hstate⟩ := h.executing w hw
    exact ⟨a, hkept ha, hstate⟩
  · intro c hc
    obtain ⟨id, a, ha, hsent⟩ := h.called c hc
    exact ⟨id, a, hkept ha, hsent⟩

theorem Sound.ask (h : Sound H s) {card : ApprovalRequest} (journal : List AgentEvent)
    (hget : s.txns.get? txn.txnId = some txn) (hunattached : txn.approvalId.isEmpty = true)
    (hnew : s.broker.requests.get? card.requestId = none) (hid : card.requestId.isEmpty = false)
    (hnamed : Named card) :
    Sound H { s with
        broker := s.broker.createRequest card
        journal
        cards := s.cards ++ [(txn.idempotencyKey, card.requestId)]
        proposing := s.proposing ++ [⟨txn.idempotencyKey, txn, card.requestId⟩] } := by
  have hrequests : ∀ id, (s.broker.createRequest card).requests.get? id
      = if card.requestId = id then some { request := card } else s.broker.requests.get? id :=
    fun id => Dict.get?_set _ _ _ _
  have hsome : ∀ id, (s.broker.requests.get? id).isSome = true →
      ((s.broker.createRequest card).requests.get? id).isSome = true := by
    intro id hsome
    rw [hrequests]
    split
    · rfl
    · exact hsome
  refine { h with made := ?_, cards := ?_, waiting := ?_, apart := ?_ }
  · intro id a ha hattached
    exact hsome _ (h.made ha hattached)
  · intro id row hrow
    rw [hrequests] at hrow
    split at hrow
    · next heq =>
      cases hrow
      exact ⟨heq ▸ hid, heq, hnamed⟩
    · exact h.cards hrow
  · intro p hp
    rcases mem_append.mp hp with hp | hp
    · exact waits_mono (h.waiting p hp) hsome (fun hget _ => ⟨_, _, hget, rfl⟩)
        fun hget => ⟨_, hget, rfl⟩
    · obtain rfl := mem_singleton.mp hp
      refine ⟨hid, ?_, ?_, (h.unattached hget).mp hunattached, txn, hget, rfl⟩
      · show ((s.broker.createRequest card).requests.get? card.requestId).isSome = true
        rw [hrequests, if_pos rfl]
        rfl
      -- a card that has just been made is not that of a transaction
      · intro id a ha heq
        have hmade := h.made ha (heq ▸ hid)
        rw [show a.approvalId = card.requestId from heq, hnew] at hmade
        cases hmade
  · show ((s.proposing ++ [_]).map Proposing.approvalId).Nodup
    rw [map_append, map_singleton, nodup_append]
    refine ⟨h.apart, nodup_singleton _, ?_⟩
    rintro a ha b hb rfl
    obtain ⟨p, hp, heq⟩ := mem_map.mp ha
    have hmade := (h.waiting p hp).made
    rw [heq, mem_singleton.mp hb, hnew] at hmade
    cases hmade

theorem Sound.leave (h : Sound H s) {proposing : List Proposing}
    (hsub : proposing.Sublist s.proposing) : Sound H { s with proposing } :=
  { h with
    waiting := fun p hp => h.waiting p (hsub.subset hp)
    apart := h.apart.sublist (hsub.map _) }

theorem Sound.leaveExecuting (h : Sound H s) {executing : List Executing}
    (hsub : (executing.map Executing.txnId).Subperm (s.executing.map Executing.txnId)) :
    Sound H { s with executing } := by
  refine { h with executing := ?_, alone := ?_ }
  · intro w hw
    obtain ⟨w', hw', hsame⟩ := mem_map.mp (hsub.subset (mem_map_of_mem hw))
    rw [← hsame]
    exact h.executing w' hw'
  · obtain ⟨l, hperm, hsub⟩ := hsub
    exact hperm.nodup_iff.mp (h.alone.sublist hsub)

theorem apart_of_nodup {f : α → β} {l : List α} (h : (l.map f).Nodup) {a b : α}
    (ha : l[i]? = some a) (hb : l[j]? = some b) (heq : f a = f b) : i = j := by
  have hi : i < (l.map f).length := by
    rw [length_map]
    exact (List.getElem?_eq_some_iff.mp ha).1
  refine (List.getElem?_inj hi h).mp ?_
  rw [List.getElem?_map, List.getElem?_map, ha, hb, map_some, map_some, heq]

theorem moved_attached (txn : ActionTxn) (hash now : PyStr) (h : approvalId.isEmpty = false) :
    (txn.moved .awaitingOperator { approvalId, displayHash := hash } now).approvalId = approvalId := by
  show orKeep approvalId txn.approvalId = approvalId
  rw [orKeep, h]
  rfl

theorem Sound.attach (h : Sound H s) (hp : s.proposing[i]? = some p)
    (hget : s.txns.get? p.txn.txnId = some txn) (hstate : txn.state = .proposed)
    (hhash : ∃ card, displayHash H card = .ok hash) :
    Sound H { s with
        proposing := s.proposing.eraseIdx i
        txns := s.txns.set p.txn.txnId (txn.moved .awaitingOperator
          { approvalId := p.approvalId, displayHash := hash } now) } := by
  have hwaits := h.waiting p (mem_of_getElem? hp)
  have hcard := moved_attached txn hash now hwaits.nonempty
  have hidle : ∀ w ∈ s.executing, w.txnId ≠ p.txn.txnId := by
    intro w hw heq
    obtain ⟨a, ha, hdispatching⟩ := h.executing w hw
    rw [heq, hget, some_inj] at ha
    rw [← ha, hstate] at hdispatching
    cases hdispatching
  -- any row but that of the handler is as it was
  have hold : ∀ {id a}, (s.txns.set p.txn.txnId (txn.moved .awaitingOperator
      { approvalId := p.approvalId, displayHash := hash } now)).get? id = some a →
      (id = p.txn.txnId ∧ a = txn.moved .awaitingOperator
        { approvalId := p.approvalId, displayHash := hash } now) ∨ s.txns.get? id = some a := by
    intro id a ha
    rw [Dict.get?_set] at ha
    split at ha
    · next heq => exact .inl ⟨heq.symm, (some_inj.mp ha).symm⟩
    · exact .inr ha
  refine {
    keyed := h.keyed.update hget rfl rfl
    unattached := ?_, made := ?_, shown := ?_, once := ?_
    cards := h.cards
    waiting := ?_
    apart := h.apart.sublist ((eraseIdx_sublist ..).map _)
    executing := ?_
    alone := h.alone
    called := ?_
    calledOnce := h.calledOnce }
  · intro id a ha
    rcases hold ha with ⟨-, rfl⟩ | ha
    · rw [hcard, hwaits.nonempty]
      exact iff_of_false Bool.noConfusion (by simp [ActionTxn.moved])
    · exact h.unattached ha
  · intro id a ha hattached
    rcases hold ha with ⟨-, rfl⟩ | ha
    · rw [hcard]
      exact hwaits.made
    · exact h.made ha hattached
  · intro hhashes id a ha hattached
    rcases hold ha with ⟨-, rfl⟩ | ha
    · obtain ⟨card, hcard⟩ := hhash
      show (orKeep hash txn.displayHash).isEmpty = false
      rw [orKeep, hhashes card hash hcard]
      exact hhashes card hash hcard
    · exact h.shown hhashes ha hattached
  · intro id id' a b ha hb hattached hsame
    rcases hold ha with ⟨rfl, rfl⟩ | ha
    · rcases hold hb with ⟨rfl, -⟩ | hb
      · rfl
      · exact absurd (hsame.symm.trans hcard) (hwaits.unattached hb)
    · rcases hold hb with ⟨rfl, rfl⟩ | hb
      · exact absurd (hsame.trans hcard) (hwaits.unattached ha)
      · exact h.once ha hb hattached hsame
  · intro q hq
    obtain ⟨j, hj, hjq⟩ := mem_eraseIdx_iff_getElem?.mp hq
    have hwaits' := h.waiting q (mem_of_getElem? hjq)
    -- the handlers have cards of their own
    have hne : q.approvalId ≠ p.approvalId := by
      intro heq
      refine hj (apart_of_nodup h.apart hjq hp heq)
    refine ⟨hwaits'.nonempty, hwaits'.made, ?_, hwaits'.read, ?_⟩
    · intro id a ha heq
      rcases hold ha with ⟨-, rfl⟩ | ha
      · exact hne (heq.symm.trans hcard)
      · exact hwaits'.unattached ha heq
    · obtain ⟨a, ha, hkey⟩ := hwaits'.row
      show ∃ a, (s.txns.set _ _).get? _ = some a ∧ _
      rw [Dict.get?_set]
      split
      · next heq =>
        rw [← heq, hget, some_inj] at ha
        exact ⟨_, rfl, ha ▸ hkey⟩
      · exact ⟨a, ha, hkey⟩
  · intro w hw
    obtain ⟨a, ha, hdispatching⟩ := h.executing w hw
    refine ⟨a, ?_, hdispatching⟩
    show (s.txns.set _ _).get? _ = some a
    rw [Dict.get?_set_of_ne _ _ fun heq => hidle w hw heq.symm, ha]
  · intro c hc
    obtain ⟨id, a, ha, hcard', hkey, hsent⟩ := h.called c hc
    refine ⟨id, a, ?_, hcard', hkey, hsent⟩
    show (s.txns.set _ _).get? _ = some a
    rw [Dict.get?_set_of_ne, ha]
    rintro rfl
    rw [hget, some_inj] at ha
    rw [← ha, hstate] at hsent
    cases hsent

theorem Sound.advance (h : Sound H s) {state : TxnState} (hget : s.txns.get? id = some txn)
    (hstate : txn.state = .awaitingOperator) (hlegal : state ∈ validTransitions .awaitingOperator) :
    Sound H { s with txns := s.txns.set id (txn.moved state {} now) } := by
  refine h.update hget (goes_advanced hstate hlegal) ?_
  intro w hw heq
  obtain ⟨a, ha, hdispatching⟩ := h.executing w hw
  rw [heq, hget, some_inj] at ha
  rw [← ha, hstate] at hdispatching
  cases hdispatching

theorem Sound.dispatch (h : Sound H s) {called : List Called}
    (hget : s.txns.get? w.txnId = some txn) (hstate : txn.state = .approved)
    (hcard : w.approvalId = txn.approvalId)
    (hcalled : called = [] ∨ called = [⟨w.approvalId, txn.idempotencyKey, w.stage⟩]) :
    Sound H { s with
        txns := s.txns.set w.txnId (txn.moved .dispatching { grantId } now)
        executing := s.executing ++ [w]
        called := s.called ++ called } := by
  have hidle : ∀ v ∈ s.executing, v.txnId ≠ w.txnId := by
    intro v hv heq
    obtain ⟨a, ha, hdispatching⟩ := h.executing v hv
    rw [heq, hget, some_inj] at ha
    rw [← ha, hstate] at hdispatching
    cases hdispatching
  have hgoes : Goes txn (txn.moved .dispatching { grantId } now) := goes_dispatched hstate
  have hattached : txn.approvalId.isEmpty = false := by
    by_contra hempty
    have hproposed := (h.unattached hget).mp (by simpa using hempty)
    rw [hstate] at hproposed
    cases hproposed
  -- no call has been made for the row: it would have been sent
  have hnone : ∀ c ∈ s.called, c.approvalId ≠ w.approvalId ∧ c.key ≠ txn.idempotencyKey := by
    intro c hc
    obtain ⟨id, a, ha, hcard', hkey', hsent⟩ := h.called c hc
    have hne : id ≠ w.txnId := by
      rintro rfl
      rw [hget, some_inj] at ha
      rw [← ha, hstate] at hsent
      cases hsent
    refine ⟨?_, ?_⟩
    · intro heq
      exact hne (h.once hget ha hattached (hcard.symm.trans (heq.symm.trans hcard'.symm))).symm
    · intro heq
      exact hne (h.keyed.unique ha hget (hkey'.trans heq))
  have hupdated := h.update hget hgoes hidle
  have hself : (s.txns.set w.txnId (txn.moved .dispatching { grantId } now)).get? w.txnId
      = some (txn.moved .dispatching { grantId } now) := Dict.get?_set_self ..
  refine { hupdated with executing := ?_, alone := ?_, called := ?_, calledOnce := ?_ }
  · intro v hv
    rcases mem_append.mp hv with hv | hv
    · exact hupdated.executing v hv
    · obtain rfl := mem_singleton.mp hv
      exact ⟨_, hself, rfl⟩
  · show ((s.executing ++ [w]).map Executing.txnId).Nodup
    rw [map_append, map_singleton, nodup_append]
    refine ⟨h.alone, nodup_singleton _, ?_⟩
    rintro a ha b hb rfl
    obtain ⟨v, hv, heq⟩ := mem_map.mp ha
    exact hidle v hv (heq.trans (mem_singleton.mp hb))
  · intro c hc
    rcases mem_append.mp hc with hc | hc
    · exact hupdated.called c hc
    · rcases hcalled with rfl | rfl
      · cases hc
      · obtain rfl := mem_singleton.mp hc
        exact ⟨w.txnId, _, hself, (hgoes.approvalId.trans hcard.symm), rfl, rfl⟩
  · rcases hcalled with rfl | rfl
    · simpa using h.calledOnce
    · show ((s.called ++ [_]).map Called.approvalId).Nodup ∧ ((s.called ++ [_]).map Called.key).Nodup
      rw [map_append, map_singleton, nodup_append, map_append, map_singleton, nodup_append]
      refine ⟨⟨h.calledOnce.1, nodup_singleton _, ?_⟩, h.calledOnce.2, nodup_singleton _, ?_⟩
      · rintro a ha b hb rfl
        obtain ⟨c, hc, heq⟩ := mem_map.mp ha
        exact (hnone c hc).1 (heq.trans (mem_singleton.mp hb))
      · rintro a ha b hb rfl
        obtain ⟨c, hc, heq⟩ := mem_map.mp ha
        exact (hnone c hc).2 (heq.trans (mem_singleton.mp hb))

theorem Sound.settle (h : Sound H s) (hw : s.executing[i]? = some w)
    (hget : s.txns.get? w.txnId = some txn) (hstate : txn.state = .dispatching)
    (hended : Ended txn txn') :
    Sound H { s with
        executing := s.executing.eraseIdx i
        txns := s.txns.set w.txnId txn' } := by
  have hleft : Sound H { s with executing := s.executing.eraseIdx i } :=
    h.leaveExecuting ((eraseIdx_sublist ..).map _).subperm
  refine hleft.update hget (hended.goes hstate) ?_
  intro v hv heq
  obtain ⟨j, hj, hjv⟩ := mem_eraseIdx_iff_getElem?.mp hv
  exact hj (apart_of_nodup h.alone hjv hw heq)

/-- **Every move keeps what holds.** -/
theorem sound_move (h : Sound H s) (hmove : Move H C s s') : Sound H s' := by
  cases hmove with
  | quiet env broker journal hcards => exact h.quiet env journal hcards
  | create txn hkey hid happroval hstate => exact h.create hkey hid happroval hstate
  | ask card txn journal hget hunattached hnew hid hnamed hcalm =>
    exact h.ask journal hget hunattached hnew hid hnamed
  | leave proposing hsub => exact h.leave hsub
  | attach i p txn hash now hp hget hstate hhash => exact h.attach hp hget hstate hhash
  | back txn key txnId approvalId hget hattached hkey hcard => exact { h with }
  | advance id txn state now hget hstate hlegal => exact h.advance hget hstate hlegal
  | dispatch txn w grantId now called hget hstate hcard hcalled =>
    exact h.dispatch hget hstate hcard hcalled
  | settle i w txn txn' hw hget hstate hended => exact h.settle hw hget hstate hended
  | leaveExecuting executing hsub => exact h.leaveExecuting hsub

theorem sound_moves (h : Sound H s) (hmoves : Moves H C s s') : Sound H s' := by
  induction hmoves with
  | refl => exact h
  | tail _ hmove ih => exact sound_move ih hmove

end Sound

/-! ### Every step is made of moves -/

def Interruption.asks : Interruption → Bool
  | .none | .crashesAfterCard => true
  | .raisesBeforeCard | .crashesBeforeCard => false

/-- A call of `propose` that makes a card finds none that has been made for its key. -/
def Calm (H : Host) (s : Service) : Label → Prop
  | .propose p interruption =>
      interruption.asks = true → ∀ mission exact,
        checkProposal H s.env p = .ok (mission, exact) →
        (∀ txn, s.txns.byKey p.ctx.idempotencyKey = some txn →
          txn.requestHash = (newTxn H p exact).requestHash ∧ txn.approvalId.isEmpty = true) →
        ∀ c ∈ s.cards, c.1 ≠ p.ctx.idempotencyKey
  | _ => True

section Steps

variable {H : Host} {s s' : Service} {C : Prop} {now : PyStr}

variable {E : Environment} {approve taken : Bool} {b b' broker : Broker} {c : Cleared}
  {card stored : ApprovalRequest} {ctx : ActionRequestContext}
  {decidedBy policyGrant : Option PyStr} {exact : ExactAction}
  {grantId hash id principal requestId : PyStr} {i : Nat} {interruption : Interruption}
  {mission : Mission} {row row' : RequestRow} {t txns : Txns} {txn txn' : ActionTxn} {w : Executing}
  {α : Type}

theorem sameCards_of_eq (h : b'.requests = b.requests) : SameCards b b' :=
  fun id => by rw [h]

theorem sameCards_set (hrow : b.requests.get? id = some row)
    (hb' : b'.requests = b.requests.set id row')
    (hid : row'.request.requestId = row.request.requestId)
    (hexact : row'.request.exactActionJson = row.request.exactActionJson) : SameCards b b' := by
  intro id'
  rw [hb', Dict.get?_set]
  split
  · next heq =>
    rw [← heq, hrow, map_some, map_some, hid, hexact]
  · rfl

theorem sameCards_decide :
    SameCards b (b.decide H requestId principal approve decidedBy grantId now).2 := by
  unfold Broker.decide
  split
  · exact sameCards_of_eq rfl
  · next row hrow =>
    split
    · exact sameCards_of_eq rfl
    · split
      · exact sameCards_set hrow rfl rfl rfl
      · split <;> exact sameCards_set hrow rfl rfl rfl

theorem sameCards_cancelRequest : SameCards b (b.cancelRequest requestId principal).2 := by
  unfold Broker.cancelRequest
  split
  · exact sameCards_of_eq rfl
  · next row hrow =>
    split
    · exact sameCards_of_eq rfl
    · exact sameCards_set hrow rfl rfl rfl

theorem SameCards.of_snd {r : α × Broker} {a : α} (h : SameCards b r.2) (hr : r = (a, b')) :
    SameCards b b' := by
  rwa [hr] at h

theorem moves_quiet (env : Environment) (journal : List AgentEvent)
    (h : SameCards s.broker broker) : Moves H C s { s with env, broker, journal } :=
  .single (.quiet env broker journal h)

theorem moves_withBroker (h : SameCards s.broker broker) : Moves H C s (s.withBroker broker) :=
  moves_quiet s.env s.journal h

variable {approvalId : PyStr}

theorem sameCards_linkCard {link : Option ProposalLink} :
    SameCards b (Service.linkCard b approvalId link) := by
  cases link with
  | none => exact sameCards_of_eq rfl
  | some link =>
    rcases hrow : b.requests.get? approvalId with _ | row
    · simp only [Service.linkCard, hrow]
      exact sameCards_of_eq rfl
    · simp only [Service.linkCard, hrow]
      exact sameCards_set hrow rfl rfl rfl

theorem moves_decline (h : Sound H s) (approvalId now : PyStr) :
    Moves H C s (s.decline approvalId now) := by
  unfold Service.decline
  split
  · exact .refl
  · next txn hfind =>
    split
    · next hstate =>
      obtain ⟨⟨id, hget⟩, -⟩ := Txns.byApproval_eq_some hfind
      obtain rfl := h.keyed.filed hget
      have hlegal : TxnState.declined ∈ validTransitions txn.state := by simp [hstate, validTransitions]
      rw [Txns.transition_legal hget hlegal]
      exact .single (.advance txn.txnId txn .declined now hget hstate (by simp [validTransitions]))
    · exact .refl

theorem policyDecide_spec {r : Except BrokerError (Option MissionGrant)}
    (h : s.policyDecide H approvalId policyGrant now = (r, s')) :
    ∃ broker journal, SameCards s.broker broker ∧ s' = { s with broker, journal } := by
  unfold Service.policyDecide at h
  split at h
  · next row grantId hrow =>
    split at h
    · next e broker hdecide =>
      cases h
      exact ⟨broker, s.journal, sameCards_decide.of_snd hdecide, rfl⟩
    · next grant broker hdecide =>
      cases h
      exact ⟨broker, _, sameCards_decide.of_snd hdecide, rfl⟩
  · cases h
    exact ⟨s.broker, s.journal, sameCards_of_eq rfl, rfl⟩

theorem attachCard_ok {p : Proposing} (hread : p.txn.state = .proposed)
    (h : s.attachCard p hash now = (.ok txn', txns)) :
    ∃ txn, s.txns.get? p.txn.txnId = some txn ∧ txn.state = .proposed ∧
      txn' = txn.moved .awaitingOperator { approvalId := p.approvalId, displayHash := hash } now ∧
      txns = s.txns.set p.txn.txnId txn' := by
  rw [Service.attachCard, if_pos hread] at h
  rcases hget : s.txns.get? p.txn.txnId with _ | txn
  · simp [Txns.transition, hget] at h
  · obtain ⟨rfl, htxns, hlegal⟩ := Txns.transition_ok hget (congrArg Prod.fst h)
    refine ⟨txn, rfl, ?_, rfl, (congrArg Prod.snd h).symm.trans htxns⟩
    rcases hlegal with hlegal | ⟨hterminal, hsame⟩
    · cases hstate : txn.state <;> rw [hstate] at hlegal <;> simp [validTransitions] at hlegal ⊢
    · rw [← hsame] at hterminal
      cases hterminal

theorem moves_attach (h : Sound H s) {p : Proposing} (hp : s.proposing[i]? = some p)
    (link : Option ProposalLink) (policyGrant : Option PyStr) (now : PyStr) :
    Moves H C s ({ s with proposing := s.proposing.eraseIdx i }.attach H p link policyGrant now).2 := by
  set b := Service.linkCard s.broker p.approvalId link with hb
  have hlink : Moves H C s (s.withBroker b) := moves_withBroker sameCards_linkCard
  have hleft : Moves H C s ({ s with proposing := s.proposing.eraseIdx i }.withBroker b) :=
    hlink.tail (.leave _ (eraseIdx_sublist ..))
  have hwaits := h.waiting p (mem_of_getElem? hp)
  unfold Service.attach
  simp only [← hb]
  split
  · exact hleft
  · exact hleft
  · next row hrow =>
    split
    · exact hleft
    · next hash hhash =>
      split
      · next e txns hattach => exact hleft
      · next txn' txns hattach =>
        obtain ⟨txn, hget, hstate, rfl, rfl⟩ := attachCard_ok hwaits.read hattach
        change s.txns.get? p.txn.txnId = some txn at hget
        set s₁ : Service := { ({ s with proposing := s.proposing.eraseIdx i }.withBroker b) with
          txns := s.txns.set p.txn.txnId (txn.moved .awaitingOperator
            { approvalId := p.approvalId, displayHash := hash } now) } with hs₁
        have hattached : Moves H C s s₁ :=
          hlink.tail (.attach i p txn hash now hp hget hstate ⟨_, hhash⟩)
        have hcard := moved_attached txn hash now hwaits.nonempty
        split
        · next e s₂ hpolicy =>
          obtain ⟨broker, journal, hcards, rfl⟩ := policyDecide_spec hpolicy
          exact hattached.trans (moves_quiet s₁.env journal hcards)
        · next grant s₂ hpolicy =>
          obtain ⟨broker, journal, hcards, rfl⟩ := policyDecide_spec hpolicy
          refine (hattached.trans (moves_quiet s₁.env journal hcards)).tail ?_
          obtain ⟨row', hrow', hkey⟩ := hwaits.row
          rw [hget, some_inj] at hrow'
          have hself : s₁.txns.get? txn.txnId = some (txn.moved .awaitingOperator
              { approvalId := p.approvalId, displayHash := hash } now) := by
            rw [h.keyed.filed hget]
            exact Dict.get?_set_self ..
          exact .back _ _ _ _ hself (by rw [hcard, hwaits.nonempty]) (hrow' ▸ hkey) hcard

theorem moves_restarted : Moves H C s s.restarted :=
  (Relation.ReflTransGen.single (.leave [] (nil_sublist _))).tail
    (.leaveExecuting [] (nil_sublist _).subperm)

theorem eraseIdx_concat (l : List α) (a : α) : (l ++ [a]).eraseIdx l.length = l := by
  simp [eraseIdx_append_of_length_le]

variable {p : ProposalInput}

theorem moves_proposeCard (h : Sound H s) (hget : s.txns.get? txn.txnId = some txn)
    (hunattached : txn.approvalId.isEmpty = true)
    (hnew : s.broker.requests.get? card.requestId = none) (hid : card.requestId.isEmpty = false)
    (hnamed : Named card)
    (hcalm : interruption.asks = true → C → ∀ c ∈ s.cards, c.1 ≠ txn.idempotencyKey) :
    Moves H C s (s.proposeCard H p txn card interruption).2 := by
  set waiting : Proposing := ⟨txn.idempotencyKey, txn, card.requestId⟩ with hwaiting
  set s₁ := s.askCard txn.idempotencyKey card p.taken with hs₁
  have hask : interruption.asks = true →
      Move H C s { s₁ with proposing := s₁.proposing ++ [waiting] } :=
    fun hasks => .ask card txn s₁.journal hget hunattached hnew hid hnamed (hcalm hasks)
  cases interruption with
  | none =>
    unfold Service.proposeCard
    simp only [← hs₁]
    split
    · exact .single (hask rfl)
    · have hsound := sound_move h (hask rfl)
      have hlast : (s₁.proposing ++ [waiting])[s₁.proposing.length]? = some waiting := by simp
      have hattach := moves_attach (C := C) hsound hlast none p.policyGrant p.now
      simp only [eraseIdx_concat] at hattach
      exact .head (hask rfl) hattach
  | raisesBeforeCard => exact .refl
  | crashesBeforeCard => exact moves_restarted
  | crashesAfterCard =>
    exact .head (hask rfl) moves_restarted

theorem checkProposal_ok (h : checkProposal H E p = .ok (mission, exact)) :
    p.capabilityId.isBlank = false ∧ ∃ d contextHash arguments,
      exact = exactActionOf H p mission d contextHash arguments := by
  simp only [checkProposal, bind_eq_ok, require_eq_ok, found_eq_ok, exists_const, pure, Except.pure,
    Except.ok.injEq, Prod.mk.injEq] at h
  obtain ⟨hcapability, ⟨mission', lease⟩, -, contextHash, -, d, -, -, -, -, arguments, -, rfl, rfl⟩ := h
  exact ⟨hcapability, d, contextHash, arguments, rfl⟩

theorem named_cardOf (h : checkProposal H E p = .ok (mission, exact)) :
    Named (cardOf E p mission exact) := by
  obtain ⟨hblank, d, contextHash, arguments, rfl⟩ := checkProposal_ok h
  intro exact' hparse
  have hcapability : p.capabilityId.isEmpty = false := by
    by_contra hempty
    simp only [PyStr.isEmpty, Bool.not_eq_false, List.isEmpty_iff] at hempty
    simp [PyStr.isBlank, hempty] at hblank
  have hread := ExactAction.ofJson_toDict
    (a := exactActionOf H p mission d contextHash arguments) hcapability
  rw [show (cardOf E p mission (exactActionOf H p mission d contextHash arguments)).exactActionJson
    = .value (exactActionOf H p mission d contextHash arguments).toDict from rfl, hread,
    Option.some_inj] at hparse
  rw [← hparse]
  exact d.source_nonempty

theorem replayCard_eq (h : Sound H s) {txnId approvalId : PyStr}
    (hreply : s.replayCard H txn = .replayed txnId approvalId hash) :
    txnId = txn.txnId ∧ approvalId = txn.approvalId := by
  unfold Service.replayCard at hreply
  split at hreply
  · cases hreply
  · split at hreply
    · cases hreply
    · cases hreply
    · next row hrow =>
      split at hreply
      · cases hreply
      · cases hreply
        have hget : s.broker.requests.get? txn.approvalId = some row := by
          unfold Broker.getRequest at hrow
          split at hrow
          · cases hrow
          · next row' hrow' =>
            split at hrow
            · cases hrow
            · cases hrow
              exact hrow'
        exact ⟨rfl, (h.cards hget).2.1⟩

theorem moves_propose (h : Sound H s) (hfresh : s.Fresh p) :
    Moves H (Calm H s (.propose p interruption)) s (s.propose H p interruption).2 := by
  obtain ⟨htxn, hcard, hnonempty⟩ := hfresh
  unfold Service.propose
  split
  · exact .refl
  · next mission exact hcheck =>
    have hnamed := named_cardOf hcheck
    rcases Txns.create_cases s.txns (newTxn H p exact) with
      ⟨txn, hfind, hhash, hcreate⟩ | ⟨txn, hfind, -, hcreate⟩ | ⟨hnone, hcreate⟩
    · rw [hcreate]
      obtain ⟨⟨id, hget⟩, hkey⟩ := Txns.byKey_eq_some hfind
      obtain rfl := h.keyed.filed hget
      dsimp only
      split
      · next hunattached =>
        refine moves_proposeCard h hget hunattached hcard hnonempty hnamed ?_
        intro hasks hcalm
        rw [hkey]
        refine hcalm hasks mission exact hcheck ?_
        intro txn' hfind'
        obtain rfl := some_inj.mp (hfind.symm.trans hfind')
        exact ⟨hhash, hunattached⟩
      · next hattached =>
        split
        · next txnId approvalId hash hreply =>
          obtain ⟨rfl, rfl⟩ := replayCard_eq h hreply
          exact .single (.back txn _ _ _ hget (by simpa using hattached) rfl rfl)
        · exact .refl
    · rw [hcreate]
    · rw [hcreate]
      have hnew : Move H (Calm H s (.propose p interruption)) s
          { s with txns := s.txns.set p.txnId (newTxn H p exact) } :=
        .create (newTxn H p exact) hnone htxn rfl rfl
      refine .head hnew (moves_proposeCard (sound_move h hnew) (Dict.get?_set_self ..) rfl hcard
        hnonempty hnamed ?_)
      intro hasks hcalm
      refine hcalm hasks mission exact hcheck ?_
      intro txn' hfind
      rw [show s.txns.byKey p.ctx.idempotencyKey = none from hnone] at hfind
      cases hfind

def ActionTxn.settled (txn : ActionTxn) (executed : Bool) (actionId receiptId now : PyStr) :
    ActionTxn :=
  if executed then (txn.moved .receiptPending { actionId, receiptId } now).moved .completed {} now
  else txn.moved .failed {} now

theorem ended_settled (txn : ActionTxn) (executed : Bool) (actionId receiptId now : PyStr) :
    Ended txn (txn.settled executed actionId receiptId now) := by
  cases executed with
  | false => exact .inl ⟨now, rfl⟩
  | true => exact .inr ⟨actionId, receiptId, now, now, rfl⟩

theorem settle_eq (hget : s.txns.get? w.txnId = some txn) (hstate : txn.state = .dispatching)
    (outcome : HandlerOutcome) (actionId : PyStr) (executed : Bool) (now : PyStr) :
    s.settle w outcome actionId executed now = (.executed (w.result outcome actionId executed),
        { s with txns :=
            s.txns.set w.txnId (txn.settled executed actionId outcome.receiptId now) }) := by
  cases executed with
  | false =>
    have hlegal : TxnState.failed ∈ validTransitions txn.state := by simp [hstate, validTransitions]
    simp only [Service.settle, Bool.false_eq_true, if_false, Txns.transition_legal hget hlegal]
    rfl
  | true =>
    have hlegal : TxnState.receiptPending ∈ validTransitions txn.state := by
      simp [hstate, validTransitions]
    have hlegal' : TxnState.completed ∈ validTransitions
        (txn.moved .receiptPending { actionId, receiptId := outcome.receiptId } now).state := by
      simp [ActionTxn.moved, validTransitions]
    simp only [Service.settle, if_true, Txns.transition_legal hget hlegal,
      Txns.transition_legal (Dict.get?_set_self ..) hlegal', Dict.set_set]
    rfl

theorem moves_finish (h : Sound H s) (hw : s.executing[i]? = some w) (outcome : HandlerOutcome)
    (now : PyStr) :
    Moves H C s ({ s with executing := s.executing.eraseIdx i }.finish H w outcome now).2 := by
  obtain ⟨txn, hget, hstate⟩ := h.executing w (mem_of_getElem? hw)
  rw [Service.finish, settle_eq (s := { s with executing := s.executing.eraseIdx i }) hget hstate]
  exact .single (.settle i w txn _ hw hget hstate (ended_settled ..))

theorem moves_answer (h : Sound H s) (hw : s.executing[i]? = some w) (a : Answer) (now : PyStr)
    (taken : Bool) : Moves H C s (s.answer H i w a now taken).2 := by
  have hleft : ∀ journal : List AgentEvent,
      Moves H C s { s with executing := s.executing.eraseIdx i, journal } := by
    intro journal
    refine .tail (moves_quiet s.env journal (sameCards_of_eq rfl)) (.leaveExecuting _ ?_)
    exact ((eraseIdx_sublist ..).map _).subperm
  unfold Service.answer
  dsimp only
  split
  · next journal hadvance => exact hleft journal
  · next stage journal hadvance =>
    refine .tail (moves_quiet s.env journal (sameCards_of_eq rfl)) (.leaveExecuting _ ?_)
    obtain ⟨hi, hwi⟩ := List.getElem?_eq_some_iff.mp hw
    have hperm : (s.executing.eraseIdx i ++ [w]).Perm s.executing := by
      refine (perm_append_comm).trans ?_
      rw [← hwi]
      exact getElem_cons_eraseIdx_perm hi
    have hmap := hperm.map Executing.txnId
    rw [map_append, map_singleton] at hmap ⊢
    exact hmap.subperm
  · next outcome journal hadvance =>
    have hquiet : Moves H C s { s with journal } :=
      moves_quiet s.env journal (sameCards_of_eq rfl)
    exact hquiet.trans (moves_finish (sound_moves h hquiet) hw outcome now)

theorem requestAction_requests {C : Channels} {r : ActionRequest} {mode : Mode} :
    (requestAction H C b r mode principal now).2.requests = b.requests := by
  unfold requestAction
  split
  · rfl
  · split
    · next h => exact (congrArg (fun x => x.2.requests) h).symm.trans Broker.verify_requests
    · next h => exact (congrArg (fun x => x.2.requests) h).symm.trans Broker.verify_requests

theorem moves_dispatch (h : Sound H s) (hget : s.txns.get? c.txn.txnId = some txn)
    (hstate : txn.state = .approved) (hcard : approvalId = txn.approvalId)
    (hkey : c.txn.idempotencyKey = txn.idempotencyKey) (now : PyStr) (taken : Bool) :
    Moves H C s ({ s with
      txns := s.txns.set c.txn.txnId (txn.moved .dispatching { grantId := c.grantId } now)
      }.dispatch H approvalId c now taken).2 := by
  -- the handler is over before it reaches a channel
  have hover : ∀ (broker : Broker) (journal : List AgentEvent) (outcome : HandlerOutcome),
      SameCards s.broker broker →
      Moves H C s ({ s with
        broker, journal
        txns := s.txns.set c.txn.txnId (txn.moved .dispatching { grantId := c.grantId } now)
        }.finish H ⟨approvalId, c.txn.txnId, c.stored.missionId, c.grantId, c.exact.capabilityId,
          .proposal "" ""⟩ outcome now).2 := by
    intro broker journal outcome hcards
    set w : Executing := ⟨approvalId, c.txn.txnId, c.stored.missionId, c.grantId,
      c.exact.capabilityId, .proposal "" ""⟩ with hw
    have hquiet : Moves H C s { s with broker, journal } := moves_quiet s.env journal hcards
    have hdispatch : Moves H C s { s with
          broker, journal
          txns := s.txns.set c.txn.txnId (txn.moved .dispatching { grantId := c.grantId } now)
          executing := s.executing ++ [w]
          called := s.called ++ [] } :=
      hquiet.tail (.dispatch txn w c.grantId now [] hget hstate hcard (.inl rfl))
    have hlast : (s.executing ++ [w])[s.executing.length]? = some w := by simp
    have hfinish := moves_finish (C := C) (sound_moves h hdispatch) hlast outcome now
    simp only [eraseIdx_concat, append_nil] at hfinish
    rw [append_nil] at hdispatch
    exact hdispatch.trans hfinish
  unfold Service.dispatch
  dsimp only
  split
  · next outcome broker hrequest =>
    exact hover broker s.journal outcome
      (sameCards_of_eq (congrArg (fun x => x.2.requests) hrequest ▸ requestAction_requests))
  · next stage? broker hrequest =>
    have hcards : SameCards s.broker broker :=
      sameCards_of_eq (congrArg (fun x => x.2.requests) hrequest ▸ requestAction_requests)
    split
    · exact hover broker _ {} hcards
    · next stage =>
      set journal := emit taken s.journal c.stored.missionId "grant.consumed"
        (.dict [("grant_id", .str c.grantId), ("public_hash", .str
          (((broker.grants.get? c.grantId).map fun row => row.grant.publicHash).getD ""))])
      have hdispatch : Move H C { s with broker, journal } _ :=
        .dispatch txn ⟨approvalId, c.txn.txnId, c.stored.missionId, c.grantId,
          c.exact.capabilityId, stage⟩ c.grantId now [⟨approvalId, c.txn.idempotencyKey, stage⟩]
          hget hstate hcard (.inr (by rw [hkey]))
      exact (moves_quiet s.env journal hcards).tail hdispatch

/-- What the checks of `execute` have read. -/
theorem clear_ok (h : clear H s ctx stored approvalId now = .ok c) :
    c.stored = stored ∧ s.env.missions.get? stored.missionId = some c.mission ∧
      c.mission.mode = stored.mode ∧ clearGrant s.broker approvalId now = .ok c.grantId ∧
      clearTxn s.txns ctx stored approvalId now = .ok c.txn ∧
      clearExact H s.env ctx stored c.txn now = .ok c.exact := by
  simp only [clear, bind_eq_ok, require_eq_ok, found_eq_ok, exists_const, pure, Except.pure,
    Except.ok.injEq] at h
  obtain ⟨-, mission, hmission, -, -, hmode, grantId, hgrant, txn, htxn, exact, hexact, rfl⟩ := h
  exact ⟨rfl, hmission, hmode, hgrant, htxn, hexact⟩

theorem clearTxn_ok (h : clearTxn t ctx stored approvalId now = .ok txn) :
    t.byApproval approvalId = some txn := by
  simp only [clearTxn, bind_eq_ok, require_eq_ok, found_eq_ok, exists_const, pure, Except.pure,
    Except.ok.injEq] at h
  obtain ⟨txn', hfind, -, -, -, -, -, -, rfl⟩ := h
  exact hfind

theorem dispatching_cases {r : Except TxnError ActionTxn} (hget : s.txns.get? txn.txnId = some txn)
    (hdispatching : s.dispatching txn grantId now = (r, txns)) :
    (∃ e, r = .error e ∧ txns = s.txns) ∨
    ∃ t row, r = .ok (row.moved .dispatching { grantId } now) ∧
      Moves H C s { s with txns := t } ∧ t.get? txn.txnId = some row ∧ row.state = .approved ∧ row.approvalId = txn.approvalId ∧
      row.idempotencyKey = txn.idempotencyKey ∧
      txns = t.set txn.txnId (row.moved .dispatching { grantId } now) := by
  unfold Service.dispatching at hdispatching
  split at hdispatching
  · next hstate =>
    have happroved : TxnState.approved ∈ validTransitions txn.state := by
      simp [hstate, validTransitions]
    have hlegal : TxnState.dispatching ∈ validTransitions (txn.moved .approved {} now).state := by
      simp [ActionTxn.moved, validTransitions]
    rw [Txns.transition_legal hget happroved] at hdispatching
    dsimp only at hdispatching
    rw [show (txn.moved .approved {} now).txnId = txn.txnId from rfl,
      Txns.transition_legal (Dict.get?_set_self ..) hlegal] at hdispatching
    refine .inr ⟨s.txns.set txn.txnId (txn.moved .approved {} now), txn.moved .approved {} now,
      (congrArg Prod.fst hdispatching).symm, ?_, Dict.get?_set_self .., rfl, rfl, rfl,
      (congrArg Prod.snd hdispatching).symm⟩
    exact .single (.advance txn.txnId txn .approved now hget hstate (by simp [validTransitions]))
  · next hstate =>
    cases r with
    | error e =>
      refine .inl ⟨e, rfl, ?_⟩
      rw [← Txns.transition_refused (congrArg Prod.fst hdispatching)]
      exact (congrArg Prod.snd hdispatching).symm
    | ok txn' =>
      obtain ⟨rfl, htxns, hlegal⟩ := Txns.transition_ok hget (congrArg Prod.fst hdispatching)
      refine .inr ⟨s.txns, txn, rfl, .refl, hget, ?_, rfl, rfl,
        (congrArg Prod.snd hdispatching).symm.trans htxns⟩
      rcases hlegal with hlegal | ⟨hterminal, hsame⟩
      · cases hs : txn.state <;> rw [hs] at hlegal <;> simp [validTransitions] at hlegal ⊢
      · rw [← hsame] at hterminal
        cases hterminal

theorem moves_execute (h : Sound H s) {caller : Caller} :
    Moves H C s (s.execute H approvalId ctx caller now taken).2 := by
  unfold Service.execute
  split
  · exact .refl
  · exact .refl
  · next row hrow =>
    split
    · exact .refl
    · split
      · exact .refl
      · split
        · exact moves_decline h approvalId now
        · split
          · exact .refl
          · next c hclear =>
            obtain ⟨-, -, -, -, htxn, -⟩ := clear_ok hclear
            obtain ⟨⟨id, hget⟩, hcard⟩ := Txns.byApproval_eq_some (clearTxn_ok htxn)
            obtain rfl := h.keyed.filed hget
            split
            · next e txns hdispatching =>
              rcases dispatching_cases (H := H) (C := C) hget hdispatching with
                ⟨-, -, rfl⟩ | ⟨t, row, hr, -⟩
              · exact .refl
              · cases hr
            · next r txns hdispatching =>
              rcases dispatching_cases (H := H) (C := C) hget hdispatching with
                ⟨e, he, -⟩ | ⟨t, row, -, hmoves, hget', hstate, hcard', hkey, rfl⟩
              · cases he
              · refine hmoves.trans ?_
                exact moves_dispatch (sound_moves h hmoves) (s := { s with txns := t }) hget' hstate
                  (hcard'.trans hcard).symm hkey.symm now taken

/-- **Every step is made of moves.** -/
theorem respond_moves (h : Sound H s) {l : Label} {reply : Option Reply}
    (hstep : respond H s l = some (reply, s')) : Moves H (Calm H s l) s s' := by
  cases l with
  | propose p interruption =>
    simp only [respond] at hstep
    split at hstep
    · next hfresh =>
      obtain ⟨-, rfl⟩ := Prod.mk.inj (some_inj.mp hstep)
      exact moves_propose h hfresh
    · cases hstep
  | proposed i outcome now =>
    obtain ⟨p, hp, hr⟩ := map_eq_some_iff.mp hstep
    obtain ⟨-, rfl⟩ := Prod.mk.inj hr
    cases outcome with
    | linked link => exact moves_attach h hp (some link) none now
    | unavailable => exact moves_attach h hp none none now
    | raised => exact .single (.leave _ (eraseIdx_sublist ..))
  | decide approvalId principal approve decidedBy grantId now =>
    obtain ⟨-, rfl⟩ := Prod.mk.inj (some_inj.mp hstep)
    exact moves_withBroker sameCards_decide
  | cancel approvalId principal =>
    obtain ⟨-, rfl⟩ := Prod.mk.inj (some_inj.mp hstep)
    exact moves_withBroker sameCards_cancelRequest
  | revoke grantId principal =>
    obtain ⟨-, rfl⟩ := Prod.mk.inj (some_inj.mp hstep)
    exact moves_withBroker (sameCards_of_eq Broker.revoke_requests)
  | decisionStatus approvalId now =>
    obtain ⟨-, rfl⟩ := Prod.mk.inj (some_inj.mp hstep)
    unfold Service.decisionStatus
    split
    · split
      · exact moves_decline h approvalId now
      · exact .refl
    · exact .refl
  | execute approvalId ctx caller now taken =>
    obtain ⟨-, rfl⟩ := Prod.mk.inj (some_inj.mp hstep)
    exact moves_execute h
  | answer i a now taken =>
    obtain ⟨w, hw, hr⟩ := map_eq_some_iff.mp hstep
    obtain ⟨-, rfl⟩ := Prod.mk.inj hr
    exact moves_answer h hw a now taken
  | event missionId eventType payload =>
    obtain ⟨-, rfl⟩ := Prod.mk.inj (some_inj.mp hstep)
    exact moves_quiet s.env _ (sameCards_of_eq rfl)
  | environment E =>
    obtain ⟨-, rfl⟩ := Prod.mk.inj (some_inj.mp hstep)
    exact moves_quiet E s.journal (sameCards_of_eq rfl)
  | restart =>
    obtain ⟨-, rfl⟩ := Prod.mk.inj (some_inj.mp hstep)
    exact moves_restarted

end Steps

/-! ### Every state -/

theorem sound_init (H : Host) (env : Environment) (policyHash : PyStr) :
    Sound H { env, broker := { policyHash } } where
  keyed := Txns.keyed_empty
  unattached hget := by cases hget
  made hget := by cases hget
  shown _ _ _ hget := by cases hget
  once hget := by cases hget
  cards hrow := by cases hrow
  waiting p hp := by cases hp
  apart := nodup_nil
  executing w hw := by cases hw
  alone := nodup_nil
  called c hc := by cases hc
  calledOnce := ⟨nodup_nil, nodup_nil⟩

variable {H : Host} {s s' : Service}

theorem step_respond {l : Label} (h : (admission H).step s l = some s') :
    ∃ reply, respond H s l = some (reply, s') := by
  obtain ⟨⟨reply, s₁⟩, hrespond, rfl⟩ := map_eq_some_iff.mp h
  exact ⟨reply, hrespond⟩

/-- **The invariant of the admission.** -/
theorem sound_of_reachable {C : Service → Label → Prop} (h : (admission H).ReachableUnder C s) :
    Sound H s := by
  refine Machine.ReachableUnder.invariant ?_ ?_ h
  · rintro s ⟨env, policyHash, rfl⟩
    exact sound_init H env policyHash
  · intro s l s' hs _ hstep
    obtain ⟨reply, hrespond⟩ := step_respond hstep
    exact sound_moves hs (respond_moves hs hrespond)

/-! ### A mission -/

def sampleDescriptor : Descriptor where
  version := "1.0.0"
  source := "mcp:arm"
  source_nonempty := rfl
  physicalAction := true
  executionClass := "PHYSICAL_ACTION"
  sideEffectClass := "REVERSIBLE"
  supportedModes := [.simulation, .shadow, .real]
  riskTier := .low
  quarantined := false

def sampleEnvironment (mode : Mode) (daemonClient : Bool) : Environment where
  daemonClient := daemonClient
  simExecutors := ["mcp:arm"]
  currentBodyHash := "sha256:body"
  bodyId := "arm"
  missions := Dict.set ∅ "mission_1" ⟨"user:local:1000", mode, "arm", "sha256:body", 1⟩
  bindings := Dict.set ∅ "session_1" ⟨"binding_1", "mission_1"⟩
  writers := Dict.set ∅ "mission_1" ⟨"lease_1", "session_1", 7, 1000, "2026-01-01T01:00:00"⟩
  catalog := Dict.set ∅ "arm.turn" sampleDescriptor

def sampleContext (mode : Mode) : ActionRequestContext :=
  ⟨"session_1", "mission_1", 1, "sha256:body", Mode.value mode, "key_1", "ctx_lease_1"⟩

def sampleCaller : Caller := ⟨some 7, some 1000⟩

def sampleProposal (mode : Mode) (txnId approvalId : PyStr) : ProposalInput where
  ctx := sampleContext mode
  caller := sampleCaller
  capabilityId := "arm.turn"
  expectedEffect := "the arm turns"
  riskTier := none
  context := .ok "sha256:context"
  arguments := .ok [("angle", .int 30)]
  txnId := txnId
  approvalId := approvalId
  now := "2026-01-01T00:00:00"
  expiresAt := "2026-01-01T00:05:00"
  policyGrant := none
  taken := true

def approvedRun : List Label :=
  [.propose (sampleProposal .simulation "txn_1" "appr_1") .none,
    .decide "appr_1" "user:local:1000" true none "grant_1" "2026-01-01T00:01:00"]

def executeApproved : Label :=
  .execute "appr_1" (sampleContext .simulation) sampleCaller "2026-01-01T00:02:00" true

def sampleService (mode : Mode) (daemonClient : Bool) : Service where
  env := sampleEnvironment mode daemonClient
  broker := { policyHash := "policy" }

end Rosclaw.Admission
