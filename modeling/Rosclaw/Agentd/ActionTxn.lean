/-
Action transactions (`agentd/pi_bridge/action_txn.py`).

A transaction carries one action from the proposal to the receipt.  Its row is found by its
id, by its idempotency key, which is unique, and by the card it is attached to; ids are
`uuid4` texts.

* `Keyed` — the table is filed by id, and a key has one row; both operations keep it;
* `create_cases`, `transition_ok`, `transition_refused` — all that the operations can do.
-/
import Rosclaw.Lib.Dict
import Rosclaw.Lib.Text

namespace Rosclaw.Admission

inductive TxnState
  | proposed | awaitingOperator | approved | dispatching | receiptPending | completed | failed
  | cancelled | expired | declined
deriving DecidableEq, Repr

namespace TxnState

def value : TxnState → PyStr
  | proposed => "PROPOSED"
  | awaitingOperator => "AWAITING_OPERATOR"
  | approved => "APPROVED"
  | dispatching => "DISPATCHING"
  | receiptPending => "RECEIPT_PENDING"
  | completed => "COMPLETED"
  | failed => "FAILED"
  | cancelled => "CANCELLED"
  | expired => "EXPIRED"
  | declined => "DECLINED"

def terminal : TxnState → Bool
  | completed | failed | cancelled | expired | declined => true
  | _ => false

end TxnState

def validTransitions : TxnState → List TxnState
  | .proposed => [.awaitingOperator, .cancelled, .expired]
  | .awaitingOperator => [.approved, .declined, .expired, .cancelled]
  | .approved => [.dispatching, .expired, .cancelled]
  | .dispatching => [.receiptPending, .failed]
  | .receiptPending => [.completed, .failed]
  | _ => []

/-- A row of `action_txns`. -/
structure ActionTxn where
  txnId : PyStr
  idempotencyKey : PyStr
  requestHash : PyStr
  piSessionId : PyStr
  missionId : PyStr
  contextLeaseId : PyStr
  contextRevision : Int
  bodyHash : PyStr
  mode : PyStr
  capabilityId : PyStr
  argumentsHash : PyStr
  riskTier : PyStr
  approvalId : PyStr := ""
  displayHash : PyStr := ""
  grantId : PyStr := ""
  actionId : PyStr := ""
  receiptId : PyStr := ""
  state : TxnState := .proposed
  createdAt : PyStr
  expiresAt : PyStr
  completedAt : PyStr := ""

/-- The fields a transition may update; an empty one is left as it is. -/
structure TxnFields where
  approvalId : PyStr := ""
  displayHash : PyStr := ""
  grantId : PyStr := ""
  actionId : PyStr := ""
  receiptId : PyStr := ""

inductive TxnError
  | unknownTxn (txnId : PyStr)
  | terminalTxn (txnId : PyStr) (state toState : TxnState)
  | illegalTransition (state toState : TxnState)

def TxnError.text : TxnError → PyStr
  | .unknownTxn txnId => "unknown txn " ++ txnId
  | .terminalTxn txnId state toState =>
      "txn " ++ txnId ++ " is terminal (" ++ state.value ++ "); cannot move to " ++ toState.value
  | .illegalTransition state toState =>
      "illegal transition " ++ state.value ++ " → " ++ toState.value

def orKeep (new old : PyStr) : PyStr := if new.isEmpty then old else new

def ActionTxn.moved (txn : ActionTxn) (toState : TxnState) (fields : TxnFields) (now : PyStr) :
    ActionTxn :=
  { txn with
    approvalId := orKeep fields.approvalId txn.approvalId
    displayHash := orKeep fields.displayHash txn.displayHash
    grantId := orKeep fields.grantId txn.grantId
    actionId := orKeep fields.actionId txn.actionId
    receiptId := orKeep fields.receiptId txn.receiptId
    state := toState
    completedAt := if toState.terminal then now else txn.completedAt }

abbrev Txns := Dict PyStr ActionTxn

namespace Txns

variable {t t' : Txns} {txn txn' : ActionTxn} {txnId : PyStr}

/-- `get_by_idempotency_key`. -/
def byKey (t : Txns) (key : PyStr) : Option ActionTxn :=
  t.values.find? fun txn => txn.idempotencyKey = key

def byApproval (t : Txns) (approvalId : PyStr) : Option ActionTxn :=
  t.values.find? fun txn => txn.approvalId = approvalId

inductive Created
  | created (txn : ActionTxn)
  | existing (txn : ActionTxn)
  | conflict (existingTxnId : PyStr)

/-- `create`: the transaction of the key, which is a new one if the key is new. -/
def create (t : Txns) (new : ActionTxn) : Created × Txns :=
  match t.byKey new.idempotencyKey with
  | some existing =>
      if existing.requestHash = new.requestHash then (.existing existing, t)
      else (.conflict existing.txnId, t)
  | none => (.created new, t.set new.txnId new)

def transition (t : Txns) (txnId : PyStr) (toState : TxnState) (fields : TxnFields) (now : PyStr) :
    Except TxnError ActionTxn × Txns :=
  match t.get? txnId with
  | none => (.error (.unknownTxn txnId), t)
  | some txn =>
      if txn.state.terminal = true ∧ toState ≠ txn.state then
        (.error (.terminalTxn txnId txn.state toState), t)
      else if txn.state.terminal = false ∧ toState ∉ validTransitions txn.state then
        (.error (.illegalTransition txn.state toState), t)
      else (.ok (txn.moved toState fields now), t.set txnId (txn.moved toState fields now))

/-! ### The table -/

/-- The rows are filed by their ids, and no key has two. -/
structure Keyed (t : Txns) : Prop where
  filed : ∀ {id txn}, t.get? id = some txn → txn.txnId = id
  unique : ∀ {id id' txn txn'}, t.get? id = some txn → t.get? id' = some txn' →
    txn.idempotencyKey = txn'.idempotencyKey → id = id'

theorem keyed_empty : Keyed (∅ : Txns) := by
  constructor
  · intro id txn h
    cases h
  · intro id id' txn txn' h
    cases h

theorem byKey_eq_some {key : PyStr} (h : t.byKey key = some txn) :
    (∃ id, t.get? id = some txn) ∧ txn.idempotencyKey = key := by
  refine ⟨Dict.mem_values_iff.mp (List.mem_of_find?_eq_some h), ?_⟩
  simpa using List.find?_some h

theorem byKey_eq_none {key : PyStr} (h : t.byKey key = none) {id : PyStr}
    (hget : t.get? id = some txn) : txn.idempotencyKey ≠ key := by
  have hno := List.find?_eq_none.mp h txn (Dict.mem_values_iff.mpr ⟨id, hget⟩)
  simpa using hno

theorem byApproval_eq_some {approvalId : PyStr} (h : t.byApproval approvalId = some txn) :
    (∃ id, t.get? id = some txn) ∧ txn.approvalId = approvalId := by
  refine ⟨Dict.mem_values_iff.mp (List.mem_of_find?_eq_some h), ?_⟩
  simpa using List.find?_some h

theorem Keyed.insert (h : Keyed t) (hkey : t.byKey txn.idempotencyKey = none) :
    Keyed (t.set txn.txnId txn) := by
  constructor
  · intro id txn' hget
    rw [Dict.get?_set] at hget
    split at hget
    · next hid =>
      rw [← Option.some_inj.mp hget]
      exact hid
    · exact h.filed hget
  · intro id id' a b ha hb hab
    rw [Dict.get?_set] at ha hb
    split at ha
    · next hid =>
      cases ha
      split at hb
      · next hid' => exact hid.symm.trans hid'
      · exact absurd hab.symm (byKey_eq_none hkey hb)
    · split at hb
      · next hid' =>
        cases hb
        exact absurd hab (byKey_eq_none hkey ha)
      · exact h.unique ha hb hab

theorem Keyed.update (h : Keyed t) (hget : t.get? txnId = some txn) (hid : txn'.txnId = txn.txnId)
    (hkey : txn'.idempotencyKey = txn.idempotencyKey) : Keyed (t.set txnId txn') := by
  have hold : ∀ {id a}, (t.set txnId txn').get? id = some a →
      ∃ b, t.get? id = some b ∧ a.txnId = b.txnId ∧ a.idempotencyKey = b.idempotencyKey := by
    intro id a ha
    rw [Dict.get?_set] at ha
    split at ha
    · next hid' =>
      subst hid'
      cases ha
      exact ⟨txn, hget, hid, hkey⟩
    · exact ⟨a, ha, rfl, rfl⟩
  constructor
  · intro id a ha
    obtain ⟨b, hb, hid', -⟩ := hold ha
    exact hid'.trans (h.filed hb)
  · intro id id' a b ha hb hab
    obtain ⟨a', ha', -, hka⟩ := hold ha
    obtain ⟨b', hb', -, hkb⟩ := hold hb
    exact h.unique ha' hb' (hka.symm.trans (hab.trans hkb))

/-! ### The operations -/

section Operations

variable {toState : TxnState} {fields : TxnFields} {now : PyStr}

theorem create_cases (t : Txns) (new : ActionTxn) :
    (∃ txn, t.byKey new.idempotencyKey = some txn ∧ txn.requestHash = new.requestHash ∧
      t.create new = (.existing txn, t)) ∨
    (∃ txn, t.byKey new.idempotencyKey = some txn ∧ txn.requestHash ≠ new.requestHash ∧
      t.create new = (.conflict txn.txnId, t)) ∨
    (t.byKey new.idempotencyKey = none ∧ t.create new = (.created new, t.set new.txnId new)) := by
  rcases hfind : t.byKey new.idempotencyKey with _ | txn
  · exact .inr (.inr ⟨rfl, by simp [create, hfind]⟩)
  · by_cases hhash : txn.requestHash = new.requestHash
    · exact .inl ⟨txn, rfl, hhash, by simp [create, hfind, hhash]⟩
    · exact .inr (.inl ⟨txn, rfl, hhash, by simp [create, hfind, hhash]⟩)

theorem transition_ok (hget : t.get? txnId = some txn) {r : ActionTxn}
    (h : (t.transition txnId toState fields now).1 = .ok r) :
    r = txn.moved toState fields now ∧
      (t.transition txnId toState fields now).2 = t.set txnId (txn.moved toState fields now) ∧
      (toState ∈ validTransitions txn.state ∨ txn.state.terminal = true ∧ toState = txn.state) := by
  simp only [transition, hget] at h ⊢
  split at h
  · cases h
  · next hterminal =>
    rw [if_neg hterminal]
    split at h
    · cases h
    · next hlegal =>
      rw [if_neg hlegal]
      cases h
      refine ⟨rfl, rfl, ?_⟩
      by_cases hstate : txn.state.terminal = true
      · exact .inr ⟨hstate, by_contra fun hne => hterminal ⟨hstate, hne⟩⟩
      · exact .inl (by_contra fun hne => hlegal ⟨by simpa using hstate, hne⟩)

theorem transition_refused {e : TxnError} (h : (t.transition txnId toState fields now).1 = .error e) :
    (t.transition txnId toState fields now).2 = t := by
  unfold transition at h ⊢
  split
  · rfl
  · split
    · rfl
    · split
      · rfl
      · next hget h₁ h₂ =>
        simp only [hget, if_neg h₁, if_neg h₂] at h
        cases h

theorem transition_legal (hget : t.get? txnId = some txn)
    (hlegal : toState ∈ validTransitions txn.state) :
    t.transition txnId toState fields now =
      (.ok (txn.moved toState fields now), t.set txnId (txn.moved toState fields now)) := by
  have hnonterminal : txn.state.terminal = false := by
    cases hstate : txn.state <;> rw [hstate] at hlegal <;> first | rfl | cases hlegal
  simp only [transition, hget, hnonterminal, hlegal, Bool.false_eq_true, false_and, if_false,
    not_true_eq_false, and_false]

end Operations

end Txns

end Rosclaw.Admission
