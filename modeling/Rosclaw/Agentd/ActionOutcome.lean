/-
What becomes of an action that has been dispatched.

The result of `execute` is read from the journal: the event of the receipt has to be among the
first fifty of the mission.

* `Recorded` — the condition: the channel raises nothing of its own, a completion is confirmed by
  the first events of the mission, and nothing else is executed later;
* `outcome_honoured` — an outcome is as it should be exactly when the condition holds.
-/
import Rosclaw.Agentd.ActionRuns

namespace Rosclaw.Admission

open Approvals

/-! ### What the channel delivers -/

/-- The receipt of a verified completion, as the channel delivers it. -/
structure Completion where
  receiptId : PyStr
  actionId : PyStr
  finalState : PyStr

/-- The verified completion that an answer delivers for the action of the handler. -/
def completion? : Stage → Answer → Option Completion
  | .sim .., .simCompleted actionId receiptId => some ⟨receiptId, actionId, "COMPLETED"⟩
  | .actionReceipt actionId, .actionReceipt r =>
      if r.verified = true ∧ r.trustLevel ≠ "SYNTHETIC" ∧
          (r.actionId = none ∨ r.actionId = some actionId) then
        some ⟨actionId, actionId, r.finalState⟩
      else none
  | .nonreal call, .finished actionId state trustLevel =>
      if verifyOutcome call.mode state trustLevel then some ⟨actionId, actionId, state⟩ else none
  | _, _ => none

/-- The answer is one that the channel gives itself, or its own error. -/
def answers : Stage → Answer → Bool
  | _, .refused => true
  | .proposal .., .proposal _ => true
  | .actionReceipt _, .actionReceipt _ => true
  | .sim .., .simCompleted .. => true
  | .real _, .realProposed .. => true
  | .nonreal _, .finished .. => true
  | _, _ => false

/-- A handler whose transaction is dispatching; it may not have reached a channel. -/
structure Dispatch where
  txnId : PyStr
  missionId : PyStr
  channel : Option (Stage × Answer)
  /-- whether the journal takes the event of the receipt -/
  taken : Bool

namespace Dispatch

def completion? (d : Dispatch) : Option Completion :=
  d.channel.bind fun c => Admission.completion? c.1 c.2

end Dispatch

/-- The card as `execute` has read and checked it. -/
def cleared? (H : Host) (s : Service) (approvalId : PyStr) (ctx : ActionRequestContext)
    (caller : Caller) (now : PyStr) : Option Cleared :=
  match s.broker.getRequest approvalId, validateSessionAndCaller s.env ctx caller now with
  | .ok (some row), .ok _ =>
      if row.status = .approved then (clear H s ctx row.request approvalId now).toOption else none
  | _, _ => none

def dispatch? (H : Host) (s : Service) : Label → Option Dispatch
  | .execute approvalId ctx caller now taken =>
      ((cleared? H s approvalId ctx caller now).filter fun c =>
        c.txn.state = .awaitingOperator ∨ c.txn.state = .approved).map fun c =>
          ⟨c.txn.txnId, c.stored.missionId, none, taken⟩
  | .answer i a _ taken =>
      (s.executing[i]?).map fun w => ⟨w.txnId, w.missionId, some (w.stage, a), taken⟩
  | _ => none

/-! ### What is promised -/

def ExecuteReply.saysExecuted : ExecuteReply → Bool
  | .executed r => r.executed
  | _ => false

/-- The transaction has ended, and it and the result say what has happened; `later` says whether
the action is executed after this. -/
structure OutcomeHonoured (d : Dispatch) (later : Bool) (reply : ExecuteReply) (s' : Service) :
    Prop where
  ended : ∃ txn, s'.txns.get? d.txnId = some txn ∧ txn.state.terminal = true ∧
    (txn.state = .completed ↔ d.completion?.isSome = true) ∧
    (txn.state = .failed → later = false)
  told : reply.saysExecuted = true ↔ d.completion?.isSome = true

/-- The first events of the mission confirm the completion: one of them does already, or the
event of the receipt comes in time. -/
def Confirmed (H : Host) (journal : List AgentEvent) (d : Dispatch) (c : Completion) : Prop :=
  c.receiptId.isEmpty = false ∧
    ((∃ e, (replay journal d.missionId 50).find? (confirms c.receiptId) = some e ∧
        (actionIdOf H e).isEmpty = false) ∨
      ((replay journal d.missionId 50).find? (confirms c.receiptId) = none ∧ d.taken = true ∧
        (eventsOf journal d.missionId).length < 50 ∧ c.finalState = "COMPLETED" ∧
        c.actionId.isEmpty = false))

def Recorded (H : Host) (s : Service) (d : Dispatch) (later : Bool) : Prop :=
  (∀ c, d.channel = some c → answers c.1 c.2 = true) ∧
    (∀ c, d.completion? = some c → Confirmed H s.journal d c) ∧
    (d.completion? = none → later = false)

section Outcome

variable {H : Host} {journal : List AgentEvent} {missionId now : PyStr} {taken : Bool}
  {stage : Stage} {a : Answer} {c : Completion}

/-! ### The journal -/

theorem find_replay_emit (P : AgentEvent → Bool) (eventType : PyStr) (payload : PyVal) :
    (replay (emit taken journal missionId eventType payload) missionId 50).find? P =
      ((replay journal missionId 50).find? P).or
        (if taken = true ∧ (eventsOf journal missionId).length < 50 then
          [AgentEvent.mk missionId (latestSequence journal missionId + 1) eventType payload].find? P
        else none) := by
  cases taken with
  | false => simp [emit]
  | true =>
    have hevents : eventsOf (emit true journal missionId eventType payload) missionId =
        eventsOf journal missionId ++
          [⟨missionId, latestSequence journal missionId + 1, eventType, payload⟩] := by
      simp [emit, appendEvent, eventsOf]
    rw [replay, hevents, List.take_append, List.find?_append, ← replay]
    by_cases hlt : (eventsOf journal missionId).length < 50
    · have hrest : 0 < 50 - (eventsOf journal missionId).length := by omega
      rw [List.take_of_length_le (by simp only [List.length_singleton]; omega)]
      simp [hlt]
    · have hrest : 50 - (eventsOf journal missionId).length = 0 := by omega
      simp [hlt, hrest]

theorem receiptId_receiptRef (terminalReceipt : Bool) (id : PyStr) :
    HandlerOutcome.receiptId { terminalReceipt, evidenceRef := some (receiptRef id) } = id := by
  have hstarts : (receiptRef id).startsWith "receipt://" = true := by
    simp [PyStr.startsWith, receiptRef]
  simp only [HandlerOutcome.receiptId, hstarts, if_true]
  simp [PyStr.removePrefix, receiptRef]

/-! ### The channel -/

variable (journal missionId taken) in
theorem advance_raises (h : answers stage a = false) :
    advance taken journal missionId stage a = (.raises, journal) := by
  cases stage <;> cases a <;> first | rfl | cases h

theorem truthy_str (s : PyStr) : (PyVal.str s).truthy = !s.isEmpty := by
  obtain ⟨codes⟩ := s
  cases codes <;> rfl

variable {approvalId final id principal : PyStr} {b b' : Broker} {caller : Caller}
  {cleared : Cleared} {ctx : ActionRequestContext} {i sequence : Nat} {payload : PyVal}
  {reply : ExecuteReply} {txn : ActionTxn}

theorem confirms_eq (hnonempty : id.isEmpty = false) (hid : payload.get "receipt_id" = .str id ∨
      payload.get "receipt_id" = .none ∧ payload.get "action_id" = .str id)
    (hfinal : payload.get "final_state" = .str final)
    (hverified : payload.get "verified" = .bool true) :
    confirms id ⟨missionId, sequence, "receipt.received", payload⟩ =
      decide (final = "COMPLETED") := by
  have hreceipt : (if (payload.get "receipt_id").truthy then isText (payload.get "receipt_id") id
      else isText (payload.get "action_id") id) = true := by
    rcases hid with hid | ⟨hnone, haction⟩
    · rw [hid, truthy_str, hnonempty]
      simp [isText]
    · rw [hnone, haction]
      simp [PyVal.truthy, isText]
  simp only [confirms, hreceipt, hfinal, hverified]
  simp [isText, isTrue]

theorem actionIdOf_eq (H : Host) (h : payload.get "action_id" = .str id) :
    actionIdOf H ⟨missionId, sequence, "receipt.received", payload⟩ = id := by
  simp only [actionIdOf, h, truthy_str]
  split
  · rfl
  · next hempty =>
    obtain ⟨codes⟩ := id
    simp only [PyStr.isEmpty, Bool.not_eq_true, Bool.not_eq_false', List.isEmpty_iff] at hempty
    rw [hempty]
    rfl

variable (journal missionId taken) in
/-- A delivered completion is returned as such, and its event confirms it if its state is the
right one. -/
theorem advance_completion (H : Host) (h : completion? stage a = some c) :
    ∃ payload, advance taken journal missionId stage a =
        (.returns { terminalReceipt := true, evidenceRef := some (receiptRef c.receiptId) },
          emit taken journal missionId "receipt.received" payload) ∧
      (c.receiptId.isEmpty = false → ∀ sequence,
        confirms c.receiptId ⟨missionId, sequence, "receipt.received", payload⟩ =
          decide (c.finalState = "COMPLETED")) ∧
      ∀ sequence, actionIdOf H ⟨missionId, sequence, "receipt.received", payload⟩ = c.actionId := by
  unfold completion? at h
  split at h
  · next identity call actionId receiptId =>
    cases h
    refine ⟨simPayload actionId receiptId, rfl, ?_, fun _ => actionIdOf_eq H rfl⟩
    exact fun hnonempty _ => confirms_eq hnonempty (.inl rfl) rfl rfl
  · next actionId r =>
    split at h
    · next hr =>
      cases h
      obtain ⟨hverified, htrust, hid⟩ := hr
      refine ⟨daemonPayload actionId r.finalState r.trustLevel r.verified, ?_, ?_,
        fun _ => actionIdOf_eq H rfl⟩
      · have hown : ¬ (r.actionId ≠ none ∧ r.actionId ≠ some actionId) := by
          rintro ⟨hnone, hsome⟩
          exact hid.elim hnone hsome
        simp only [advance, if_neg htrust, if_neg hown, hverified]
      · exact fun hnonempty _ => confirms_eq hnonempty (.inr ⟨rfl, rfl⟩) rfl (by rw [hverified]; rfl)
    · cases h
  · next call actionId state trustLevel =>
    split at h
    · next hverified =>
      cases h
      refine ⟨daemonPayload actionId state trustLevel true, ?_, ?_, fun _ => actionIdOf_eq H rfl⟩
      · simp only [advance, hverified, if_true]
      · exact fun hnonempty _ => confirms_eq hnonempty (.inr ⟨rfl, rfl⟩) rfl rfl
    · cases h
  · cases h

variable (journal missionId taken) in
theorem advance_other (h : completion? stage a = none) (hanswers : answers stage a = true) :
    (∃ stage', advance taken journal missionId stage a = (.waits stage', journal)) ∨
      ∃ outcome journal', advance taken journal missionId stage a = (.returns outcome, journal') ∧
        outcome.terminalReceipt = false := by
  cases stage with
  | proposal proposalId actionId =>
    cases a with
    | proposal state =>
      simp only [advance]
      split
      · exact .inr ⟨_, _, rfl, rfl⟩
      · split
        · exact .inr ⟨_, _, rfl, rfl⟩
        · exact .inl ⟨_, rfl⟩
    | refused => exact .inr ⟨_, _, rfl, rfl⟩
    | raised | actionReceipt | simCompleted | realProposed | finished => cases hanswers
  | actionReceipt actionId =>
    cases a with
    | actionReceipt r =>
      simp only [advance]
      split
      · exact .inr ⟨_, _, rfl, rfl⟩
      · next htrust =>
        split
        · exact .inr ⟨_, _, rfl, rfl⟩
        · next hown =>
          refine .inr ⟨_, _, rfl, ?_⟩
          by_contra hverified
          rw [completion?, if_pos] at h
          · cases h
          · refine ⟨by simpa using hverified, htrust, ?_⟩
            by_contra hid
            exact hown ⟨fun hnone => hid (.inl hnone), fun hsome => hid (.inr hsome)⟩
    | refused => exact .inr ⟨_, _, rfl, rfl⟩
    | raised | proposal | simCompleted | realProposed | finished => cases hanswers
  | sim identity call =>
    cases a with
    | simCompleted actionId receiptId => cases h
    | refused => exact .inr ⟨_, _, rfl, rfl⟩
    | raised | proposal | actionReceipt | realProposed | finished => cases hanswers
  | real call =>
    cases a with
    | realProposed requestId actionId state => exact .inr ⟨_, _, rfl, rfl⟩
    | refused => exact .inr ⟨_, _, rfl, rfl⟩
    | raised | proposal | actionReceipt | simCompleted | finished => cases hanswers
  | nonreal call =>
    cases a with
    | finished actionId state trustLevel =>
      simp only [completion?] at h
      split at h
      · cases h
      · next hverified =>
        refine .inr ⟨_, _, rfl, ?_⟩
        rw [if_neg hverified]
    | refused => exact .inr ⟨_, _, rfl, rfl⟩
    | raised | proposal | actionReceipt | simCompleted | realProposed => cases hanswers

/-! ### The handler ends -/

variable {s : Service} {w : Executing} {d : Dispatch} {later : Bool}

def executes (H : Host) (s : Service) (w : Executing) (outcome : HandlerOutcome) : Bool :=
  outcome.terminalReceipt && !(s.confirmedAction H w.missionId outcome).isEmpty

theorem settled_state (txn : ActionTxn) (executed : Bool) (actionId receiptId now : PyStr) :
    (txn.settled executed actionId receiptId now).state =
      if executed = true then .completed else .failed := by
  cases executed <;> rfl

variable (s) in
/-- A handler that returns says what has happened, if it says that the action is executed exactly
when its completion is delivered. -/
theorem honoured_finish (hget : s.txns.get? w.txnId = some txn) (hstate : txn.state = .dispatching)
    (hid : d.txnId = w.txnId) (outcome : HandlerOutcome) :
    OutcomeHonoured d later (s.finish H w outcome now).1 (s.finish H w outcome now).2 ↔
      (executes H s w outcome = true ↔ d.completion?.isSome = true) ∧
        (executes H s w outcome = false → later = false) := by
  rw [Service.finish, settle_eq hget hstate]
  set executed := outcome.terminalReceipt && !(s.confirmedAction H w.missionId outcome).isEmpty
    with hexecuted
  have hsame : executes H s w outcome = executed := rfl
  rw [hsame]
  have hrow : (s.txns.set w.txnId (txn.settled executed (s.confirmedAction H w.missionId outcome)
      outcome.receiptId now)).get? d.txnId = some (txn.settled executed
        (s.confirmedAction H w.missionId outcome) outcome.receiptId now) := by
    rw [hid]
    exact Dict.get?_set_self ..
  constructor
  · rintro ⟨⟨txn', htxn', -, -, hfailed⟩, htold⟩
    refine ⟨htold, fun hnot => hfailed ?_⟩
    obtain rfl := Option.some_inj.mp (hrow.symm.trans htxn')
    rw [settled_state, hnot]
    rfl
  · rintro ⟨htold, hlater⟩
    refine ⟨⟨_, hrow, ?_, ?_, ?_⟩, htold⟩
    · rw [settled_state]
      cases executed <;> rfl
    · rw [settled_state, ← htold]
      cases executed <;> simp
    · rw [settled_state]
      intro hfailed
      refine hlater ?_
      cases hexecuted' : executed with
      | false => rfl
      | true =>
        rw [hexecuted'] at hfailed
        cases hfailed

theorem not_honoured_raised {s' : Service} (hget : s'.txns.get? d.txnId = some txn)
    (hstate : txn.state = .dispatching) : ¬ OutcomeHonoured d later .raised s' := by
  rintro ⟨⟨txn', htxn', hterminal, -⟩, -⟩
  obtain rfl := Option.some_inj.mp (hget.symm.trans htxn')
  rw [hstate] at hterminal
  cases hterminal

theorem isEmpty_empty : ("" : PyStr).isEmpty = true := rfl

theorem executes_iff_confirmed (hd : d.missionId = w.missionId)
    (hjournal : s.journal = emit d.taken journal w.missionId "receipt.received" payload)
    (hconfirms : c.receiptId.isEmpty = false → ∀ sequence,
      confirms c.receiptId ⟨w.missionId, sequence, "receipt.received", payload⟩ =
        decide (c.finalState = "COMPLETED")) (haction : ∀ sequence,
      actionIdOf H ⟨w.missionId, sequence, "receipt.received", payload⟩ = c.actionId) :
    executes H s w { terminalReceipt := true, evidenceRef := some (receiptRef c.receiptId) } = true ↔
      Confirmed H journal d c := by
  simp only [executes, Service.confirmedAction, receiptId_receiptRef, true_and, Bool.true_and]
  by_cases hempty : c.receiptId.isEmpty = false
  · rw [if_pos hempty, receiptAction, hjournal, find_replay_emit, Confirmed, hd]
    rcases hold : (replay journal w.missionId 50).find? (confirms c.receiptId) with _ | e
    · -- no earlier event confirms: the new one has to
      by_cases hnew : d.taken = true ∧ (eventsOf journal w.missionId).length < 50
      · rw [if_pos hnew]
        by_cases hfinal : c.finalState = "COMPLETED"
        · simp [hconfirms hempty, haction, hfinal, hnew, hempty]
        · simp [hconfirms hempty, hfinal, hempty, isEmpty_empty]
      · rw [if_neg hnew]
        simp only [Option.or_none, isEmpty_empty, Bool.not_true, Bool.false_eq_true, false_iff]
        rintro ⟨-, ⟨e, he, -⟩ | ⟨-, htaken, hlt, -⟩⟩
        · cases he
        · exact hnew ⟨htaken, hlt⟩
    · simp [hempty]
  · rw [if_neg hempty, Confirmed]
    simp [isEmpty_empty, hempty]

theorem dispatching_ok (hget : s.txns.get? txn.txnId = some txn)
    (hstate : txn.state = .awaitingOperator ∨ txn.state = .approved) (grantId now : PyStr) :
    ∃ row, s.dispatching txn grantId now = (.ok row, (s.dispatching txn grantId now).2) ∧
      (s.dispatching txn grantId now).2.get? txn.txnId = some row ∧ row.state = .dispatching := by
  rcases hstate with hstate | hstate
  · have happroved : TxnState.approved ∈ validTransitions txn.state := by
      simp [hstate, validTransitions]
    have hlegal : TxnState.dispatching ∈ validTransitions (txn.moved .approved {} now).state := by
      simp [ActionTxn.moved, validTransitions]
    simp only [Service.dispatching, hstate, if_true, Txns.transition_legal hget happroved]
    rw [show (txn.moved .approved {} now).txnId = txn.txnId from rfl,
      Txns.transition_legal (Dict.get?_set_self ..) hlegal]
    exact ⟨_, rfl, Dict.get?_set_self .., rfl⟩
  · have hlegal : TxnState.dispatching ∈ validTransitions txn.state := by
      simp [hstate, validTransitions]
    have hne : ¬ txn.state = .awaitingOperator := by simp [hstate]
    simp only [Service.dispatching, if_neg hne, Txns.transition_legal hget hlegal]
    exact ⟨_, rfl, Dict.get?_set_self .., rfl⟩

theorem requestAction_error {C : Channels} {r : ActionRequest} {mode : Mode}
    {outcome : HandlerOutcome}
    (h : requestAction H C b r mode principal now = (.error outcome, b')) :
    outcome.terminalReceipt = false := by
  unfold requestAction at h
  split at h
  · next outcome' hsim =>
    cases h
    unfold simChannel at hsim
    split at hsim
    · split at hsim
      · split at hsim <;> cases hsim
      · split at hsim
        · cases hsim
        · cases hsim
          rfl
    · cases hsim
  · split at h
    · cases h
      rfl
    · cases h

theorem cleared_of_some (h : cleared? H s approvalId ctx caller now = some cleared) :
    ∃ row lease, s.broker.getRequest approvalId = .ok (some row) ∧
      validateSessionAndCaller s.env ctx caller now = .ok lease ∧ row.status = .approved ∧
      clear H s ctx row.request approvalId now = .ok cleared := by
  unfold cleared? at h
  split at h
  · next row lease hrow hlease =>
    split at h
    · next hstatus =>
      refine ⟨row, lease, hrow, hlease, hstatus, ?_⟩
      rcases hclear : clear H s ctx row.request approvalId now with e | cleared'
      · rw [hclear] at h
        cases h
      · rw [hclear] at h
        cases h
        rfl
    · cases h
  · cases h

variable (taken) in
/-- `execute` with a card that it has cleared goes to dispatching. -/
theorem execute_cleared (h : Sound H s)
    (hcleared : cleared? H s approvalId ctx caller now = some cleared)
    (hstate : cleared.txn.state = .awaitingOperator ∨ cleared.txn.state = .approved) :
    ∃ txns row, s.execute H approvalId ctx caller now taken =
        { s with txns }.dispatch H approvalId cleared now taken ∧
      txns.get? cleared.txn.txnId = some row ∧ row.state = .dispatching := by
  obtain ⟨row, lease, hrow, hlease, hstatus, hclear⟩ := cleared_of_some hcleared
  obtain ⟨-, -, -, -, htxn, -⟩ := clear_ok hclear
  obtain ⟨⟨id, hget⟩, -⟩ := Txns.byApproval_eq_some (clearTxn_ok htxn)
  obtain rfl := h.keyed.filed hget
  obtain ⟨row', hdispatching, hget', hstate'⟩ := dispatching_ok hget hstate cleared.grantId now
  refine ⟨_, row', ?_, hget', hstate'⟩
  have hpending : ¬ row.status = .pending := by simp [hstatus]
  simp only [Service.execute, hrow, hlease, hstatus, hclear]
  rw [hdispatching]
  rfl

theorem honoured_dispatch (hget : s.txns.get? cleared.txn.txnId = some txn)
    (hstate : txn.state = .dispatching) (hid : d.txnId = cleared.txn.txnId)
    (hnone : d.completion? = none)
    (hreply : (s.dispatch H approvalId cleared now taken).1 = some reply) :
    OutcomeHonoured d later reply (s.dispatch H approvalId cleared now taken).2 ↔
      later = false := by
  have hfinish : ∀ (s₁ : Service) (w : Executing) (outcome : HandlerOutcome),
      s₁.txns = s.txns → w.txnId = cleared.txn.txnId → outcome.terminalReceipt = false →
      (OutcomeHonoured d later (s₁.finish H w outcome now).1 (s₁.finish H w outcome now).2 ↔
        later = false) := by
    intro s₁ w outcome htxns hw hterminal
    have hget₁ : s₁.txns.get? w.txnId = some txn := by rw [htxns, hw, hget]
    rw [honoured_finish s₁ hget₁ hstate (hid.trans hw.symm)]
    simp [executes, hterminal, hnone]
  unfold Service.dispatch at hreply ⊢
  dsimp only at hreply ⊢
  split at hreply
  · next outcome broker hrequest =>
    cases hreply
    exact hfinish _ _ outcome rfl rfl (requestAction_error hrequest)
  · next stage? broker hrequest =>
    split at hreply
    · cases hreply
      exact hfinish _ _ {} rfl rfl rfl
    · cases hreply

theorem honoured_answer (h : Sound H s) (hw : s.executing[i]? = some w)
    (hd : d = ⟨w.txnId, w.missionId, some (w.stage, a), taken⟩)
    (hreply : (s.answer H i w a now taken).1 = some reply) :
    OutcomeHonoured d later reply (s.answer H i w a now taken).2 ↔ Recorded H s d later := by
  obtain ⟨txn, hget, hstate⟩ := h.executing w (List.mem_of_getElem? hw)
  have hcompletion : d.completion? = completion? w.stage a := by rw [hd]; rfl
  have hchannel : (∀ c, d.channel = some c → answers c.1 c.2 = true) ↔
      answers w.stage a = true := by simp [hd]
  rw [Recorded, hchannel, hcompletion]
  unfold Service.answer at hreply ⊢
  dsimp only at hreply ⊢
  by_cases hanswers : answers w.stage a = true
  · rcases hdelivered : completion? w.stage a with _ | c
    · -- nothing is delivered: the transaction fails
      simp only [hanswers, true_and, forall_const, reduceCtorEq, IsEmpty.forall_iff, implies_true]
      rcases advance_other s.journal w.missionId taken hdelivered hanswers with
        ⟨stage', hadvance⟩ | ⟨outcome, journal', hadvance, hterminal⟩
      · rw [hadvance] at hreply
        cases hreply
      · rw [hadvance] at hreply ⊢
        cases hreply
        dsimp only
        rw [honoured_finish { s with executing := s.executing.eraseIdx i, journal := journal' } hget
          hstate (by rw [hd]), hcompletion, hdelivered]
        simp [executes, hterminal]
    · -- a completion is delivered: the journal has to confirm it
      obtain ⟨payload, hadvance, hconfirms, haction⟩ :=
        advance_completion s.journal w.missionId taken H hdelivered
      rw [hadvance] at hreply ⊢
      cases hreply
      dsimp only
      set s₁ : Service := { s with
        executing := s.executing.eraseIdx i
        journal := emit taken s.journal w.missionId "receipt.received" payload } with hs₁
      have hconfirmed := executes_iff_confirmed (s := s₁) (d := d) (by rw [hd]) (by rw [hd])
        hconfirms haction
      rw [honoured_finish s₁ hget hstate (by rw [hd]), hcompletion, hdelivered, hconfirmed]
      simp only [hanswers, Option.isSome_some, iff_true, true_and, Option.some.injEq, forall_eq',
        reduceCtorEq, IsEmpty.forall_iff, and_true, and_iff_left_iff_imp]
      intro hholds hnot
      rw [hconfirmed.mpr hholds] at hnot
      cases hnot
  · rw [advance_raises s.journal w.missionId taken (by simpa using hanswers)] at hreply ⊢
    cases hreply
    have hget' : s.txns.get? d.txnId = some txn := by rw [hd, hget]
    refine iff_of_false (not_honoured_raised hget' hstate) ?_
    exact fun hrecorded => hanswers hrecorded.1

end Outcome

/-- **The outcome of a dispatched action is as it should be** exactly when the condition holds of
the step that ends its handler, whatever happens to the action after that. -/
theorem outcome_honoured (H : Host) {s s' : Service} (hs : (admission H).Reachable s) {l : Label}
    {d : Dispatch} (hd : dispatch? H s l = some d) {reply : ExecuteReply}
    (hstep : respond H s l = some (some (.execution reply), s')) (later : Bool) :
    OutcomeHonoured d later reply s' ↔ Recorded H s d later := by
  have hsound := sound_of_reachable hs
  cases l with
  | execute approvalId ctx caller now taken =>
    obtain ⟨hr, rfl⟩ := Prod.mk.inj (Option.some_inj.mp hstep)
    obtain ⟨reply', hreply, heq⟩ := Option.map_eq_some_iff.mp hr
    cases heq
    obtain ⟨cleared, hcleared, rfl⟩ := Option.map_eq_some_iff.mp hd
    obtain ⟨hcleared, hstate⟩ := Option.filter_eq_some_iff.mp hcleared
    obtain ⟨txns, row, hexecute, hget, hdispatching⟩ :=
      execute_cleared taken hsound hcleared (by simpa using hstate)
    rw [hexecute] at hreply ⊢
    rw [honoured_dispatch (s := { s with txns }) hget hdispatching rfl rfl hreply, Recorded]
    simp [Dispatch.completion?]
  | answer i a now taken =>
    obtain ⟨w, hw, hr⟩ := Option.map_eq_some_iff.mp hstep
    obtain ⟨hsome, rfl⟩ := Prod.mk.inj hr
    obtain ⟨reply', hreply, heq⟩ := Option.map_eq_some_iff.mp hsome
    cases heq
    have hdispatch : (s.executing[i]?).map
        (fun w => (⟨w.txnId, w.missionId, some (w.stage, a), taken⟩ : Dispatch)) = some d := hd
    rw [hw, Option.map_some, Option.some_inj] at hdispatch
    exact honoured_answer hsound hw hdispatch.symm hreply
  | propose | proposed | decide | cancel | revoke | decisionStatus | event | environment
  | restart => cases hd

/-- The card is approved and its action goes to the simulator, while the mission gets so many
other events. -/
def sampleRun (events : Nat) : List Label :=
  approvedRun ++ [executeApproved] ++ List.replicate events (.event "mission_1" "agent.message" .none)

def sampleAnswer : Answer := .simCompleted "act_1" "rcpt_1"

/-- A completion is confirmed by the second event of the mission. -/
theorem outcome_honoured_completed : ∃ s s' d reply,
    dispatch? sampleHost s (.answer 0 sampleAnswer "2026-01-01T00:03:00" true) = some d ∧
    respond sampleHost s (.answer 0 sampleAnswer "2026-01-01T00:03:00" true) =
      some (some (.execution reply), s') ∧ d.completion?.isSome = true ∧
    OutcomeHonoured d true reply s' := by
  have hrun : ∃ s s' d reply,
      (admission sampleHost).run (sampleService .simulation false) (sampleRun 0) = some s ∧
      dispatch? sampleHost s (.answer 0 sampleAnswer "2026-01-01T00:03:00" true) = some d ∧
      respond sampleHost s (.answer 0 sampleAnswer "2026-01-01T00:03:00" true) =
        some (some (.execution reply), s') ∧
      d.completion? = some ⟨"rcpt_1", "act_1", "COMPLETED"⟩ ∧
      d.channel = some (.sim "mcp:arm" ⟨"arm.turn", [("angle", .int 30)], .simulation, "grant_1"⟩,
        sampleAnswer) ∧ d.taken = true ∧
      (replay s.journal d.missionId 50).find? (confirms "rcpt_1") = none ∧
      (eventsOf s.journal d.missionId).length = 2 :=
    ⟨_, _, _, _, rfl, rfl, rfl, rfl, rfl, rfl, rfl, rfl⟩
  obtain ⟨s, s', d, reply, hs, hd, hstep, hcompletion, hchannel, htaken, hnone, hlength⟩ := hrun
  refine ⟨s, s', d, reply, hd, hstep, by rw [hcompletion]; rfl, ?_⟩
  refine (outcome_honoured sampleHost (.of_run ⟨_, _, rfl⟩ hs) hd hstep true).mpr ⟨?_, ?_, ?_⟩
  · intro c hc
    rw [hchannel, Option.some_inj] at hc
    rw [← hc]
    rfl
  · intro c hc
    rw [hcompletion, Option.some_inj] at hc
    subst hc
    exact ⟨rfl, .inr ⟨hnone, htaken, by omega, rfl, rfl⟩⟩
  · intro hnot
    rw [hcompletion] at hnot
    cases hnot

/-- The event of the receipt comes after fifty others, and the completed action is reported as
failed. -/
theorem late_receipt_fails : ∃ s s' d reply, (admission sampleHost).Reachable s ∧
    dispatch? sampleHost s (.answer 0 sampleAnswer "2026-01-01T00:03:00" true) = some d ∧
    respond sampleHost s (.answer 0 sampleAnswer "2026-01-01T00:03:00" true) =
      some (some (.execution reply), s') ∧
    d.completion?.isSome = true ∧ reply.saysExecuted = false ∧
    (∃ txn, s'.txns.get? d.txnId = some txn ∧ txn.state = .failed) ∧
    ∀ later, ¬ OutcomeHonoured d later reply s' := by
  have hrun : ∃ s s' d reply,
      (admission sampleHost).run (sampleService .simulation false) (sampleRun 48) = some s ∧
      dispatch? sampleHost s (.answer 0 sampleAnswer "2026-01-01T00:03:00" true) = some d ∧
      respond sampleHost s (.answer 0 sampleAnswer "2026-01-01T00:03:00" true) =
        some (some (.execution reply), s') ∧
      d.completion?.isSome = true ∧ reply.saysExecuted = false ∧
      ∃ txn, s'.txns.get? d.txnId = some txn ∧ txn.state = .failed :=
    ⟨_, _, _, _, rfl, rfl, rfl, rfl, rfl, _, rfl, rfl⟩
  obtain ⟨s, s', d, reply, hs, hd, hstep, hcompletion, hanswer, hfailed⟩ := hrun
  refine ⟨s, s', d, reply, .of_run ⟨_, _, rfl⟩ hs, hd, hstep, hcompletion, hanswer, hfailed, ?_⟩
  intro later h
  have htold := h.told.mpr hcompletion
  rw [hanswer] at htold
  cases htold

end Rosclaw.Admission
