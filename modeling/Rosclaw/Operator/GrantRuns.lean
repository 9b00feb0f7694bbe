/-
Calls of the broker that overlap.

Every statement of the broker commits by itself, and a call that reads its row first and
writes afterwards may find that another call has written in between.  A call is here as many
steps as it has statements on `operator_requests` and `mission_grants`; between them it is in
flight, with what it has read.  A call that is never resumed is one whose process has died.
A party without the key of the broker writes the public columns of a grant as it likes.
-/
import Rosclaw.Lib.Machine
import Rosclaw.Operator.Broker

namespace Rosclaw.GrantRuns

open Approvals Approvals.Broker

/-- The arguments of `verify`. -/
structure VerifyCall where
  grantId : PyStr
  principal : PyStr
  bodyHash : PyStr
  mode : Mode
  riskTier : RiskTier
  actionIntent : Option PyStr
  consume : Bool := true

/-- A call between two of its statements, with what it has read. -/
inductive Flight
  /-- `decide` has found a card that has expired -/
  | expire (requestId : PyStr)
  /-- `decide` has found a pending card -/
  | decide (requestId : PyStr) (request : ApprovalRequest) (principal : PyStr) (approve : Bool)
      (decidedBy : Option PyStr)
  /-- `_mint_grant` -/
  | mint (request : ApprovalRequest) (principal : PyStr)
  /-- `cancel_request` has found a pending card -/
  | cancel (requestId principal : PyStr)
  /-- `verify` has accepted the grant of an exact action -/
  | consume (v : VerifyCall) (grant : MissionGrant)

inductive Entry
  /-- the status of a card was written -/
  | closed (requestId : PyStr) (status : ApprovalStatus)
  | minted (requestId : PyStr) (grant : MissionGrant)
  | revoked (grantId : PyStr)
  /-- a call of `verify` has named the grant -/
  | asked (grantId : PyStr)
  /-- `verify` has returned the grant -/
  | verified (v : VerifyCall) (grant : MissionGrant) (time : DateTime)

/-- The columns of a grant row other than its key and `private_signature`. -/
structure PublicColumns where
  requestId : PyStr
  grant : MissionGrant
  consumed : Bool
  revoked : Bool
  expiresAt : PyStr

def edited (row : GrantRow) (e : PublicColumns) : GrantRow :=
  { row with requestId := e.requestId, grant := e.grant, consumed := e.consumed
             revoked := e.revoked, expiresAt := e.expiresAt }

structure State where
  broker : Broker
  /-- the calls in flight, by a number for each call -/
  flights : Dict Nat Flight
  log : List Entry
  clock : DateTime

inductive Label
  | tick (t : DateTime)
  | createRequest (request : ApprovalRequest)
  | decide (call : Nat) (requestId principal : PyStr) (approve : Bool) (decidedBy : Option PyStr)
  | cancelRequest (call : Nat) (requestId principal : PyStr)
  | revoke (grantId principal : PyStr)
  | verify (call : Nat) (v : VerifyCall)
  /-- the next statement of a call; `new_id` gives a grant id -/
  | resume (call : Nat) (grantId : PyStr)
  | edit (grantId : PyStr) (e : PublicColumns)

namespace State

def now (s : State) : PyStr := s.clock.utcText

def fly (s : State) (call : Nat) (f : Flight) : State := { s with flights := s.flights.set call f }

def land (s : State) (call : Nat) : State := { s with flights := s.flights.erase call }

def withBroker (s : State) (b : Broker) : State := { s with broker := b }

def record (s : State) (e : Entry) : State := { s with log := s.log ++ [e] }

/-- `UPDATE operator_requests SET status = ?, decided_by = ? WHERE request_id = ?`; a card
that has expired keeps its `decided_by`. -/
def close (s : State) (requestId : PyStr) (status : ApprovalStatus) (decidedBy : Option PyStr) :
    State :=
  match s.broker.requests.get? requestId with
  | none => s
  | some row =>
      (s.withBroker (s.broker.setStatus requestId row status (decidedBy.or row.decidedBy))).record
        (.closed requestId status)

/-- The statement that `decide` starts with. -/
def beginDecide (s : State) (call : Nat) (requestId principal : PyStr) (approve : Bool)
    (decidedBy : Option PyStr) : State :=
  match s.broker.requests.get? requestId with
  | none => s
  | some row =>
      if row.status ≠ .pending then s
      else if row.request.expiresAt.lt s.now then s.fly call (.expire requestId)
      else s.fly call (.decide requestId row.request principal approve decidedBy)

/-- The statement that `cancel_request` starts with. -/
def beginCancel (s : State) (call : Nat) (requestId principal : PyStr) : State :=
  match s.broker.requests.get? requestId with
  | none => s
  | some row => if row.status ≠ .pending then s else s.fly call (.cancel requestId principal)

/-- `UPDATE mission_grants SET consumed = 1 WHERE grant_id = ?`. -/
def spend (s : State) (grantId : PyStr) : State :=
  match s.broker.grants.get? grantId with
  | none => s
  | some row => s.withBroker (s.broker.setGrant grantId { row with consumed := true })

/-- The statement that `verify` starts with, and the only one if there is nothing to spend. -/
def beginVerify (H : Host) (s : State) (call : Nat) (v : VerifyCall) : State :=
  match s.broker.grants.get? v.grantId with
  | none => s
  | some row =>
    match refusal H row v.grantId v.principal v.bodyHash v.mode v.riskTier v.actionIntent s.now with
    | some _ => s
    | none =>
        if v.consume = true ∧ row.grant.tier = .exactAction then s.fly call (.consume v row.grant)
        else s.record (.verified v row.grant s.clock)

/-- `INSERT INTO mission_grants`, with a grant id that `new_id` gave. -/
def insertGrant (H : Host) (s : State) (request : ApprovalRequest) (principal grantId : PyStr) :
    State :=
  if (s.broker.grants.get? grantId).isSome then s
  else
    (s.withBroker (s.broker.insertGrant H request.requestId
      (s.broker.newGrant H request principal grantId s.now))).record
        (.minted request.requestId (s.broker.newGrant H request principal grantId s.now))

def event (s : State) (eventType actorId : PyStr) (payload : PyVal) : State :=
  s.withBroker (s.broker.event eventType actorId payload)

/-- The next statement of a call. -/
def resume (H : Host) (s : State) (call : Nat) (grantId : PyStr) : Flight → State
  | .expire requestId => (s.close requestId .expired none).land call
  | .decide requestId request principal approve decidedBy =>
      let s' := (s.close requestId (if approve then .approved else .denied)
        (some (decidedBy.getD principal))).event (decisionEvent approve) principal
          (.dict [("request_id", .str requestId), ("approved", .bool approve)])
      if approve then s'.fly call (.mint request principal) else s'.land call
  | .mint request principal => (s.insertGrant H request principal grantId).land call
  | .cancel requestId principal =>
      ((s.close requestId .cancelled (some ("cancel:" ++ principal))).event
        "rosclaw.operator.approval.cancelled.v1" principal
        (.dict [("request_id", .str requestId)])).land call
  | .consume v grant => ((s.spend v.grantId).record (.verified v grant s.clock)).land call

/-- One step; the clock is read in UTC and does not go back, and a call has a number of its
own. -/
def next (H : Host) (s : State) : Label → Option State
  | .tick t =>
      if s.clock.instant ≤ t.instant ∧ t.offset = 0 then some { s with clock := t } else none
  | .createRequest request =>
      if (s.broker.requests.get? request.requestId).isSome then some s
      else some (s.withBroker (s.broker.createRequest request))
  | .decide call requestId principal approve decidedBy =>
      if (s.flights.get? call).isSome then none
      else some (s.beginDecide call requestId principal approve decidedBy)
  | .cancelRequest call requestId principal =>
      if (s.flights.get? call).isSome then none else some (s.beginCancel call requestId principal)
  | .revoke grantId principal =>
      if (s.broker.grants.get? grantId).isSome then
        some ((s.withBroker (s.broker.revoke grantId principal).2).record (.revoked grantId))
      else some s
  | .verify call v =>
      if (s.flights.get? call).isSome then none
      else some ((s.record (.asked v.grantId)).beginVerify H call v)
  | .resume call grantId => (s.flights.get? call).map (s.resume H call grantId)
  | .edit grantId e =>
      (s.broker.grants.get? grantId).map fun row =>
        s.withBroker (s.broker.setGrant grantId (edited row e))

end State

/-- The broker, statement by statement. -/
def overlapping (H : Host) : Machine State Label where
  Init s := s.broker.requests = ∅ ∧ s.broker.grants = ∅ ∧ s.flights = ∅ ∧ s.log = [] ∧
    s.clock.offset = 0
  step := State.next H

def minutePast : DateTime := ⟨63902822460000000, 0, by decide, DateTime.second.offset_bounds⟩

def sampleRequest : ApprovalRequest :=
  { requestId := "appr_1"
    missionId := "mission_1"
    principal := "user:local:1000"
    bodyId := "arm"
    effectiveBodyHash := "body"
    actionDisplay := { title := "arm.turn", summary := "turn the arm" }
    contextId := "ctx_mission_1"
    contextRevision := 1
    createdAt := "2026-01-01T00:00:00+00:00"
    expiresAt := "2026-01-01T00:10:00+00:00" }

def sampleState : State := ⟨{ policyHash := "policy" }, ∅, [], minutePast⟩

end Rosclaw.GrantRuns
