/-
The proposal operations of the control plane (`daemon/service.py`), interleaved.

Every operation is a thread that moves from one point of its code to the next;
between two points any other thread may run.  `decide` and `cancel` hold the
decision lock from start to end, the other operations do not.  What a proposal
operation asks of the rest of the daemon (the ledger, the sessions, the permits,
the action queue, the check of the operator's proof) is answered by the label of
the step.

* `proposal_laws` — in runs of such steps a final state is final, nothing follows
  an acknowledged decline or cancel, and an action is submitted once;
* `proposal_laws_fail` — a run in which a declined proposal is submitted.
-/
import Rosclaw.Operator.Store
import Rosclaw.Lib.Machine
import Mathlib.Data.List.Count
import Mathlib.Logic.Function.Basic

namespace Rosclaw

open List

inductive OperatorDecision
  | accept | decline
deriving DecidableEq, Repr

/-- The next thing a thread does.  The parameters are what it has computed so far:
the request id, and the proposals still to visit. -/
inductive Point
  | idle
  -- `create_operator_proposal`
  | create (action : ActionEnvelope) (peer : PeerCredentials) (ttl : PyVal)
  | createCheck (r : PyStr)
  | createSession (r : PyStr)
  | createAppend (r : PyStr)
  | createInvalidate (r : PyStr)
  -- `get_operator_proposal`, `_synchronize_operator_proposal`
  | get (r : PyStr) (peer : PeerCredentials)
  | getAudit (r : PyStr)
  | syncRead (r : PyStr)
  | syncStatus (r : PyStr)
  | syncWrite (r : PyStr)
  | syncAppend (r : PyStr)
  -- `get_operator_challenge`, the health report
  | challenge (r : PyStr) (peer : PeerCredentials)
  | challengeAudit (r : PyStr)
  | status
  -- `list_pending_operator_proposals`
  | list (peer : PeerCredentials)
  | listAll (pending : List PyStr)
  | listAudit (all pending : List PyStr)
  | present (rs : List PyStr)
  | presentWrite (r : PyStr) (rs : List PyStr)
  | presentAppend (r : PyStr) (rs : List PyStr)
  -- `cancel_operator_proposal`
  | cancelLock (r : PyStr) (peer : PeerCredentials)
  | cancelGet (r : PyStr) (peer : PeerCredentials)
  | cancelAudit (r : PyStr)
  | cancelReadCancelled (r : PyStr)
  | cancelReadPending (r : PyStr)
  | cancelWrite (r : PyStr)
  | cancelAppend (r : PyStr)
  | cancelClose (r : PyStr)
  -- `decide_operator_proposal`
  | decideLock (r : PyStr) (d : OperatorDecision)
  | decideGet (r : PyStr) (d : OperatorDecision)
  | decideReadSubmitted (r : PyStr) (d : OperatorDecision)
  | decideReadDeclined (r : PyStr) (d : OperatorDecision)
  | decideReadPending (r : PyStr) (d : OperatorDecision)
  | decideProof (r : PyStr) (d : OperatorDecision)
  | refuseWrite (r : PyStr)
  | refuseAppend (r : PyStr)
  | declineWrite (r : PyStr)
  | declineAppend (r : PyStr)
  | declineFinalize (r : PyStr)
  | acceptSession (r : PyStr)
  | acceptWrite (r : PyStr)
  | acceptAppend (r : PyStr)
  | acceptArm (r : PyStr)
  | acceptIssue (r : PyStr)
  | permitWrite (r : PyStr)
  | permitAppend (r : PyStr)
  | acceptSubmit (r : PyStr)
  | submittedWrite (r : PyStr)
  | submittedAppend (r : PyStr)
  | acceptFinalize (r : PyStr)
  -- the exception handler of an acceptance
  | rollback (r : PyStr)
  | rollbackWrite (r : PyStr)
  | rollbackAppend (r : PyStr)

/-- What the proposal operations cause or promise. -/
inductive ProposalEffect
  /-- the daemon issues a permit for the action -/
  | permitIssued (r : PyStr)
  /-- the daemon requests the action -/
  | submitted (r : PyStr)
  /-- a decline or a cancel returns to its caller -/
  | acknowledged (r : PyStr)
deriving DecidableEq, Repr

/-- What the rest of the daemon and of the world answers. -/
structure ProposalAnswer where
  now : DateTime := default
  /-- the call the thread makes returns -/
  returns : Bool := true
  /-- the action has finished -/
  finished : Bool := false
  operatorUids : List Int := []
  decision : OperatorProposal.Decision := {}
  creation : OperatorProposalStore.Creation := ⟨default, default, default, true, true⟩

structure ProposalDaemon where
  py : Builtins
  euid : Int
  instanceId : PyStr

structure ProposalSystem where
  store : OperatorProposalStore
  points : Nat → Point
  lock : Option Nat
  effects : List ProposalEffect

inductive ProposalLabel
  /-- a thread enters an operation -/
  | call (i : Nat) (entry : Point)
  | run (i : Nat) (answer : ProposalAnswer)

namespace Point

def isIdle : Point → Bool
  | idle => true
  | _ => false

def isCreate : Point → Bool
  | create .. => true
  | _ => false

def isEntry : Point → Bool
  | create .. | get .. | challenge .. | status | list .. | cancelLock .. | decideLock .. => true
  | _ => false

def isLocked : Point → Bool
  | cancelGet .. | cancelAudit .. | cancelReadCancelled .. | cancelReadPending .. | cancelWrite ..
  | cancelAppend .. | cancelClose .. => true
  | decideGet .. | decideReadSubmitted .. | decideReadDeclined .. | decideReadPending ..
  | decideProof .. | refuseWrite .. | refuseAppend .. => true
  | declineWrite .. | declineAppend .. | declineFinalize .. => true
  | acceptSession .. | acceptWrite .. | acceptAppend .. | acceptArm .. | acceptIssue ..
  | permitWrite .. | permitAppend .. | acceptSubmit .. | submittedWrite .. | submittedAppend ..
  | acceptFinalize .. | rollback .. | rollbackWrite .. | rollbackAppend .. => true
  | _ => false

/-- The write of a proposal's state: the proposal, the new state and the states
the operation has read or written there last. -/
def write : Point → Option (PyStr × ProposalState × (ProposalState → Bool))
  | createInvalidate r => some (r, .invalidated, ProposalState.isPending)
  | syncWrite r => some (r, .terminal, (· = .submitted))
  | presentWrite r _ => some (r, .presented, (· = .created))
  | cancelWrite r => some (r, .cancelled, ProposalState.isPending)
  | refuseWrite r => some (r, .invalidated, ProposalState.isPending)
  | declineWrite r => some (r, .declined, ProposalState.isPending)
  | acceptWrite r => some (r, .accepted, ProposalState.isPending)
  | permitWrite r => some (r, .permitIssued, (· = .accepted))
  | submittedWrite r => some (r, .submitted, (· = .permitIssued))
  | rollbackWrite r => some (r, .invalidated,
      fun s => s = .accepted ∨ s = .permitIssued ∨ s = .submitted)
  | _ => none

end Point

/-- What one step of a thread results in: the store, the effects, the next point. -/
abbrev PointResult := OperatorProposalStore × List ProposalEffect × Point

namespace ProposalDaemon

/-- `_require_proposal_reader`. -/
def readable (D : ProposalDaemon) (S : OperatorProposalStore) (r : PyStr)
    (peer : PeerCredentials) : Bool :=
  (S.heap.get? r).any fun p => peer.uid = p.originPeer.uid || peer.uid = D.euid

/-- `_require_operator_reader`. -/
def operator (D : ProposalDaemon) (peer : PeerCredentials) (a : ProposalAnswer) : Bool :=
  peer.uid = D.euid || a.operatorUids.contains peer.uid

/-- Append an event of the proposal: `next` where it is stored, else `fault`. -/
def append (S : OperatorProposalStore) (r : PyStr) (a : ProposalAnswer) (next fault : Point) :
    PointResult :=
  if a.returns then (S.modify r OperatorProposal.markAudited, [], next) else (S, [], fault)

/-- `_audit_expired_operator_proposal`. -/
def audit (S : OperatorProposalStore) (r : PyStr) (a : ProposalAnswer) (next : Point) :
    PointResult :=
  if (S.heap.get? r).any fun p =>
      p.state = .expired && p.auditedTransitionCount < p.transitions.length then
    append S r a next .idle
  else (S, [], next)

/-- `transition`: `next`, or `gone` where the proposal is no longer stored. -/
def transition (S : OperatorProposalStore) (r : PyStr) (state : ProposalState)
    (a : ProposalAnswer) (next gone : Point) : PointResult :=
  let t := S.transition r state a.now a.decision
  (t.1, [], if t.2 then next else gone)

def ask (S : OperatorProposalStore) (a : ProposalAnswer) (next fault : Point) : PointResult :=
  (S, [], if a.returns then next else fault)

def act (D : ProposalDaemon) (S : OperatorProposalStore) (a : ProposalAnswer) :
    Point → PointResult
  | .idle => (S, [], .idle)
  | .create action peer ttl =>
    let c := S.create D.py action peer D.instanceId ttl a.creation
    (c.1, [], match c.2 with
      | .ok r => .createCheck r
      | .error _ => .idle)
  | .createCheck r =>
    (S, [], if (S.heap.get? r).any (·.auditedTransitionCount = 0) then .createSession r else .idle)
  | .createSession r => ask S a (.createAppend r) .idle
  | .createAppend r => append S r a .idle (.createInvalidate r)
  | .createInvalidate r => transition S r .invalidated a .idle .idle
  | .get r peer =>
    let g := S.get r a.now
    (g.1, [], if g.2 && D.readable g.1 r peer then .getAudit r else .idle)
  | .getAudit r => audit S r a (.syncRead r)
  | .syncRead r => (S, [], if S.stateOf r = some .submitted then .syncStatus r else .idle)
  | .syncStatus r => (S, [], if a.returns && a.finished then .syncWrite r else .idle)
  | .syncWrite r => transition S r .terminal a (.syncAppend r) .idle
  | .syncAppend r => append S r a .idle .idle
  | .challenge r peer =>
    if D.operator peer a then
      let g := S.get r a.now
      (g.1, [], if g.2 then .challengeAudit r else .idle)
    else (S, [], .idle)
  | .challengeAudit r => audit S r a .idle
  | .status => (S.status a.now, [], .idle)
  | .list peer =>
    if D.operator peer a then
      let g := S.pending a.now
      (g.1, [], .listAll g.2)
    else (S, [], .idle)
  | .listAll pending =>
    let g := S.all a.now
    (g.1, [], .listAudit g.2 pending)
  | .listAudit [] pending => (S, [], .present pending)
  | .listAudit (r :: rs) pending => audit S r a (.listAudit rs pending)
  | .present [] => (S, [], .idle)
  | .present (r :: rs) =>
    (S, [], if S.stateOf r = some .created then .presentWrite r rs else .present rs)
  | .presentWrite r rs => transition S r .presented a (.presentAppend r rs) .idle
  | .presentAppend r rs => append S r a (.present rs) .idle
  | .cancelLock r peer => (S, [], .cancelGet r peer)
  | .cancelGet r peer =>
    let g := S.get r a.now
    (g.1, [], if g.2 && D.readable g.1 r peer then .cancelAudit r else .idle)
  | .cancelAudit r => audit S r a (.cancelReadCancelled r)
  | .cancelReadCancelled r =>
    if S.stateOf r = some .cancelled then (S, [.acknowledged r], .idle)
    else (S, [], .cancelReadPending r)
  | .cancelReadPending r =>
    (S, [], if (S.stateOf r).any ProposalState.isPending then .cancelWrite r else .idle)
  | .cancelWrite r => transition S r .cancelled a (.cancelAppend r) .idle
  | .cancelAppend r => append S r a (.cancelClose r) .idle
  | .cancelClose r => (S, [.acknowledged r], .idle)
  -- the proof and the enrollment are checked before the lock is taken
  | .decideLock r d => ask S a (.decideGet r d) .idle
  | .decideGet r d =>
    let g := S.get r a.now
    (g.1, [], if g.2 && (g.1.heap.get? r).any (·.daemonInstanceId = D.instanceId) then
      .decideReadSubmitted r d else .idle)
  | .decideReadSubmitted r d =>
    (S, [], if S.stateOf r = some .submitted ∨ S.stateOf r = some .terminal then
      (if d = .accept then .syncRead r else .idle) else .decideReadDeclined r d)
  | .decideReadDeclined r d =>
    if S.stateOf r = some .declined then
      (S, if d = .decline then [.acknowledged r] else [], .idle)
    else (S, [], .decideReadPending r d)
  | .decideReadPending r d =>
    (S, [], if (S.stateOf r).any ProposalState.isPending then .decideProof r d else .idle)
  | .decideProof r d =>
    if a.returns = false then (S, [], .idle)
    else if (S.heap.get? r).any fun p => actionIntentHash D.py p.action ≠ some p.actionIntentHash then
      (S, [], .refuseWrite r)
    else (S, [], if d = .decline then .declineWrite r else .acceptSession r)
  | .refuseWrite r => transition S r .invalidated a (.refuseAppend r) .idle
  | .refuseAppend r => append S r a .idle .idle
  | .declineWrite r => transition S r .declined a (.declineAppend r) .idle
  | .declineAppend r => append S r a (.declineFinalize r) .idle
  | .declineFinalize r =>
    if a.returns then (S.modify r OperatorProposal.markAudited, [.acknowledged r], .idle)
    else (S, [], .idle)
  | .acceptSession r => ask S a (.acceptWrite r) (.refuseWrite r)
  | .acceptWrite r => transition S r .accepted a (.acceptAppend r) (.rollback r)
  | .acceptAppend r => append S r a (.acceptArm r) (.rollback r)
  | .acceptArm r => ask S a (.acceptIssue r) (.rollback r)
  -- a call that raises may have registered the permit
  | .acceptIssue r => (S, [.permitIssued r], if a.returns then .permitWrite r else .rollback r)
  | .permitWrite r => transition S r .permitIssued a (.permitAppend r) (.rollback r)
  | .permitAppend r => append S r a (.acceptSubmit r) (.rollback r)
  | .acceptSubmit r => (S, [.submitted r], if a.returns then .submittedWrite r else .rollback r)
  | .submittedWrite r => transition S r .submitted a (.submittedAppend r) (.rollback r)
  | .submittedAppend r => append S r a (.acceptFinalize r) (.rollback r)
  | .acceptFinalize r => append S r a .idle .idle
  -- the permits of the session are revoked
  | .rollback r => (S, [], .rollbackWrite r)
  | .rollbackWrite r => transition S r .invalidated a (.rollbackAppend r) .idle
  | .rollbackAppend r => append S r a .idle .idle

end ProposalDaemon

namespace ProposalSystem

/-- One step of one thread.  A thread waits for the decision lock, and returns it
when its operation ends. -/
def step (D : ProposalDaemon) (s : ProposalSystem) : ProposalLabel → Option ProposalSystem
  | .call i entry =>
    if (s.points i).isIdle && entry.isEntry then
      some { s with points := Function.update s.points i entry }
    else none
  | .run i a =>
    let p := s.points i
    let out := D.act s.store a p
    let q := out.2.2
    if p.isIdle then none
    else if p.isCreate && s.store.heap.contains a.creation.requestId then none
    else if q.isLocked && s.lock.any (· ≠ i) then none
    else some {
      store := out.1
      points := Function.update s.points i q
      lock := if q.isLocked then some i else if q.isIdle ∧ s.lock = some i then none else s.lock
      effects := s.effects ++ out.2.1 }

def Initial (s : ProposalSystem) : Prop :=
  s.store.heap = ∅ ∧ s.store.proposals = [] ∧ (∀ i, s.points i = .idle) ∧ s.lock = none ∧
    s.effects = []

end ProposalSystem

def proposalMachine (D : ProposalDaemon) : Machine ProposalSystem ProposalLabel where
  Init := ProposalSystem.Initial
  step := ProposalSystem.step D

def Expected (S : OperatorProposalStore) (p : Point) : Prop :=
  ∀ w ∈ p.write, w.1 ∈ S.proposals → (S.stateOf w.1).any w.2.2 = true

instance (S : OperatorProposalStore) (p : Point) : Decidable (Expected S p) :=
  inferInstanceAs (Decidable (∀ w ∈ p.write, w.1 ∈ S.proposals → (S.stateOf w.1).any w.2.2 = true))

/-- The thread that writes the state of a proposal finds it as its operation has
read or written it last. -/
def Undisturbed (s : ProposalSystem) : ProposalLabel → Prop
  | .call .. => True
  | .run i _ => Expected s.store (s.points i)

instance (s : ProposalSystem) (l : ProposalLabel) : Decidable (Undisturbed s l) :=
  match l with
  | .call .. => instDecidableTrue
  | .run i _ => inferInstanceAs (Decidable (Expected s.store (s.points i)))

/-! ### What one step does -/

/-- What can happen to the states: a lazy expiry, a creation, or the write of the
point. -/
structure Moves (S S' : OperatorProposalStore)
    (write : Option (PyStr × ProposalState × (ProposalState → Bool))) : Prop where
  state : ∀ r, S'.stateOf r = S.stateOf r ∨
    ((S.stateOf r).any ProposalState.isPending = true ∧ S'.stateOf r = some .expired) ∨
    (S.stateOf r = none ∧ S'.stateOf r = some .created ∧ r ∈ S'.proposals) ∨
    ∃ target expected, write = some (r, target, expected) ∧ r ∈ S.proposals ∧
      S'.stateOf r = (S.stateOf r).map fun _ => target
  stored : ∀ r ∈ S.proposals, r ∈ S'.proposals ∨ (S.stateOf r).any ProposalState.isTerminal = true

namespace Moves

variable {S S' : OperatorProposalStore}
  {write : Option (PyStr × ProposalState × (ProposalState → Bool))}

theorem same (S : OperatorProposalStore)
    (write : Option (PyStr × ProposalState × (ProposalState → Bool))) : Moves S S write :=
  ⟨fun _ => .inl rfl, fun _ h => .inl h⟩

theorem of_expires (h : OperatorProposalStore.Expires S S') (hp : S'.proposals = S.proposals) :
    Moves S S' write :=
  ⟨fun r => (h r).elim .inl fun h => .inr (.inl h), fun _ hr => .inl (hp ▸ hr)⟩

theorem markAudited (S : OperatorProposalStore) (r : PyStr)
    (write : Option (PyStr × ProposalState × (ProposalState → Bool))) :
    Moves S (S.modify r OperatorProposal.markAudited) write :=
  ⟨fun r' => .inl (by simp), fun r' h => .inl (by simpa using h)⟩

theorem append (S : OperatorProposalStore) (r : PyStr) (a : ProposalAnswer) (next fault : Point) :
    Moves S (ProposalDaemon.append S r a next fault).1 write := by
  unfold ProposalDaemon.append
  split
  · exact markAudited S r write
  · exact same S write

theorem audit (S : OperatorProposalStore) (r : PyStr) (a : ProposalAnswer) (next : Point) :
    Moves S (ProposalDaemon.audit S r a next).1 write := by
  unfold ProposalDaemon.audit
  split
  · exact append S r a next .idle
  · exact same S write

theorem transition (S : OperatorProposalStore) (r : PyStr) (target : ProposalState)
    (expected : ProposalState → Bool) (a : ProposalAnswer) (next gone : Point) :
    Moves S (ProposalDaemon.transition S r target a next gone).1 (some (r, target, expected)) := by
  unfold ProposalDaemon.transition
  refine ⟨fun r' => ?_, fun r' h => .inl (by simpa using h)⟩
  rcases S.transition_spec r target a.now a.decision with ⟨hr, -, hstate⟩ | ⟨-, hsame⟩
  · by_cases h : r = r'
    · subst h
      exact .inr (.inr (.inr ⟨target, expected, rfl, hr, (hstate r).trans (if_pos rfl)⟩))
    · exact .inl ((hstate r').trans (if_neg h))
  · exact .inl (by simp [hsame])

end Moves

variable {expected : ProposalState → Bool} {p : Point} (t : ProposalState) (D : ProposalDaemon)
  (S : OperatorProposalStore) (r : PyStr) (a : ProposalAnswer) (next : Point)

/-- **What a step does to the states**, point by point. -/
theorem act_moves (p : Point)
    (hfresh : p.isCreate = true → S.heap.get? a.creation.requestId = none) :
    Moves S (D.act S a p).1 p.write := by
  cases p with
  | idle | createCheck | createSession | syncRead | syncStatus => exact .same ..
  | cancelLock | cancelReadPending | cancelClose => exact .same ..
  | decideLock | decideReadSubmitted | decideReadPending => exact .same ..
  | acceptSession | acceptArm | acceptIssue | acceptSubmit | rollback => exact .same ..
  | create action peer ttl =>
    obtain ⟨hstored, hstate⟩ := S.create_spec D.py action peer D.instanceId ttl a.creation
      (hfresh rfl)
    exact ⟨fun r => (hstate r).elim .inl fun h => .inr (.inr (.inl h)), hstored⟩
  | createAppend | syncAppend | presentAppend | cancelAppend | refuseAppend => exact .append ..
  | declineAppend | acceptAppend | permitAppend | submittedAppend | acceptFinalize =>
    exact .append ..
  | rollbackAppend => exact .append ..
  | createInvalidate | syncWrite | presentWrite | cancelWrite | refuseWrite =>
    exact .transition ..
  | declineWrite | acceptWrite | permitWrite | submittedWrite | rollbackWrite =>
    exact .transition ..
  | getAudit | challengeAudit | cancelAudit => exact .audit ..
  | get r | cancelGet r | decideGet r =>
    exact .of_expires (S.expires_get r a.now) (S.proposals_get r a.now)
  | challenge r peer =>
    simp only [ProposalDaemon.act]
    split
    · exact .of_expires (S.expires_get r a.now) (S.proposals_get r a.now)
    · exact .same ..
  | status => exact .of_expires (S.expires_expireAll a.now) rfl
  | list peer =>
    simp only [ProposalDaemon.act]
    split
    · exact .of_expires (S.expires_expireAll a.now) rfl
    · exact .same ..
  | listAll => exact .of_expires (S.expires_expireAll a.now) rfl
  | listAudit all pending =>
    cases all with
    | nil => exact .same ..
    | cons r rs => exact .audit ..
  | present rs =>
    cases rs with
    | nil => exact .same ..
    | cons r rs => exact .same ..
  | cancelReadCancelled =>
    simp only [ProposalDaemon.act]
    split <;> exact .same ..
  | decideReadDeclined =>
    simp only [ProposalDaemon.act]
    split <;> exact .same ..
  | decideProof =>
    simp only [ProposalDaemon.act]
    split
    · exact .same ..
    · split <;> exact .same ..
  | declineFinalize r =>
    simp only [ProposalDaemon.act]
    split
    · exact .markAudited ..
    · exact .same ..

/-! ### What a thread relies on -/

namespace Point

def requires : Point → Option (PyStr × ProposalState)
  | declineAppend r | declineFinalize r => some (r, .declined)
  | cancelAppend r | cancelClose r => some (r, .cancelled)
  | acceptAppend r | acceptArm r | acceptIssue r | permitWrite r => some (r, .accepted)
  | permitAppend r | acceptSubmit r | submittedWrite r => some (r, .permitIssued)
  | _ => none

/-- The action has been requested, and the proposal does not say so yet. -/
def inFlight (r : PyStr) : Point → Bool
  | submittedWrite r' | rollback r' | rollbackWrite r' => r' = r
  | _ => false

variable {expected : ProposalState → Bool} {p : Point} {r : PyStr} {st t : ProposalState}

theorem not_terminal_of_write (h : p.write = some (r, t, expected)) (hst : expected st = true) :
    st.isTerminal = false := by
  cases p <;> simp only [write, Option.some.injEq, Prod.mk.injEq, reduceCtorEq] at h
  all_goals
    obtain ⟨-, -, rfl⟩ := h
    cases st <;> simp_all [ProposalState.isTerminal, ProposalState.isPending]

theorem write_of_decided (h : p.write = some (r, t, expected)) (hst : expected st = true)
    (hp : st.isPending = false) :
    t.isPending = false ∧ t ≠ .accepted ∧ (t = .permitIssued → st = .accepted) ∧
      ((st = .accepted ∨ st = .permitIssued) → p.isLocked = true) := by
  cases p <;> simp only [write, Option.some.injEq, Prod.mk.injEq, reduceCtorEq] at h
  all_goals
    obtain ⟨-, rfl, rfl⟩ := h
    cases st <;> simp_all [ProposalState.isPending, isLocked]

theorem isLocked_of_requires (h : p.requires = some (r, st)) : p.isLocked = true := by
  cases p <;> simp_all [requires, isLocked]

theorem isLocked_of_inFlight (h : p.inFlight r = true) : p.isLocked = true := by
  cases p <;> simp_all [inFlight, isLocked]

theorem requires_decided (h : p.requires = some (r, st)) : st.isPending = false ∧
      (st.isTerminal = true ∨ st = .accepted ∨ st = .permitIssued) := by
  cases p <;> simp only [requires, Option.some.injEq, Prod.mk.injEq, reduceCtorEq] at h
  all_goals
    obtain ⟨-, rfl⟩ := h
    simp [ProposalState.isPending, ProposalState.isTerminal]

end Point

theorem stateOf_markAudited_append {S : OperatorProposalStore} {r r' : PyStr} {a : ProposalAnswer}
    {next fault : Point} :
    (ProposalDaemon.append S r a next fault).1.stateOf r' = S.stateOf r' := by
  unfold ProposalDaemon.append
  split
  · simp
  · rfl

theorem next_append (fault : Point) : (ProposalDaemon.append S r a next fault).2.2 = next ∨
      (ProposalDaemon.append S r a next fault).2.2 = fault := by
  unfold ProposalDaemon.append
  split
  · exact .inl rfl
  · exact .inr rfl

theorem next_audit : (ProposalDaemon.audit S r a next).2.2 = next ∨
      (ProposalDaemon.audit S r a next).2.2 = .idle := by
  unfold ProposalDaemon.audit
  split
  · exact next_append ..
  · exact .inl rfl

theorem next_transition {S : OperatorProposalStore} {r : PyStr} (gone : Point)
    (hexp : r ∈ S.proposals → (S.stateOf r).any expected = true) :
    (r ∈ S.proposals ∧ (ProposalDaemon.transition S r t a next gone).2.2 = next ∧
      (ProposalDaemon.transition S r t a next gone).1.stateOf r = some t) ∨
    (r ∉ S.proposals ∧ (ProposalDaemon.transition S r t a next gone).2.2 = gone) := by
  unfold ProposalDaemon.transition
  rcases S.transition_spec r t a.now a.decision with ⟨hr, hok, hstate⟩ | ⟨hr, hsame⟩
  · refine .inl ⟨hr, by simp [hok], ?_⟩
    have hsome := hexp hr
    dsimp only
    rw [hstate, if_pos rfl]
    cases hst : S.stateOf r with
    | none => simp [hst] at hsome
    | some st => rfl
  · exact .inr ⟨hr, by simp [hsame]⟩

def Holds (S : OperatorProposalStore) (p : Point) : Prop :=
  ∀ r st, p.requires = some (r, st) → S.stateOf r = some st

theorem Expected.of_write {S : OperatorProposalStore} (h : Expected S p) {r : PyStr}
    {target : ProposalState} (hw : p.write = some (r, target, expected)) (hr : r ∈ S.proposals) :
    (S.stateOf r).any expected = true := h (r, target, expected) hw hr

/-- **A thread establishes what it requires next.** -/
theorem act_holds {S : OperatorProposalStore} (hholds : Holds S p) (hexp : Expected S p) :
    Holds (D.act S a p).1 (D.act S a p).2.2 := by
  -- an append keeps the state that is required before and after it
  have happend : ∀ {r : PyStr} {next fault : Point},
      (next.requires = none ∨ next.requires = p.requires) → fault.requires = none →
      Holds (ProposalDaemon.append S r a next fault).1
        (ProposalDaemon.append S r a next fault).2.2 := by
    intro r next fault hnext hfault r' st hr'
    rw [stateOf_markAudited_append]
    rcases next_append S r a next fault with h | h
    · rw [h] at hr'
      rcases hnext with hnext | hnext
      · rw [hnext] at hr'
        exact nomatch hr'
      · exact hholds r' st (hnext ▸ hr')
    · rw [h, hfault] at hr'
      exact nomatch hr'
  have htransition : ∀ {r : PyStr} {t : ProposalState} {expected : ProposalState → Bool}
      {next gone : Point}, p.write = some (r, t, expected) →
      (next.requires = none ∨ next.requires = some (r, t)) → gone.requires = none →
      Holds (ProposalDaemon.transition S r t a next gone).1
        (ProposalDaemon.transition S r t a next gone).2.2 := by
    intro r t expected next gone hwrite hnext hgone r' st hr'
    rcases next_transition t a next gone (hexp.of_write hwrite) with ⟨-, h, hstate⟩ | ⟨-, h⟩
    · rw [h] at hr'
      rcases hnext with hnext | hnext <;> rw [hnext] at hr'
      · exact nomatch hr'
      · simp only [Option.some.injEq, Prod.mk.injEq] at hr'
        exact hr'.1 ▸ hr'.2 ▸ hstate
    · rw [h, hgone] at hr'
      exact nomatch hr'
  have haudit : ∀ {r : PyStr} {next : Point}, next.requires = none →
      Holds (ProposalDaemon.audit S r a next).1 (ProposalDaemon.audit S r a next).2.2 := by
    intro r next hnext r' st hr'
    rcases next_audit S r a next with h | h
    · rw [h, hnext] at hr'
      exact nomatch hr'
    · rw [h] at hr'
      exact nomatch hr'
  have hnone : ∀ {S' : OperatorProposalStore} {q : Point}, q.requires = none → Holds S' q := by
    intro S' q hq r st hr
    rw [hq] at hr
    exact nomatch hr
  cases p with
  | createAppend | syncAppend | presentAppend | refuseAppend | submittedAppend | acceptFinalize
  | rollbackAppend => exact happend (.inl rfl) rfl
  | cancelAppend | declineAppend | acceptAppend | permitAppend => exact happend (.inr rfl) rfl
  | createInvalidate | syncWrite | presentWrite | refuseWrite | submittedWrite | rollbackWrite =>
    exact htransition rfl (.inl rfl) rfl
  | cancelWrite | declineWrite | acceptWrite | permitWrite => exact htransition rfl (.inr rfl) rfl
  | getAudit | challengeAudit | cancelAudit => exact haudit rfl
  | acceptArm r =>
    intro r' st hr'
    simp only [ProposalDaemon.act, ProposalDaemon.ask] at hr' ⊢
    split at hr'
    · exact hholds r' st hr'
    · exact nomatch hr'
  | acceptIssue r | acceptSubmit r =>
    intro r' st hr'
    simp only [ProposalDaemon.act] at hr' ⊢
    split at hr'
    · exact hholds r' st hr'
    · exact nomatch hr'
  | listAudit all pending =>
    cases all with
    | nil => exact hnone rfl
    | cons r rs => exact haudit rfl
  | present rs =>
    cases rs with
    | nil => exact hnone rfl
    | cons r rs =>
      refine hnone ?_
      simp only [ProposalDaemon.act]
      split <;> rfl
  | idle | cancelClose | cancelLock | rollback | status | listAll => exact hnone rfl
  | create action peer ttl =>
    refine hnone ?_
    simp only [ProposalDaemon.act]
    split <;> rfl
  | _ =>
    refine hnone ?_
    simp only [ProposalDaemon.act, ProposalDaemon.ask]
    repeat' split
    all_goals rfl

theorem act_effects {S : OperatorProposalStore} (hholds : Holds S p) : (D.act S a p).2.1 = [] ∨
    (∃ r, (D.act S a p).2.1 = [.permitIssued r] ∧ S.stateOf r = some .accepted) ∨
    (∃ r, (D.act S a p).2.1 = [.submitted r] ∧ p = .acceptSubmit r ∧
      S.stateOf r = some .permitIssued ∧ (D.act S a p).1 = S ∧
      (D.act S a p).2.2.inFlight r = true) ∨
    ∃ r, (D.act S a p).2.1 = [.acknowledged r] ∧ (D.act S a p).1.stateOf r = S.stateOf r ∧
      (S.stateOf r = some .declined ∨ S.stateOf r = some .cancelled) := by
  have happend : ∀ (r : PyStr) (next fault : Point),
      (ProposalDaemon.append S r a next fault).2.1 = [] := fun r next fault => by
    unfold ProposalDaemon.append
    split <;> rfl
  have haudit : ∀ (r : PyStr) (next : Point), (ProposalDaemon.audit S r a next).2.1 = [] :=
    fun r next => by
      unfold ProposalDaemon.audit
      split
      · exact happend ..
      · rfl
  cases p with
  | acceptIssue r =>
    exact .inr (.inl ⟨r, rfl, hholds r .accepted rfl⟩)
  | acceptSubmit r =>
    refine .inr (.inr (.inl ⟨r, rfl, rfl, hholds r .permitIssued rfl, rfl, ?_⟩))
    simp only [ProposalDaemon.act]
    split <;> simp [Point.inFlight]
  | cancelClose r =>
    exact .inr (.inr (.inr ⟨r, rfl, rfl, .inr (hholds r .cancelled rfl)⟩))
  | cancelReadCancelled r =>
    simp only [ProposalDaemon.act]
    split
    · next h => exact .inr (.inr (.inr ⟨r, rfl, rfl, .inr h⟩))
    · exact .inl rfl
  | decideReadDeclined r d =>
    simp only [ProposalDaemon.act]
    split
    · next h =>
      split
      · exact .inr (.inr (.inr ⟨r, rfl, rfl, .inl h⟩))
      · exact .inl rfl
    · exact .inl rfl
  | declineFinalize r =>
    simp only [ProposalDaemon.act]
    split
    · exact .inr (.inr (.inr ⟨r, rfl, by simp, .inl (hholds r .declined rfl)⟩))
    · exact .inl rfl
  | createAppend | syncAppend | presentAppend | cancelAppend | refuseAppend | declineAppend
  | acceptAppend | permitAppend | submittedAppend | acceptFinalize | rollbackAppend =>
    exact .inl (happend ..)
  | getAudit | challengeAudit | cancelAudit => exact .inl (haudit ..)
  | listAudit all pending =>
    cases all with
    | nil => exact .inl rfl
    | cons r rs => exact .inl (haudit ..)
  | present rs => cases rs <;> exact .inl rfl
  | challenge | list | decideProof =>
    left
    simp only [ProposalDaemon.act]
    repeat' split
    all_goals rfl
  | _ => exact .inl rfl

theorem act_inFlight {S : OperatorProposalStore} {r : PyStr} (hexp : Expected S p)
    (hr : r ∈ S.proposals) (h : p.inFlight r = true) :
    (D.act S a p).2.2.inFlight r = true ∨ (D.act S a p).1.stateOf r = some .submitted ∨
      (D.act S a p).1.stateOf r = some .invalidated := by
  cases p <;> simp only [Point.inFlight, decide_eq_true_eq, Bool.false_eq_true] at h
  · subst h
    rcases next_transition .submitted a (.submittedAppend _) (.rollback _)
      (hexp.of_write rfl) with ⟨-, -, hst⟩ | ⟨hn, -⟩
    · exact .inr (.inl hst)
    · exact absurd hr hn
  · left
    simp [ProposalDaemon.act, Point.inFlight, h]
  · subst h
    rcases next_transition .invalidated a (.rollbackAppend _) .idle
      (hexp.of_write rfl) with ⟨-, -, hst⟩ | ⟨hn, -⟩
    · exact .inr (.inr hst)
    · exact absurd hr hn

/-! ### Runs -/

namespace ProposalSystem

/-- What every state of an undisturbed run satisfies. -/
structure Inv (s : ProposalSystem) : Prop where
  locked : ∀ i, (s.points i).isLocked = true → s.lock = some i
  stored : ∀ r st, s.store.stateOf r = some st → st.isTerminal = false → r ∈ s.store.proposals
  holds : ∀ i, Holds s.store (s.points i)
  acknowledged : ∀ r, .acknowledged r ∈ s.effects →
    s.store.stateOf r = some .declined ∨ s.store.stateOf r = some .cancelled
  submitted : ∀ r, .submitted r ∈ s.effects → ∃ st, s.store.stateOf r = some st ∧
    st.isPending = false ∧ st ≠ .accepted ∧
    (st = .permitIssued → ∃ i, (s.points i).inFlight r = true)
  once : ∀ r, s.effects.count (.submitted r) ≤ 1
  silent : ∀ xs ys r, s.effects = xs ++ .acknowledged r :: ys →
    .permitIssued r ∉ ys ∧ .submitted r ∉ ys

variable {D : ProposalDaemon} {S S' : OperatorProposalStore} {p q : Point} {s s' : ProposalSystem}

theorem inv_initial (h : Initial s) : s.Inv := by
  obtain ⟨hheap, hprops, hpoints, hlock, heff⟩ := h
  have hstate : ∀ r, s.store.stateOf r = none := fun r => by
    simp [OperatorProposalStore.stateOf, hheap]
  refine ⟨fun i hi => ?_, fun r st h => ?_, fun i r st h => ?_, ?_, ?_, ?_, ?_⟩
  · simp [hpoints, Point.isLocked] at hi
  · simp [hstate] at h
  · simp [hpoints, Point.requires] at h
  all_goals simp [heff]

/-- **A decided proposal in an undisturbed step**: a final state stays, and no
decided state becomes pending again. -/
theorem decided_of_moves (hm : Moves S S' p.write) (hexp : Expected S p) {r : PyStr}
    {st : ProposalState} (hst : S.stateOf r = some st) (hp : st.isPending = false) :
    S'.stateOf r = some st ∨ (st.isTerminal = false ∧ ∃ t, S'.stateOf r = some t ∧
      t.isPending = false ∧ t ≠ .accepted ∧ (t = .permitIssued → st = .accepted) ∧
      ((st = .accepted ∨ st = .permitIssued) → p.isLocked = true)) := by
  rcases hm.state r with h | ⟨h, -⟩ | ⟨h, -⟩ | ⟨t, expected, hwrite, hr, h⟩
  · exact .inl (h.trans hst)
  · simp [hst, hp] at h
  · simp [hst] at h
  · have hexpected : expected st = true := by simpa [hst] using hexp.of_write hwrite hr
    refine .inr ⟨Point.not_terminal_of_write hwrite hexpected, t, by rw [h, hst]; rfl, ?_⟩
    exact Point.write_of_decided hwrite hexpected hp

/-- A state that a waiting thread relies on is still there after a step of another
thread. -/
theorem holds_of_moves (hm : Moves S S' p.write) (hexp : Expected S p) (hq : Holds S q)
    (hlock : p.isLocked = true → q.isLocked = false) : Holds S' q := by
  intro r st hr
  obtain ⟨hpending, hkind⟩ := Point.requires_decided hr
  rcases decided_of_moves hm hexp (hq r st hr) hpending with h | ⟨hterm, -, -, -, -, -, hp⟩
  · exact h
  · rcases hkind with hkind | hkind
    · rw [hkind] at hterm
      exact nomatch hterm
    · have := hlock (hp hkind)
      rw [Point.isLocked_of_requires hr] at this
      exact nomatch this

theorem inv_run {i : Nat} {a : ProposalAnswer} (hi : s.Inv) (hexp : Expected s.store (s.points i))
    (hs : step D s (.run i a) = some s') : s'.Inv := by
  simp only [step] at hs
  split at hs
  · contradiction
  split at hs
  · contradiction
  next hfresh =>
  split at hs
  · contradiction
  next hwait =>
  rw [Option.some_inj] at hs
  have hfresh' : (s.points i).isCreate = true → s.store.heap.get? a.creation.requestId = none := by
    intro hc
    simpa [hc, Dict.contains] using hfresh
  have hm := act_moves D s.store a (s.points i) hfresh'
  have hown := act_holds D a (hi.holds i) hexp
  have heff := act_effects D a (hi.holds i)
  have hflight := fun r => act_inFlight (r := r) D a hexp
  generalize hout : D.act s.store a (s.points i) = out at hs hm hown heff hflight hwait
  obtain ⟨S, es, q⟩ := out
  dsimp only at hs hm hown heff hflight hwait
  have hpoint : ∀ j, s'.points j = if j = i then q else s.points j := by
    intro j
    rw [← hs]
    by_cases hj : j = i
    · simp [hj]
    · simp [hj, Function.update_of_ne]
  have hstore : s'.store = S := by rw [← hs]
  have heffects : s'.effects = s.effects ++ es := by rw [← hs]
  -- the lock has at most one holder
  have hlocked : ∀ j, (s'.points j).isLocked = true → s'.lock = some j := by
    intro j hj
    rw [hpoint] at hj
    rw [← hs]
    by_cases hji : j = i
    · subst hji
      rw [if_pos rfl] at hj
      simp [hj]
    · rw [if_neg hji] at hj
      have hlock := hi.locked j hj
      have hq : q.isLocked = false := by
        simpa [hlock, hji] using hwait
      simp [hq, hlock, hji]
  have hholds : ∀ j, Holds s'.store (s'.points j) := by
    intro j
    rw [hpoint, hstore]
    split
    · exact hown
    · next hji =>
      refine holds_of_moves hm hexp (hi.holds j) fun hp => ?_
      rw [← Bool.not_eq_true]
      intro hj
      have h₁ := hi.locked i hp
      rw [hi.locked j hj] at h₁
      exact hji (Option.some_inj.mp h₁)
  have hacknowledged : ∀ r, .acknowledged r ∈ s'.effects →
      s'.store.stateOf r = some .declined ∨ s'.store.stateOf r = some .cancelled := by
    intro r hr
    rw [heffects, mem_append] at hr
    rw [hstore]
    rcases hr with hr | hr
    · rcases hi.acknowledged r hr with h | h
      · rcases decided_of_moves hm hexp h rfl with h' | ⟨h', -⟩
        · exact .inl h'
        · contradiction
      · rcases decided_of_moves hm hexp h rfl with h' | ⟨h', -⟩
        · exact .inr h'
        · contradiction
    · rcases heff with h | ⟨_, h, -⟩ | ⟨_, h, -⟩ | ⟨r', h, hsame, hst⟩
      · simp [h] at hr
      · simp [h] at hr
      · simp [h] at hr
      · rw [h, mem_singleton, ProposalEffect.acknowledged.injEq] at hr
        subst hr
        rwa [hsame]
  refine ⟨hlocked, ?_, hholds, hacknowledged, ?_, ?_, ?_⟩
  · intro r st hst hterm
    rw [hstore] at hst ⊢
    rcases hm.state r with h | ⟨-, h⟩ | ⟨-, -, h⟩ | ⟨t, expected, hwrite, hr, h⟩
    · rw [h] at hst
      rcases hm.stored r (hi.stored r st hst hterm) with h' | h'
      · exact h'
      · simp [hst, hterm] at h'
    · rw [h, Option.some_inj] at hst
      simp [← hst, ProposalState.isTerminal] at hterm
    · exact h
    · rcases hm.stored r hr with h' | h'
      · exact h'
      · cases hold : s.store.stateOf r with
        | none => simp [hold] at h'
        | some old =>
          have hexpected := hexp.of_write hwrite hr
          rw [hold, Option.any_some] at h' hexpected
          have := Point.not_terminal_of_write hwrite hexpected
          rw [h'] at this
          contradiction
  · intro r hr
    rw [heffects, mem_append] at hr
    rw [hstore]
    rcases hr with hr | hr
    · obtain ⟨st, hst, hpending, hacc, hissued⟩ := hi.submitted r hr
      rcases decided_of_moves hm hexp hst hpending with h | ⟨-, t, ht, htp, hta, hti, -⟩
      · refine ⟨st, h, hpending, hacc, fun heq => ?_⟩
        obtain ⟨j, hj⟩ := hissued heq
        by_cases hji : j = i
        · subst hji
          have hmem := hi.stored r st hst (by rw [heq]; rfl)
          rcases hflight r hmem hj with h' | h' | h'
          · exact ⟨j, by rw [hpoint, if_pos rfl]; exact h'⟩
          · rw [h, heq] at h'
            contradiction
          · rw [h, heq] at h'
            contradiction
        · exact ⟨j, by rw [hpoint, if_neg hji]; exact hj⟩
      · exact ⟨t, ht, htp, hta, fun heq => absurd (hti heq) hacc⟩
    · rcases heff with h | ⟨_, h, -⟩ | ⟨r', h, -, hst, hsame, hfl⟩ | ⟨_, h, -⟩
      · simp [h] at hr
      · simp [h] at hr
      · rw [h, mem_singleton, ProposalEffect.submitted.injEq] at hr
        subst hr
        refine ⟨.permitIssued, by rw [hsame]; exact hst, rfl, by simp, fun _ => ⟨i, ?_⟩⟩
        rw [hpoint, if_pos rfl]
        exact hfl
      · simp [h] at hr
  · intro r
    rw [heffects, count_append]
    rcases heff with h | ⟨_, h, -⟩ | ⟨r', h, hp, hst, -⟩ | ⟨_, h, -⟩
    · simpa [h] using hi.once r
    · simpa [h] using hi.once r
    · by_cases hr : r' = r
      · subst hr
        -- while the permit is issued, only a thread in flight has requested the action
        have hnone : ProposalEffect.submitted r' ∉ s.effects := by
          intro hmem
          obtain ⟨st, hst', -, -, hissued⟩ := hi.submitted r' hmem
          rw [hst, Option.some_inj] at hst'
          obtain ⟨j, hj⟩ := hissued hst'.symm
          have hji : j = i := by
            have h₁ := hi.locked j (Point.isLocked_of_inFlight hj)
            have h₂ := hi.locked i (by rw [hp]; rfl)
            rw [h₁] at h₂
            exact Option.some_inj.mp h₂
          subst hji
          rw [hp] at hj
          contradiction
        simp [h, count_eq_zero.mpr hnone]
      · simpa [h, hr] using hi.once r
    · simpa [h] using hi.once r
  · intro xs ys r hsplit
    rw [heffects] at hsplit
    -- a new permit or request is not for an acknowledged proposal
    have hnew : .acknowledged r ∈ s.effects →
        ProposalEffect.permitIssued r ∉ es ∧ ProposalEffect.submitted r ∉ es := by
      intro hmem
      have hst := hi.acknowledged r hmem
      rcases heff with h | ⟨r', h, hst'⟩ | ⟨r', h, -, hst', -⟩ | ⟨r', h, -⟩
      · simp [h]
      · rw [h]
        refine ⟨fun hr => ?_, by simp⟩
        rw [mem_singleton, ProposalEffect.permitIssued.injEq] at hr
        subst hr
        simp [hst'] at hst
      · rw [h]
        refine ⟨by simp, fun hr => ?_⟩
        rw [mem_singleton, ProposalEffect.submitted.injEq] at hr
        subst hr
        simp [hst'] at hst
      · simp [h]
    rcases append_eq_append_iff.mp hsplit with ⟨zs, hzs, hes⟩ | ⟨zs, hzs, hys⟩
    · -- the acknowledgement is new, and an effect list has one element
      have hys : ys = [] := by
        rcases heff with h | ⟨r', h, -⟩ | ⟨r', h, -⟩ | ⟨r', h, -⟩ <;> rw [h] at hes
        · simp at hes
        all_goals
          cases zs with
          | nil =>
            simp only [nil_append, List.cons.injEq] at hes
            exact hes.2.symm
          | cons z zs => simp at hes
      simp [hys]
    · cases zs with
      | nil =>
        rw [nil_append] at hys
        have hys' : ys = [] := by
          rcases heff with h | ⟨r', h, -⟩ | ⟨r', h, -⟩ | ⟨r', h, -⟩ <;> rw [h] at hys
          · simp at hys
          all_goals
            simp only [List.cons.injEq] at hys
            exact hys.2
        simp [hys']
      | cons z zs =>
        rw [cons_append, List.cons.injEq] at hys
        obtain ⟨rfl, rfl⟩ := hys
        have hold := hi.silent xs zs r hzs
        have hmem : .acknowledged r ∈ s.effects := by
          rw [hzs]
          simp
        have hes := hnew hmem
        simp only [mem_append, not_or]
        exact ⟨⟨hold.1, hes.1⟩, ⟨hold.2, hes.2⟩⟩

theorem inv_step {l : ProposalLabel} (hi : s.Inv) (hu : Undisturbed s l)
    (hs : step D s l = some s') : s'.Inv := by
  cases l with
  | run i a => exact inv_run hi hu hs
  | call i entry =>
    simp only [step] at hs
    split at hs
    swap
    · exact nomatch hs
    next hentry =>
    rw [Bool.and_eq_true] at hentry
    rw [Option.some_inj] at hs
    subst hs
    have hidle : s.points i = .idle := by
      have := hentry.1
      cases hp : s.points i <;> simp_all [Point.isIdle]
    have hentry' : entry.isLocked = false ∧ entry.requires = none := by
      have := hentry.2
      cases entry <;> simp_all [Point.isEntry, Point.isLocked, Point.requires]
    refine ⟨fun j hj => ?_, hi.stored, fun j => ?_, hi.acknowledged, fun r hr => ?_, hi.once,
      hi.silent⟩
    · by_cases hji : j = i
      · subst hji
        simp [hentry'.1] at hj
      · dsimp only at hj
        rw [Function.update_of_ne hji] at hj
        exact hi.locked j hj
    · by_cases hji : j = i
      · subst hji
        intro r st hr
        simp [hentry'.2] at hr
      · dsimp only
        rw [Function.update_of_ne hji]
        exact hi.holds j
    · obtain ⟨st, hst, hp, ha, hissued⟩ := hi.submitted r hr
      refine ⟨st, hst, hp, ha, fun heq => ?_⟩
      obtain ⟨j, hj⟩ := hissued heq
      have hji : j ≠ i := by
        rintro rfl
        simp [hidle, Point.inFlight] at hj
      exact ⟨j, by dsimp only; rw [Function.update_of_ne hji]; exact hj⟩

end ProposalSystem

/-- **The laws of proposals**, in every run in which each thread that writes the
state of a proposal finds it as it has read or written it last.  A final state is
never left and a submitted proposal never becomes pending; after an acknowledged
decline or cancel no permit is issued and no action requested; and the action of a
proposal is requested at most once. -/
theorem proposal_laws (D : ProposalDaemon) {s : ProposalSystem}
    (h : (proposalMachine D).ReachableUnder Undisturbed s) :
    (∀ l s', Undisturbed s l → (proposalMachine D).step s l = some s' →
      ∀ r st, s.store.stateOf r = some st →
        (st.isTerminal = true → s'.store.stateOf r = some st) ∧
        (st = .submitted → ¬ (s'.store.stateOf r).any ProposalState.isPending)) ∧
    (∀ xs ys r, s.effects = xs ++ .acknowledged r :: ys →
      .permitIssued r ∉ ys ∧ .submitted r ∉ ys) ∧
    ∀ r, s.effects.count (.submitted r) ≤ 1 := by
  have hinv : s.Inv := h.invariant (fun _ => ProposalSystem.inv_initial)
    fun _ _ _ => ProposalSystem.inv_step
  refine ⟨?_, hinv.silent, hinv.once⟩
  intro l s' hu hs r st hst
  cases l with
  | call i entry =>
    simp only [proposalMachine, ProposalSystem.step] at hs
    split at hs
    · rw [Option.some_inj] at hs
      subst hs
      exact ⟨fun _ => hst, fun heq => by simp [hst, heq, ProposalState.isPending]⟩
    · contradiction
  | run i a =>
    simp only [proposalMachine, ProposalSystem.step] at hs
    split at hs
    · contradiction
    split at hs
    · contradiction
    next hfresh =>
    split at hs
    · contradiction
    rw [Option.some_inj] at hs
    have hm := act_moves D s.store a (s.points i) fun hc => by
      simpa [hc, Dict.contains] using hfresh
    subst hs
    dsimp only
    constructor
    · intro hterm
      have hp : st.isPending = false := by
        cases st <;> simp_all [ProposalState.isTerminal, ProposalState.isPending]
      rcases ProposalSystem.decided_of_moves hm hu hst hp with h | ⟨h, -⟩
      · exact h
      · rw [hterm] at h
        contradiction
    · rintro rfl
      rcases ProposalSystem.decided_of_moves hm hu hst rfl with h | ⟨-, t, ht, htp, -⟩
      · simp [h, ProposalState.isPending]
      · simp [ht, htp]

/-! ### One proposal, with and without a stale reader -/

namespace ProposalSystem

def sampleDaemon : ProposalDaemon := ⟨.zero, 7, "d"⟩

def sampleStart : ProposalSystem := ⟨⟨4, ∅, [], ∅⟩, fun _ => .idle, none, []⟩

/-- Thread 0 creates the proposal `r`. -/
def createRun : List ProposalLabel :=
  [.call 0 (.create (.sample "a1" ActionEnvelope.isBlank_a1 .real .none .second)
      ⟨1, 7, 7⟩ (.int 5)),
    .run 0 { creation := ⟨default, "r", "n", true, true⟩ }, .run 0 {}, .run 0 {}, .run 0 {}]

/-- Thread 1 lists the pending proposals, up to the point where it has read that
`r` is `CREATED`. -/
def listRun : List ProposalLabel :=
  .call 1 (.list ⟨1, 7, 7⟩) :: List.replicate 5 (.run 1 {})

/-- Thread `i` decides, in `n` steps. -/
def decideRun (i : Nat) (d : OperatorDecision) (n : Nat) : List ProposalLabel :=
  .call i (.decideLock "r" d) :: List.replicate n (.run i {})

end ProposalSystem

open ProposalSystem in
/-- An acceptance that nobody disturbs. -/
theorem proposal_laws_accepted :
    ∃ s, (proposalMachine sampleDaemon).runUnder Undisturbed sampleStart
        (createRun ++ decideRun 2 .accept 17) = some s ∧
      s.effects = [.permitIssued "r", .submitted "r"] ∧
      ∀ r, s.effects.count (.submitted r) ≤ 1 := by
  have hrun : ((proposalMachine sampleDaemon).runUnder Undisturbed sampleStart
      (createRun ++ decideRun 2 .accept 17)).map (·.effects)
        = some [.permitIssued "r", .submitted "r"] := by
    decide +kernel
  obtain ⟨s, hs, heffects⟩ := Option.map_eq_some_iff.mp hrun
  have hreach : (proposalMachine sampleDaemon).ReachableUnder Undisturbed s :=
    Machine.ReachableUnder.of_runUnder ⟨rfl, rfl, fun _ => rfl, rfl, rfl⟩ hs
  exact ⟨s, hs, heffects, (proposal_laws sampleDaemon hreach).2.2⟩

open ProposalSystem in
/-- **A declined proposal is submitted.**  Thread 1 has read that the proposal is
`CREATED`; thread 2 declines it, which is acknowledged; thread 1 then marks it
`PRESENTED`, and thread 3 can accept it. -/
theorem proposal_laws_fail :
    ∃ s₁ s₂ s₃, (proposalMachine sampleDaemon).run sampleStart
        (createRun ++ listRun ++ decideRun 2 .decline 9) = some s₁ ∧
      (proposalMachine sampleDaemon).step s₁ (.run 1 {}) = some s₂ ∧
      (proposalMachine sampleDaemon).run s₂ (decideRun 3 .accept 17) = some s₃ ∧
      s₁.store.stateOf "r" = some .declined ∧ s₁.effects = [.acknowledged "r"] ∧
      s₂.store.stateOf "r" = some .presented ∧
      s₃.effects = [.acknowledged "r", .permitIssued "r", .submitted "r"] := by
  have hrun : (((proposalMachine sampleDaemon).run sampleStart
      (createRun ++ listRun ++ decideRun 2 .decline 9)).bind fun s₁ =>
        ((proposalMachine sampleDaemon).step s₁ (.run 1 {})).bind fun s₂ =>
          ((proposalMachine sampleDaemon).run s₂ (decideRun 3 .accept 17)).map fun s₃ =>
            (s₁.store.stateOf "r", s₁.effects, s₂.store.stateOf "r", s₃.effects))
      = some (some .declined, [.acknowledged "r"], some .presented,
          [.acknowledged "r", .permitIssued "r", .submitted "r"]) := by
    decide +kernel
  obtain ⟨s₁, h₁, hrun⟩ := Option.bind_eq_some_iff.mp hrun
  obtain ⟨s₂, h₂, hrun⟩ := Option.bind_eq_some_iff.mp hrun
  obtain ⟨s₃, h₃, hrun⟩ := Option.map_eq_some_iff.mp hrun
  simp only [Prod.mk.injEq] at hrun
  exact ⟨s₁, s₂, s₃, h₁, h₂, h₃, hrun⟩

end Rosclaw
