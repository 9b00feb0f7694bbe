/-
The creation of an operator proposal (`daemon/service.py`), as one call.

The call adds the proposal to the store, then opens the session, then writes to the ledger.  The
clocks, the fresh texts and whether the ledger takes an event are answered from outside.

* `Adds` — the store takes a new proposal;  `Spoils` — it has one that no event was written for,
  and the session is opened;
* `creation_laws` — **a call that raises is harmless if and only if neither happens**;
* `left_pending` — a call that is refused by the sessions, and leaves its proposal pending.
-/
import Rosclaw.Operator.Store
import Rosclaw.Daemon.SessionManager
import Rosclaw.Lib.Double
import Mathlib.Data.Fintype.EquivFin

namespace Rosclaw

open List Option

def ProposalState.value : ProposalState → String
  | created => "CREATED"
  | presented => "PRESENTED"
  | accepted => "ACCEPTED"
  | permitIssued => "PERMIT_ISSUED"
  | submitted => "SUBMITTED"
  | terminal => "TERMINAL"
  | declined => "DECLINED"
  | cancelled => "CANCELLED"
  | expired => "EXPIRED"
  | invalidated => "INVALIDATED"

namespace ProposalCreation

open OperatorProposalStore

/-- The arguments of `create_operator_proposal`; of the display and the client reference, whether
they are acceptable. -/
structure Request where
  action : ActionEnvelope
  displayOk : Bool
  ttl : PyVal
  peer : PeerCredentials
  referenceOk : Bool

structure Outside where
  now : DateTime
  requestId : PyStr
  nonce : PyStr
  sessionNow : DateTime
  monotonic : Nat
  /-- the ledger takes `SESSION_CREATED` -/
  sessionStored : Bool
  /-- the ledger takes `OPERATOR_PROPOSAL_CREATED` -/
  proposalStored : Bool
  invalidatedAt : DateTime

inductive Event
  | sessionCreated (session : AgentSession)
  | proposalCreated (requestId : PyStr) (proposal : OperatorProposal)

/-- The part of the control plane that a creation reads and changes. -/
structure Plane where
  running : Bool
  ledger : Option (List Event)
  ledgerWriteFailed : Bool
  proposals : OperatorProposalStore
  sessions : SessionManager

structure Reply where
  requestId : PyStr
  proposal : OperatorProposal
  decision : String
  commandDispatched : Bool
  permitInjected : Option Bool

/-- `_operator_submission_result`, less the status of the action. -/
def submissionResult (r : PyStr) (p : OperatorProposal) : Reply where
  requestId := r
  proposal := p
  decision := p.state.value
  commandDispatched := p.state = .submitted || p.state = .terminal
  permitInjected := some (p.state = .permitIssued || p.state = .submitted || p.state = .terminal)

def pendingReply (r : PyStr) (p : OperatorProposal) : Reply where
  requestId := r
  proposal := p
  decision := "APPROVAL_PENDING"
  commandDispatched := false
  permitInjected := none

/-- `int(float(ttl_sec) * 1000)`. -/
def ttlMillis : PyVal → Int
  | .int n => n * 1000
  | .float (.finite q) => match Double.ofRat (q < 0) |q * 1000| with
    | .nonzero neg x => (if neg then -1 else 1) * x.value.floor
    | _ => 0
  | _ => 0

def sessionTtlMillis (q : Request) : Int :=
  min 3600000 (max 60000 (max (ttlMillis q.ttl + 10000) q.action.leaseTtlMs))

def sessionRequest (p : OperatorProposal) (q : Request) : SessionRequest where
  sessionId := p.action.sessionId
  actorId := p.action.actorId
  agentFramework := p.action.agentFramework
  bodyScope := [p.action.bodyId]
  capabilityScope := [p.action.capabilityId]
  ttlMs := sessionTtlMillis q

def Plane.append (P : Plane) (stored : Bool) (e : Event) : Plane :=
  if stored then { P with ledger := P.ledger.map (· ++ [e]) }
  else { P with ledgerWriteFailed := true }

def creation (q : Request) (o : Outside) : Creation where
  now := o.now
  requestId := o.requestId
  nonce := o.nonce
  displayOk := q.displayOk
  referenceOk := q.referenceOk

def unavailable : OperatorProposal.Decision where
  failureCode := some "LEDGER_UNAVAILABLE"
  failureMessage := some "Proposal creation could not be recorded durably"

/-- What follows the session: both events, and the end of the proposal if the second fails. -/
def record (P : Plane) (session : AgentSession) (r : PyStr) (p : OperatorProposal) (o : Outside) :
    Plane × Except String Reply :=
  let P := P.append o.sessionStored (.sessionCreated session)
  let P := P.append o.proposalStored (.proposalCreated r p)
  if o.proposalStored then
    ({ P with proposals := P.proposals.modify r OperatorProposal.markAudited },
      .ok (pendingReply r p.markAudited))
  else
    let moved := P.proposals.transition r .invalidated o.invalidatedAt unavailable
    ({ P with proposals := moved.1 },
      .error (if moved.2 then "LEDGER_UNAVAILABLE" else "PROPOSAL_NOT_FOUND"))

def openSession (P : Plane) (r : PyStr) (p : OperatorProposal) (q : Request) (o : Outside) :
    Plane × Except String Reply :=
  let opened := P.sessions.createSession (sessionRequest p q) q.peer o.sessionNow o.monotonic
  match opened.2 with
  | .error code => ({ P with sessions := opened.1 }, .error code)
  | .ok session => record { P with sessions := opened.1 } session r p o

def proceed (P : Plane) (r : PyStr) (q : Request) (o : Outside) : Plane × Except String Reply :=
  match P.proposals.heap.get? r with
  | none => (P, .error "KeyError")
  | some p =>
    if p.auditedTransitionCount ≠ 0 then (P, .ok (submissionResult r p)) else openSession P r p q o

def resume (P : Plane) (stored : OperatorProposalStore × Except String PyStr) (q : Request)
    (o : Outside) : Plane × Except String Reply :=
  match stored.2 with
  | .error code => ({ P with proposals := stored.1 }, .error code)
  | .ok r => proceed { P with proposals := stored.1 } r q o

def createOperatorProposal (py : Builtins) (instanceId : PyStr) (P : Plane) (q : Request)
    (o : Outside) : Plane × Except String Reply :=
  if P.running = false then (P, .error "DAEMON_STOPPING")
  else if P.ledger.isNone then (P, .error "PROPOSAL_LEDGER_REQUIRED")
  else resume P (P.proposals.create py q.action q.peer instanceId q.ttl (creation q o)) q o

/-! ### What a failure may leave behind -/

def Tells (outcome : Except String Reply) : Prop :=
  ∃ reply, outcome = .ok reply ∧ reply.proposal.state = .invalidated

/-- What a failed call must leave behind: its proposals are not pending, the pending ones are the
same at any time, and a later creation for the action goes as it would have gone, or tells of an
invalidated proposal. -/
structure Harmless (py : Builtins) (instanceId : PyStr) (P P' : Plane) (q : Request) : Prop where
  created : ∀ r, P.proposals.heap.get? r = none →
    (P'.proposals.stateOf r).any ProposalState.isPending = false
  pending : ∀ t, (P'.proposals.pending t).2 = (P.proposals.pending t).2
  later : ∀ q' o', q'.action.actionId = q.action.actionId →
    P'.proposals.heap.get? o'.requestId = none →
    (createOperatorProposal py instanceId P' q' o').2 =
        (createOperatorProposal py instanceId P q' o').2 ∨
      Tells (createOperatorProposal py instanceId P' q' o').2

structure Passes (q : Request) (now expiresAt : DateTime) : Prop where
  mode : q.action.executionMode = .real ∨ q.action.executionMode = .shadow
  snapshot : q.action.bodySnapshotHash.isBlank = false
  display : q.displayOk = true
  deadline : now.instant < q.action.deadlineAt.instant
  expiry : ∃ ttl, ttlMicros q.ttl = .ok ttl ∧ expiryOf now ttl q.action.deadlineAt = .ok expiresAt

def room (S : OperatorProposalStore) : OperatorProposalStore :=
  if S.capacity ≤ S.proposals.length then S.evictTerminal S.proposals else S

def Plane.Open (P : Plane) : Prop := P.running = true ∧ P.ledger.isSome = true

structure Adds (py : Builtins) (P : Plane) (q : Request) (now : DateTime) : Prop where
  «open» : P.Open
  passes : ∃ expiresAt, Passes q now expiresAt
  unbound : P.proposals.actionRequests.get? q.action.actionId = none
  space : (room P.proposals).proposals.length < P.proposals.capacity
  hash : (actionIntentHash py q.action.withoutAuthorization).isSome = true
  reference : q.referenceOk = true

structure Opens (m : SessionManager) (s : SessionRequest) (peer : PeerCredentials)
    (now : DateTime) : Prop where
  valid : SessionManager.validRequest s = true
  existing : ∀ e, m.get? s.sessionId = some e →
    e.state = .active ∧ e.sameContract (SessionManager.newSession s peer now now 0) = true
  new : m.get? s.sessionId = none → (now.addMillis s.ttlMs.toNat).isSome = true

/-- The store has a proposal of the action that no event was written for, and its session is
opened; either the proposal is pending or the session is new. -/
structure Spoils (py : Builtins) (P : Plane) (q : Request) (now sessionNow : DateTime) (r : PyStr)
    (p : OperatorProposal) : Prop where
  «open» : P.Open
  passes : ∃ expiresAt, Passes q now expiresAt
  bound : P.proposals.actionRequests.get? q.action.actionId = some r
  found : P.proposals.heap.get? r = some p
  same : actionIntentHash py q.action.withoutAuthorization = some p.actionIntentHash
  unaudited : p.auditedTransitionCount = 0
  opens : Opens P.sessions (sessionRequest p q) q.peer sessionNow
  spoilt : (∃ t, r ∈ (P.proposals.pending t).2) ∨ P.sessions.get? p.action.sessionId = none

/-! ### Making room -/

variable {a instanceId : PyStr} {rs : List PyStr} (S : OperatorProposalStore) (t : DateTime)

theorem proposals_evictTerminal_subset {S : OperatorProposalStore} :
    (S.evictTerminal rs).proposals ⊆ S.proposals := by
  induction rs generalizing S with
  | nil => exact List.Subset.refl _
  | cons r rs ih =>
    rw [evictTerminal]
    split
    · split
      · have hfilter : S.proposals.filter (· ≠ r) ⊆ S.proposals := filter_subset_self _
        dsimp only
        split
        · exact hfilter
        · exact fun i hi => hfilter (ih hi)
      · exact ih
    · exact ih

theorem capacity_evictTerminal (rs : List PyStr) : (S.evictTerminal rs).capacity = S.capacity := by
  induction rs generalizing S with
  | nil => rfl
  | cons r rs ih =>
    rw [evictTerminal]
    split
    · split
      · dsimp only
        split
        · rfl
        · rw [ih]
      · exact ih S
    · exact ih S

theorem not_terminal_of_full {S : OperatorProposalStore}
    (h : S.capacity ≤ (S.evictTerminal rs).proposals.length) :
    ∀ r ∈ rs, r ∈ (S.evictTerminal rs).proposals → ∀ p, S.heap.get? r = some p →
      p.state.isTerminal = false := by
  induction rs generalizing S with
  | nil => exact fun r hr => by cases hr
  | cons r rs ih =>
    intro i hi hmem p hp
    rw [evictTerminal] at h hmem
    cases hr : S.heap.get? r with
    | none =>
      rw [hr] at h hmem
      rcases mem_cons.mp hi with rfl | hi
      · cases hr.symm.trans hp
      · exact ih h i hi hmem p hp
    | some pr =>
      rw [hr] at h hmem
      dsimp only at h hmem
      by_cases hterminal : pr.state.isTerminal = true
      · rw [if_pos hterminal] at h hmem
        split at h
        · case isTrue hroom => exact absurd h (not_le.mpr hroom)
        · case isFalse hfull =>
          rw [if_neg hfull] at hmem
          rcases mem_cons.mp hi with rfl | hi
          · have hfilter := proposals_evictTerminal_subset hmem
            exact absurd rfl (of_decide_eq_true (mem_filter.mp hfilter).2)
          · exact ih h i hi hmem p hp
      · rw [if_neg hterminal] at h hmem
        rcases mem_cons.mp hi with rfl | hi
        · obtain rfl := Option.some.inj (hr.symm.trans hp)
          exact Bool.eq_false_iff.mpr hterminal
        · exact ih h i hi hmem p hp

theorem evictTerminal_of_live {S : OperatorProposalStore}
    (h : ∀ r ∈ rs, ∀ p, S.heap.get? r = some p → p.state.isTerminal = false) :
    S.evictTerminal rs = S := by
  induction rs with
  | nil => rfl
  | cons r rs ih =>
    have hrest := ih fun i hi => h i (.tail _ hi)
    rw [evictTerminal]
    cases hr : S.heap.get? r with
    | none => exact hrest
    | some p =>
      dsimp only
      rw [if_neg (Bool.eq_false_iff.mp (h r (.head _) p hr))]
      exact hrest

theorem unbound_evictTerminal {S : OperatorProposalStore} (h : S.actionRequests.get? a = none) :
    (S.evictTerminal rs).actionRequests.get? a = none := by
  induction rs generalizing S with
  | nil => exact h
  | cons r rs ih =>
    rw [evictTerminal]
    split
    · split
      · case _ p _ _ =>
        have herase : (S.actionRequests.erase p.action.actionId).get? a = none := by
          rw [Dict.get?_erase]
          split
          · rfl
          · exact h
        dsimp only
        split
        · exact herase
        · exact ih herase
      · exact ih h
    · exact ih h

theorem filter_evictTerminal {S : OperatorProposalStore} {f : PyStr → Bool}
    (hf : ∀ r p, S.heap.get? r = some p → p.state.isTerminal = true → f r = false) :
    (S.evictTerminal rs).proposals.filter f = S.proposals.filter f := by
  induction rs generalizing S with
  | nil => rfl
  | cons r rs ih =>
    rw [evictTerminal]
    cases hr : S.heap.get? r with
    | none => exact ih hf
    | some p =>
      dsimp only
      by_cases hterminal : p.state.isTerminal = true
      · have hfilter : (S.proposals.filter (· ≠ r)).filter f = S.proposals.filter f := by
          rw [List.filter_filter]
          refine List.filter_congr fun i _ => ?_
          by_cases hi : i = r
          · rw [hi, hf r p hr hterminal, Bool.false_and]
          · rw [decide_eq_true hi, Bool.and_true]
        rw [if_pos hterminal]
        split
        · exact hfilter
        · exact Eq.trans (@ih { S with
            proposals := S.proposals.filter (· ≠ r)
            actionRequests := S.actionRequests.erase p.action.actionId } hf) hfilter
      · rw [if_neg hterminal]
        exact ih hf

theorem heap_room : (room S).heap = S.heap := by
  rw [room]
  split
  · exact heap_evictTerminal S S.proposals
  · rfl

theorem capacity_room : (room S).capacity = S.capacity := by
  rw [room]
  split
  · exact capacity_evictTerminal S S.proposals
  · rfl

theorem unbound_room {S : OperatorProposalStore} (h : S.actionRequests.get? a = none) :
    (room S).actionRequests.get? a = none := by
  rw [room]
  split
  · exact unbound_evictTerminal h
  · exact h

theorem room_room : room (room S) = room S := by
  by_cases hfull : S.capacity ≤ (room S).proposals.length
  · by_cases hbefore : S.capacity ≤ S.proposals.length
    · have hroom : room S = S.evictTerminal S.proposals := if_pos hbefore
      rw [room, capacity_room, if_pos hfull, evictTerminal_of_live]
      intro r hr p hp
      rw [heap_room] at hp
      rw [hroom] at hr hfull
      exact not_terminal_of_full hfull r (proposals_evictTerminal_subset hr) hr p hp
    · rw [room, if_neg hbefore] at hfull
      exact absurd hfull hbefore
  · rw [room, capacity_room, if_neg hfull]

/-! ### The pending proposals -/

theorem pending_eq : (S.pending t).2 =
      S.proposals.filter fun r => (S.heap.get? r).any fun p => (p.expire t).state.isPending := by
  refine filter_congr fun r hr => ?_
  rw [stateOf, expireAll, Dict.get?_mapVals]
  cases S.heap.get? r with
  | none => rfl
  | some p =>
    have hmem : r ∈ S.proposals := hr
    rw [map_some, map_some, if_pos hmem]
    rfl

theorem pending_expire {p : OperatorProposal} {t : DateTime}
    (h : (p.expire t).state.isPending = true) : p.state.isPending = true := by
  rcases state_expire t p with heq | ⟨hpending, -⟩
  · rw [← heq]
    exact h
  · exact hpending

theorem not_pending_of_terminal {st : ProposalState} (h : st.isTerminal = true) :
    st.isPending = false := by
  cases st with
  | created => cases h
  | presented => cases h
  | _ => rfl

theorem pending_room : ((room S).pending t).2 = (S.pending t).2 := by
  rw [pending_eq, pending_eq, heap_room, room]
  split
  · refine filter_evictTerminal fun r p hp hterminal => ?_
    rw [hp, any_some]
    refine Bool.eq_false_iff.mpr fun hpending => ?_
    exact absurd (pending_expire hpending)
      (Bool.eq_false_iff.mp (not_pending_of_terminal hterminal))
  · rfl

/-! ### The store -/

theorem create_of_passes {py : Builtins} {S : OperatorProposalStore} {q : Request} {o : Outside}
    {expiresAt : DateTime} (h : Passes q o.now expiresAt) :
    S.create py q.action q.peer instanceId q.ttl (creation q o) =
      createLocked py S q.action.withoutAuthorization q.peer instanceId expiresAt
        (creation q o) := by
  obtain ⟨ttl, httl, hexpiry⟩ := h.expiry
  have hmode : ¬ (q.action.executionMode ≠ .real ∧ q.action.executionMode ≠ .shadow) := by
    rintro ⟨hreal, hshadow⟩
    exact h.mode.elim hreal hshadow
  have hdisplay : ¬ (creation q o).displayOk = false := ne_false_of_eq_true h.display
  have hdeadline : ¬ q.action.deadlineAt.instant ≤ (creation q o).now.instant :=
    not_le.mpr h.deadline
  have hsnapshot : ¬ q.action.bodySnapshotHash.isBlank = true := by
    rw [h.snapshot]
    exact Bool.false_ne_true
  have hexpiry' : expiryOf (creation q o).now ttl q.action.deadlineAt = .ok expiresAt := hexpiry
  rw [create, httl]
  dsimp only
  rw [if_neg hmode, if_neg hsnapshot, if_neg hdisplay, if_neg hdeadline, hexpiry']

theorem create_of_not_passes {py : Builtins} {instanceId : PyStr} {q : Request} {o : Outside}
    (h : ¬ ∃ expiresAt, Passes q o.now expiresAt) :
    ∃ code, ∀ S : OperatorProposalStore,
      S.create py q.action q.peer instanceId q.ttl (creation q o) = (S, .error code) := by
  cases httl : ttlMicros q.ttl with
  | error code =>
    refine ⟨code, fun S => ?_⟩
    rw [create, httl]
  | ok ttl =>
    by_cases hmode : q.action.executionMode ≠ .real ∧ q.action.executionMode ≠ .shadow
    · refine ⟨"PROPOSAL_REAL_ACTION_REQUIRED", fun S => ?_⟩
      rw [create, httl]
      dsimp only
      rw [if_pos hmode]
    by_cases hsnapshot : q.action.bodySnapshotHash.isBlank = true
    · refine ⟨"PROPOSAL_BODY_SNAPSHOT_REQUIRED", fun S => ?_⟩
      rw [create, httl]
      dsimp only
      rw [if_neg hmode, if_pos hsnapshot]
    by_cases hdisplay : (creation q o).displayOk = false
    · refine ⟨"INVALID_PROPOSAL_DISPLAY", fun S => ?_⟩
      rw [create, httl]
      dsimp only
      rw [if_neg hmode, if_neg hsnapshot, if_pos hdisplay]
    by_cases hdeadline : q.action.deadlineAt.instant ≤ (creation q o).now.instant
    · refine ⟨"ACTION_DEADLINE_EXPIRED", fun S => ?_⟩
      rw [create, httl]
      dsimp only
      rw [if_neg hmode, if_neg hsnapshot, if_neg hdisplay, if_pos hdeadline]
    cases hexpiry : expiryOf (creation q o).now ttl q.action.deadlineAt with
    | error code =>
      refine ⟨code, fun S => ?_⟩
      rw [create, httl]
      dsimp only
      rw [if_neg hmode, if_neg hsnapshot, if_neg hdisplay, if_neg hdeadline, hexpiry]
    | ok expiresAt =>
      refine absurd ⟨expiresAt, ?_, ?_, ?_, ?_, ttl, httl, hexpiry⟩ h
      · by_contra hne
        exact hmode (not_or.mp hne)
      · exact Bool.eq_false_iff.mpr hsnapshot
      · exact Bool.eq_true_of_not_eq_false hdisplay
      · exact not_le.mp hdeadline

section Locked

variable {py : Builtins} {instanceId : PyStr} {S : OperatorProposalStore} {action : ActionEnvelope}
  {peer : PeerCredentials} {expiresAt : DateTime} {c : Creation}

def added (S : OperatorProposalStore) (requestId : PyStr) (p : OperatorProposal) :
    OperatorProposalStore :=
  { S with
    heap := S.heap.set requestId p
    proposals := S.proposals ++ [requestId]
    actionRequests := S.actionRequests.set p.action.actionId requestId }

/-- The end of `create`, where there is room. -/
def admitProposal (py : Builtins) (S : OperatorProposalStore) (action : ActionEnvelope)
    (peer : PeerCredentials) (instanceId : PyStr) (expiresAt : DateTime) (c : Creation) :
    OperatorProposalStore × Except String PyStr :=
  match actionIntentHash py action, c.referenceOk with
  | some intentHash, true =>
      (added S c.requestId (newProposal action intentHash peer instanceId expiresAt c),
        .ok c.requestId)
  | none, _ => (S, .error "ValueError")
  | _, false => (S, .error "INVALID_CLIENT_REFERENCE")

theorem createLocked_unbound (h : S.actionRequests.get? action.actionId = none) :
    createLocked py S action peer instanceId expiresAt c =
      if S.capacity ≤ (room S).proposals.length then (room S, .error "PROPOSAL_STORE_FULL")
      else admitProposal py (room S) action peer instanceId expiresAt c := by
  have hcapacity := capacity_room S
  rw [createLocked, h, admitProposal]
  dsimp only
  rw [← room, hcapacity]
  split
  · rfl
  · cases actionIntentHash py action with
    | none => rfl
    | some intentHash =>
      cases c.referenceOk with
      | true =>
        dsimp only
        rw [added, hcapacity]
        rfl
      | false => rfl

theorem createLocked_room (h : S.actionRequests.get? action.actionId = none) :
    createLocked py (room S) action peer instanceId expiresAt c =
      createLocked py S action peer instanceId expiresAt c := by
  rw [createLocked_unbound h, createLocked_unbound (unbound_room h), room_room, capacity_room]

variable {p : OperatorProposal} {r : PyStr}

theorem createLocked_bound (h : S.actionRequests.get? action.actionId = some r)
    (hp : S.heap.get? r = some p) (hhash : actionIntentHash py action = some p.actionIntentHash) :
    createLocked py S action peer instanceId expiresAt c = (S, .ok r) := by
  rw [createLocked, h]
  dsimp only
  rw [hp]
  dsimp only
  rw [if_pos hhash]

theorem createLocked_conflict (h : S.actionRequests.get? action.actionId = some r)
    (hp : S.heap.get? r = some p) (hhash : actionIntentHash py action ≠ some p.actionIntentHash) :
    createLocked py S action peer instanceId expiresAt c =
      (S, .error "PROPOSAL_ACTION_ID_CONFLICT") := by
  rw [createLocked, h]
  dsimp only
  rw [hp]
  dsimp only
  rw [if_neg hhash]

end Locked

/-! ### The sessions -/

theorem createSession_of_opens {m : SessionManager} {s : SessionRequest} {peer : PeerCredentials}
    {now : DateTime} {monotonic : Nat} (h : Opens m s peer now) :
    ∃ m' session, m.createSession s peer now monotonic = (m', .ok session) ∧
      (m.get? s.sessionId ≠ none → m' = m) ∧
      ∃ e, m'.get? s.sessionId = some e ∧ e.peerUid = peer.uid := by
  have hvalid : ¬ SessionManager.validRequest s = false := ne_false_of_eq_true h.valid
  rw [SessionManager.createSession, if_neg hvalid]
  cases hs : m.get? s.sessionId with
  | some e =>
    have hsame : e.state = .active ∧
        e.sameContract (SessionManager.newSession s peer now now monotonic) = true :=
      h.existing e hs
    dsimp only
    rw [if_pos hsame]
    refine ⟨m, e, rfl, fun _ => rfl, e, hs, ?_⟩
    have hcontract := hsame.2
    simp only [AgentSession.sameContract, Bool.and_eq_true, decide_eq_true_eq] at hcontract
    exact hcontract.1.1.1.2
  | none =>
    obtain ⟨expiresAt, hexpires⟩ := isSome_iff_exists.mp (h.new hs)
    dsimp only
    rw [hexpires]
    refine ⟨_, _, rfl, fun hne => absurd rfl hne, _, Dict.get?_set_self _ _ _, rfl⟩

theorem createSession_of_not_opens {m : SessionManager} {s : SessionRequest}
    {peer : PeerCredentials} {now : DateTime} {monotonic : Nat} (h : ¬ Opens m s peer now) :
    ∃ code, m.createSession s peer now monotonic = (m, .error code) := by
  rw [SessionManager.createSession]
  split
  · exact ⟨_, rfl⟩
  · case isFalse hvalid =>
    cases hs : m.get? s.sessionId with
    | some e =>
      dsimp only
      split
      · case isTrue hsame =>
        refine absurd ⟨Bool.eq_true_of_not_eq_false hvalid, fun e' he' => ?_, fun hnone => ?_⟩ h
        · obtain rfl := Option.some.inj (hs.symm.trans he')
          exact hsame
        · cases hs.symm.trans hnone
      · exact ⟨_, rfl⟩
    | none =>
      dsimp only
      cases hexpires : now.addMillis s.ttlMs.toNat with
      | none => exact ⟨_, rfl⟩
      | some expiresAt =>
        refine absurd ⟨Bool.eq_true_of_not_eq_false hvalid, fun e' he' => ?_, fun _ => ?_⟩ h
        · cases hs.symm.trans he'
        · rw [hexpires]
          rfl

/-! ### The call -/

section Call

variable {py : Builtins} {instanceId : PyStr} {P P' : Plane} {q : Request} {o : Outside}

theorem create_of_not_open (h : ¬ P.Open) :
    ∃ code, createOperatorProposal py instanceId P q o = (P, .error code) := by
  rw [createOperatorProposal]
  split
  · exact ⟨_, rfl⟩
  · case isFalse hrunning =>
    split
    · exact ⟨_, rfl⟩
    · case isFalse hledger =>
      refine absurd ⟨Bool.eq_true_of_not_eq_false hrunning, ?_⟩ h
      cases hP : P.ledger with
      | none => exact absurd (by rw [hP]; rfl) hledger
      | some _ => rfl

theorem create_of_open (h : P.Open) : createOperatorProposal py instanceId P q o =
      resume P (P.proposals.create py q.action q.peer instanceId q.ttl (creation q o)) q o := by
  have hledger : ¬ P.ledger.isNone = true := by
    rw [isNone_iff_eq_none, ← not_isSome_iff_eq_none, not_not]
    exact h.2
  rw [createOperatorProposal, if_neg (ne_false_of_eq_true h.1), if_neg hledger]

theorem outcome_resume {stored : OperatorProposalStore × Except String PyStr}
    (h : P'.sessions = P.sessions) : (resume P' stored q o).2 = (resume P stored q o).2 := by
  rw [resume, resume]
  cases stored.2 with
  | error code => rfl
  | ok r =>
    dsimp only
    rw [proceed, proceed]
    dsimp only
    cases stored.1.heap.get? r with
    | none => rfl
    | some p =>
      dsimp only
      split
      · rfl
      · rw [openSession, openSession, h]
        dsimp only
        cases (P.sessions.createSession (sessionRequest p q) q.peer o.sessionNow o.monotonic).2 with
        | error code => rfl
        | ok session =>
          dsimp only
          rw [record, record, Plane.append, Plane.append, Plane.append, Plane.append]
          cases o.sessionStored with
          | false => cases o.proposalStored with
            | false => rfl
            | true => rfl
          | true => cases o.proposalStored with
            | false => rfl
            | true => rfl

theorem outcome_congr (hrunning : P'.running = P.running)
    (hledger : P'.ledger.isNone = P.ledger.isNone)
    (h : (resume P' (P'.proposals.create py q.action q.peer instanceId q.ttl (creation q o)) q o).2
        = (resume P (P.proposals.create py q.action q.peer instanceId q.ttl (creation q o)) q o).2 ∨
      Tells (resume P'
        (P'.proposals.create py q.action q.peer instanceId q.ttl (creation q o)) q o).2) :
    (createOperatorProposal py instanceId P' q o).2 =
        (createOperatorProposal py instanceId P q o).2 ∨
      Tells (createOperatorProposal py instanceId P' q o).2 := by
  rw [createOperatorProposal, createOperatorProposal, hrunning, hledger]
  split
  · exact .inl rfl
  · split
    · exact .inl rfl
    · exact h

theorem resume_found {r : PyStr} {p : OperatorProposal} (hp : P.proposals.heap.get? r = some p)
    (hunaudited : p.auditedTransitionCount = 0) :
    resume P (P.proposals, .ok r) q o = openSession P r p q o := by
  rw [resume]
  dsimp only
  rw [proceed, hp]
  dsimp only
  rw [if_neg (not_not.mpr hunaudited)]

def failure (S : OperatorProposalStore) (r : PyStr) : String :=
  if r ∈ S.proposals then "LEDGER_UNAVAILABLE" else "PROPOSAL_NOT_FOUND"

theorem record_stored {session : AgentSession} {r : PyStr} {p : OperatorProposal}
    (h : o.proposalStored = true) :
    (record P session r p o).2 = .ok (pendingReply r p.markAudited) := by
  rw [record]
  dsimp only
  rw [if_pos h]

theorem record_failed {session : AgentSession} {r : PyStr} {p : OperatorProposal}
    (h : o.proposalStored = false) :
    ∃ P', record P session r p o = (P', .error (failure P.proposals r)) ∧
      P'.running = P.running ∧ P'.ledger.isNone = P.ledger.isNone ∧ P'.sessions = P.sessions ∧
      P'.proposals = (P.proposals.transition r .invalidated o.invalidatedAt unavailable).1 := by
  have hfailure : (if (P.proposals.transition r .invalidated o.invalidatedAt unavailable).2
      then "LEDGER_UNAVAILABLE" else "PROPOSAL_NOT_FOUND") = failure P.proposals r := by
    rw [failure, transition]
    by_cases hr : r ∈ P.proposals.proposals
    · rw [if_pos hr, if_pos hr]
      rfl
    · rw [if_neg hr, if_neg hr]
      rfl
  rw [record]
  dsimp only
  rw [if_neg (Bool.eq_false_iff.mp h), ← hfailure]
  cases hs : o.sessionStored with
  | false =>
    rw [Plane.append, Plane.append, h]
    exact ⟨_, rfl, rfl, rfl, rfl, rfl⟩
  | true =>
    rw [Plane.append, Plane.append, h]
    refine ⟨_, rfl, rfl, ?_, rfl, rfl⟩
    dsimp only
    cases P.ledger with
    | none => rfl
    | some _ => rfl

variable {e : String} {p : OperatorProposal} {r : PyStr} (S : OperatorProposalStore)

theorem bound_transition (r : PyStr) (st : ProposalState) (t : DateTime)
    (d : OperatorProposal.Decision) :
    (S.transition r st t d).1.actionRequests = S.actionRequests ∧
      (S.transition r st t d).2 = decide (r ∈ S.proposals) := by
  rw [transition]
  split
  · case isTrue hr =>
    refine ⟨?_, (decide_eq_true hr).symm⟩
    unfold OperatorProposalStore.modify
    cases S.heap.get? r with
    | none => rfl
    | some p => rfl
  · case isFalse hr => exact ⟨rfl, (decide_eq_false hr).symm⟩

theorem get?_transition (r i : PyStr) (st : ProposalState) (t : DateTime)
    (d : OperatorProposal.Decision) :
    (S.transition r st t d).1.heap.get? i =
      if r = i ∧ r ∈ S.proposals then (S.heap.get? i).map (OperatorProposal.moveTo st t d)
      else S.heap.get? i := by
  rw [transition]
  by_cases hr : r ∈ S.proposals
  · rw [if_pos hr, get?_modify]
    by_cases hi : r = i
    · rw [if_pos hi, if_pos ⟨hi, hr⟩]
    · rw [if_neg hi, if_neg fun h => hi h.1]
  · rw [if_neg hr, if_neg fun h => hr h.2]

theorem pending_transition (r : PyStr) (t now : DateTime) (d : OperatorProposal.Decision) :
    ((S.transition r .invalidated now d).1.pending t).2 =
      (S.pending t).2.filter fun i => decide (i ≠ r) := by
  rw [pending_eq, pending_eq, proposals_transition, List.filter_filter]
  refine List.filter_congr fun i hi => ?_
  rw [get?_transition]
  by_cases hir : i = r
  · obtain rfl := hir
    rw [if_pos ⟨rfl, hi⟩]
    cases S.heap.get? i with
    | none => simp
    | some p =>
      rw [Option.map_some, Option.any_some]
      have hmoved : ((p.moveTo .invalidated now d).expire t).state.isPending = false :=
        Bool.eq_false_iff.mpr fun hpending => by cases pending_expire hpending
      rw [hmoved, decide_eq_false (not_not.mpr rfl), Bool.false_and]
  · rw [if_neg fun h => hir h.1.symm, decide_eq_true hir, Bool.true_and]

theorem harmless_room (hrunning : P'.running = P.running)
    (hledger : P'.ledger.isNone = P.ledger.isNone) (hsessions : P'.sessions = P.sessions)
    (hproposals : P'.proposals = room P.proposals)
    (hunbound : P.proposals.actionRequests.get? q.action.actionId = none) :
    Harmless py instanceId P P' q := by
  refine ⟨fun r hr => ?_, fun t => ?_, fun q' o' haction _ => ?_⟩
  · rw [stateOf, hproposals, heap_room, hr]
    rfl
  · rw [hproposals]
    exact pending_room P.proposals t
  · rw [← haction] at hunbound
    refine outcome_congr hrunning hledger (.inl ?_)
    rw [outcome_resume hsessions, hproposals]
    by_cases hpasses : ∃ expiresAt, Passes q' o'.now expiresAt
    · obtain ⟨expiresAt, hpasses⟩ := hpasses
      have hunbound' : P.proposals.actionRequests.get? q'.action.withoutAuthorization.actionId =
        none := hunbound
      rw [create_of_passes hpasses, create_of_passes hpasses, createLocked_room hunbound']
    · obtain ⟨code, hcode⟩ := @create_of_not_passes py instanceId q' o' hpasses
      rw [hcode, hcode]
      rfl

theorem harmless_self : Harmless py instanceId P P q := by
  refine ⟨fun r hr => ?_, fun t => rfl, fun q' o' _ _ => .inl rfl⟩
  rw [stateOf, hr]
  rfl

/-! ### A proposal that was there -/

/-- What is left of a call whose event was not taken. -/
structure Invalidated (P P' : Plane) (r : PyStr) (o : Outside) : Prop where
  running : P'.running = P.running
  ledger : P'.ledger.isNone = P.ledger.isNone
  proposals : P'.proposals =
    (P.proposals.transition r .invalidated o.invalidatedAt unavailable).1

theorem Invalidated.bound (h : Invalidated P P' r o) :
    P'.proposals.actionRequests = P.proposals.actionRequests := by
  rw [h.proposals]
  exact (bound_transition _ _ _ _ _).1

theorem Invalidated.found (h : Invalidated P P' r o) (hp : P.proposals.heap.get? r = some p) :
    ∃ p', P'.proposals.heap.get? r = some p' ∧ p'.action = p.action ∧
      p'.actionIntentHash = p.actionIntentHash ∧
      p'.auditedTransitionCount = p.auditedTransitionCount ∧
      (r ∈ P.proposals.proposals → p'.state = .invalidated) ∧
      (r ∉ P.proposals.proposals → p' = p) := by
  rw [h.proposals, get?_transition, hp]
  by_cases hr : r ∈ P.proposals.proposals
  · rw [if_pos ⟨rfl, hr⟩]
    exact ⟨_, rfl, rfl, rfl, rfl, fun _ => rfl, fun hnot => absurd hr hnot⟩
  · rw [if_neg fun h => hr h.2]
    exact ⟨p, rfl, rfl, rfl, rfl, fun h => absurd h hr, fun _ => rfl⟩

theorem harmless_invalidated (h : Invalidated P P' r o) (hsessions : P'.sessions = P.sessions)
    (hbound : P.proposals.actionRequests.get? q.action.actionId = some r)
    (hp : P.proposals.heap.get? r = some p) (hunaudited : p.auditedTransitionCount = 0)
    (hpending : ∀ t, r ∉ (P.proposals.pending t).2) : Harmless py instanceId P P' q := by
  obtain ⟨p', hp', haction, hhash, hcount, hin, hout⟩ := h.found hp
  refine ⟨fun i hi => ?_, fun t => ?_, fun q' o' hid _ => ?_⟩
  · rw [stateOf, h.proposals, get?_transition, hi]
    split
    · rfl
    · rfl
  · rw [h.proposals, pending_transition]
    refine filter_eq_self.mpr fun i hi => ?_
    exact decide_eq_true fun heq => hpending t (heq ▸ hi)
  · refine outcome_congr h.running h.ledger ?_
    have hb : P.proposals.actionRequests.get? q'.action.withoutAuthorization.actionId = some r := by
      rw [← hbound, ← hid]
      rfl
    have hb' : P'.proposals.actionRequests.get? q'.action.withoutAuthorization.actionId =
        some r := by
      rw [h.bound]
      exact hb
    by_cases hpasses : ∃ expiresAt, Passes q' o'.now expiresAt
    swap
    · obtain ⟨code, hcode⟩ := @create_of_not_passes py instanceId q' o' hpasses
      rw [hcode, hcode]
      exact .inl rfl
    obtain ⟨expiresAt, hpasses⟩ := hpasses
    rw [create_of_passes hpasses, create_of_passes hpasses]
    by_cases hsame : actionIntentHash py q'.action.withoutAuthorization = some p.actionIntentHash
    swap
    · rw [createLocked_conflict hb hp hsame, createLocked_conflict hb' hp' (hhash ▸ hsame)]
      exact .inl rfl
    rw [createLocked_bound hb hp hsame, createLocked_bound hb' hp' (hhash ▸ hsame),
      resume_found hp hunaudited, resume_found hp' (hcount.trans hunaudited)]
    have hrequest : sessionRequest p' q' = sessionRequest p q' := by
      rw [sessionRequest, sessionRequest, haction]
    rw [openSession, openSession, hsessions, hrequest]
    cases (P.sessions.createSession (sessionRequest p q') q'.peer o'.sessionNow o'.monotonic).2 with
    | error code => exact .inl rfl
    | ok session =>
      dsimp only
      cases hstored : o'.proposalStored with
      | true =>
        rw [record_stored hstored, record_stored hstored]
        by_cases hr : r ∈ P.proposals.proposals
        · exact .inr ⟨_, rfl, hin hr⟩
        · rw [hout hr]
          exact .inl rfl
      | false =>
        obtain ⟨_, hrecord, -⟩ := record_failed hstored
        obtain ⟨_, hrecord', -⟩ := record_failed hstored
        rw [hrecord, hrecord']
        refine .inl (congrArg Except.error ?_)
        rw [failure, failure, h.proposals, proposals_transition]

theorem create_bound (hopen : P.Open) (hpasses : ∃ expiresAt, Passes q o.now expiresAt)
    (hbound : P.proposals.actionRequests.get? q.action.actionId = some r)
    (hp : P.proposals.heap.get? r = some p)
    (hhash : actionIntentHash py q.action.withoutAuthorization = some p.actionIntentHash)
    (hunaudited : p.auditedTransitionCount = 0) :
    createOperatorProposal py instanceId P q o = openSession P r p q o := by
  obtain ⟨expiresAt, hpasses⟩ := hpasses
  have hb : P.proposals.actionRequests.get? q.action.withoutAuthorization.actionId = some r :=
    hbound
  rw [create_of_open hopen, create_of_passes hpasses, createLocked_bound hb hp hhash,
    resume_found hp hunaudited]

theorem openSession_of_opens {r : PyStr} {p : OperatorProposal}
    (h : Opens P.sessions (sessionRequest p q) q.peer o.sessionNow) :
    ∃ m' session, openSession P r p q o = record { P with sessions := m' } session r p o ∧
      (P.sessions.get? p.action.sessionId ≠ none → m' = P.sessions) ∧
      ∃ e, m'.get? p.action.sessionId = some e ∧ e.peerUid = q.peer.uid := by
  obtain ⟨m', session, hcreate, hkept, he⟩ := @createSession_of_opens _ _ _ _ o.monotonic h
  refine ⟨m', session, ?_, hkept, he⟩
  rw [openSession, hcreate]

theorem openSession_of_not_opens {r : PyStr} {p : OperatorProposal}
    (h : ¬ Opens P.sessions (sessionRequest p q) q.peer o.sessionNow) :
    ∃ code, openSession P r p q o = (P, .error code) := by
  obtain ⟨code, hcode⟩ := @createSession_of_not_opens _ _ _ _ o.monotonic h
  refine ⟨code, ?_⟩
  rw [openSession, hcode]

theorem Invalidated.not_harmless_of_pending {t : DateTime} (h : Invalidated P P' r o)
    (ht : r ∈ (P.proposals.pending t).2) : ¬ Harmless py instanceId P P' q := by
  intro hharmless
  have hsame := hharmless.pending t
  rw [h.proposals, pending_transition] at hsame
  have hne := filter_eq_self.mp hsame r ht
  exact of_decide_eq_true hne rfl

theorem Invalidated.not_harmless_of_new {e : AgentSession} (h : Invalidated P P' r o)
    (hopen : P.Open) (hpasses : ∃ expiresAt, Passes q o.now expiresAt)
    (hbound : P.proposals.actionRequests.get? q.action.actionId = some r)
    (hp : P.proposals.heap.get? r = some p)
    (hhash : actionIntentHash py q.action.withoutAuthorization = some p.actionIntentHash)
    (hunaudited : p.auditedTransitionCount = 0)
    (hopens : Opens P.sessions (sessionRequest p q) q.peer o.sessionNow)
    (hnew : P.sessions.get? p.action.sessionId = none)
    (he : P'.sessions.get? p.action.sessionId = some e) (hpeer : e.peerUid = q.peer.uid)
    (hfresh : P.proposals.heap.get? o.requestId = none) : ¬ Harmless py instanceId P P' q := by
  intro hharmless
  let q' : Request := { q with peer := { q.peer with uid := q.peer.uid + 1 } }
  let o' : Outside := { o with proposalStored := true }
  obtain ⟨p', hp', haction, hhash', hcount, -, -⟩ := h.found hp
  have hpasses' : ∃ expiresAt, Passes q' o'.now expiresAt := by
    obtain ⟨expiresAt, hpasses⟩ := hpasses
    exact ⟨expiresAt, hpasses.mode, hpasses.snapshot, hpasses.display, hpasses.deadline,
      hpasses.expiry⟩
  have hopen' : P'.Open := by
    refine ⟨h.running.trans hopen.1, ?_⟩
    rw [← not_isNone, h.ledger, not_isNone]
    exact hopen.2
  have hfresh' : P'.proposals.heap.get? o'.requestId = none := by
    rw [h.proposals, get?_transition, hfresh]
    split
    · rfl
    · rfl
  have hlater := hharmless.later q' o' rfl hfresh'
  have hbound' : P'.proposals.actionRequests.get? q'.action.actionId = some r := by
    rw [h.bound]
    exact hbound
  have hrequest : sessionRequest p' q' = sessionRequest p q := by
    rw [sessionRequest, sessionRequest, haction]
    rfl
  rw [create_bound hopen' hpasses' hbound' hp' (hhash'.symm ▸ hhash) (hcount.trans hunaudited),
    create_bound hopen hpasses' hbound hp hhash hunaudited] at hlater
  -- after the call the session belongs to the first peer
  have hnot : ¬ Opens P'.sessions (sessionRequest p' q') q'.peer o'.sessionNow := by
    rw [hrequest]
    intro hopens'
    obtain ⟨-, hsame⟩ := hopens'.existing e he
    simp only [AgentSession.sameContract, Bool.and_eq_true, decide_eq_true_eq] at hsame
    have huid : e.peerUid = q.peer.uid + 1 := hsame.1.1.1.2
    omega
  have hstill : Opens P.sessions (sessionRequest p q') q'.peer o'.sessionNow := by
    refine ⟨hopens.valid, fun e' he' => ?_, hopens.new⟩
    cases hnew.symm.trans he'
  obtain ⟨code, hcode⟩ := @openSession_of_not_opens P' q' o' r p' hnot
  obtain ⟨m', session, hsession, -⟩ := @openSession_of_opens P q' o' r p hstill
  rw [hcode, hsession, record_stored rfl] at hlater
  rcases hlater with heq | ⟨reply, hreply, -⟩
  · cases heq
  · cases hreply

/-! ### A new proposal -/

structure Added (py : Builtins) (S S' : OperatorProposalStore) (q : Request) (requestId : PyStr)
    (p : OperatorProposal) : Prop where
  found : S'.heap.get? requestId = some p
  bound : S'.actionRequests.get? q.action.actionId = some requestId
  stored : requestId ∈ S'.proposals
  hash : actionIntentHash py q.action.withoutAuthorization = some p.actionIntentHash
  action : p.action = q.action.withoutAuthorization
  created : p.state = .created
  unaudited : p.auditedTransitionCount = 0

theorem create_adds (h : Adds py P q o.now) : ∃ S' p, Added py P.proposals S' q o.requestId p ∧
      createOperatorProposal py instanceId P q o =
        openSession { P with proposals := S' } o.requestId p q o := by
  obtain ⟨expiresAt, hpasses⟩ := h.passes
  obtain ⟨intentHash, hhash⟩ := isSome_iff_exists.mp h.hash
  have hunbound : P.proposals.actionRequests.get? q.action.withoutAuthorization.actionId = none :=
    h.unbound
  have hspace : ¬ P.proposals.capacity ≤ (room P.proposals).proposals.length := not_le.mpr h.space
  have hreference : (creation q o).referenceOk = true := h.reference
  let p := newProposal q.action.withoutAuthorization intentHash q.peer instanceId expiresAt
    (creation q o)
  have hadmit : admitProposal py (room P.proposals) q.action.withoutAuthorization q.peer instanceId
      expiresAt (creation q o) = (added (room P.proposals) o.requestId p, .ok o.requestId) := by
    rw [admitProposal, hhash, hreference]
    rfl
  have hfound : (added (room P.proposals) o.requestId p).heap.get? o.requestId = some p :=
    Dict.get?_set_self _ _ _
  refine ⟨added (room P.proposals) o.requestId p, p, ⟨hfound, Dict.get?_set_self _ _ _,
    mem_append_right _ mem_cons_self, hhash, rfl, rfl, rfl⟩, ?_⟩
  rw [create_of_open h.open, create_of_passes hpasses, createLocked_unbound hunbound,
    if_neg hspace, hadmit]
  exact @resume_found { P with proposals := added (room P.proposals) o.requestId p } q o _ _ hfound
    rfl

def otherMode : ExecutionMode → ExecutionMode
  | .real => .shadow
  | _ => .real

def inOtherMode (a : ActionEnvelope) : ActionEnvelope :=
  ⟨{ a.toActionFields with executionMode := otherMode a.executionMode }, a.valid⟩

theorem otherMode_ne (m : ExecutionMode) : otherMode m ≠ m := by
  cases m with
  | real => exact fun h => by cases h
  | _ => exact fun h => by cases h

theorem exists_fresh {β : Type} (D : Dict PyStr β) : ∃ s, D.get? s = none := by
  have hinfinite : Infinite PyStr :=
    Infinite.of_injective (fun n : Nat => (⟨[n]⟩ : PyStr)) fun m n h => by
      exact List.singleton_injective (PyStr.mk.inj h)
  obtain ⟨s, hs⟩ := Infinite.exists_notMem_finset (D.keys.toFinset)
  refine ⟨s, ?_⟩
  cases hget : D.get? s with
  | none => rfl
  | some v =>
    refine absurd ?_ hs
    rw [List.mem_toFinset, Dict.mem_keys_iff, hget]
    rfl

theorem Added.not_harmless_of_failed {S : OperatorProposalStore}
    (hhash : ∀ a a' : ActionEnvelope, (actionIntentHash py a).isSome = true →
      actionIntentHash py a = actionIntentHash py a' → a.executionMode = a'.executionMode)
    (hadds : Adds py P q o.now) (hadded : Added py P.proposals S q o.requestId p)
    (hopens : Opens P.sessions (sessionRequest p q) q.peer o.sessionNow)
    (h : Invalidated { P with proposals := S } P' o.requestId o) :
    ¬ Harmless py instanceId P P' q := by
  intro hharmless
  obtain ⟨requestId, hfresh⟩ := exists_fresh P'.proposals.heap
  let q' : Request := { q with action := inOtherMode q.action }
  let o' : Outside := { o with requestId := requestId, proposalStored := true }
  have hlater := hharmless.later q' o' rfl hfresh
  obtain ⟨p', hp', -, hintent, -, -, -⟩ := h.found hadded.found
  have hmode : q'.action.executionMode = .real ∨ q'.action.executionMode = .shadow := by
    show otherMode q.action.executionMode = .real ∨ otherMode q.action.executionMode = .shadow
    cases q.action.executionMode with
    | real => exact .inr rfl
    | _ => exact .inl rfl
  obtain ⟨expiresAt, hpasses⟩ := hadds.passes
  have hpasses' : Passes q' o'.now expiresAt :=
    ⟨hmode, hpasses.snapshot, hpasses.display, hpasses.deadline, hpasses.expiry⟩
  have hother : actionIntentHash py q'.action.withoutAuthorization ≠ some p'.actionIntentHash := by
    rw [hintent, ← hadded.hash]
    intro heq
    have hsome : (actionIntentHash py q.action.withoutAuthorization).isSome = true := hadds.hash
    exact otherMode_ne _ (hhash _ _ hsome heq.symm).symm
  have hopen' : P'.Open := by
    refine ⟨h.running.trans hadds.open.1, ?_⟩
    rw [← not_isNone, h.ledger, not_isNone]
    exact hadds.open.2
  have hbound : P'.proposals.actionRequests.get? q'.action.withoutAuthorization.actionId =
      some o.requestId := by
    rw [h.bound]
    exact hadded.bound
  -- without the first call the id would not be taken
  have hunbound : P.proposals.actionRequests.get? q'.action.withoutAuthorization.actionId =
      none := hadds.unbound
  have hspace : ¬ P.proposals.capacity ≤ (room P.proposals).proposals.length :=
    not_le.mpr hadds.space
  rw [create_of_open hopen', create_of_passes hpasses', createLocked_conflict hbound hp' hother,
    create_of_open hadds.open, create_of_passes hpasses', createLocked_unbound hunbound,
    if_neg hspace] at hlater
  have hreference : (creation q' o').referenceOk = true := hadds.reference
  rcases hlater with heq | ⟨reply, hreply, -⟩
  swap
  · cases hreply
  rw [admitProposal, hreference] at heq
  cases hhash' : actionIntentHash py q'.action.withoutAuthorization with
  | none =>
    rw [hhash'] at heq
    exact absurd (Except.error.inj heq) (by decide)
  | some intentHash =>
    rw [hhash'] at heq
    let p'' := newProposal q'.action.withoutAuthorization intentHash q'.peer instanceId expiresAt
      (creation q' o')
    have hfound : (added (room P.proposals) requestId p'').heap.get? requestId = some p'' :=
      Dict.get?_set_self _ _ _
    have hstill : Opens P.sessions (sessionRequest p'' q') q'.peer o'.sessionNow := by
      have hrequest : sessionRequest p'' q' = sessionRequest p q := by
        rw [sessionRequest, sessionRequest, hadded.action]
        rfl
      rw [hrequest]
      exact hopens
    obtain ⟨m', session, hsession, -⟩ := @openSession_of_opens
      { P with proposals := added (room P.proposals) requestId p'' } q' o' requestId p'' hstill
    have hreply := (congrArg Prod.snd (@resume_found
      { P with proposals := added (room P.proposals) requestId p'' } q' o' requestId p'' hfound
      rfl)).trans (congrArg Prod.snd hsession)
    rw [record_stored rfl] at hreply
    cases heq.trans hreply

/-! ### The laws -/

theorem invalidated_of_record {m : SessionManager} {session : AgentSession} {r : PyStr}
    {p : OperatorProposal} {e : String}
    (h : record { P with sessions := m } session r p o = (P', .error e)) :
    Invalidated P P' r o ∧ P'.sessions = m := by
  cases hstored : o.proposalStored with
  | true =>
    have hok := @record_stored { P with sessions := m } o session r p hstored
    rw [h] at hok
    cases hok
  | false =>
    obtain ⟨P'', hrecord, hrunning, hledger, hsessions, hproposals⟩ :=
      @record_failed { P with sessions := m } o session r p hstored
    obtain rfl := (Prod.mk.inj (h.symm.trans hrecord)).1
    exact ⟨⟨hrunning, hledger, hproposals⟩, hsessions⟩

theorem laws_of_unbound (hhash : ∀ a a' : ActionEnvelope, (actionIntentHash py a).isSome = true →
      actionIntentHash py a = actionIntentHash py a' → a.executionMode = a'.executionMode)
    (hfresh : P.proposals.heap.get? o.requestId = none) (hopen : P.Open)
    (hpasses : ∃ expiresAt, Passes q o.now expiresAt)
    (hunbound : P.proposals.actionRequests.get? q.action.actionId = none)
    (h : createOperatorProposal py instanceId P q o = (P', .error e)) :
    Harmless py instanceId P P' q ↔ ¬ Adds py P q o.now := by
  by_cases hadds : Adds py P q o.now
  · refine iff_of_false ?_ (not_not.mpr hadds)
    obtain ⟨S, p, hadded, hcreate⟩ := @create_adds py instanceId P q o hadds
    rw [hcreate] at h
    by_cases hopens : Opens P.sessions (sessionRequest p q) q.peer o.sessionNow
    · obtain ⟨m', session, hsession, -⟩ := @openSession_of_opens { P with proposals := S } q o
        o.requestId p hopens
      have hleft := @invalidated_of_record { P with proposals := S } P' o m' session _ p e
        (hsession.symm.trans h)
      exact Added.not_harmless_of_failed hhash hadds hadded hopens hleft.1
    · obtain ⟨code, hcode⟩ := @openSession_of_not_opens { P with proposals := S } q o
        o.requestId p hopens
      obtain rfl := (Prod.mk.inj (h.symm.trans hcode)).1
      intro hharmless
      have hcreated := hharmless.created o.requestId hfresh
      rw [stateOf, hadded.found, map_some, any_some, hadded.created] at hcreated
      cases hcreated
  · refine iff_of_true ?_ hadds
    obtain ⟨expiresAt, hpasses'⟩ := hpasses
    have hunbound' : P.proposals.actionRequests.get? q.action.withoutAuthorization.actionId =
      none := hunbound
    rw [create_of_open hopen, create_of_passes hpasses', createLocked_unbound hunbound'] at h
    have hroom : P' = { P with proposals := room P.proposals } := by
      split at h
      · exact (Prod.mk.inj h).1.symm
      · case isFalse hspace =>
        rw [admitProposal] at h
        cases hintent : actionIntentHash py q.action.withoutAuthorization with
        | none =>
          rw [hintent] at h
          exact (Prod.mk.inj h).1.symm
        | some intentHash =>
          rw [hintent] at h
          cases href : (creation q o).referenceOk with
          | true =>
            refine absurd ⟨hopen, ⟨expiresAt, hpasses'⟩, hunbound, not_le.mp hspace, ?_, href⟩ hadds
            rw [hintent]
            rfl
          | false =>
            rw [href] at h
            exact (Prod.mk.inj h).1.symm
    rw [hroom]
    exact harmless_room rfl rfl rfl rfl hunbound

theorem laws_of_bound (hfresh : P.proposals.heap.get? o.requestId = none) (hopen : P.Open)
    (hpasses : ∃ expiresAt, Passes q o.now expiresAt)
    (hbound : P.proposals.actionRequests.get? q.action.actionId = some r)
    (h : createOperatorProposal py instanceId P q o = (P', .error e)) :
    Harmless py instanceId P P' q ↔ ¬ ∃ r p, Spoils py P q o.now o.sessionNow r p := by
  have hself : ∀ (code : String), (P, Except.error code) = (P', Except.error (α := Reply) e) →
      Harmless py instanceId P P' q := by
    intro code heq
    obtain rfl := (Prod.mk.inj heq).1
    exact harmless_self
  obtain ⟨expiresAt, hpasses'⟩ := hpasses
  have hbound' : P.proposals.actionRequests.get? q.action.withoutAuthorization.actionId = some r :=
    hbound
  cases hp : P.proposals.heap.get? r with
  | none =>
    rw [create_of_open hopen, create_of_passes hpasses', createLocked, hbound'] at h
    dsimp only at h
    rw [hp] at h
    refine iff_of_true (hself _ h) ?_
    rintro ⟨r', p', hspoils⟩
    obtain rfl := Option.some.inj (hbound.symm.trans hspoils.bound)
    cases hp.symm.trans hspoils.found
  | some p =>
    have hthe : ∀ {r' p'}, Spoils py P q o.now o.sessionNow r' p' → r' = r ∧ p' = p := by
      intro r' p' hspoils
      obtain rfl := Option.some.inj (hbound.symm.trans hspoils.bound)
      exact ⟨rfl, Option.some.inj (hspoils.found.symm.trans hp)⟩
    by_cases hsame : actionIntentHash py q.action.withoutAuthorization = some p.actionIntentHash
    swap
    · rw [create_of_open hopen, create_of_passes hpasses', createLocked_conflict hbound' hp hsame]
        at h
      refine iff_of_true (hself _ h) ?_
      rintro ⟨r', p', hspoils⟩
      obtain ⟨rfl, rfl⟩ := hthe hspoils
      exact hsame hspoils.same
    by_cases hunaudited : p.auditedTransitionCount = 0
    swap
    · rw [create_of_open hopen, create_of_passes hpasses', createLocked_bound hbound' hp hsame,
        resume] at h
      dsimp only at h
      rw [proceed, hp] at h
      dsimp only at h
      rw [if_pos hunaudited] at h
      cases (Prod.mk.inj h).2
    rw [create_bound hopen ⟨expiresAt, hpasses'⟩ hbound hp hsame hunaudited] at h
    by_cases hopens : Opens P.sessions (sessionRequest p q) q.peer o.sessionNow
    swap
    · obtain ⟨code, hcode⟩ := @openSession_of_not_opens P q o r p hopens
      refine iff_of_true (hself code (hcode.symm.trans h)) ?_
      rintro ⟨r', p', hspoils⟩
      obtain ⟨rfl, rfl⟩ := hthe hspoils
      exact hopens hspoils.opens
    obtain ⟨m', session, hsession, hkept, es, hes, hpeer⟩ := @openSession_of_opens P q o r p hopens
    obtain ⟨hleft, hsessions⟩ := invalidated_of_record (hsession.symm.trans h)
    by_cases hspoilt : (∃ t, r ∈ (P.proposals.pending t).2) ∨
        P.sessions.get? p.action.sessionId = none
    · refine iff_of_false ?_ (not_not.mpr ⟨r, p, hopen, ⟨expiresAt, hpasses'⟩, hbound, hp, hsame,
        hunaudited, hopens, hspoilt⟩)
      rcases hspoilt with ⟨t, ht⟩ | hnew
      · exact hleft.not_harmless_of_pending ht
      · refine hleft.not_harmless_of_new hopen ⟨expiresAt, hpasses'⟩ hbound hp hsame hunaudited
          hopens hnew ?_ hpeer hfresh
        rw [hsessions]
        exact hes
    · obtain ⟨hpending, hold⟩ := not_or.mp hspoilt
      refine iff_of_true ?_ ?_
      · exact harmless_invalidated hleft (hsessions.trans (hkept hold)) hbound hp hunaudited
          fun t ht => hpending ⟨t, ht⟩
      · rintro ⟨r', p', hspoils⟩
        obtain ⟨rfl, rfl⟩ := hthe hspoils
        exact hspoilt hspoils.spoilt

end Call

/-- **A call that raises is harmless if and only if the store takes no new proposal, and has none
that the call could still spoil.** -/
theorem creation_laws (py : Builtins) (instanceId : PyStr) {P P' : Plane} {q : Request}
    {o : Outside} {e : String}
    (hhash : ∀ a a' : ActionEnvelope, (actionIntentHash py a).isSome = true →
      actionIntentHash py a = actionIntentHash py a' → a.executionMode = a'.executionMode)
    (hfresh : P.proposals.heap.get? o.requestId = none)
    (h : createOperatorProposal py instanceId P q o = (P', .error e)) :
    Harmless py instanceId P P' q ↔
      ¬ Adds py P q o.now ∧ ¬ ∃ r p, Spoils py P q o.now o.sessionNow r p := by
  by_cases hopen : P.Open
  swap
  · obtain ⟨code, hcode⟩ := @create_of_not_open py instanceId P q o hopen
    obtain rfl := (Prod.mk.inj (h.symm.trans hcode)).1
    refine iff_of_true harmless_self ⟨fun hadds => hopen hadds.open, ?_⟩
    rintro ⟨r, p, hspoils⟩
    exact hopen hspoils.open
  by_cases hpasses : ∃ expiresAt, Passes q o.now expiresAt
  swap
  · obtain ⟨code, hcode⟩ := @create_of_not_passes py instanceId q o hpasses
    rw [create_of_open hopen, hcode] at h
    obtain rfl := (Prod.mk.inj h).1
    refine iff_of_true harmless_self ⟨fun hadds => hpasses hadds.passes, ?_⟩
    rintro ⟨r, p, hspoils⟩
    exact hpasses hspoils.passes
  cases hbound : P.proposals.actionRequests.get? q.action.actionId with
  | none =>
    rw [laws_of_unbound hhash hfresh hopen hpasses hbound h]
    refine (and_iff_left ?_).symm
    rintro ⟨r, p, hspoils⟩
    cases hbound.symm.trans hspoils.bound
  | some r =>
    rw [laws_of_bound hfresh hopen hpasses hbound h]
    refine (and_iff_right fun hadds => ?_).symm
    cases hbound.symm.trans hadds.unbound

def modeHex (v : PyVal) : String :=
  match v.get "execution_mode" with
  | .str s => "000000000000000000000000000000000000000000000000000000000000" ++
      String.ofList (s.codes.map Char.ofNat)
  | _ => ""

def modeBuiltins : Builtins := { Builtins.zero with sha256Hex := modeHex }

theorem mode_of_hash (a a' : ActionEnvelope)
    (hsome : (actionIntentHash modeBuiltins a).isSome = true)
    (h : actionIntentHash modeBuiltins a = actionIntentHash modeBuiltins a') :
    a.executionMode = a'.executionMode := by
  have hhex : ∀ {a s}, actionIntentHash modeBuiltins a = some s →
      s = "sha256:" ++
        PyStr.ofString (modeHex (.dict [("execution_mode", .str a.executionMode.value)])) := by
    intro a s hs
    rw [actionIntentHash] at hs
    split at hs
    · exact (Option.some.inj hs).symm
    · cases hs
  obtain ⟨s, hs⟩ := isSome_iff_exists.mp hsome
  have heq := (hhex hs).symm.trans (hhex (h ▸ hs))
  revert heq
  cases a.executionMode <;> cases a'.executionMode <;> decide

def samplePlane (sessions : SessionManager) : Plane where
  running := true
  ledger := some []
  ledgerWriteFailed := false
  proposals := ⟨4, ∅, [], ∅⟩
  sessions := sessions

def sampleRequest (mode : ExecutionMode) : Request where
  action := .sample "a1" ActionEnvelope.isBlank_a1 mode .none .second
  displayOk := true
  ttl := .int 5
  peer := ⟨1, 7, 7⟩
  referenceOk := true

def sampleOutside : Outside where
  now := default
  requestId := "r"
  nonce := "n"
  sessionNow := default
  monotonic := 0
  sessionStored := true
  proposalStored := true
  invalidatedAt := default

def heldProposal : OperatorProposal where
  action := (sampleRequest .real).action.withoutAuthorization
  actionIntentHash := "sha256:real"
  originPeer := ⟨1, 7, 7⟩
  createdAt := default
  expiresAt := .second
  challengeNonce := "n0"
  daemonInstanceId := "d"
  transitions := [(.created, default)]

/-- A plane with a pending proposal for the action. -/
def heldPlane : Plane :=
  { samplePlane ∅ with
    proposals := ⟨4, Dict.set ∅ "r0" heldProposal, ["r0"], Dict.set ∅ "a1" "r0"⟩ }

/-- The action is proposed again, to be simulated, and is refused: the proposal that is pending is
not spoiled. -/
theorem creation_laws_held :
    createOperatorProposal modeBuiltins "d" heldPlane (sampleRequest .simulation) sampleOutside =
        (heldPlane, .error "PROPOSAL_REAL_ACTION_REQUIRED") ∧
      Harmless modeBuiltins "d" heldPlane heldPlane (sampleRequest .simulation) := by
  have h : createOperatorProposal modeBuiltins "d" heldPlane (sampleRequest .simulation)
      sampleOutside = (heldPlane, .error "PROPOSAL_REAL_ACTION_REQUIRED") := rfl
  have hnot : ∀ expiresAt, ¬ Passes (sampleRequest .simulation) sampleOutside.now expiresAt := by
    intro expiresAt hpasses
    cases hpasses.mode with
    | inl h => cases h
    | inr h => cases h
  refine ⟨h, (creation_laws modeBuiltins "d" mode_of_hash rfl h).mpr ⟨?_, ?_⟩⟩
  · rintro ⟨-, ⟨expiresAt, hpasses⟩, -⟩
    exact hnot expiresAt hpasses
  · rintro ⟨r, p, hspoils⟩
    obtain ⟨expiresAt, hpasses⟩ := hspoils.passes
    exact hnot expiresAt hpasses

/-- The session `s`, for another capability. -/
def otherSession : AgentSession :=
  SessionManager.newSession ⟨"s", "a", "f", ["b"], ["d"], 60000⟩ ⟨1, 7, 7⟩ default default 0

def takenPlane : Plane := samplePlane (Dict.set ∅ "s" otherSession)

/-- The Agent proposes an action with another capability: the session is refused, and the proposal
stays pending. -/
theorem left_pending : ∃ P' reason,
    createOperatorProposal modeBuiltins "d" takenPlane (sampleRequest .real) sampleOutside =
        (P', .error reason) ∧
      P'.proposals.stateOf "r" = some .created ∧
      ¬ Harmless modeBuiltins "d" takenPlane P' (sampleRequest .real) := by
  have hexpiry : ∃ expiresAt, expiryOf default 5000000 .second = .ok expiresAt := by
    rw [expiryOf, DateTime.ofParts, dif_pos (by decide), dif_pos (by decide)]
    exact ⟨_, rfl⟩
  have httl : ttlMicros (.int 5) = .ok 5000000 := by
    have hround : ActionEnvelope.roundHalfEven 5000000 = 5000000 := by
      have hfloor : (5000000 : Rat).floor = 5000000 := Rat.floor_intCast 5000000
      rw [ActionEnvelope.roundHalfEven, hfloor]
      norm_num
    norm_num [ttlMicros, ttlMicros.seconds, MIN_PROPOSAL_TTL_SEC, MAX_PROPOSAL_TTL_SEC, hround]
    rfl
  have hpasses : ∃ expiresAt, Passes (sampleRequest .real) sampleOutside.now expiresAt := by
    obtain ⟨expiresAt, hexpiry⟩ := hexpiry
    exact ⟨expiresAt, .inl rfl, rfl, rfl, by decide, 5000000, httl, hexpiry⟩
  have hadds : Adds modeBuiltins takenPlane (sampleRequest .real) sampleOutside.now :=
    ⟨⟨rfl, rfl⟩, hpasses, rfl, by decide, rfl, rfl⟩
  obtain ⟨S, p, hadded, hcreate⟩ := @create_adds modeBuiltins "d" _ _ sampleOutside hadds
  have hnot : ¬ Opens takenPlane.sessions (sessionRequest p (sampleRequest .real))
      (sampleRequest .real).peer sampleOutside.sessionNow := by
    intro hopens
    have hrequest : sessionRequest p (sampleRequest .real) =
        ⟨"s", "a", "f", ["b"], ["c"], 60000⟩ := by
      rw [sessionRequest, hadded.action]
      rfl
    rw [hrequest] at hopens
    have hsame := (hopens.existing otherSession (Dict.get?_set_self _ _ _)).2
    revert hsame
    decide
  obtain ⟨code, hcode⟩ := @openSession_of_not_opens { takenPlane with proposals := S }
    (sampleRequest .real) sampleOutside "r" p hnot
  have hstate : S.stateOf "r" = some .created := by
    have hfound : S.heap.get? "r" = some p := hadded.found
    rw [stateOf, hfound, Option.map_some, hadded.created]
  refine ⟨_, code, hcreate.trans hcode, hstate, fun hharmless => ?_⟩
  have hcreated := hharmless.created "r" rfl
  rw [hstate] at hcreated
  cases hcreated

end ProposalCreation

end Rosclaw
