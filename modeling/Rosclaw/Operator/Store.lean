/-
The store of operator proposals (`operator/store.py`, `operator/protocol.py`).

Proposals are mutable objects that callers go on holding after the store has
evicted them, so the model has a heap of all proposals ever created, by request
id, and the list of those the store still has.  Request ids are `uuid4` texts and
never repeat.

* `OperatorProposalStore.create`, `get`, `pending`, `all`, `status`,
  `transition` — the operations, each atomic under the lock of the store;
* `Expires` — what the lazy expiry of any of them can do to a proposal;
* `transition_spec` — what a transition does: any target, from any state.
-/
import Rosclaw.Daemon.Permits

namespace Rosclaw

inductive ProposalState
  | created | presented | accepted | permitIssued | submitted | terminal | declined | cancelled
  | expired | invalidated
deriving DecidableEq, Repr

namespace ProposalState

/-- `_TERMINAL_PROPOSAL_STATES`. -/
def isTerminal : ProposalState → Bool
  | terminal | declined | cancelled | expired | invalidated => true
  | _ => false

/-- `state in {CREATED, PRESENTED}`. -/
def isPending : ProposalState → Bool
  | created | presented => true
  | _ => false

def isDecision : ProposalState → Bool
  | accepted | declined | cancelled | invalidated => true
  | _ => false

end ProposalState

structure OperatorProposal where
  action : ActionEnvelope
  actionIntentHash : PyStr
  originPeer : PeerCredentials
  createdAt : DateTime
  expiresAt : DateTime
  challengeNonce : PyStr
  daemonInstanceId : PyStr
  state : ProposalState := .created
  operatorPrincipal : Option PyStr := none
  decisionChannel : Option PyStr := none
  decisionReason : Option PyStr := none
  decidedAt : Option DateTime := none
  failureCode : Option PyStr := none
  failureMessage : Option PyStr := none
  transitions : List (ProposalState × DateTime)
  auditedTransitionCount : Nat := 0

namespace OperatorProposal

def expire (now : DateTime) (p : OperatorProposal) : OperatorProposal :=
  if p.state.isPending ∧
      (p.expiresAt.instant ≤ now.instant ∨ p.action.deadlineAt.instant ≤ now.instant) then
    { p with
      state := .expired
      decidedAt := some now
      failureCode := some "PROPOSAL_EXPIRED"
      failureMessage := some "Operator proposal expired before a trusted decision"
      transitions := p.transitions ++ [(.expired, now)] }
  else p

/-- The optional arguments of `transition`. -/
structure Decision where
  operatorPrincipal : Option PyStr := none
  decisionChannel : Option PyStr := none
  decisionReason : Option PyStr := none
  failureCode : Option PyStr := none
  failureMessage : Option PyStr := none

/-- What `transition` writes. -/
def moveTo (state : ProposalState) (now : DateTime) (d : Decision) (p : OperatorProposal) :
    OperatorProposal :=
  { p with
    state := state
    operatorPrincipal := d.operatorPrincipal.or p.operatorPrincipal
    decisionChannel := d.decisionChannel.or p.decisionChannel
    decisionReason := d.decisionReason.or p.decisionReason
    decidedAt := if state.isDecision then some now else p.decidedAt
    failureCode := d.failureCode
    failureMessage := d.failureMessage
    transitions := p.transitions ++ [(state, now)] }

def markAudited (p : OperatorProposal) : OperatorProposal :=
  { p with auditedTransitionCount := p.transitions.length }

end OperatorProposal

/-- The store: the heap of proposals, the request ids it has, in the order of
their creation, and the request of each action. -/
structure OperatorProposalStore where
  capacity : Nat
  heap : Dict PyStr OperatorProposal := ∅
  proposals : List PyStr := []
  actionRequests : Dict PyStr PyStr := ∅

def MIN_PROPOSAL_TTL_SEC : Rat := 5
def MAX_PROPOSAL_TTL_SEC : Rat := 300

def ActionEnvelope.withoutAuthorization (a : ActionEnvelope) : ActionEnvelope :=
  ⟨{ a.toActionFields with authorization := {} }, a.valid⟩

namespace OperatorProposalStore

def stateOf (S : OperatorProposalStore) (requestId : PyStr) : Option ProposalState :=
  (S.heap.get? requestId).map OperatorProposal.state

def modify (S : OperatorProposalStore) (requestId : PyStr)
    (f : OperatorProposal → OperatorProposal) : OperatorProposalStore :=
  match S.heap.get? requestId with
  | some p => { S with heap := S.heap.set requestId (f p) }
  | none => S

def expireAll (S : OperatorProposalStore) (now : DateTime) : OperatorProposalStore :=
  { S with heap := S.heap.mapVals fun r p => if r ∈ S.proposals then p.expire now else p }

/-- `_ttl`, in microseconds. -/
def ttlMicros : PyVal → Except String Nat
  | .int n => seconds n
  | .float (.finite q) => seconds q
  | _ => .error "INVALID_PROPOSAL_TTL"
where
  seconds (q : Rat) : Except String Nat :=
    if MIN_PROPOSAL_TTL_SEC ≤ q ∧ q ≤ MAX_PROPOSAL_TTL_SEC then
      .ok (ActionEnvelope.roundHalfEven (q * 1000000)).toNat
    else .error "INVALID_PROPOSAL_TTL"

/-- `min(current + ttl, deadline_at)`. -/
def expiryOf (now : DateTime) (ttl : Nat) (deadlineAt : DateTime) : Except String DateTime :=
  match DateTime.ofParts (now.micros + ttl) now.offset with
  | some t => .ok (if deadlineAt.instant < t.instant then deadlineAt else t)
  | none => .error "OverflowError"

/-- `_evict_terminal_locked`: evict terminal proposals, oldest first, until there
is room. -/
def evictTerminal (S : OperatorProposalStore) : List PyStr → OperatorProposalStore
  | [] => S
  | r :: rs =>
    match S.heap.get? r with
    | some p =>
      if p.state.isTerminal then
        let S' := { S with
          proposals := S.proposals.filter (· ≠ r)
          actionRequests := S.actionRequests.erase p.action.actionId }
        if S'.proposals.length < S'.capacity then S' else evictTerminal S' rs
      else evictTerminal S rs
    | none => evictTerminal S rs

/-- What `create` takes from outside: the clock, the new request id and nonce, and
whether the display and the client reference are acceptable. -/
structure Creation where
  now : DateTime
  requestId : PyStr
  nonce : PyStr
  displayOk : Bool := true
  referenceOk : Bool := true

/-- The proposal `create` adds. -/
def newProposal (action : ActionEnvelope) (intentHash : PyStr) (peer : PeerCredentials)
    (daemonInstanceId : PyStr) (expiresAt : DateTime) (c : Creation) : OperatorProposal where
  action := action
  actionIntentHash := intentHash
  originPeer := peer
  createdAt := c.now
  expiresAt := expiresAt
  challengeNonce := c.nonce
  daemonInstanceId := daemonInstanceId
  transitions := [(.created, c.now)]

/-- The part of `create` under the lock: the request id of the proposal of the
action, an existing one where there is one. -/
def createLocked (py : Builtins) (S : OperatorProposalStore) (action : ActionEnvelope)
    (peer : PeerCredentials) (daemonInstanceId : PyStr) (expiresAt : DateTime) (c : Creation) :
    OperatorProposalStore × Except String PyStr :=
  match S.actionRequests.get? action.actionId with
  | some r =>
    match S.heap.get? r with
    | some existing =>
      if actionIntentHash py action = some existing.actionIntentHash then (S, .ok r)
      else (S, .error "PROPOSAL_ACTION_ID_CONFLICT")
    | none => (S, .error "KeyError")
  | none =>
    let S := if S.capacity ≤ S.proposals.length then S.evictTerminal S.proposals else S
    if S.capacity ≤ S.proposals.length then (S, .error "PROPOSAL_STORE_FULL")
    else match actionIntentHash py action, c.referenceOk with
      | some intentHash, true =>
        ({ S with
          heap := S.heap.set c.requestId
            (newProposal action intentHash peer daemonInstanceId expiresAt c)
          proposals := S.proposals ++ [c.requestId]
          actionRequests := S.actionRequests.set action.actionId c.requestId }, .ok c.requestId)
      | none, _ => (S, .error "ValueError")
      | _, false => (S, .error "INVALID_CLIENT_REFERENCE")

def create (py : Builtins) (S : OperatorProposalStore) (action : ActionEnvelope)
    (peer : PeerCredentials) (daemonInstanceId : PyStr) (ttl : PyVal) (c : Creation) :
    OperatorProposalStore × Except String PyStr :=
  match ttlMicros ttl with
  | .error code => (S, .error code)
  | .ok ttl =>
    if action.executionMode ≠ .real ∧ action.executionMode ≠ .shadow then
      (S, .error "PROPOSAL_REAL_ACTION_REQUIRED")
    else if action.bodySnapshotHash.isBlank then (S, .error "PROPOSAL_BODY_SNAPSHOT_REQUIRED")
    else if c.displayOk = false then (S, .error "INVALID_PROPOSAL_DISPLAY")
    else if action.deadlineAt.instant ≤ c.now.instant then (S, .error "ACTION_DEADLINE_EXPIRED")
    else match expiryOf c.now ttl action.deadlineAt with
      | .error code => (S, .error code)
      | .ok expiresAt =>
        createLocked py S action.withoutAuthorization peer daemonInstanceId expiresAt c

/-- `get`: the proposal, after lazy expiry. -/
def get (S : OperatorProposalStore) (requestId : PyStr) (now : DateTime) :
    OperatorProposalStore × Bool :=
  if requestId ∈ S.proposals then (S.modify requestId (OperatorProposal.expire now), true)
  else (S, false)

def all (S : OperatorProposalStore) (now : DateTime) : OperatorProposalStore × List PyStr :=
  (S.expireAll now, S.proposals)

def pending (S : OperatorProposalStore) (now : DateTime) :
    OperatorProposalStore × List PyStr :=
  let S := S.expireAll now
  (S, S.proposals.filter fun r => (S.stateOf r).any ProposalState.isPending)

/-- `status`; its counters are not modelled. -/
def status (S : OperatorProposalStore) (now : DateTime) : OperatorProposalStore := S.expireAll now

/-- `transition`; `false` when the proposal no longer belongs to the store and the
call raises. -/
def transition (S : OperatorProposalStore) (requestId : PyStr) (state : ProposalState)
    (now : DateTime) (d : OperatorProposal.Decision) : OperatorProposalStore × Bool :=
  if requestId ∈ S.proposals then
    (S.modify requestId (OperatorProposal.moveTo state now d), true)
  else (S, false)

/-! ### What the operations do to the states -/

variable (S : OperatorProposalStore) (requestId : PyStr) (state : ProposalState) (now : DateTime)
  (d : OperatorProposal.Decision)

theorem get?_modify (r r' : PyStr) (f : OperatorProposal → OperatorProposal) :
    (S.modify r f).heap.get? r' = if r = r' then (S.heap.get? r').map f else S.heap.get? r' := by
  unfold modify
  cases hp : S.heap.get? r with
  | none =>
    by_cases h : r = r'
    · subst h
      simp [hp]
    · simp [h]
  | some p =>
    simp only [Dict.get?_set]
    by_cases h : r = r'
    · subst h
      simp [hp]
    · simp [h]

@[simp] theorem proposals_modify (r : PyStr) (f : OperatorProposal → OperatorProposal) :
    (S.modify r f).proposals = S.proposals := by
  unfold modify
  cases S.heap.get? r <;> rfl

theorem stateOf_modify (r r' : PyStr) (f : OperatorProposal → OperatorProposal) :
    (S.modify r f).stateOf r' =
      if r = r' then (S.heap.get? r').map (fun p => (f p).state) else S.stateOf r' := by
  rw [stateOf, get?_modify]
  split
  · rw [Option.map_map]
    rfl
  · rfl

@[simp] theorem stateOf_modify_markAudited (r r' : PyStr) :
    (S.modify r OperatorProposal.markAudited).stateOf r' = S.stateOf r' := by
  rw [stateOf_modify]
  split
  · rfl
  · rfl

/-- A pending proposal may have expired; nothing else happened to the states. -/
def Expires (S S' : OperatorProposalStore) : Prop :=
  ∀ r, S'.stateOf r = S.stateOf r ∨
    ((S.stateOf r).any ProposalState.isPending = true ∧ S'.stateOf r = some .expired)

theorem Expires.refl : Expires S S := fun _ => .inl rfl

theorem state_expire (p : OperatorProposal) : (p.expire now).state = p.state ∨
      (p.state.isPending = true ∧ (p.expire now).state = .expired) := by
  unfold OperatorProposal.expire
  split
  · next h => exact .inr ⟨h.1, rfl⟩
  · exact .inl rfl

theorem expires_expireAll : Expires S (S.expireAll now) := by
  intro r
  unfold stateOf expireAll
  rw [Dict.get?_mapVals, Option.map_map]
  cases S.heap.get? r with
  | none => exact .inl rfl
  | some p =>
    by_cases hr : r ∈ S.proposals
    · simp only [Option.map_some, Function.comp_apply, if_pos hr]
      rcases state_expire now p with h | ⟨hp, h⟩
      · exact .inl (congrArg some h)
      · exact .inr ⟨hp, congrArg some h⟩
    · simp [hr]

theorem expires_get : Expires S (S.get requestId now).1 := by
  unfold get
  split
  swap
  · exact .refl S
  intro r
  rw [stateOf_modify]
  by_cases h : requestId = r
  · rw [if_pos h, stateOf]
    cases S.heap.get? r with
    | none => exact .inl rfl
    | some p =>
      rcases state_expire now p with h | ⟨hp, h⟩
      · exact .inl (congrArg some h)
      · exact .inr ⟨hp, congrArg some h⟩
  · exact .inl (if_neg h)

@[simp] theorem proposals_get : (S.get requestId now).1.proposals = S.proposals := by
  unfold get
  split <;> simp

/-- **What a transition does**: the target replaces whatever state there was. -/
theorem transition_spec : (requestId ∈ S.proposals ∧ (S.transition requestId state now d).2 = true ∧
      ∀ r, (S.transition requestId state now d).1.stateOf r =
        if requestId = r then (S.stateOf r).map fun _ => state else S.stateOf r) ∨
    (requestId ∉ S.proposals ∧ (S.transition requestId state now d) = (S, false)) := by
  unfold transition
  by_cases h : requestId ∈ S.proposals
  · refine .inl ⟨h, by rw [if_pos h], fun r => ?_⟩
    rw [if_pos h, stateOf_modify]
    split
    · simp [stateOf, OperatorProposal.moveTo, Function.comp_def]
    · rfl
  · exact .inr ⟨h, if_neg h⟩

@[simp] theorem proposals_transition :
    (S.transition requestId state now d).1.proposals = S.proposals := by
  unfold transition
  split <;> simp

theorem heap_evictTerminal (rs : List PyStr) : (S.evictTerminal rs).heap = S.heap := by
  induction rs generalizing S with
  | nil => rfl
  | cons r rs ih =>
    unfold evictTerminal
    cases S.heap.get? r with
    | none => exact ih S
    | some p =>
      by_cases ht : p.state.isTerminal = true
      · simp only [if_pos ht]
        split
        · rfl
        · exact ih _
      · simp only [if_neg ht]
        exact ih S

theorem mem_evictTerminal {S : OperatorProposalStore} {rs : List PyStr} {r : PyStr}
    (h : r ∈ S.proposals) :
    r ∈ (S.evictTerminal rs).proposals ∨ (S.stateOf r).any ProposalState.isTerminal = true := by
  induction rs generalizing S with
  | nil => exact .inl h
  | cons r' rs ih =>
    unfold evictTerminal
    cases hp : S.heap.get? r' with
    | none => exact ih h
    | some p =>
      by_cases ht : p.state.isTerminal = true
      · simp only [if_pos ht]
        by_cases hr : r = r'
        · subst hr
          exact .inr (by simp [stateOf, hp, ht])
        · have hmem : r ∈ S.proposals.filter (· ≠ r') := List.mem_filter.mpr ⟨h, by simpa using hr⟩
          split
          · exact .inl hmem
          · exact ih hmem
      · simp only [if_neg ht]
        exact ih h

/-- What `create` does: it may evict terminal proposals, and may add one that is
`CREATED`. -/
theorem create_spec (py : Builtins) (S : OperatorProposalStore) (action : ActionEnvelope)
    (peer : PeerCredentials) (instanceId : PyStr) (ttl : PyVal) (c : Creation)
    (hfresh : S.heap.get? c.requestId = none) :
    let S' := (S.create py action peer instanceId ttl c).1
    (∀ r ∈ S.proposals, r ∈ S'.proposals ∨ (S.stateOf r).any ProposalState.isTerminal = true) ∧
    ∀ r, S'.stateOf r = S.stateOf r ∨
      (S.stateOf r = none ∧ S'.stateOf r = some .created ∧ r ∈ S'.proposals) := by
  have hsame : (∀ r ∈ S.proposals,
        r ∈ S.proposals ∨ (S.stateOf r).any ProposalState.isTerminal = true) ∧
      ∀ r, S.stateOf r = S.stateOf r ∨
        (S.stateOf r = none ∧ S.stateOf r = some .created ∧ r ∈ S.proposals) :=
    ⟨fun r h => .inl h, fun r => .inl rfl⟩
  unfold create
  cases ttlMicros ttl with
  | error code => exact hsame
  | ok ttl =>
    dsimp only
    split
    · exact hsame
    split
    · exact hsame
    split
    · exact hsame
    split
    · exact hsame
    cases expiryOf c.now ttl action.deadlineAt with
    | error code => exact hsame
    | ok expiresAt =>
      dsimp only
      unfold createLocked
      cases S.actionRequests.get? action.withoutAuthorization.actionId with
      | some r =>
        dsimp only
        cases S.heap.get? r with
        | none => exact hsame
        | some existing =>
          dsimp only
          split <;> exact hsame
      | none =>
        dsimp only
        -- from here on some terminal proposals may be gone
        generalize hS₁ : (if S.capacity ≤ S.proposals.length then S.evictTerminal S.proposals
          else S) = S₁
        have hheap : S₁.heap = S.heap := by
          rw [← hS₁]
          split
          · exact heap_evictTerminal S S.proposals
          · rfl
        have hmem : ∀ r ∈ S.proposals,
            r ∈ S₁.proposals ∨ (S.stateOf r).any ProposalState.isTerminal = true := by
          intro r hr
          rw [← hS₁]
          split
          · exact mem_evictTerminal hr
          · exact .inl hr
        have hstate : ∀ r, S₁.stateOf r = S.stateOf r := fun r => by
          rw [stateOf, stateOf, hheap]
        split
        · exact ⟨hmem, fun r => .inl (hstate r)⟩
        split
        · refine ⟨fun r hr => (hmem r hr).imp_left fun h => List.mem_append_left _ h, fun r => ?_⟩
          by_cases hr : c.requestId = r
          · subst hr
            exact .inr ⟨by simp [stateOf, hfresh], by simp [stateOf, newProposal], by simp⟩
          · left
            rw [← hstate r]
            simp [stateOf, Dict.get?_set_of_ne _ _ hr]
        · exact ⟨hmem, fun r => .inl (hstate r)⟩
        · exact ⟨hmem, fun r => .inl (hstate r)⟩

end OperatorProposalStore

end Rosclaw
