/-
What the threads of the control plane can do to the daemon, as a short list of moves.

Every stretch of code is a chain of moves, so an invariant is proved for each move
and holds after each stretch.

* `exec_moves` — a task makes only moves of its kinds.
-/
import Rosclaw.Daemon.ControlPlane
import Rosclaw.Daemon.PermitLaws

namespace Rosclaw

open Option Ledger SessionManager

/-! ### The ledger -/

/-- The ledger after calls that wrote events of these kinds only. -/
structure Writes (K : String → Prop) (L L' : Ledger) : Prop where
  usable : L'.Usable → L.Usable
  events : ∃ es, L'.events = L.events ++ es ∧ ∀ e ∈ es, K e.entityKind

namespace Writes

variable {K : String → Prop} {L L' L'' : Ledger}

theorem refl (K : String → Prop) (L : Ledger) : Writes K L L := ⟨id, [], by simp, by simp⟩

theorem trans (h : Writes K L L') (h' : Writes K L' L'') : Writes K L L'' := by
  obtain ⟨hu, es, he, hk⟩ := h
  obtain ⟨hu', es', he', hk'⟩ := h'
  refine ⟨hu ∘ hu', es ++ es', by rw [he', he, List.append_assoc], fun e hmem => ?_⟩
  rcases List.mem_append.mp hmem with hmem | hmem
  · exact hk e hmem
  · exact hk' e hmem

theorem append (py : Builtins) (L : Ledger) {e : LedgerEvent} (he : K e.entityKind) :
    Writes K L (L.append py e).1 := by
  rcases append_cases py L e with ⟨hu, -, -, e', hs, hev⟩ | ⟨-, hev, hkeep⟩ |
    ⟨hu, -, -, e', hs, hev⟩
  · exact ⟨fun _ => hu, [e'], hev, by simpa [hs.2.1] using he⟩
  · exact ⟨hkeep, [], by simpa using hev, by simp⟩
  · exact ⟨fun _ => hu, [e'], hev, by simpa [hs.2.1] using he⟩

theorem read (K : String → Prop) (L : Ledger) (kind : String) (entityId : Option PyStr) :
    Writes K L (L.read kind entityId).1 := by
  refine ⟨fun hu => ?_, [], by simp [read_events], by simp⟩
  unfold Ledger.read at hu
  split at hu
  · exact hu
  · cases hro : L.readOutcome with
    | answered =>
      rw [hro] at hu
      dsimp only at hu
      split at hu <;> exact hu
    | refused =>
      rw [hro] at hu
      exact hu
    | failed =>
      rw [hro] at hu
      exact absurd hu.1 (by simp)

theorem isPrefix (h : Writes K L L') : L.events <+: L'.events := by
  obtain ⟨-, es, he, -⟩ := h
  exact ⟨es, he.symm⟩

theorem select (h : Writes K L L') {kind : String} (hk : ¬ K kind) (entityId : Option PyStr) :
    L'.select kind entityId = L.select kind entityId := by
  obtain ⟨-, es, he, hes⟩ := h
  have hnil : es.filter (fun e => e.entityKind = kind && entityId.all (e.entityId = ·)) = [] := by
    rw [List.filter_eq_nil_iff]
    intro e hmem hsel
    rw [Bool.and_eq_true, decide_eq_true_eq] at hsel
    exact hk (hsel.1 ▸ hes e hmem)
  rw [Ledger.select, Ledger.select, he, List.filter_append, hnil, List.append_nil]

theorem mono {K' : String → Prop} (h : Writes K L L') (hK : ∀ k, K k → K' k) : Writes K' L L' := by
  obtain ⟨hu, es, he, hes⟩ := h
  exact ⟨hu, es, he, fun e hmem => hK _ (hes e hmem)⟩

end Writes

def Unread (kind : String) : Prop := kind ≠ "ACTION" ∧ kind ≠ "RECOVERY" ∧ kind ≠ "PERMIT"

instance (kind : String) : Decidable (Unread kind) := by unfold Unread; infer_instance

namespace PermitAuthority

variable {i q : PyStr} (py : Builtins) (reason : PyStr) (now : DateTime) (L : Ledger)
  (A : PermitAuthority) (p : ExecutionPermit) (ctx : Option PyVal.Dictionary)
  (targets : List PyStr) (a : ActionEnvelope) (peer : PeerCredentials)

theorem register_writes : Writes (· = "PERMIT") L (A.register py L p ctx).1 := by
  unfold register
  cases A.permits.get? p.permitId with
  | some existing => exact .refl _ L
  | none =>
    have hw : Writes (· = "PERMIT") L (L.append py (registeredEvent p ctx)).1 := .append py L rfl
    rcases hL : L.append py (registeredEvent p ctx) with ⟨L', _ | fault⟩ <;>
      (rw [hL] at hw; simpa only [hL] using hw)

theorem revokeEach_writes : Writes (· = "PERMIT") L (revokeEach py reason L A targets).1 := by
  induction targets generalizing L A with
  | nil => exact .refl _ L
  | cons p targets ih =>
    have hw : Writes (· = "PERMIT") L (revokeLocked py L A reason p).1 := .append py L rfl
    rw [revokeEach]
    rcases hr : revokeLocked py L A reason p with ⟨L', A', _ | fault⟩ <;> rw [hr] at hw
    · exact hw.trans (ih L' A')
    · exact hw

theorem append_consumptions {e : LedgerEvent} (he : e.eventType ≠ "PERMIT_CONSUMED") (a : PyStr) :
    consumptions (L.append py e).1.events a = consumptions L.events a := by
  have hsnoc : ∀ e', Ledger.Stored e e' →
      consumptions (L.events ++ [e']) a = consumptions L.events a := by
    intro e' hs
    have hnot : isConsumption a e' = false := not_consumption_of_type (hs.1 ▸ he) a
    simp [consumptions, hnot]
  rcases append_cases py L e with ⟨-, -, -, e', hs, hev⟩ | ⟨-, hev, -⟩ |
    ⟨-, -, -, e', hs, hev⟩
  · rw [hev, hsnoc e' hs]
  · rw [hev]
  · rw [hev, hsnoc e' hs]

theorem register_consumptions (a : PyStr) :
    consumptions (A.register py L p ctx).1.events a = consumptions L.events a := by
  unfold register
  cases A.permits.get? p.permitId with
  | some existing => rfl
  | none =>
    have h := append_consumptions py L (e := registeredEvent p ctx)
      (show "PERMIT_REGISTERED" ≠ "PERMIT_CONSUMED" by decide) a
    rcases hL : L.append py (registeredEvent p ctx) with ⟨L', _ | fault⟩ <;>
      (rw [hL] at h; simpa only [hL] using h)

theorem contains_register {py : Builtins} {L : Ledger} {A : PermitAuthority} {p : ExecutionPermit}
    {ctx : Option PyVal.Dictionary}
    (h : (A.register py L p ctx).2.1.permits.contains q = true) :
    A.permits.contains q = true ∨ L.Usable := by
  unfold register at h
  cases hp : A.permits.get? p.permitId with
  | some existing => exact .inl (by simpa only [hp] using h)
  | none =>
    rcases hL : L.append py (registeredEvent p ctx) with ⟨L', _ | fault⟩
    · exact .inr (append_returned (congrArg Prod.snd hL)).1
    · exact .inl (by simpa only [hp, hL] using h)

theorem revokeEach_consumptions (a : PyStr) :
    consumptions (revokeEach py reason L A targets).1.events a = consumptions L.events a := by
  induction targets generalizing L A with
  | nil => rfl
  | cons p targets ih =>
    have h : consumptions (revokeLocked py L A reason p).1.events a = consumptions L.events a :=
      append_consumptions py L (show "PERMIT_REVOKED" ≠ "PERMIT_CONSUMED" by decide) a
    rw [revokeEach]
    rcases hr : revokeLocked py L A reason p with ⟨L', A', _ | fault⟩ <;> rw [hr] at h
    · exact (ih L' A').trans h
    · exact h

theorem authorize_permits : (A.authorize py now L a peer).2.1.permits = A.permits := by
  have hcases := authorize_cases py now L A a peer
  generalize A.authorize py now L a peer = r at hcases
  cases hcases <;> rfl

theorem authorize_consumptions (hi : i ≠ a.actionId) :
    consumptions (A.authorize py now L a peer).1.events i = consumptions L.events i := by
  have happend : ∀ pid ih, consumptions (L.append py (consumedEvent pid a.actionId peer ih)).1.events i
      = consumptions L.events i := by
    intro pid ih
    have hsnoc : ∀ e, Ledger.Stored (consumedEvent pid a.actionId peer ih) e →
        consumptions (L.events ++ [e]) i = consumptions L.events i := by
      intro e hs
      have hnot : ¬ isConsumption i e = true := by
        intro hc
        have hself := (isConsumption_iff.mp (isConsumption_stored hs).1).2.2
        rw [(isConsumption_iff.mp hc).2.2] at hself
        exact hi (PyVal.str.inj hself)
      simp [consumptions, hnot]
    rcases append_cases py L (consumedEvent pid a.actionId peer ih) with
      ⟨-, -, -, e, hs, hev⟩ | ⟨-, hev, -⟩ | ⟨-, -, -, e, hs, hev⟩
    · rw [hev, hsnoc e hs]
    · rw [hev]
    · rw [hev, hsnoc e hs]
  have hcases := authorize_cases py now L A a peer
  generalize A.authorize py now L a peer = r at hcases
  cases hcases with
  | denied | raised | replayed => rfl
  | @consumed p e L' _ _ _ he hL =>
    have h := happend (approvalIdOf py a) p.actionIntentHash
    rw [← he, hL] at h
    exact h
  | @appendRaised p e L' fault _ _ he hL =>
    have h := happend (approvalIdOf py a) p.actionIntentHash
    rw [← he, hL] at h
    exact h

theorem authorize_writes : Writes (· = "PERMIT") L (A.authorize py now L a peer).1 := by
  generalize hr : A.authorize py now L a peer = r
  have hcases := authorize_cases py now L A a peer
  rw [hr] at hcases
  cases hcases with
  | denied h => exact .refl _ L
  | raised => exact .refl _ L
  | replayed hm hc => exact .refl _ L
  | @consumed p e L' hm hc hu he hL =>
    have hw : Writes (· = "PERMIT") L (L.append py e).1 := .append py L (he ▸ rfl)
    rw [hL] at hw
    exact hw
  | @appendRaised p e L' fault hm hc he hL =>
    have hw : Writes (· = "PERMIT") L (L.append py e).1 := .append py L (he ▸ rfl)
    rw [hL] at hw
    exact hw

end PermitAuthority

/-! ### Jobs -/

/-- The job with other lease times or stop fields. -/
structure Touched (j j' : ActionJob) : Prop where
  action : j'.action = j.action
  peer : j'.peer = j.peer
  state : j'.state = j.state
  submittedAt : j'.submittedAt = j.submittedAt
  receipt : j'.receipt = j.receipt
  future : j'.future = j.future
  terminalOverride : j'.terminalOverride = j.terminalOverride

theorem Touched.refl (j : ActionJob) : Touched j j := ⟨rfl, rfl, rfl, rfl, rfl, rfl, rfl⟩

/-- The job with an override that it may just have got. -/
structure Marked (j j' : ActionJob) : Prop where
  action : j'.action = j.action
  peer : j'.peer = j.peer
  state : j'.state = j.state
  submittedAt : j'.submittedAt = j.submittedAt
  receipt : j'.receipt = j.receipt
  future : j'.future = j.future
  terminalOverride : j'.terminalOverride = j.terminalOverride ∨
    (j.terminalOverride = none ∧ j.state.isActive = true)

/-- The job whose future may have been cancelled before a thread took it. -/
def Unscheduled (j j' : ActionJob) : Prop :=
  j' = j ∨ (j.future = some .pending ∧ j' = Daemon.withdrawn j)

namespace Daemon

def JobsRel (R : ActionJob → ActionJob → Prop) (jobs jobs' : Dict PyStr ActionJob) : Prop :=
  ∀ id, Option.Rel R (jobs.get? id) (jobs'.get? id)

variable {R : ActionJob → ActionJob → Prop} {d d' : Daemon} {peer : PeerCredentials} {r : Readings}
  (g : Gateway)

theorem JobsRel.refl (hR : ∀ j, R j j) (jobs : Dict PyStr ActionJob) : JobsRel R jobs jobs := by
  intro id
  cases jobs.get? id with
  | none => exact .none
  | some j => exact .some (hR j)

variable {id : PyStr}

theorem JobsRel.set (hR : ∀ j, R j j) {jobs : Dict PyStr ActionJob} {j j' : ActionJob}
    (hj : jobs.get? id = some j) (h : R j j') : JobsRel R jobs (jobs.set id j') := by
  intro i
  rw [Dict.get?_set]
  by_cases hi : id = i
  · subst hi
    rw [if_pos rfl, hj]
    exact .some h
  · rw [if_neg hi]
    exact JobsRel.refl hR jobs i

theorem JobsRel.mapVals {f : PyStr → ActionJob → ActionJob} (hf : ∀ id j, R j (f id j))
    (jobs : Dict PyStr ActionJob) : JobsRel R jobs (jobs.mapVals f) := by
  intro id
  rw [Dict.get?_mapVals]
  cases jobs.get? id with
  | none => exact .none
  | some j => exact .some (hf id j)

/-! ### Moves -/

inductive MoveKind
  | flags | supervise | note | authority | sessions | latch | touch | mark | unschedule | evict | create
  | finish | returned | recovery | settle | direct
deriving DecidableEq

def Discards (g g' : Gateway) : Prop :=
  g'.executors = g.executors ∧ g'.inflight = g.inflight ∧ g'.waiters = g.waiters ∧
    ∀ id rc, g'.receipts.get? id = some rc → g.receipts.get? id = some rc

/-- The final states with which a job that no thread took is refused, and the
scheduler states that go with them. -/
def Refuses (j : ActionJob) (final : ActionState) (state : JobState) : Prop :=
  (final = .cancelled ∧ state = .cancelled) ∨ (final = .failed ∧ state = .finished) ∨
    (j.terminalOverride.map TerminalOverride.state = some final ∧ state = .finished)

inductive Move (C : DaemonConfig) (env : Answers) : MoveKind → Daemon → Daemon → Prop
  | flags (d : Daemon) (freeSlots : Nat) (failed : Bool) :
      Move C env .flags d { d with freeSlots := freeSlots, ledgerWriteFailed := failed }
  | supervise (d : Daemon) (supervision : SupervisionState) (running closed : Bool) :
      Move C env .supervise d { d with
        supervision := supervision
        running := running
        closed := closed }
  | note {d : Daemon} {L : Ledger} (h : Writes Unread d.ledger L) :
      Move C env .note d { d with ledger := L }
  | authority {d : Daemon} {L : Ledger} {A : PermitAuthority} (h : Writes (· = "PERMIT") d.ledger L)
      (hk : Live d.ledger d.authority →
        OnceConsumed d.ledger.events →
        Rosclaw.Kept d.ledger d.authority L A)
      (hc : ∀ a, consumptions L.events a = consumptions d.ledger.events a)
      (hp : ∀ p, A.permits.contains p = true →
        d.authority.permits.contains p = true ∨ d.ledger.Usable) :
      Move C env .authority d { d with ledger := L, authority := A }
  | sessions {d : Daemon} {m : SessionManager}
      (h : SessionManager.Filed d.sessions → SessionManager.Kept d.sessions m) :
      Move C env .sessions d { d with sessions := m }
  | latch (d : Daemon) : Move C env .latch d { d with latched := true }
  | touch {d : Daemon} {jobs : Dict PyStr ActionJob} (h : JobsRel Touched d.jobs jobs) :
      Move C env .touch d { d with jobs := jobs }
  | mark {d : Daemon} {jobs : Dict PyStr ActionJob} (h : JobsRel Marked d.jobs jobs) :
      Move C env .mark d { d with jobs := jobs }
  | unschedule {d : Daemon} {jobs : Dict PyStr ActionJob} (h : JobsRel Unscheduled d.jobs jobs) :
      Move C env .unschedule d { d with jobs := jobs }
  | evict {d : Daemon} {retained : List PyStr} {g : Gateway} (hr : retained ⊆ d.retained)
      (hkeep : ∀ id ∈ d.retained, id ∉ retained →
        ∃ j, d.jobs.get? id = some j ∧ j.state.isActive = false)
      (hg : Discards d.gateway g) : Move C env .evict d { d with retained := retained, gateway := g }
  /-- an action that the ledger does not know is written to it, but no job is made -/
  | submitted {d : Daemon} {j : ActionJob} {L : Ledger} {e : LedgerEvent}
      (hframed : j.action.toDict.tupleFree = true)
      (hlease : j.lastLeaseRenewedAt.instant < j.leaseExpiresAt.instant)
      (hnew : d.ledger.select "ACTION" (some j.action.actionId) = []) (hu : d.ledger.Usable)
      (hL : ¬ L.Usable) (he : Ledger.Stored (submittedEvent j) e)
      (hev : L.events = d.ledger.events ++ [e]) :
      Move C env .create d ({ d with ledger := L }.happen (.created j))
  /-- an action that the ledger does not know gets a job -/
  | created {d : Daemon} {j : ActionJob} {L : Ledger} {e : LedgerEvent}
      (hframed : j.action.toDict.tupleFree = true)
      (hreal : j.action.executionMode = .real → d.recoveryRequired = false)
      (hstate : j.state = .queued ∧ j.future = none ∧ j.terminalOverride = none)
      (hlease : j.lastLeaseRenewedAt.instant < j.leaseExpiresAt.instant)
      (hnew : d.ledger.select "ACTION" (some j.action.actionId) = []) (hu : d.ledger.Usable)
      (hL : L.Usable) (he : Ledger.Stored (submittedEvent j) e)
      (hev : L.events = d.ledger.events ++ [e]) :
      Move C env .create d (({ { d with ledger := L }.happen (.created j) with
        retained := d.retained ++ [j.action.actionId] }).setJob j.action.actionId j)
  /-- its job goes to the pool -/
  | scheduled {d : Daemon} {id : PyStr} {j : ActionJob} (hj : d.jobs.get? id = some j)
      (hstate : j.state = .queued ∧ j.future = none) :
      Move C env .create d (d.setJob id (scheduled j))
  /-- a queued job that no thread will take is refused, and the outcome written -/
  | finish {d : Daemon} {j : ActionJob} (hj : d.jobs.get? j.action.actionId = some j)
      (hstate : j.state = .queued) (hfuture : j.future = none ∨ j.future = some .cancelled)
      {final : ActionState} {state : JobState} (hfinal : Refuses j final state) (code : String)
      (message : PyStr) (n : Nat) :
      Move C env .finish d (((d.reject j.action code message final (env.readings.after n)).1.finishJob
        C j state (d.reject j.action code message final (env.readings.after n)).2.entries
        (env.readings.clock (n + 4))).1)
  | returned {d : Daemon} {a : ActionEnvelope} {peer : PeerCredentials} {j : ActionJob}
      (hj : d.jobs.get? a.actionId = some j ∨
        decodePersistedJob C.py env.readings (d.ledger.select "ACTION" (some a.actionId)) = some j)
      (howner : ownsJob C j (some peer) = true) (heq : j.action.toDict.pyEq a.toDict = true) :
      Move C env .returned d (d.happen (.returned a peer j))
  | recovery {d : Daemon} {L : Ledger} (h : Writes (· = "RECOVERY") d.ledger L) (p : Recovery)
      (owed : List PyStr) :
      Move C env .recovery d { ({ d with ledger := L } : Daemon).setRecovery p with owed := owed }
  | settle (d : Daemon) (settled : List PyStr) : Move C env .settle d { d with settled := settled }
  | direct {d d' : Daemon} (p : GatewayPoint) {next : GatewayPoint ⊕ ExecutionReceipt}
      (h : d.submitAction C none env p = some (d', next)) : Move C env .direct d d'

def Moves (C : DaemonConfig) (env : Answers) (ks : List MoveKind) : Daemon → Daemon → Prop :=
  Relation.ReflTransGen fun d d' => ∃ k ∈ ks, Move C env k d d'

namespace Moves

variable {C : DaemonConfig} {env : Answers} {ks : List MoveKind} {d d' d'' : Daemon}

theorem refl (d : Daemon) : Moves C env ks d d := Relation.ReflTransGen.refl

theorem single {k : MoveKind} (hk : k ∈ ks) (h : Move C env k d d') : Moves C env ks d d' :=
  Relation.ReflTransGen.single ⟨k, hk, h⟩

theorem trans (h : Moves C env ks d d') (h' : Moves C env ks d' d'') : Moves C env ks d d'' :=
  Relation.ReflTransGen.trans h h'

/-- **The invariant rule for a chain of moves.** -/
theorem invariant {P : Daemon → Prop} (hP : ∀ k ∈ ks, ∀ d d', P d → Move C env k d d' → P d')
    (h : Moves C env ks d d') (hd : P d) : P d' := by
  induction h with
  | refl => exact hd
  | tail _ hstep ih =>
    obtain ⟨k, hk, hm⟩ := hstep
    exact hP k hk _ _ ih hm

end Moves

/-! ### The moves of the helpers -/

variable {C : DaemonConfig} {env : Answers} {ks : List MoveKind}

theorem moves_markFailure (hk : .flags ∈ ks) (d : Daemon) : Moves C env ks d d.markFailure :=
  .single hk (.flags d d.freeSlots true)

theorem moves_markOn (hk : .flags ∈ ks) (d : Daemon) (f : Option LedgerFault) :
    Moves C env ks d (d.markOn f) := by
  cases f with
  | none => exact .refl d
  | some fault => exact moves_markFailure hk d

theorem moves_note (hk : .flags ∈ ks ∧ .note ∈ ks) (d : Daemon) {e : LedgerEvent}
    (he : Unread e.entityKind) : Moves C env ks d (d.note C e) :=
  .trans (.single hk.2 (.note (.append C.py d.ledger he))) (moves_markOn hk.1 _ _)

theorem moves_loadPersistedJob (hk : .flags ∈ ks ∧ .note ∈ ks) (d : Daemon) (id : PyStr)
    (r : Readings) : Moves C env ks d (d.loadPersistedJob C id r).1 := by
  have hw := Writes.read Unread d.ledger "ACTION" (some id)
  unfold loadPersistedJob
  rcases hr : d.ledger.read "ACTION" (some id) with ⟨L, fault | es⟩ <;> rw [hr] at hw
  · exact .trans (.single hk.2 (.note hw)) (moves_markFailure hk.1 _)
  · exact .single hk.2 (.note hw)

theorem moves_findJob (hk : .flags ∈ ks ∧ .note ∈ ks) (d : Daemon) (id : PyStr) (r : Readings) :
    Moves C env ks d (d.findJob C id r).1 := by
  unfold findJob
  cases d.job? id with
  | some j => exact .refl d
  | none => exact moves_loadPersistedJob hk d id r

variable {j : ActionJob}

theorem job?_eq_some : d.job? id = some j ↔ id ∈ d.retained ∧ d.jobs.get? id = some j := by
  unfold job?
  split <;> simp_all

theorem findJob_some (h : d.findJob C id r = (d', some (some j))) :
    d' = d ∧ (d.job? id = some j ∨ (d.job? id = none ∧
      decodePersistedJob C.py r (d.ledger.select "ACTION" (some id)) = some j)) := by
  unfold findJob at h
  cases hjob : d.job? id with
  | some j' =>
    simp only [hjob, Prod.mk.injEq, Option.some.injEq] at h
    exact ⟨h.1.symm, .inl (congrArg some h.2)⟩
  | none =>
    simp only [hjob] at h
    unfold loadPersistedJob at h
    rcases hread : d.ledger.read "ACTION" (some id) with ⟨L, fault | es⟩
    · simp [hread] at h
    · obtain ⟨-, rfl, rfl⟩ := read_ok hread
      rw [hread] at h
      dsimp only at h
      split at h
      · simp at h
      · simp only [Prod.mk.injEq, map_eq_some_iff, Option.some.injEq, exists_eq_right] at h
        exact ⟨h.1.symm, .inr ⟨rfl, h.2⟩⟩

theorem findJob_none (h : d.findJob C id r = (d', some none)) :
    d' = d ∧ d.ledger.Usable ∧ d.ledger.select "ACTION" (some id) = [] := by
  unfold findJob at h
  cases hjob : d.job? id with
  | some j => simp [hjob] at h
  | none =>
    simp only [hjob] at h
    unfold loadPersistedJob at h
    rcases hread : d.ledger.read "ACTION" (some id) with ⟨L, fault | es⟩
    · simp [hread] at h
    · obtain ⟨hu, rfl, rfl⟩ := read_ok hread
      rw [hread] at h
      dsimp only at h
      split at h
      · next hes =>
        simp only [Prod.mk.injEq, and_true] at h
        exact ⟨h.symm, hu, List.isEmpty_iff.mp hes⟩
      · simp at h

theorem discards_refl : Discards g g := ⟨rfl, rfl, rfl, fun _ _ h => h⟩

theorem Discards.trans {g g' g'' : Gateway} (h : Discards g g') (h' : Discards g' g'') :
    Discards g g'' := by
  obtain ⟨he, hi, hw, hr⟩ := h
  obtain ⟨he', hi', hw', hr'⟩ := h'
  exact ⟨he'.trans he, hi'.trans hi, hw'.trans hw, fun id rc hrc => hr id rc (hr' id rc hrc)⟩

theorem discards_discardReceipt (id : PyStr) : Discards g (g.discardReceipt id) := by
  unfold Gateway.discardReceipt
  split
  · exact discards_refl g
  · refine ⟨rfl, rfl, rfl, fun i rc hrc => ?_⟩
    rw [Dict.get?_erase] at hrc
    split at hrc
    · simp at hrc
    · exact hrc

theorem evictJobs_spec (target : Nat) (d : Daemon) (ids : List PyStr) :
    ∃ retained g, d.evictJobs target ids = { d with retained := retained, gateway := g } ∧
      retained ⊆ d.retained ∧ Discards d.gateway g ∧
      ∀ id ∈ d.retained, id ∉ retained → ∃ j, d.jobs.get? id = some j ∧ j.state.isActive = false := by
  have hsame : ∃ retained g, d = { d with retained := retained, gateway := g } ∧
      retained ⊆ d.retained ∧ Discards d.gateway g ∧
      ∀ id ∈ d.retained, id ∉ retained → ∃ j, d.jobs.get? id = some j ∧ j.state.isActive = false :=
    ⟨d.retained, d.gateway, rfl, fun _ h => h, discards_refl _, fun _ h h' => absurd h h'⟩
  induction ids generalizing d with
  | nil => exact hsame
  | cons id ids ih =>
    have ih' := fun d => ih d ⟨d.retained, d.gateway, rfl, fun _ h => h, discards_refl _,
      fun _ h h' => absurd h h'⟩
    rw [evictJobs]
    split
    · exact hsame
    cases hj : d.jobs.get? id with
    | none => exact ih' d
    | some j =>
      dsimp only
      by_cases hactive : j.state.isActive = true
      · rw [if_pos hactive]
        exact ih' d
      rw [if_neg hactive]
      obtain ⟨retained, g, heq, hsub, hg, hkeep⟩ := ih' { d with
        retained := d.retained.filter (· ≠ id)
        gateway := d.gateway.discardReceipt id }
      refine ⟨retained, g, heq, fun i hi => (List.mem_filter.mp (hsub hi)).1,
        (discards_discardReceipt d.gateway id).trans hg, fun i hi hni => ?_⟩
      by_cases hid : i = id
      · exact ⟨j, hid ▸ hj, by simpa using hactive⟩
      · exact hkeep i (List.mem_filter.mpr ⟨hi, by simpa using hid⟩) hni

theorem moves_evict (hk : .evict ∈ ks) (d : Daemon) (reserve : Nat) :
    Moves C env ks d (d.evict C reserve) := by
  obtain ⟨retained, g, heq, hsub, hg, hkeep⟩ := evictJobs_spec (C.maxRetained - reserve) d d.retained
  rw [evict, heq]
  exact .single hk (.evict hsub hkeep hg)

theorem moves_setJob_touch (hk : .touch ∈ ks) {j j' : ActionJob} (hj : d.jobs.get? id = some j)
    (h : Touched j j') : Moves C env ks d (d.setJob id j') :=
  .single hk (.touch (JobsRel.set Touched.refl hj h))

theorem moves_withdraw (hk : .unschedule ∈ ks ∧ .flags ∈ ks) (hj : d.jobs.get? id = some j)
    (hf : j.future = some .pending) : Moves C env ks d (d.withdraw id j) :=
  .trans (.single hk.1 (.unschedule (JobsRel.set (fun _ => .inl rfl) hj (.inr ⟨hf, rfl⟩))))
    (.single hk.2 (.flags _ (d.freeSlots + 1) d.ledgerWriteFailed))

theorem get?_withdraw (j : ActionJob) : (d.withdraw id j).jobs.get? id = some (withdrawn j) := by
  simp [withdraw, setJob]

theorem after_zero (r : Readings) : r.after 0 = r := by
  unfold Readings.after
  simp

theorem moves_finish (hk : .finish ∈ ks ∧ .flags ∈ ks) {n : Nat} (hr : r = env.readings.after n)
    (hj : d.jobs.get? j.action.actionId = some j) (hstate : j.state = .queued)
    (hfuture : j.future = none ∨ j.future = some .cancelled) {final : ActionState}
    {state : JobState} (hfinal : Refuses j final state) (code : String) (message : PyStr)
    {rejected : Daemon × ExecutionReceipt} {finished : Daemon × Option LedgerFault}
    (hrejected : rejected = d.reject j.action code message final r)
    (hfinished : finished = rejected.1.finishJob C j state rejected.2.entries (r.clock 4)) :
    Moves C env ks d (finished.1.markOn finished.2) := by
  subst hr hrejected hfinished
  exact .trans (.single hk.1 (.finish hj hstate hfuture hfinal code message n)) (moves_markOn hk.2 _ _)

theorem moves_terminalize (hk : .unschedule ∈ ks ∧ .flags ∈ ks ∧ .finish ∈ ks) (d : Daemon)
    (hfiled : ∀ id j, d.jobs.get? id = some j → j.action.actionId = id) (id : PyStr) :
    Moves C env ks d (d.terminalize C id env) := by
  unfold terminalize
  cases hj : d.jobs.get? id with
  | none => exact .refl d
  | some j =>
    dsimp only
    split
    · next h =>
      obtain rfl := hfiled id j hj
      refine (moves_withdraw ⟨hk.1, hk.2.1⟩ hj h.2).trans ?_
      split
      · next o ho =>
        exact moves_finish ⟨hk.2.2, hk.2.1⟩ (after_zero _).symm (get?_withdraw j) h.1 (.inr rfl)
          (.inr (.inr ⟨by simp [withdrawn, ho], rfl⟩)) o.code o.message rfl rfl
      · exact .refl _
    · exact .refl d

def FiledJobs (d : Daemon) : Prop := ∀ id j, d.jobs.get? id = some j → j.action.actionId = id

theorem moves_cancel (hk : .unschedule ∈ ks ∧ .flags ∈ ks ∧ .finish ∈ ks ∧ .note ∈ ks) (d : Daemon)
    (hfiled : d.FiledJobs) (id : PyStr) (peer : Option PeerCredentials) :
    Moves C env ks d (d.cancel C id peer env) := by
  have hfind : Moves C env ks d (d.findJob C id env.readings).1 := moves_findJob ⟨hk.2.1, hk.2.2.2⟩ ..
  unfold cancel
  dsimp only
  rcases hf : d.findJob C id env.readings with ⟨d', _ | _ | j⟩ <;> rw [hf] at hfind
  · exact hfind
  · exact hfind
  obtain ⟨rfl, hj⟩ := findJob_some hf
  dsimp only
  split
  · next h =>
    -- a job that is read back has no future to cancel
    have hj' : d'.jobs.get? id = some j := by
      rcases hj with hj | hj
      · exact (job?_eq_some.mp hj).2
      · simp [future_decodePersistedJob hj.2] at h
    obtain rfl := hfiled id j hj'
    exact (moves_withdraw ⟨hk.1, hk.2.1⟩ hj' h.2.2).trans (moves_finish ⟨hk.2.2.1, hk.2.1⟩
      (after_zero _).symm (get?_withdraw j) h.2.1 (.inr rfl) (.inl ⟨rfl, rfl⟩) _ _ rfl rfl)
  · exact hfind

theorem appendJob_cases (d : Daemon) (j : ActionJob) :
    (∃ L e, d.appendJob C j = ({ d with ledger := L }.happen (.created j), none) ∧
      d.ledger.Usable ∧ L.Usable ∧ Ledger.Stored (submittedEvent j) e ∧
      L.events = d.ledger.events ++ [e]) ∨
    (∃ L fault, d.appendJob C j = ({ d with ledger := L }, some fault) ∧ Writes Unread d.ledger L) ∨
    ∃ L e fault, d.appendJob C j = ({ d with ledger := L }.happen (.created j), some fault) ∧
      d.ledger.Usable ∧ ¬ L.Usable ∧ Ledger.Stored (submittedEvent j) e ∧
      L.events = d.ledger.events ++ [e] := by
  have hcases := append_cases C.py d.ledger (submittedEvent j)
  unfold appendJob append
  generalize hL : d.ledger.append C.py (submittedEvent j) = r at hcases
  obtain ⟨L, fault⟩ := r
  dsimp only at hcases
  rcases hcases with ⟨hu, hok, hu', e, hs, hev⟩ | ⟨hf, hev, hkeep⟩ | ⟨hu, hf, hnu, e, hs, hev⟩
  · subst hok
    exact .inl ⟨L, e, by simp [hev], hu, hu', hs, hev⟩
  · obtain ⟨fault, rfl⟩ := isSome_iff_exists.mp hf
    exact .inr (.inl ⟨L, fault, by simp [hev], hkeep, [], by simpa using hev, by simp⟩)
  · obtain ⟨fault, rfl⟩ := isSome_iff_exists.mp hf
    exact .inr (.inr ⟨L, e, fault, by simp [hev], hu, hnu, hs, hev⟩)

theorem moves_schedule (hk : .create ∈ ks ∧ .flags ∈ ks ∧ .finish ∈ ks ∧ .note ∈ ks)
    (hj : d.jobs.get? j.action.actionId = some j) (hstate : j.state = .queued)
    (hfuture : j.future = none) : Moves C env ks d (d.schedule C j env) := by
  unfold schedule
  dsimp only
  split
  · refine .trans (.single hk.1 (.scheduled hj ⟨hstate, hfuture⟩)) (.trans (.single hk.2.1 (.flags _
      (d.freeSlots - 1) d.ledgerWriteFailed))
      (moves_note ⟨hk.2.1, hk.2.2.2⟩ _ (show Unread "ACTION_LEASE" by decide)))
  · exact moves_finish ⟨hk.2.2.1, hk.2.1⟩ rfl hj hstate (.inl hfuture) (.inr (.inl ⟨rfl, rfl⟩)) _ _
      rfl rfl

variable {a : ActionEnvelope}

theorem lease_newJob {env : Answers} {t : DateTime}
    (h : (env.readings.clock 1).addMillis a.leaseTtlMs = some t) :
    (newJob a peer env t).lastLeaseRenewedAt.instant < (newJob a peer env t).leaseExpiresAt.instant := by
  have httl : 100 ≤ a.leaseTtlMs := a.valid.2.2.1.1
  have hinstant := DateTime.instant_addMillis h
  simp only [newJob]
  omega

theorem moves_admitJob (hk : .create ∈ ks ∧ .flags ∈ ks ∧ .finish ∈ ks ∧ .note ∈ ks)
    (hframed : a.toDict.tupleFree = true)
    (hreal : a.executionMode = .real → d.recoveryRequired = false)
    (hnew : d.ledger.select "ACTION" (some a.actionId) = []) :
    Moves C env ks d (d.admitJob C a peer env) := by
  unfold admitJob
  split
  · exact .refl d
  cases ht : (env.readings.clock 1).addMillis a.leaseTtlMs with
  | none => exact .refl d
  | some t =>
    dsimp only
    rcases appendJob_cases d (newJob a peer env t) with
      ⟨L, e, happend, hu, hu', hs, hev⟩ | ⟨L, fault, happend, hw⟩ |
        ⟨L, e, fault, happend, hu, hnu, hs, hev⟩ <;> rw [happend] <;> dsimp only
    · refine .trans (.single hk.1 (.created hframed hreal ⟨rfl, rfl, rfl⟩ (lease_newJob ht) hnew hu
        hu' hs hev)) (moves_schedule hk ?_ rfl rfl)
      simp [setJob]
    · exact .trans (.single hk.2.2.2 (.note hw)) (moves_markFailure hk.2.1 _)
    · exact .trans (.single hk.1 (.submitted hframed (lease_newJob ht) hnew hu hnu
        hs hev)) (moves_markFailure hk.2.1 _)

theorem moves_enqueue (hk : .create ∈ ks ∧ .flags ∈ ks ∧ .finish ∈ ks ∧ .note ∈ ks ∧ .evict ∈ ks)
    (hframed : a.toDict.tupleFree = true) (hnew : d.ledger.select "ACTION" (some a.actionId) = []) :
    Moves C env ks d (d.enqueue C a peer env) := by
  unfold enqueue
  split
  · exact .refl d
  split
  · exact .refl d
  split
  · exact .refl d
  next hreal =>
  split
  · exact .refl d
  refine (moves_evict hk.2.2.2.2 d 1).trans (moves_admitJob ⟨hk.1, hk.2.1, hk.2.2.1, hk.2.2.2.1⟩ hframed
    ?_ ?_)
  all_goals
    obtain ⟨retained, g, heq, -⟩ := evictJobs_spec (C.maxRetained - 1) d d.retained
    rw [evict, heq]
  · intro hm
    simpa [hm] using hreal
  · exact hnew

theorem moves_submit
    (hk : .create ∈ ks ∧ .flags ∈ ks ∧ .finish ∈ ks ∧ .note ∈ ks ∧ .evict ∈ ks ∧ .returned ∈ ks)
    (d : Daemon) (peer : PeerCredentials)
    (hframed : a.toDict.tupleFree = true) : Moves C env ks d (d.submit C a peer env) := by
  have hfind : Moves C env ks d (d.findJob C a.actionId env.readings).1 :=
    moves_findJob ⟨hk.2.1, hk.2.2.2.1⟩ ..
  unfold submit
  split
  · exact .refl d
  rcases hf : d.findJob C a.actionId env.readings with ⟨d', _ | _ | j⟩ <;> rw [hf] at hfind
  · exact hfind
  · obtain ⟨rfl, -, hnew⟩ := findJob_none hf
    exact moves_enqueue ⟨hk.1, hk.2.1, hk.2.2.1, hk.2.2.2.1, hk.2.2.2.2.1⟩ hframed hnew
  · obtain ⟨rfl, hj⟩ := findJob_some hf
    dsimp only
    split
    · next h =>
      rw [Bool.and_eq_true] at h
      exact .single hk.2.2.2.2.2 (.returned
        (hj.imp (fun hj => (job?_eq_some.mp hj).2) And.right) h.1 h.2)
    · exact .refl _

theorem moves_updateJob (hk : .touch ∈ ks) {j j' : ActionJob} (hj : ∀ i, d.job? id = some i → i = j)
    (h : Touched j j') : Moves C env ks d (d.updateJob id j') := by
  unfold updateJob
  split
  · next hsome =>
    obtain ⟨i, hi⟩ := isSome_iff_exists.mp hsome
    obtain rfl := hj i hi
    exact moves_setJob_touch hk (job?_eq_some.mp hi).2 h
  · exact .refl d

theorem moves_sessions (hk : .sessions ∈ ks) {m : SessionManager}
    (h : SessionManager.Filed d.sessions → SessionManager.Kept d.sessions m) :
    Moves C env ks d { d with sessions := m } := .single hk (.sessions h)

theorem moves_renewLease (hk : .touch ∈ ks) (hj : ∀ i, d.job? id = some i → i = j) :
    Moves C env ks d (d.renewLease id j env).1 := by
  unfold renewLease
  dsimp only
  split
  · exact moves_updateJob hk hj ⟨rfl, rfl, rfl, rfl, rfl, rfl, rfl⟩
  · exact moves_updateJob hk hj ⟨rfl, rfl, rfl, rfl, rfl, rfl, rfl⟩

theorem moves_renew (hk : .flags ∈ ks ∧ .note ∈ ks ∧ .sessions ∈ ks ∧ .touch ∈ ks) (d : Daemon)
    (id sessionId : PyStr) (peer : PeerCredentials) :
    Moves C env ks d (d.renew C id sessionId peer env).1 := by
  have hfind : Moves C env ks d (d.findJob C id env.readings).1 := moves_findJob ⟨hk.1, hk.2.1⟩ ..
  unfold renew
  rcases hf : d.findJob C id env.readings with ⟨d', _ | _ | j⟩ <;> rw [hf] at hfind
  · exact hfind
  · exact hfind
  obtain ⟨rfl, hj⟩ := findJob_some hf
  dsimp only
  split
  · exact .refl _
  have hkept := fun h : SessionManager.Filed d'.sessions => kept_heartbeat h sessionId
    (leasePeer C j peer) (env.readings.clock 0) env.monotonic
  rcases hs : d'.sessions.heartbeat sessionId (leasePeer C j peer) (env.readings.clock 0) env.monotonic
    with ⟨m, code | s⟩ <;> rw [hs] at hkept
  · exact moves_sessions hk.2.2.1 hkept
  · refine (moves_sessions hk.2.2.1 hkept).trans (moves_renewLease hk.2.2.2 fun i hi => ?_)
    rcases hj with hj | ⟨hj, -⟩
    · exact some_inj.mp (hi.symm.trans hj)
    · exact nomatch hi.symm.trans hj

theorem moves_stopOverriddenAction (hk : .supervise ∈ ks ∧ .touch ∈ ks ∧ .latch ∈ ks)
    (hj : d.jobs.get? id = some j) {p : StopPoint} {next : Option StopPoint}
    (h : d.stopOverriddenAction id j env p = some (d', next)) : Moves C env ks d d' := by
  cases p with
  | ask =>
    simp only [stopOverriddenAction] at h
    split at h <;> obtain ⟨rfl, -⟩ := Prod.mk.inj (some_inj.mp h)
    · exact .refl d
    · exact moves_setJob_touch hk.2.1 hj ⟨rfl, rfl, rfl, rfl, rfl, rfl, rfl⟩
  | wait =>
    simp only [stopOverriddenAction] at h
    split at h
    · obtain ⟨rfl, -⟩ := Prod.mk.inj (some_inj.mp h)
      exact .refl d
    · simp at h
  | estop =>
    obtain ⟨rfl, -⟩ := Prod.mk.inj (some_inj.mp h)
    exact .single hk.1 (.supervise d .estopped d.running d.closed)
  | latch =>
    obtain ⟨rfl, -⟩ := Prod.mk.inj (some_inj.mp h)
    exact .single hk.2.2 (.latch d)
  | record receipt =>
    obtain ⟨rfl, -⟩ := Prod.mk.inj (some_inj.mp h)
    exact moves_setJob_touch hk.2.1 hj ⟨rfl, rfl, rfl, rfl, rfl, rfl, rfl⟩

theorem moves_issue (hk : .flags ∈ ks ∧ .authority ∈ ks) (d : Daemon) (q : PermitRequest)
    (operator : PeerCredentials) : Moves C env ks d (d.issue C q operator env) := by
  unfold issue
  dsimp only
  split
  · exact .refl d
  split
  · exact .refl d
  cases permitExpiry q (env.readings.clock 0) with
  | none => exact .refl d
  | some expiresAt =>
    dsimp only
    cases newPermit C q expiresAt env.readings with
    | none => exact .refl d
    | some p =>
      exact .trans (.single hk.2 (.authority (PermitAuthority.register_writes ..)
        (fun h ho => kept_register _ h ho _ _)
        (fun a => PermitAuthority.register_consumptions _ _ _ _ _ a)
        fun _ hq => PermitAuthority.contains_register hq))
        (moves_markOn hk.1 _ _)

theorem moves_revoke (hk : .flags ∈ ks ∧ .authority ∈ ks) (d : Daemon) (reason : PyStr)
    {targets : List PyStr} (ht : ∀ p ∈ targets, d.authority.permits.contains p = true) :
    Moves C env ks d
      (d.revoke (PermitAuthority.revokeEach C.py reason d.ledger d.authority targets)) :=
  .single hk.2 (.authority (PermitAuthority.revokeEach_writes ..)
    (fun h ho => kept_revokeEach C.py reason h ho ht)
    (fun a => PermitAuthority.revokeEach_consumptions _ _ _ _ _ a)
    fun _ hq => .inl (revokeEach_permits C.py reason d.ledger d.authority targets ▸ hq))

theorem moves_acknowledge (hk : .flags ∈ ks ∧ .recovery ∈ ks) (d : Daemon) (reason : PyStr)
    (peer : PeerCredentials) : Moves C env ks d (d.acknowledge C reason peer env) := by
  have hstep : ∀ reason p,
      Moves C env ks d ((d.appendAcknowledgement C reason peer env).1.setRecovery p) := fun reason p =>
    .single hk.2 (.recovery (.append C.py d.ledger rfl) p _)
  unfold acknowledge
  dsimp only
  split
  · exact .refl d
  have hself := hstep reason.strip d.recovery
  have hclear := hstep reason.strip {}
  rcases hr : d.appendAcknowledgement C reason.strip peer env with ⟨d', _ | fault⟩ <;>
    rw [hr] at hself hclear
  · exact hclear
  · have hd' : d'.recovery = d.recovery := congrArg (Daemon.recovery ∘ Prod.fst) hr.symm
    rw [← hd'] at hself
    exact hself.trans (moves_markFailure hk.1 _)

end Daemon

/-! ### The tasks -/

def Task.framed : Task → Bool
  | .whenRunning t => t.framed
  | .requireAction a _ | .adoptAction a _ | .requireAgain a _ | .submit a _ => a.toDict.tupleFree
  | .issueRequire q _ | .issue q _ => q.action.toDict.tupleFree
  | _ => true

def Task.kinds : Task → List Daemon.MoveKind
  | .createSession .. | .heartbeat .. | .closeSession .. | .closeProposalSession ..
  | .requireAction .. | .adoptAction .. | .requireAgain .. | .proposalRequire .. | .issueRequire ..
  | .tickExpire => [.sessions]
  | .sessionEvent .. | .leaseEvent .. | .status .. | .ledgerStatus | .operatorEvent ..
  | .supervisionEvent .. => [.note, .flags]
  | .lostRevoke .. | .revokeSession .. | .revokeAll .. | .issue .. => [.authority, .flags]
  | .lostMark .. | .tickMark => [.mark]
  | .terminalize .. => [.unschedule, .flags, .finish]
  | .stop .. => [.supervise, .touch, .latch]
  | .estop | .arm .. | .disarmed .. | .close => [.supervise]
  | .latch => [.latch]
  | .submit .. => [.note, .flags, .returned, .evict, .create, .finish]
  | .renew .. => [.note, .flags, .sessions, .touch]
  | .cancel .. => [.note, .flags, .unschedule, .finish]
  | .acknowledge .. => [.recovery, .flags]
  | .tickEnd .. => [.settle]
  | .direct .. => [.direct]
  | .shutdown => [.unschedule]
  | .whenRunning .. | .heartbeatLost .. => []

namespace Daemon

theorem marked_loseSession (sessionId : PyStr) (j : ActionJob) :
    Marked j (loseSession sessionId j) := by
  unfold loseSession
  by_cases hof : ofSession sessionId j = true
  · rw [if_pos hof]
    have hactive : j.state.isActive = true := by
      rw [ofSession, Bool.and_eq_true] at hof
      exact hof.2
    refine ⟨rfl, rfl, rfl, rfl, rfl, rfl, ?_⟩
    dsimp only
    split
    · exact .inl rfl
    split
    · next hnone => exact .inr ⟨isNone_iff_eq_none.mp hnone, hactive⟩
    · exact .inl rfl
  · rw [if_neg hof]
    exact ⟨rfl, rfl, rfl, rfl, rfl, rfl, .inl rfl⟩

theorem watchdogOverride_some {j : ActionJob} {now : DateTime} {monotonic : Nat}
    {o : TerminalOverride} (h : watchdogOverride j now monotonic = some o) :
    j.state.isActive = true ∧ j.terminalOverride = none ∧ o.state = .timedOut := by
  unfold watchdogOverride at h
  split at h
  · simp at h
  next hactive =>
  rw [not_or, Bool.not_eq_false, Bool.not_eq_true, isSome_eq_false_iff,
    isNone_iff_eq_none] at hactive
  refine ⟨hactive.1, hactive.2, ?_⟩
  split at h
  · exact some_inj.mp h ▸ rfl
  split at h
  · exact some_inj.mp h ▸ rfl
  · simp at h

theorem marked_watch (now : DateTime) (monotonic : Nat) (j : ActionJob) :
    Marked j (watch now monotonic j) := by
  unfold watch
  split
  · next o ho =>
    obtain ⟨hactive, hnone, -⟩ := watchdogOverride_some ho
    exact ⟨rfl, rfl, rfl, rfl, rfl, rfl, .inr ⟨hnone, hactive⟩⟩
  · exact ⟨rfl, rfl, rfl, rfl, rfl, rfl, .inl rfl⟩

theorem moves_mapRetained (hk : .mark ∈ ks) (d : Daemon) {f : ActionJob → ActionJob}
    (hf : ∀ j, Marked j (f j)) : Moves C env ks d (d.mapRetained f) := by
  refine .single hk (.mark (JobsRel.mapVals (fun id j => ?_) d.jobs))
  split
  · exact hf j
  · exact ⟨rfl, rfl, rfl, rfl, rfl, rfl, .inl rfl⟩

/-- **A task makes only moves of its kinds.** -/
theorem exec_moves {d : Daemon} {t : Task} {r : Daemon × List Task} (ht : t.framed = true)
    (hfiled : d.FiledJobs) (h : d.exec C env t = some r) : Moves C env t.kinds d r.1 := by
  cases t with
  | whenRunning t =>
    cases h
    exact .refl d
  | createSession q peer =>
    cases h
    exact moves_sessions (by simp [Task.kinds]) fun h => kept_createSession h ..
  | sessionEvent eventType s extra =>
    cases h
    exact moves_note (by simp [Task.kinds]) d (show Unread "SESSION" by decide)
  | heartbeat sessionId peer =>
    cases h
    exact moves_sessions (by simp [Task.kinds]) fun h => kept_heartbeat h ..
  | heartbeatLost sessionId peer =>
    cases h
    exact .refl d
  | closeSession sessionId peer reason =>
    cases h
    exact moves_sessions (by simp [Task.kinds]) fun h => kept_closeSession h ..
  | closeProposalSession sessionId peer =>
    cases h
    exact moves_sessions (by simp [Task.kinds]) fun h => kept_closeSession h ..
  | lostRevoke s =>
    cases h
    exact (moves_revoke (by simp [Task.kinds]) d _ fun _ => contains_of_mem_sessionTargets).trans
      (moves_markOn (by simp [Task.kinds]) _ _)
  | lostMark s revoked =>
    cases h
    exact moves_mapRetained (by simp [Task.kinds]) d (marked_loseSession _)
  | terminalize id =>
    cases h
    exact moves_terminalize (by simp [Task.kinds]) d hfiled id
  | stop id p =>
    simp only [exec] at h
    cases hj : d.jobs.get? id with
    | none =>
      rw [hj] at h
      cases h
      exact .refl d
    | some j =>
      rw [hj] at h
      dsimp only at h
      rcases hstop : d.stopOverriddenAction id j env p with _ | ⟨d', _ | next⟩ <;> rw [hstop] at h
      · contradiction
      · cases h
        exact moves_stopOverriddenAction (by simp [Task.kinds]) hj hstop
      · cases h
        exact moves_stopOverriddenAction (by simp [Task.kinds]) hj hstop
  | estop =>
    cases h
    exact .single (by simp [Task.kinds]) (.supervise d .estopped d.running d.closed)
  | latch =>
    cases h
    exact .single (by simp [Task.kinds]) (.latch d)
  | requireAction a peer =>
    cases h
    split
    · exact .refl d
    · exact moves_sessions (by simp [Task.kinds]) fun h => kept_requireAction h ..
  | adoptAction a peer =>
    cases h
    exact moves_sessions (by simp [Task.kinds]) fun h => kept_createSession h ..
  | requireAgain a peer =>
    cases h
    exact moves_sessions (by simp [Task.kinds]) fun h => kept_requireAction h ..
  | submit a peer =>
    cases h
    exact moves_submit (by simp [Task.kinds]) d peer ht
  | renew id sessionId peer =>
    cases h
    exact moves_renew (by simp [Task.kinds]) d id sessionId peer
  | leaseEvent id sessionId eventType lease =>
    cases h
    exact moves_note (by simp [Task.kinds]) d (show Unread "ACTION_LEASE" by decide)
  | cancel id peer =>
    cases h
    exact moves_cancel (by simp [Task.kinds]) d hfiled id peer
  | status id =>
    cases h
    exact moves_findJob (by simp [Task.kinds]) d id _
  | ledgerStatus =>
    have hw := Writes.read Unread d.ledger "" none
    simp only [exec] at h
    rcases hread : d.ledger.read "" none with ⟨L, fault | es⟩ <;> rw [hread] at h hw <;>
      cases h
    · exact .trans (.single (by simp [Task.kinds]) (.note hw)) (moves_markFailure (by simp [Task.kinds]) _)
    · exact .single (by simp [Task.kinds]) (.note hw)
  | proposalRequire a peer =>
    cases h
    exact moves_sessions (by simp [Task.kinds]) fun h => kept_requireAction h ..
  | operatorEvent kind eventType id payload =>
    cases h
    refine moves_note (by simp [Task.kinds]) d ?_
    cases kind
    · exact show Unread "OPERATOR_PROPOSAL" by decide
    · exact show Unread "OPERATOR_ENROLLMENT" by decide
  | issueRequire q operator =>
    cases h
    split
    · exact .refl d
    · exact moves_sessions (by simp [Task.kinds]) fun h => kept_requireAction h ..
  | issue q operator =>
    cases h
    exact moves_issue (by simp [Task.kinds]) d q operator
  | arm reason peer =>
    cases h
    unfold arm
    split
    · exact .refl d
    · exact .single (by simp [Task.kinds]) (.supervise d .armed d.running d.closed)
  | disarmed reason peer =>
    cases h
    exact .single (by simp [Task.kinds]) (.supervise d .estopped d.running d.closed)
  | supervisionEvent eventType reason peer =>
    cases h
    exact moves_note (by simp [Task.kinds]) d (show Unread "SUPERVISION" by decide)
  | acknowledge reason peer =>
    cases h
    exact moves_acknowledge (by simp [Task.kinds]) d reason peer
  | revokeSession sessionId reason =>
    cases h
    exact moves_revoke (by simp [Task.kinds]) d reason fun _ => contains_of_mem_sessionTargets
  | revokeAll reason =>
    cases h
    exact (moves_revoke (by simp [Task.kinds]) d _ fun _ => contains_of_mem_allTargets).trans
      (moves_markOn (by simp [Task.kinds]) _ _)
  | tickExpire =>
    cases h
    exact moves_sessions (by simp [Task.kinds]) fun h => kept_expireSessions h _
  | tickMark =>
    cases h
    split
    · exact .refl d
    · exact moves_mapRetained (by simp [Task.kinds]) d (marked_watch _ _)
  | tickEnd sessionIds =>
    cases h
    exact .single (by simp [Task.kinds]) (.settle d _)
  | direct p =>
    simp only [exec] at h
    rcases hp : d.submitAction C none env p with _ | ⟨d', next | receipt⟩ <;> rw [hp] at h
    · contradiction
    · cases h
      exact .single (by simp [Task.kinds]) (.direct p hp)
    · cases h
      exact .single (by simp [Task.kinds]) (.direct p hp)
  | close =>
    cases h
    split
    · exact .refl d
    · exact .single (by simp [Task.kinds]) (.supervise d .stopping false true)
  | shutdown =>
    cases h
    refine .single (by simp [Task.kinds]) (.unschedule (JobsRel.mapVals (fun id j => ?_) d.jobs))
    split
    · next hf => exact .inr ⟨hf, rfl⟩
    · exact .inl rfl

end Daemon

end Rosclaw
