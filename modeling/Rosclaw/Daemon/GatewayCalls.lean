/-
Concurrent callers of one action gateway (`submit`, `reject` and `get_receipt` of
`kernel/action_gateway.py`).

Each call is a thread that goes from one lock section of the gateway to the next.
`submit` publishes its receipt through the table of executions and the table of
receipts, and releases the lock in between; `reject` looks at the receipts only.

* `Inv` — who owns an execution, and what the tables hold meanwhile;
* `gatewayCalls_lawful` — in runs in which nobody rejects an action that is being
  executed, a receipt that was returned stays, and executors are called once;
* `rejectedInFlight_unlawful` — without that, the execution overwrites the receipt
  of the rejection.
-/
import Rosclaw.Daemon.RunAction
import Rosclaw.Lib.Machine
import Rosclaw.Lib.Threads

namespace Rosclaw

open List Option

namespace GatewayPoint

/-- Where a call of `submit` stands with respect to the executor. -/
inductive Stage
  /-- it does not own an execution -/
  | outside
  | before
  /-- from the call of the executor to the receipt -/
  | after
  | leaving
deriving DecidableEq

def action : GatewayPoint → ActionEnvelope
  | .submit a | .refuse a _ _ | .lookup a | .wait a _ | .start a | .store a _ | .leave a _ => a
  | .acquire e | .invoke e _ | .executing e _ => e.action

def stage : GatewayPoint → Stage
  | .submit _ | .refuse .. | .lookup _ | .wait .. => .outside
  | .start _ | .acquire _ | .invoke .. => .before
  | .executing .. | .store .. => .after
  | .leave .. => .leaving

end GatewayPoint

/-! ### What a stretch of `submit` does -/

/-- The steps of `Daemon.submitAction`, with all they do to the gateway and the log. -/
inductive Submits (d d' : Daemon) (caller : Option PyStr) (env : Answers) :
    GatewayPoint → GatewayPoint ⊕ ExecutionReceipt → Prop
  | blocked {a : ActionEnvelope} {code : String} {message : PyStr} (hd : d' = d) :
      Submits d d' caller env (.submit a) (.inl (.refuse a code message))
  | passed {a : ActionEnvelope} (hd : d' = d) :
      Submits d d' caller env (.submit a) (.inl (.lookup a))
  | refused {a : ActionEnvelope} {code : String} {message : PyStr}
      (hd : d' = (d.reject a code message .blocked env.readings).1) :
      Submits d d' caller env (.refuse a code message)
        (.inr (d.reject a code message .blocked env.readings).2)
  /-- a stored receipt is there -/
  | found {p : GatewayPoint} {r : ExecutionReceipt} (hd : d' = d) (hp : p.stage = .outside)
      (hr : d.gateway.getReceipt p.action.actionId = some r) : Submits d d' caller env p (.inr r)
  | waits {a : ActionEnvelope} {waiter : Nat} (hd : d' = d)
      (hr : d.gateway.getReceipt a.actionId = none) :
      Submits d d' caller env (.lookup a) (.inl (.wait a waiter))
  /-- the wait for another execution ends without its receipt -/
  | gaveUp {a : ActionEnvelope} {waiter : Nat} {r : ExecutionReceipt} (hd : d' = d)
      (hr : env.timedOut = true ∨ d.gateway.getReceipt a.actionId = none) :
      Submits d d' caller env (.wait a waiter) (.inr r)
  | entered {a : ActionEnvelope} (hr : d.gateway.getReceipt a.actionId = none)
      (hi : d.gateway.inflight.get? a.actionId = none) (hl : d'.log = d.log)
      (hg : d'.gateway = d.gateway.enter a.actionId) :
      Submits d d' caller env (.lookup a) (.inl (.start a))
  | moved {p q : GatewayPoint} (hg : d'.gateway = d.gateway) (hl : d'.log = d.log)
      (hp : p.stage = .before ∨ p.stage = .after) (ha : q.action = p.action)
      (hq : q.stage = p.stage ∨ q.stage = .after) : Submits d d' caller env p (.inl q)
  | invoked {e : Execution} {lease : ResourceLease} (hg : d'.gateway = d.gateway)
      (hl : d'.log = d.log ++ [.invoked e.action caller]) :
      Submits d d' caller env (.invoke e lease) (.inl (.executing e lease))
  | stored {a : ActionEnvelope} {r : ExecutionReceipt} (hl : d'.log = d.log)
      (hg : d'.gateway = d.gateway.store a.actionId r) :
      Submits d d' caller env (.store a r) (.inl (.leave a r))
  | left {a : ActionEnvelope} {r : ExecutionReceipt} (hl : d'.log = d.log)
      (hg : d'.gateway = d.gateway.leave a.actionId) : Submits d d' caller env (.leave a r) (.inr r)

variable {d d' : Daemon}

theorem submits_of_submitAction {C : DaemonConfig} {caller : Option PyStr} {env : Answers}
    {p : GatewayPoint} {next : GatewayPoint ⊕ ExecutionReceipt}
    (h : d.submitAction C caller env p = some (d', next)) : Submits d d' caller env p next := by
  unfold Daemon.submitAction at h
  cases p with
  | submit a =>
    dsimp only at h
    split at h <;> cases h
    · exact .blocked rfl
    · exact .passed rfl
  | refuse a code message =>
    cases h
    exact .refused rfl
  | lookup a =>
    dsimp only at h
    split at h <;> cases h
    · exact .found rfl rfl ‹_›
    · exact .waits rfl ‹_›
    · exact .entered ‹_› ‹_› rfl rfl
  | wait a waiter =>
    dsimp only at h
    split at h
    · rename_i ht
      cases h
      exact .gaveUp rfl (.inl ht)
    · split at h
      · contradiction
      · split at h <;> rename_i hr <;> cases h
        · exact .found rfl rfl hr
        · exact .gaveUp rfl (.inr hr)
  | start a =>
    dsimp only at h
    split at h
    · cases h
      exact .moved rfl rfl (.inl rfl) rfl (.inr rfl)
    · split at h <;> rename_i hc <;> cases h
      · exact .moved rfl rfl (.inl rfl) rfl (.inr rfl)
      · exact .moved rfl rfl (.inl rfl) (Execution.action_of_check hc) (.inl rfl)
  | acquire e =>
    dsimp only at h
    split at h
    · cases h
      exact .moved rfl rfl (.inl rfl) rfl (.inr rfl)
    · split at h
      · cases h
        exact .moved rfl rfl (.inl rfl) rfl (.inr rfl)
      · split at h
        · contradiction
        · cases h
          exact .moved rfl rfl (.inl rfl) rfl (.inl rfl)
  | invoke e lease =>
    cases h
    exact .invoked rfl rfl
  | executing e lease =>
    dsimp only at h
    split at h
    · cases h
      exact .moved rfl rfl (.inr rfl) rfl (.inr rfl)
    · split at h <;> cases h <;> exact .moved rfl rfl (.inr rfl) rfl (.inr rfl)
  | store a receipt =>
    cases h
    exact .stored rfl rfl
  | leave a receipt =>
    cases h
    exact .left rfl rfl

/-! ### Concurrent callers -/

inductive CallPoint
  | getReceipt (actionId : PyStr)
  | reject (a : ActionEnvelope) (code : String) (message : PyStr) (state : ActionState)
  | submit (p : GatewayPoint)

namespace CallPoint

def actionId : CallPoint → PyStr
  | .getReceipt id => id
  | .reject a _ _ _ => a.actionId
  | .submit p => p.action.actionId

def isFresh : CallPoint → Bool
  | .getReceipt _ | .reject .. | .submit (.lookup _) => true
  | .submit _ => false

def stage : CallPoint → GatewayPoint.Stage
  | .submit p => p.stage
  | _ => .outside

def owns (id : PyStr) (p : CallPoint) : Bool := p.stage ≠ .outside && p.actionId = id

end CallPoint

/-- A call that has not returned; `issued` is how many calls had when it was made. -/
structure Caller where
  issued : Nat
  point : CallPoint

/-- What a call returned, and whether that is a receipt from the table of receipts. -/
structure Answer where
  actionId : PyStr
  issued : Nat
  receipt : Option ExecutionReceipt
  stored : Bool

structure GatewaySystem where
  daemon : Daemon
  callers : List Caller := []
  answers : List Answer := []

inductive GatewayLabel
  | call (p : CallPoint)
  /-- the next stretch of a caller -/
  | run (caller : Nat) (env : Answers)
  /-- a `BaseException` ends the caller -/
  | die (caller : Nat)

namespace Daemon

def returnsStored (d : Daemon) (env : Answers) : GatewayPoint → Bool
  | .wait a _ => !env.timedOut && (d.gateway.getReceipt a.actionId).isSome
  | _ => true

/-- The `with` and `finally` blocks that a `BaseException` runs. -/
def unwind (d : Daemon) : GatewayPoint → Daemon
  | .invoke e lease | .executing e lease =>
    { d with
      leases := d.leases.release lease
      gateway := d.gateway.leave e.action.actionId }
  | .start a | .store a _ | .leave a _ => { d with gateway := d.gateway.leave a.actionId }
  | .acquire e => { d with gateway := d.gateway.leave e.action.actionId }
  | _ => d

def invocations (d : Daemon) (id : PyStr) : Nat :=
  d.log.countP fun
    | .invoked a _ => a.actionId = id
    | _ => false

end Daemon

namespace GatewaySystem

def finish (s : GatewaySystem) (i : Nat) (d : Daemon) (a : Answer) : GatewaySystem where
  daemon := d
  callers := replaceAt s.callers i []
  answers := s.answers ++ [a]

def proceed (s : GatewaySystem) (i : Nat) (d : Daemon) (c : Caller) : GatewaySystem :=
  { s with daemon := d, callers := replaceAt s.callers i [c] }

/-- A call of `submit` goes on to its next point, or returns. -/
def resume (s : GatewaySystem) (i : Nat) (c : Caller) (p : GatewayPoint) (env : Answers)
    (d : Daemon) : GatewayPoint ⊕ ExecutionReceipt → GatewaySystem
  | .inl q => s.proceed i d { c with point := .submit q }
  | .inr r =>
    s.finish i d ⟨p.action.actionId, c.issued, some r, s.daemon.returnsStored env p⟩

/-- The next stretch of the call; the first two points of `submit_action` are not the
gateway's. -/
def advance (C : DaemonConfig) (s : GatewaySystem) (i : Nat) (c : Caller) (env : Answers) :
    Option GatewaySystem :=
  match c.point with
  | .getReceipt id =>
    let r := s.daemon.gateway.getReceipt id
    some (s.finish i s.daemon ⟨id, c.issued, r, r.isSome⟩)
  | .reject a code message state =>
    let r := s.daemon.reject a code message state env.readings
    some (s.finish i r.1 ⟨a.actionId, c.issued, some r.2, true⟩)
  | .submit (.submit _) | .submit (.refuse ..) => none
  | .submit p => (s.daemon.submitAction C none env p).map fun r => s.resume i c p env r.1 r.2

/-- The call ends by a `BaseException`. -/
def lose (s : GatewaySystem) (i : Nat) (c : Caller) : GatewaySystem :=
  match c.point with
  | .submit p => { s with daemon := s.daemon.unwind p, callers := replaceAt s.callers i [] }
  | _ => { s with callers := replaceAt s.callers i [] }

def step (C : DaemonConfig) (s : GatewaySystem) : GatewayLabel → Option GatewaySystem
  | .call p =>
    if p.isFresh then some { s with callers := s.callers ++ [⟨s.answers.length, p⟩] } else none
  | .run i env => s.callers[i]?.bind fun c => s.advance C i c env
  | .die i => s.callers[i]?.map (s.lose i)

/-- Nobody rejects an action that is being executed and has no receipt yet, and an
execution that has called its executor goes on to store its receipt. -/
def calm (s : GatewaySystem) : GatewayLabel → Bool
  | .run i _ =>
    match s.callers[i]?.map Caller.point with
    | some (.reject a _ _ _) => (s.daemon.gateway.getReceipt a.actionId).isSome ||
        (s.daemon.gateway.inflight.get? a.actionId).isNone
    | _ => true
  | .die i =>
    match s.callers[i]?.map Caller.point with
    | some p => p.stage ≠ .after
    | none => true
  | .call _ => true

/-- A stored receipt, once returned, is what every later call returns, and executors
are called once for an action id. -/
def Lawful (s : GatewaySystem) : Prop :=
  (∀ (k j : Nat) (a b : Answer) (r : ExecutionReceipt), s.answers[k]? = some a →
    s.answers[j]? = some b → a.stored = true → a.receipt = some r → b.actionId = a.actionId →
    k < b.issued → b.receipt = some r) ∧
  ∀ id, s.daemon.invocations id ≤ 1

end GatewaySystem

def gatewayCalls (C : DaemonConfig) : Machine GatewaySystem GatewayLabel where
  Init s := s.daemon.gateway.receipts = Dict.empty ∧ s.daemon.gateway.inflight = Dict.empty ∧
    s.daemon.log = [] ∧ s.callers = [] ∧ s.answers = []
  step := GatewaySystem.step C

/-! ### The tables -/

namespace Gateway

variable (g : Gateway) (id : PyStr)

variable (r : ExecutionReceipt)

@[simp] theorem getReceipt_store_self : (g.store id r).getReceipt id = some r :=
  Dict.get?_set_self ..

theorem getReceipt_store_of_ne {id' : PyStr} (h : id ≠ id') :
    (g.store id r).getReceipt id' = g.getReceipt id' := Dict.get?_set_of_ne _ _ h

/-- `reject` returns what the table holds from then on. -/
theorem reject_spec (a : ActionEnvelope) (code : String) (message : PyStr) (state : ActionState)
    (r : Readings) :
    (g.reject a code message state r).2.getReceipt a.actionId
      = some (g.reject a code message state r).1 ∧
    (g.reject a code message state r).2.inflight = g.inflight ∧
    (∀ id, id ≠ a.actionId ∨ g.getReceipt a.actionId ≠ none →
      (g.reject a code message state r).2.getReceipt id = g.getReceipt id) := by
  unfold reject
  cases h : g.receipts.get? a.actionId with
  | some existing => exact ⟨h, rfl, fun _ _ => rfl⟩
  | none =>
    refine ⟨getReceipt_store_self .., rfl, fun id hid => ?_⟩
    exact getReceipt_store_of_ne _ _ _ (hid.resolve_right fun hne => hne h).symm

end Gateway

/-! ### The invariant -/

namespace GatewaySystem

/-- What the tables hold of an action id that these calls execute, of which there is at
most one; `n` executors were called for it. -/
inductive Held (g : Gateway) (id : PyStr) (n : Nat) : List Caller → Prop
  | free (hr : n ≠ 0 → g.getReceipt id ≠ none) (hn : n ≤ 1) : Held g id n []
  | before {c : Caller} (hs : c.point.stage = .before) (hi : g.inflight.get? id ≠ none)
      (hr : g.getReceipt id = none) (hn : n = 0) : Held g id n [c]
  | after {c : Caller} (hs : c.point.stage = .after) (hi : g.inflight.get? id ≠ none)
      (hr : g.getReceipt id = none) (hn : n ≤ 1) : Held g id n [c]
  | leaving {c : Caller} {a : ActionEnvelope} {r : ExecutionReceipt}
      (hp : c.point = .submit (.leave a r)) (hi : g.inflight.get? id ≠ none)
      (hr : g.getReceipt id = some r) (hn : n ≤ 1) : Held g id n [c]

/-- What `d` holds of every action id, when these are the calls. -/
def AllHeld (d : Daemon) (callers : List Caller) : Prop :=
  ∀ id, Held d.gateway id (d.invocations id) (callers.filter fun c => c.point.owns id)

structure Inv (s : GatewaySystem) : Prop where
  held : AllHeld s.daemon s.callers
  answered : ∀ b ∈ s.answers, b.stored = true → ∀ r, b.receipt = some r →
    s.daemon.gateway.getReceipt b.actionId = some r
  issued : ∀ c ∈ s.callers, c.issued ≤ s.answers.length
  answersIssued : ∀ (j : Nat) (b : Answer), s.answers[j]? = some b → b.issued ≤ j
  /-- a call made after a receipt was returned is still to look at the table -/
  early : ∀ c ∈ s.callers, ∀ b ∈ s.answers.take c.issued, b.stored = true → b.receipt ≠ none →
    b.actionId = c.point.actionId → c.point.isFresh = true
  settled : ∀ (k j : Nat) (a b : Answer) (r : ExecutionReceipt), s.answers[k]? = some a →
    s.answers[j]? = some b → a.stored = true → a.receipt = some r → b.actionId = a.actionId →
    k < b.issued → b.receipt = some r

variable {C : DaemonConfig} {c c' : Caller} {cs : List Caller} {d d' : Daemon} {g : Gateway}
  {id : PyStr} {n : Nat} {s s' : GatewaySystem}

theorem Held.invocations_le (h : Held g id n cs) : n ≤ 1 := by
  cases h with
  | before hs hi hr hn => exact hn ▸ Nat.zero_le 1
  | free hr hn | after hs hi hr hn | leaving hp hi hr hn => exact hn

theorem Held.of_not_inflight (h : Held g id n cs) (hi : g.inflight.get? id = none) :
    cs = [] ∧ (n ≠ 0 → g.getReceipt id ≠ none) ∧ n ≤ 1 := by
  cases h with
  | free hr hn => exact ⟨rfl, hr, hn⟩
  | before _ h₁ | after _ h₁ | leaving _ h₁ => exact absurd hi h₁

theorem Held.of_after (h : Held g id n [c]) (hs : c.point.stage = .after) :
    g.inflight.get? id ≠ none ∧ g.getReceipt id = none := by
  cases h with
  | before h₁ => exact absurd (hs.symm.trans h₁) nofun
  | after _ hi hr => exact ⟨hi, hr⟩
  | leaving hp =>
    rw [hp] at hs
    exact nomatch hs

theorem Held.of_leaving (h : Held g id n [c]) {a : ActionEnvelope} {r : ExecutionReceipt}
    (hp : c.point = .submit (.leave a r)) : g.getReceipt id = some r := by
  cases h with
  | before hs | after hs =>
    rw [hp] at hs
    exact nomatch hs
  | leaving hp' _ hr =>
    rw [hp] at hp'
    cases hp'
    exact hr

theorem Held.advance (h : Held g id n [c]) (hs : c.point.stage = .before ∨ c.point.stage = .after)
    (hs' : c'.point.stage = c.point.stage ∨ c'.point.stage = .after) : Held g id n [c'] := by
  cases h with
  | before h₁ hi hr hn =>
    rcases hs' with h | h
    · exact .before (h.trans h₁) hi hr hn
    · exact .after h hi hr (hn ▸ Nat.zero_le 1)
  | after h₁ hi hr hn => exact .after (hs'.elim (·.trans h₁) fun h => h) hi hr hn
  | leaving hp =>
    rw [hp] at hs
    exact hs.elim nofun nofun

structure Same (d d' : Daemon) (id : PyStr) : Prop where
  receipt : d'.gateway.getReceipt id = d.gateway.getReceipt id
  inflight : d'.gateway.inflight.get? id = d.gateway.inflight.get? id
  invocations : d'.invocations id = d.invocations id

theorem Same.of_eq (hg : d'.gateway = d.gateway) (hl : d'.log = d.log) (id : PyStr) :
    Same d d' id := ⟨by rw [hg], by rw [hg], by rw [Daemon.invocations, hl]; rfl⟩

theorem Same.held (hs : Same d d' id) (h : Held d.gateway id (d.invocations id) cs) :
    Held d'.gateway id (d'.invocations id) cs := by
  obtain ⟨hr, hi, hn⟩ := hs
  rw [hn]
  cases h with
  | free h₁ h₂ => exact .free (hr ▸ h₁) h₂
  | before h₁ h₂ h₃ h₄ => exact .before h₁ (hi ▸ h₂) (hr ▸ h₃) h₄
  | after h₁ h₂ h₃ h₄ => exact .after h₁ (hi ▸ h₂) (hr ▸ h₃) h₄
  | leaving h₁ h₂ h₃ h₄ => exact .leaving h₁ (hi ▸ h₂) (hr ▸ h₃) h₄

section Step

variable {s : GatewaySystem} {i : Nat} {c : Caller} {d : Daemon}

variable {cs : List Caller} {id message : PyStr} {j n : Nat} {p q : GatewayPoint}

theorem AllHeld.replace (h : AllHeld s.daemon s.callers) (hc : s.callers[i]? = some c)
    (hcs : ∀ c' ∈ cs, c'.point.actionId = c.point.actionId)
    (hsame : ∀ id, id ≠ c.point.actionId → Same s.daemon d id)
    (hown : Held d.gateway c.point.actionId (d.invocations c.point.actionId)
      ((replaceAt s.callers i cs).filter fun c' => c'.point.owns c.point.actionId)) :
    AllHeld d (replaceAt s.callers i cs) := by
  intro id
  by_cases hid : id = c.point.actionId
  · exact hid ▸ hown
  · rw [filter_replaceAt_of_not hc]
    · exact (hsame id hid).held (h id)
    · simp [CallPoint.owns, Ne.symm hid]
    · intro c' hc'
      simp [CallPoint.owns, hcs c' hc', Ne.symm hid]

theorem AllHeld.outside (h : AllHeld s.daemon s.callers) (hc : s.callers[i]? = some c)
    (hstage : c.point.stage = .outside)
    (hcs : ∀ c' ∈ cs, c'.point.actionId = c.point.actionId ∧ c'.point.stage = .outside)
    (hsame : ∀ id, Same s.daemon d id) : AllHeld d (replaceAt s.callers i cs) := by
  refine h.replace hc (fun c' hc' => (hcs c' hc').1) (fun id _ => hsame id) ?_
  rw [filter_replaceAt_of_not hc (by simp [CallPoint.owns, hstage])
    fun c' hc' => by simp [CallPoint.owns, (hcs c' hc').2]]
  exact (hsame _).held (h _)

theorem AllHeld.owner (h : AllHeld s.daemon s.callers) (hc : s.callers[i]? = some c)
    (hstage : c.point.stage ≠ .outside) :
    Held s.daemon.gateway c.point.actionId (s.daemon.invocations c.point.actionId) [c] ∧
      ∀ cs, (replaceAt s.callers i cs).filter (fun c' => c'.point.owns c.point.actionId)
        = cs.filter fun c' => c'.point.owns c.point.actionId := by
  have howns : c.point.owns c.point.actionId = true := by simp [CallPoint.owns, hstage]
  have hmem : c ∈ s.callers.filter fun c' => c'.point.owns c.point.actionId :=
    mem_filter.mpr ⟨mem_of_getElem? hc, howns⟩
  have hheld := h c.point.actionId
  generalize hf : s.callers.filter (fun c' => c'.point.owns c.point.actionId) = cs at hheld hmem
  have hsingle : ∃ x, cs = [x] := by
    cases hheld with
    | free => exact nomatch hmem
    | before | after | leaving => exact ⟨_, rfl⟩
  obtain ⟨x, rfl⟩ := hsingle
  obtain rfl := mem_singleton.mp hmem
  exact ⟨hheld, fun cs => (filter_replaceAt_of_singleton hc howns hf).2⟩

/-- The call that executed an action is over, without an executor that was called in
vain. -/
theorem AllHeld.leave (h : AllHeld s.daemon s.callers) (hc : s.callers[i]? = some c)
    (hstage : c.point.stage ≠ .outside) (hafter : c.point.stage ≠ .after)
    (hg : d.gateway = s.daemon.gateway.leave c.point.actionId) (hl : d.log = s.daemon.log) :
    AllHeld d (replaceAt s.callers i []) := by
  have hreceipts : ∀ id, d.gateway.getReceipt id = s.daemon.gateway.getReceipt id := by
    rw [hg]
    exact fun _ => rfl
  have hinv : ∀ id, d.invocations id = s.daemon.invocations id := fun id => by
    rw [Daemon.invocations, hl]
    rfl
  obtain ⟨hheld, hfilter⟩ := h.owner hc hstage
  refine h.replace hc (forall_mem_nil _) (fun id hne => ?_) ?_
  · refine ⟨hreceipts id, ?_, hinv id⟩
    rw [hg]
    exact (Dict.get?_erase ..).trans (if_neg hne.symm)
  · rw [hfilter, hinv]
    refine .free (fun hn => ?_) hheld.invocations_le
    rw [hreceipts]
    cases hheld with
    | before _ _ _ h₀ => exact absurd h₀ hn
    | after hs => exact absurd hs hafter
    | leaving _ _ hr =>
      rw [hr]
      nofun

theorem getElem?_snoc {α : Type*} {l : List α} {a b : α} (h : (l ++ [a])[j]? = some b) :
    l[j]? = some b ∨ (j = l.length ∧ b = a) := by
  rw [List.getElem?_append] at h
  split at h
  · exact .inl h
  · obtain ⟨hj, hb⟩ := List.getElem?_eq_some_iff.mp h
    have hzero : j - l.length = 0 := by simpa using hj
    exact .inr ⟨by omega, by simpa [hzero] using hb.symm⟩

theorem filter_owns_singleton (hid : q.action.actionId = id) (hstage : q.stage ≠ .outside) :
    [Caller.mk n (.submit q)].filter (fun c' => c'.point.owns id) = [⟨n, .submit q⟩] := by
  refine filter_cons_of_pos ?_
  simp [CallPoint.owns, CallPoint.stage, CallPoint.actionId, hid, hstage]

theorem Inv.finish (h : Inv s) (hc : s.callers[i]? = some c) {a : Answer}
    (hid : a.actionId = c.point.actionId) (hissued : a.issued = c.issued)
    (hheld : AllHeld d (replaceAt s.callers i []))
    (hmono : ∀ id r, s.daemon.gateway.getReceipt id = some r → d.gateway.getReceipt id = some r)
    (hstored : a.stored = true → ∀ r, a.receipt = some r → d.gateway.getReceipt a.actionId = some r)
    (hfresh : c.point.isFresh = true → ∀ r,
      s.daemon.gateway.getReceipt c.point.actionId = some r → a.receipt = some r) :
    Inv (s.finish i d a) := by
  have hcm : c ∈ s.callers := mem_of_getElem? hc
  have hold : ∀ c' ∈ replaceAt s.callers i [], c' ∈ s.callers := fun c' hc' =>
    (mem_replaceAt hc').resolve_left (not_mem_nil)
  refine ⟨hheld, ?_, ?_, ?_, ?_, ?_⟩
  · intro b hb hs r hr
    rcases mem_append.mp hb with hb | hb
    · exact hmono _ _ (h.answered b hb hs r hr)
    · obtain rfl := mem_singleton.mp hb
      exact hstored hs r hr
  · intro c' hc'
    have := h.issued c' (hold c' hc')
    simp only [GatewaySystem.finish, length_append]
    omega
  · intro j b hb
    rcases getElem?_snoc hb with hb | ⟨rfl, rfl⟩
    · exact h.answersIssued j b hb
    · exact hissued ▸ h.issued c hcm
  · intro c' hc' b hb
    have hle := h.issued c' (hold c' hc')
    rw [show (s.finish i d a).answers = s.answers ++ [a] from rfl,
      take_append_of_le_length hle] at hb
    exact h.early c' (hold c' hc') b hb
  · intro k j a' b r ha' hb hs hr hidb hk
    rcases getElem?_snoc hb with hb' | ⟨rfl, rfl⟩
    · rcases getElem?_snoc ha' with ha' | ⟨hlen, -⟩
      · exact h.settled k j a' b r ha' hb' hs hr hidb hk
      · -- the last answer was not there when an earlier call was made
        have := h.answersIssued j b hb'
        have := (List.getElem?_eq_some_iff.mp hb').1
        omega
    · rcases getElem?_snoc ha' with ha' | ⟨rfl, rfl⟩
      · have hmem : a' ∈ s.answers.take c.issued :=
          mem_take_iff_getElem.mpr (by
            obtain ⟨hlt, rfl⟩ := List.getElem?_eq_some_iff.mp ha'
            exact ⟨k, by omega, rfl⟩)
        have hrec := h.answered a' (mem_of_getElem? ha') hs r hr
        rw [hid] at hidb
        have hf := h.early c hcm a' hmem hs (by simp [hr]) hidb.symm
        exact hfresh hf r (hidb ▸ hrec)
      · exact hr

theorem Inv.proceed (h : Inv s) (hc : s.callers[i]? = some c) {q : CallPoint}
    (hid : q.actionId = c.point.actionId)
    (hheld : AllHeld d (replaceAt s.callers i [{ c with point := q }]))
    (hmono : ∀ id r, s.daemon.gateway.getReceipt id = some r → d.gateway.getReceipt id = some r)
    (hfresh : c.point.isFresh = true → s.daemon.gateway.getReceipt c.point.actionId = none) :
    Inv (s.proceed i d { c with point := q }) := by
  have hcm : c ∈ s.callers := mem_of_getElem? hc
  refine ⟨hheld, fun b hb hs r hr => hmono _ _ (h.answered b hb hs r hr), ?_, h.answersIssued, ?_,
    h.settled⟩
  · intro c' hc'
    rcases mem_replaceAt hc' with hc' | hc'
    · obtain rfl := mem_singleton.mp hc'
      exact h.issued c hcm
    · exact h.issued c' hc'
  · intro c' hc' b hb hs hne hidb
    rcases mem_replaceAt hc' with hc' | hc'
    · obtain rfl := mem_singleton.mp hc'
      rw [show CallPoint.actionId _ = _ from hid] at hidb
      have hf := h.early c hcm b hb hs hne hidb
      obtain ⟨r, hr⟩ := ne_none_iff_exists'.mp hne
      have hrec := h.answered b (mem_of_mem_take hb) hs r hr
      rw [hidb, hfresh hf] at hrec
      exact nomatch hrec
    · exact h.early c' hc' b hb hs hne hidb

theorem Inv.proceed_owner (h : Inv s) (hc : s.callers[i]? = some c) (hp : c.point = .submit p)
    (hstage : p.stage ≠ .outside) (hstage' : q.stage ≠ .outside)
    (hid : q.action.actionId = p.action.actionId)
    (hsame : ∀ id, id ≠ p.action.actionId → Same s.daemon d id)
    (hmono : ∀ r, s.daemon.gateway.getReceipt p.action.actionId = some r →
      d.gateway.getReceipt p.action.actionId = some r)
    (hown : Held s.daemon.gateway p.action.actionId (s.daemon.invocations p.action.actionId) [c] →
      Held d.gateway p.action.actionId (d.invocations p.action.actionId)
        [⟨c.issued, .submit q⟩]) : Inv (s.proceed i d { c with point := .submit q }) := by
  have hcid : c.point.actionId = p.action.actionId := by rw [hp]; rfl
  obtain ⟨hheld, hfilter⟩ := h.held.owner hc (by rw [hp]; exact hstage)
  rw [hcid] at hheld hfilter
  refine h.proceed hc (hcid ▸ hid) ?_ (fun id r hr => ?_) fun hf => ?_
  · refine h.held.replace hc (forall_mem_singleton.mpr (hcid ▸ hid))
      (fun id hne => hsame id (hcid ▸ hne)) ?_
    rw [hcid, hfilter, filter_owns_singleton hid hstage']
    exact hown hheld
  · by_cases hne : id = p.action.actionId
    · subst hne
      exact hmono r hr
    · exact (hsame id hne).receipt.trans hr
  · rw [hp] at hf
    cases p with
    | lookup => exact absurd rfl hstage
    | _ => exact nomatch hf

/-! ### One step -/

theorem inv_reject (h : Inv s) (hc : s.callers[i]? = some c) {a : ActionEnvelope} {code : String}
    {state : ActionState} (hp : c.point = .reject a code message state) (r : Readings)
    (hcalm : s.daemon.gateway.getReceipt a.actionId ≠ none ∨
      s.daemon.gateway.inflight.get? a.actionId = none) :
    Inv (s.finish i (s.daemon.reject a code message state r).1
      ⟨a.actionId, c.issued, some (s.daemon.reject a code message state r).2, true⟩) := by
  have hid : c.point.actionId = a.actionId := by rw [hp]; rfl
  obtain ⟨hself, hinflight, hsame⟩ := s.daemon.gateway.reject_spec a code message state r
  have hmono : ∀ id r', s.daemon.gateway.getReceipt id = some r' →
      (s.daemon.reject a code message state r).1.gateway.getReceipt id = some r' := by
    intro id r' hr'
    refine (hsame id ?_).trans hr'
    by_cases hida : id = a.actionId
    · right
      rw [← hida, hr']
      nofun
    · exact .inl hida
  refine h.finish hc hid.symm rfl ?_ hmono (fun _ r' hr' => ?_) fun _ r' hr' => ?_
  · refine h.held.replace hc (forall_mem_nil _) (fun id hne => ?_) ?_
    · exact ⟨hsame id (.inl (hid ▸ hne)), by rw [Daemon.reject, hinflight], rfl⟩
    · rw [filter_replaceAt_of_not hc (by rw [hp]; rfl) (forall_mem_nil _), hid]
      have hown := h.held a.actionId
      rcases hcalm with hr | hi
      · have : Same s.daemon (s.daemon.reject a code message state r).1 a.actionId :=
          ⟨hsame _ (.inr hr), by rw [Daemon.reject, hinflight], rfl⟩
        exact this.held hown
      · obtain ⟨hnil, -, hle⟩ := hown.of_not_inflight hi
        rw [hnil]
        exact .free (fun _ => by rw [Daemon.reject, hself]; nofun) hle
  · exact hself.trans hr'
  · rw [hid] at hr'
    exact hself.symm.trans (hmono _ _ hr')

theorem inv_submit (h : Inv s) (hc : s.callers[i]? = some c) {env : Answers}
    (hp : c.point = .submit p) {next : GatewayPoint ⊕ ExecutionReceipt}
    (hnext : Submits s.daemon d none env p next) (hblocked : ∀ a, p ≠ .submit a)
    (hrefused : ∀ a code message, p ≠ .refuse a code message) :
    Inv (s.resume i c p env d next) := by
  have hid : c.point.actionId = p.action.actionId := by rw [hp]; rfl
  have hstage : c.point.stage = p.stage := by rw [hp]; rfl
  have howner := fun hne => h.held.owner hc (hstage ▸ hne)
  rw [hid] at howner
  cases hnext with
  | blocked => exact absurd rfl (hblocked _)
  | passed => exact absurd rfl (hblocked _)
  | refused => exact absurd rfl (hrefused _ _ _)
  | @found p r hd hout hr =>
    subst hd
    refine h.finish hc hid.symm rfl ?_ (fun _ _ hr' => hr') (fun _ r' hr' => hr'.symm ▸ hr) ?_
    · exact h.held.outside hc (hstage.trans hout) (forall_mem_nil _) (.of_eq rfl rfl)
    · intro _ r' hr'
      rw [hid, hr] at hr'
      exact hr'
  | @waits a waiter hd hr =>
    subst hd
    refine h.proceed hc hid.symm ?_ (fun _ _ hr' => hr') fun _ => hid ▸ hr
    exact h.held.outside hc hstage (forall_mem_singleton.mpr ⟨hid.symm, rfl⟩) (.of_eq rfl rfl)
  | @gaveUp a waiter r hd hr =>
    subst hd
    refine h.finish hc hid.symm rfl ?_ (fun _ _ hr' => hr') (fun hs => ?_) fun hf => ?_
    · exact h.held.outside hc hstage (forall_mem_nil _) (.of_eq rfl rfl)
    · rcases hr with hr | hr <;> simp [Daemon.returnsStored, hr] at hs
    · rw [hp] at hf
      contradiction
  | @entered a hr hi hl hg =>
    have hid' : c.point.actionId = a.actionId := hid
    have hreceipts : ∀ id, d.gateway.getReceipt id = s.daemon.gateway.getReceipt id := by
      rw [hg]
      exact fun _ => rfl
    refine h.proceed hc hid.symm ?_ (fun id r hr' => (hreceipts id).trans hr') fun _ => hid ▸ hr
    obtain ⟨hnil, hn, -⟩ := (h.held a.actionId).of_not_inflight hi
    refine h.held.replace hc (forall_mem_singleton.mpr hid.symm) (fun id hne => ?_) ?_
    · refine ⟨hreceipts id, ?_, by rw [Daemon.invocations, hl]; rfl⟩
      rw [hg]
      exact Dict.get?_set_of_ne _ _ (hid' ▸ hne).symm
    · have hstart : (GatewayPoint.start a).action.actionId = a.actionId := rfl
      rw [hid', filter_replaceAt_of_nil hc hnil, filter_owns_singleton hstart (fun h => by cases h)]
      refine .before rfl ?_ ((hreceipts _).trans hr) ?_
      · simp [hg, Gateway.enter]
      · rw [Daemon.invocations, hl]
        exact not_imp_not.mp hn hr
  | @moved p q hg hl hstages ha hq =>
    have hnot : p.stage ≠ .outside := by
      rcases hstages with hs | hs <;> simp [hs]
    have hnot' : q.stage ≠ .outside := by
      rcases hq with hq | hq <;> simp [hq, hnot]
    refine h.proceed_owner hc hp hnot hnot' (by rw [ha]) (fun id _ => .of_eq hg hl id)
      (fun r hr => by rw [hg]; exact hr) fun hheld => ?_
    exact (Same.of_eq hg hl _).held (hheld.advance (hstage ▸ hstages) (hstage ▸ hq))
  | @invoked e lease hg hl =>
    have hcount : ∀ id, d.invocations id =
        s.daemon.invocations id + if e.action.actionId = id then 1 else 0 := by
      intro id
      simp [Daemon.invocations, hl, countP_append, countP_singleton]
    refine h.proceed_owner hc hp (fun h => by cases h) (fun h => by cases h) rfl
      (fun id hne => ?_) (fun r hr => by rw [hg]; exact hr) fun hheld => ?_
    · have hne' : e.action.actionId ≠ id := Ne.symm hne
      exact ⟨by rw [hg], by rw [hg], by simp [hcount, hne']⟩
    · rw [hg, hcount]
      cases hheld with
      | before hs hi hr hn =>
        have hn' : s.daemon.invocations e.action.actionId = 0 := hn
        exact .after rfl hi hr (by simp [hn', GatewayPoint.action])
      | after hs => exact absurd (hstage.symm.trans hs) fun h => by cases h
      | leaving hp' => cases hp.symm.trans hp'
  | @stored a r hl hg =>
    have hinv : ∀ id, d.invocations id = s.daemon.invocations id := fun id => by
      rw [Daemon.invocations, hl]
      rfl
    obtain ⟨hi, hr⟩ := (howner (fun h => by cases h)).1.of_after hstage
    refine h.proceed_owner hc hp (fun h => by cases h) (fun h => by cases h) rfl (fun id hne => ?_) (fun r' hr' => ?_)
      fun hheld => ?_
    · refine ⟨?_, by rw [hg]; rfl, hinv id⟩
      rw [hg]
      exact Gateway.getReceipt_store_of_ne _ _ _ (Ne.symm hne)
    · cases hr.symm.trans hr'
    · rw [hg, hinv]
      exact .leaving rfl hi (Gateway.getReceipt_store_self ..) hheld.invocations_le
  | @left a r hl hg =>
    have hreceipts : ∀ id, d.gateway.getReceipt id = s.daemon.gateway.getReceipt id := by
      rw [hg]
      exact fun _ => rfl
    have hr := (howner (fun h => by cases h)).1.of_leaving hp
    refine h.finish hc hid.symm rfl ?_ (fun id r' hr' => (hreceipts id).trans hr')
      (fun _ r' hr' => ?_) fun hf => ?_
    · have hout : c.point.stage = .leaving := hstage
      exact h.held.leave hc (hout ▸ (fun h => by cases h)) (hout ▸ (fun h => by cases h)) (hid ▸ hg) hl
    · rw [hreceipts]
      exact some_inj.mp hr' ▸ hr
    · rw [hp] at hf
      contradiction

/-- What a `BaseException` leaves behind. -/
theorem unwind_spec (d : Daemon) (p : GatewayPoint) :
    (p.stage = .outside ∧ d.unwind p = d) ∨ (p.stage ≠ .outside ∧
      (d.unwind p).gateway = d.gateway.leave p.action.actionId ∧ (d.unwind p).log = d.log) := by
  cases p with
  | submit | refuse | lookup | wait => exact .inl ⟨rfl, rfl⟩
  | _ => exact .inr ⟨nofun, rfl, rfl⟩

theorem Inv.drop (h : Inv s) (hheld : AllHeld d (replaceAt s.callers i []))
    (hmono : ∀ id r, s.daemon.gateway.getReceipt id = some r → d.gateway.getReceipt id = some r) :
    Inv { s with daemon := d, callers := replaceAt s.callers i [] } := by
  have hold : ∀ c' ∈ replaceAt s.callers i [], c' ∈ s.callers := fun c' hc' =>
    (mem_replaceAt hc').resolve_left not_mem_nil
  exact ⟨hheld, fun b hb hs r hr => hmono _ _ (h.answered b hb hs r hr),
    fun c' hc' => h.issued c' (hold c' hc'), h.answersIssued,
    fun c' hc' => h.early c' (hold c' hc'), h.settled⟩

theorem inv_die (h : Inv s) (hc : s.callers[i]? = some c) (hcalm : c.point.stage ≠ .after) :
    Inv (s.lose i c) := by
  have hsame : c.point.stage = .outside → Inv
      { s with daemon := s.daemon, callers := replaceAt s.callers i [] } := fun hout =>
    h.drop (h.held.outside hc hout (forall_mem_nil _) (.of_eq rfl rfl)) fun _ _ hr => hr
  unfold lose
  split
  · rename_i p hp
    rw [hp] at hsame hcalm
    rcases unwind_spec s.daemon p with ⟨hout, hd⟩ | ⟨hin, hg, hl⟩
    · rw [hd]
      exact hsame hout
    · refine h.drop ?_ fun id r hr => by rw [hg]; exact hr
      refine h.held.leave hc (by rw [hp]; exact hin) (by rw [hp]; exact hcalm) ?_ hl
      rw [hg, hp]
      rfl
  · rename_i hp
    refine hsame ?_
    cases hpoint : c.point with
    | submit p => exact absurd hpoint (hp p)
    | _ => rfl

end Step

theorem inv_call (h : Inv s) {p : CallPoint} (hp : p.isFresh = true) :
    Inv { s with callers := s.callers ++ [⟨s.answers.length, p⟩] } := by
  have hout : p.stage = .outside := by
    cases p with
    | submit q => cases q <;> first | rfl | exact nomatch hp
    | _ => rfl
  refine ⟨fun id => ?_, h.answered, fun c hc => ?_, h.answersIssued, fun c hc => ?_, h.settled⟩
  · rw [filter_append, filter_singleton]
    simpa [CallPoint.owns, hout] using h.held id
  · rcases mem_append.mp hc with hc | hc
    · exact h.issued c hc
    · obtain rfl := mem_singleton.mp hc
      exact Nat.le_refl _
  · rcases mem_append.mp hc with hc | hc
    · exact h.early c hc
    · obtain rfl := mem_singleton.mp hc
      exact fun _ _ _ _ _ => hp

/-- **One step keeps the invariant** when it is calm. -/
theorem inv_step {l : GatewayLabel} (h : Inv s) (hcalm : s.calm l = true)
    (hs : s.step C l = some s') : Inv s' := by
  cases l with
  | call p =>
    simp only [step] at hs
    split at hs
    · rename_i hp
      exact some_inj.mp hs ▸ inv_call h hp
    · exact nomatch hs
  | run i env =>
    obtain ⟨c, hc, hs⟩ := bind_eq_some_iff.mp hs
    simp only [calm, hc, map_some] at hcalm
    unfold advance at hs
    split at hs
    · rename_i id hp
      cases hs
      have hid : c.point.actionId = id := by rw [hp]; rfl
      refine h.finish hc hid.symm rfl ?_ (fun _ _ hr => hr) (fun _ r hr => hr) fun _ r hr => ?_
      · exact h.held.outside hc (by rw [hp]; rfl) (forall_mem_nil _) (.of_eq rfl rfl)
      · exact hid ▸ hr
    · rename_i a code message state hp
      cases hs
      rw [hp] at hcalm
      refine inv_reject h hc hp env.readings ?_
      simpa [isSome_iff_ne_none] using hcalm
    · exact nomatch hs
    · exact nomatch hs
    · rename_i p hsubmit hrefuse hp
      obtain ⟨⟨d, next⟩, hr, rfl⟩ := map_eq_some_iff.mp hs
      refine inv_submit h hc hp (submits_of_submitAction hr) (fun a ha => ?_)
        fun a code message ha => ?_
      · exact hsubmit a (by rw [ha])
      · exact hrefuse a code message (by rw [ha])
  | die i =>
    obtain ⟨c, hc, rfl⟩ := map_eq_some_iff.mp hs
    simp only [calm, hc, map_some] at hcalm
    exact inv_die h hc (of_decide_eq_true hcalm)

theorem inv_of_reachable (h : (gatewayCalls C).ReachableUnder (fun s l => s.calm l = true) s) :
    Inv s := by
  refine h.invariant (fun s hs => ?_) fun s l s' hinv hcalm hs => inv_step hinv hcalm hs
  obtain ⟨hreceipts, hinflight, hlog, hcallers, hanswers⟩ := hs
  refine ⟨fun id => ?_, ?_, ?_, ?_, ?_, ?_⟩
  · rw [hcallers, Daemon.invocations, hlog]
    exact .free (absurd rfl) (Nat.zero_le 1)
  all_goals simp [hcallers, hanswers]

end GatewaySystem

/-- **A returned receipt stays, and executors are called once** in every run in which
nobody rejects an action that is being executed and no execution is lost. -/
theorem gatewayCalls_lawful (C : DaemonConfig) {s : GatewaySystem}
    (h : (gatewayCalls C).ReachableUnder (fun s l => s.calm l = true) s) : s.Lawful := by
  have hinv := GatewaySystem.inv_of_reachable h
  exact ⟨hinv.settled, fun id => (hinv.held id).invocations_le⟩

/-! ### Two runs -/

namespace GatewaySystem

def sample : GatewaySystem where
  daemon := { ledger := ⟨[], false, false, [], .answered⟩,
              gateway := { executors := [("c", .fixture)] }, freeSlots := 0 }

def sampleAction : ActionEnvelope :=
  .sample "a1" ActionEnvelope.isBlank_a1 .fixture .none .second

def sampleConfig : DaemonConfig := ⟨.zero, 0, 10, 10, []⟩

def executed : Answers where
  result := some ({ finalState := .completed, evidenceLevel := some .requested }, none)

/-- What the answers are about, and the final state of their receipts. -/
def outcomes (s : GatewaySystem) : List (Nat × Option ActionState × Bool) :=
  s.answers.map fun a => (a.issued, a.receipt.map (·.finalState), a.stored)

def twoSubmissions : List GatewayLabel :=
  [.call (.submit (.lookup sampleAction)), .call (.submit (.lookup sampleAction)), .run 0 {},
    .run 1 {}, .run 0 {}, .run 0 {}, .run 0 {}, .run 0 executed, .run 0 {}, .run 0 {}, .run 0 {},
    .call (.getReceipt "a1"), .run 0 {}]

def rejectedInFlight : List GatewayLabel :=
  [.call (.submit (.lookup sampleAction)), .run 0 {}, .run 0 {}, .run 0 {}, .run 0 {},
    .call (.reject sampleAction "CANCELLED" "" .blocked), .run 1 {}, .run 0 executed, .run 0 {},
    .run 0 {}, .call (.getReceipt "a1"), .run 0 {}]

theorem init_sample : (gatewayCalls sampleConfig).Init sample := ⟨rfl, rfl, rfl, rfl, rfl⟩

end GatewaySystem

open GatewaySystem in
theorem gatewayCalls_lawful_twoSubmissions :
    ∃ s, (gatewayCalls sampleConfig).runUnder (fun s l => s.calm l = true) sample twoSubmissions
        = some s ∧ s.outcomes = [(0, some .degraded, true), (0, some .degraded, true),
          (2, some .degraded, true)] ∧ s.daemon.invocations "a1" = 1 ∧ s.Lawful := by
  have hrun : ((gatewayCalls sampleConfig).runUnder (fun s l => s.calm l = true) sample
      twoSubmissions).map (fun s => (s.outcomes, s.daemon.invocations "a1"))
        = some ([(0, some .degraded, true), (0, some .degraded, true), (2, some .degraded, true)],
          1) := by
    decide +kernel
  obtain ⟨s, hs, hout⟩ := Option.map_eq_some_iff.mp hrun
  rw [Prod.mk.injEq] at hout
  exact ⟨s, hs, hout.1, hout.2,
    gatewayCalls_lawful sampleConfig (Machine.ReachableUnder.of_runUnder init_sample hs)⟩

open GatewaySystem in
/-- The execution overwrites the receipt that `reject` has returned. -/
theorem rejectedInFlight_unlawful :
    ∃ s, (gatewayCalls sampleConfig).Reachable s ∧ s.outcomes = [(0, some .blocked, true),
      (0, some .degraded, true), (2, some .degraded, true)] ∧ ¬ s.Lawful := by
  have hrun : ((gatewayCalls sampleConfig).run sample rejectedInFlight).map (fun s =>
      (s.outcomes, s.answers.map Answer.actionId)) = some
        ([(0, some ActionState.blocked, true), (0, some .degraded, true), (2, some .degraded, true)],
          [("a1" : PyStr), "a1", "a1"]) := by
    decide +kernel
  obtain ⟨s, hs, hout⟩ := Option.map_eq_some_iff.mp hrun
  rw [Prod.mk.injEq] at hout
  refine ⟨s, Machine.ReachableUnder.of_run init_sample hs, hout.1, fun hlawful => ?_⟩
  have hlen : s.answers.length = 3 := by
    rw [← List.length_map, hout.2]
    rfl
  obtain ⟨a, b, c, habc⟩ := List.length_eq_three.mp hlen
  have hout₁ := hout.1
  have hout₂ := hout.2
  rw [outcomes, habc] at hout₁
  rw [habc] at hout₂
  simp only [List.map_cons, List.map_nil, List.cons.injEq, Prod.mk.injEq, and_true] at hout₁ hout₂
  obtain ⟨⟨-, hstate, hstored⟩, -, hissued, hstate', -⟩ := hout₁
  obtain ⟨r, hr, hblocked⟩ := Option.map_eq_some_iff.mp hstate
  have := hlawful.1 0 2 a c r (by simp [habc]) (by simp [habc]) hstored hr
    (hout₂.2.2.trans hout₂.1.symm) (by omega)
  rw [this, Option.map_some, hblocked] at hstate'
  exact nomatch hstate'

end Rosclaw
