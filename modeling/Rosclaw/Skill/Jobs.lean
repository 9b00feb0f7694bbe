/-
One skill job: its record in `SkillJobStore`, and the calls that read and write it
(`skill/jobs.py`, `hostops/runner.py`).

A record is a file that is replaced as a whole.  `update` reads it, changes the copy and writes
the copy; nothing is locked, so any number of processes can do so in between.
-/
import Rosclaw.Lib.Log
import Rosclaw.Lib.Machine
import Rosclaw.Lib.Threads

namespace Rosclaw.SkillJobs

inductive JobState
  | resolved | acquired | validated | planned | awaitingApproval | authenticationRequired
  | authorized | executing | verifying | succeeded | failed | degraded | cancelled
  | rollingBack | rolledBack
deriving DecidableEq, Repr

namespace JobState

def terminal : JobState → Bool
  | .succeeded | .failed | .cancelled | .rolledBack => true
  | _ => false

/-- The states that `authorize_job` asks for. -/
def awaits : JobState → Bool
  | .awaitingApproval | .authenticationRequired => true
  | _ => false

def busy : JobState → Bool
  | .executing | .verifying => true
  | _ => false

end JobState

/-- What the calls ask of plans (of type `P`) and of the verifier's answer (of type `D`). -/
structure Host (P D : Type) where
  /-- `not plan` -/
  blank : P → Bool
  planHash : P → String
  /-- `validate_plan` does not raise -/
  valid : P → Bool
  /-- `{}` -/
  nothing : D
  /-- `verification.get("result") == "VERIFIED"` -/
  verified : D → Bool
  /-- `_receipt_path` -/
  receiptPath : String

/-- The record of a job; the times are those of `_now()`. -/
structure Job (P D : Type) where
  skill : String
  capability : Option String
  status : JobState
  planHash : String
  plan : Option P
  createdAt : Nat
  updatedAt : Nat
  authorizedAt : Option Nat := none
  failure : Option String := none
  verification : Option D := none
  receiptPath : Option String := none

/-- What `executor.execute` returns. -/
structure Execution (D : Type) where
  ok : Bool
  results : D

/-- What `build_receipt` makes of a run. -/
structure Receipt (D : Type) where
  skill : String
  intent : String
  planHash : String
  operations : D
  verification : D
  verified : Bool
  recovery : Option D

/-- The variables of `execute_authorized_job`: the record that it read, the plan in it, and how
often the job had been authorized by then. -/
structure Held (P D : Type) where
  job : Job P D
  plan : P
  authorization : Nat

/-- The calls of `update`. -/
inductive Update (P D : Type)
  | cancel
  | refuse
  | authorize (authorizedAt : Nat)
  | execute (e : Held P D)
  | verify (e : Held P D) (x : Execution D)
  | finish (final : JobState) (verification : D) (receiptPath : String)

/-- Where a call stands. -/
inductive Phase (P D : Type)
  /-- `cancel`, before its `get` -/
  | cancelling
  /-- `authorize_job`, before its `get`, in `sudo -v`, and in the execution that it launched -/
  | authorizing
  | authenticating
  | launched
  /-- `execute_authorized_job`, before its `get` -/
  | starting
  /-- before `executor.execute`, and in it -/
  | handing (e : Held P D)
  | running (e : Held P D)
  | verifying (e : Held P D) (x : Execution D)
  | recovering (e : Held P D) (x : Execution D) (verification : D)
  | recording (e : Held P D) (x : Execution D) (verification : D) (recovery : Option D)
  /-- `update`, before its `get` and before its `_write` -/
  | reading (u : Update P D)
  | writing (u : Update P D) (job : Job P D)

inductive Entry (P D : Type)
  | wrote (job : Job P D)
  /-- the plan was passed to `executor.execute` by a call that saw the `n`th authorization -/
  | handed (n : Nat) (plan : P)
  /-- the executor accepted it and began -/
  | began (n : Nat) (plan : P)

structure State (P D : Type) where
  job : Job P D
  receipt : Option (Receipt D)
  phases : List (Phase P D)
  log : List (Entry P D)

variable {P D : Type}

def Entry.authorization? : Entry P D → Option (Job P D)
  | .wrote job => if job.status = .authorized then some job else none
  | _ => none

def authorizations (log : List (Entry P D)) : List (Job P D) := log.filterMap Entry.authorization?

namespace Update

def status : Update P D → JobState
  | .cancel => .cancelled
  | .refuse => .failed
  | .authorize _ => .authorized
  | .execute _ => .executing
  | .verify _ _ => .verifying
  | .finish final _ _ => final

/-- What `update` does to its copy of the record. -/
def apply (u : Update P D) (now : Nat) (job : Job P D) : Job P D :=
  let changed : Job P D := match u with
    | .refuse => { job with failure := some "sudo authentication failed" }
    | .authorize t => { job with authorizedAt := some t }
    | .finish _ v path => { job with verification := some v, receiptPath := some path }
    | .cancel | .execute _ | .verify _ _ => job
  { changed with status := u.status, updatedAt := now }

def next : Update P D → List (Phase P D)
  | .cancel | .refuse | .finish _ _ _ => []
  | .authorize _ => [.launched]
  | .execute e => [.handing e]
  | .verify e x => [.verifying e x]

end Update

namespace Host

variable (h : Host P D)

/-- `job.get("plan")`, unless it counts as false. -/
def planOf (job : Job P D) : Option P := job.plan.filter fun p => !h.blank p

/-- `approve` and `execute` raise nothing before the first operation. -/
def accepts (e : Held P D) : Bool :=
  e.job.planHash ≠ "" ∧ h.valid e.plan = true ∧ h.planHash e.plan = e.job.planHash

def final (x : Execution D) (verification : D) : JobState :=
  if x.ok = true ∧ h.verified verification = true then .succeeded else .failed

def receipt (e : Held P D) (x : Execution D) (verification : D) (recovery : Option D) :
    Receipt D where
  skill := e.job.skill
  intent := e.job.capability.getD ""
  planHash := h.planHash e.plan
  operations := x.results
  verification := verification
  verified := h.final x verification = .succeeded
  recovery := recovery

end Host

inductive Call
  | cancel | authorizeJob | executeAuthorizedJob

def Call.phase : Call → Phase P D
  | .cancel => .cancelling
  | .authorizeJob => .authorizing
  | .executeAuthorizedJob => .starting

/-- A step, with the place of its process in the list of phases. -/
inductive Label (D : Type)
  | call (c : Call)
  /-- an access to the job's files, at a time -/
  | move (i : Nat) (now : Nat)
  /-- `sudo` returns -/
  | returned (i : Nat) (now : Nat) (rc : Int)
  | executed (i : Nat) (x : Execution D)
  | verified (i : Nat) (verification : D)
  | recovered (i : Nat) (recovery : D)
  /-- an exception leaves the call, or the process is killed -/
  | raise (i : Nat)

namespace State

variable (h : Host P D) (s : State P D)

/-- The process at place `i` goes on to these phases. -/
def goes (i : Nat) (ps : List (Phase P D)) : State P D :=
  { s with phases := replaceAt s.phases i ps }

/-- `executor.execute` is called. -/
def hand (i : Nat) (e : Held P D) : State P D :=
  if e.job.planHash = "" then s.goes i []
  else if h.accepts e then
    { s.goes i [.running e] with
      log := s.log ++ [.handed e.authorization e.plan] ++ [.began e.authorization e.plan] }
  else { s.goes i [] with log := s.log ++ [.handed e.authorization e.plan] }

/-- An access to the files by the process at place `i`. -/
def move (i now : Nat) : Phase P D → Option (State P D)
  | .cancelling => some (s.goes i (if s.job.status.terminal then [] else [.reading .cancel]))
  | .authorizing =>
      some (s.goes i
        (if s.job.status.awaits ∧ (h.planOf s.job).isSome then [.authenticating] else []))
  | .starting =>
      some (s.goes i
        (if s.job.status = .authorized then
          (h.planOf s.job).toList.map fun p =>
            .reading (.execute ⟨s.job, p, (authorizations s.log).length⟩)
        else []))
  | .handing e => some (s.hand h i e)
  | .recording e x v r =>
      some { s.goes i [.reading (.finish (h.final x v) v h.receiptPath)] with
        receipt := some (h.receipt e x v r) }
  | .reading u => some (s.goes i [.writing u (u.apply now s.job)])
  | .writing u job => some { s.goes i u.next with job := job, log := s.log ++ [.wrote job] }
  | _ => none

def answer : Label D → Phase P D → Option (List (Phase P D))
  | .returned _ now rc, .authenticating =>
      some [.reading (if rc = 0 then .authorize now else .refuse)]
  -- whatever the execution did, `authorize_job` only reads the record once more
  | .returned _ _ _, .launched => some []
  | .executed _ x, .running e =>
      some [if x.ok then .reading (.verify e x) else .recovering e x h.nothing]
  | .verified _ v, .verifying e x =>
      some [if h.verified v then .recording e x v none else .recovering e x v]
  | .recovered _ r, .recovering e x v => some [.recording e x v (some r)]
  | .raise _, _ => some []
  | _, _ => none

def step (l : Label D) : Option (State P D) :=
  match l with
  | .call c => some { s with phases := s.phases ++ [c.phase] }
  | .move i now => s.phases[i]?.bind (s.move h i now)
  | .returned i _ _ | .executed i _ | .verified i _ | .recovered i _ | .raise i =>
      (s.phases[i]?.bind (answer h l)).map (s.goes i)

end State

/-- The job as `create` wrote it for one of its two callers. -/
structure Created (s : State P D) : Prop where
  status : s.job.status.awaits = true
  receipt : s.receipt = none
  phases : s.phases = []
  log : s.log = [.wrote s.job]

/-- The calls on one job, from any number of processes. -/
def jobs (h : Host P D) : Machine (State P D) (Label D) where
  Init := Created
  step := State.step h

end Rosclaw.SkillJobs
