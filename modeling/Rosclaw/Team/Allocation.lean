/-
The contract-net allocator: scores, and the award that does not depend on the order of the bids.

A bid that passes the tests is scored and the scores are rounded; the bids are sorted by score and
the first one wins.  The sort keeps the order of arrival among equal scores, so the winner is the
same for every order of the bids exactly when no two of them share the best score.

* `allocate_ok` — the scored bids are the feasible ones, and the first after the sort wins;
* `head_insertionSort` — the first bid after the sort has the best score;
* `award_iff` — the condition on the bids;
* `arrival_decides` — two bids that differ in nothing but the member.
-/
import Rosclaw.Lib.FloatArith
import Rosclaw.Team.Coordinator

namespace Rosclaw.Team.ContractNet

open List

structure Features where
  eta : PyFloat
  energy : PyFloat
  capability : PyFloat
  risk : PyFloat
  reliability : PyFloat
  load : PyFloat
  comms : PyFloat
deriving DecidableEq

structure ScoredBid where
  bid : Bid
  score : PyFloat
  features : Features
deriving DecidableEq

structure AllocationResult where
  taskId : PyStr
  winner : PyStr
  score : PyFloat
  scoredBids : List ScoredBid
deriving DecidableEq

def maxEtaMs : ℚ := 60000

def maxEnergy : ℚ := 1000

/-- The features that `score_bid` computes. -/
def featuresOf (bid : Bid) : Features where
  eta := .max (.finite 0) (.sub (.finite 1) (bid.etaMs.div maxEtaMs))
  energy := .max (.finite 0) (.sub (.finite 1) (bid.energyCost.div maxEnergy))
  capability := bid.capabilityFit
  risk := bid.riskFit
  reliability := bid.reliability
  load := .sub (.finite 1) bid.currentLoad
  comms := bid.commsQuality

/-- Each feature with its weight, in the order of the features; the weights are `_WEIGHTS`. -/
def Features.weighted (f : Features) : List PyFloat :=
  [.mul (.ofRat 0.20) f.eta, .mul (.ofRat 0.10) f.energy, .mul (.ofRat 0.25) f.capability,
    .mul (.ofRat 0.10) f.risk, .mul (.ofRat 0.15) f.reliability, .mul (.ofRat 0.10) f.load,
    .mul (.ofRat 0.10) f.comms]

inductive Rejection
  | capability (memberId : PyStr) (fit : PyFloat)
  | deadline (memberId : PyStr) (eta : PyFloat)
  | risk (memberId : PyStr)
deriving DecidableEq

/-- The text of a rejection; `str` is that of floats. -/
def Rejection.text (str : PyFloat → PyStr) : Rejection → PyStr
  | .capability member fit => member ++ ": capability_fit " ++ str fit
  | .deadline member eta => member ++ ": eta " ++ str eta ++ " > deadline"
  | .risk member => member ++ ": risk not feasible"

/-- The error of `allocate`. -/
structure NoBidder where
  taskId : PyStr
  rejections : List Rejection
deriving DecidableEq

/-- The text of the error; `repr` is that of strings and of lists of strings. -/
def NoBidder.text (str : PyFloat → PyStr) (repr : PyStr → PyStr) (reprs : List PyStr → PyStr)
    (e : NoBidder) : PyStr :=
  "no feasible bidder for task " ++ repr e.taskId ++ ": "
    ++ reprs (e.rejections.map (Rejection.text str))

def rejection (a : TaskAnnouncement) (bid : Bid) : Option Rejection :=
  if bid.capabilityFit.lt (.finite 1) then some (.capability bid.memberId bid.capabilityFit)
  else if !bid.inTime a.deadlineMs then some (.deadline bid.memberId bid.etaMs)
  else if bid.riskFit.le (.finite 0) then some (.risk bid.memberId)
  else none

/-- `eligible.sort(key=score, reverse=True)` and the `sum` of floats are those of the
interpreter. -/
structure Interpreter where
  sum : List PyFloat → PyFloat
  sort : List ScoredBid → List ScoredBid

variable (py : Interpreter)

def scoreBid (bid : Bid) : ScoredBid where
  bid := bid
  score := (py.sum (featuresOf bid).weighted).roundTo 4
  features := featuresOf bid

/-- The loop of `allocate`: the eligible bids and the rejections, as they are found. -/
def sift (a : TaskAnnouncement) : List Bid → List ScoredBid × List Rejection
  | [] => ([], [])
  | bid :: bids =>
      match rejection a bid with
      | some r => ((sift a bids).1, r :: (sift a bids).2)
      | none => (scoreBid py bid :: (sift a bids).1, (sift a bids).2)

/-- `ContractNetAllocator.allocate`. -/
def allocate (a : TaskAnnouncement) (bids : List Bid) : Except NoBidder AllocationResult :=
  match py.sort (sift py a bids).1 with
  | [] => .error ⟨a.taskId, (sift py a bids).2⟩
  | winner :: scored => .ok ⟨a.taskId, winner.bid.memberId, winner.score, winner :: scored⟩

def ahead (x y : ScoredBid) : Prop := y.score.le x.score = true

instance (x y : ScoredBid) : Decidable (ahead x y) := inferInstanceAs (Decidable (_ = true))

/-- What is promised of the sort: it permutes, and scores that are numbers come out best first,
equal ones in the order of arrival. -/
structure Interpreter.Sorts : Prop where
  perm : ∀ xs, (py.sort xs).Perm xs
  stable : ∀ xs, (∀ x ∈ xs, x.score ≠ .nan) → py.sort xs = xs.insertionSort ahead

/-! ### The loop and the sort -/

variable {a : TaskAnnouncement} {bids : List Bid}

theorem rejection_eq_none {bid : Bid} : rejection a bid = none ↔ feasible a bid = true := by
  rw [rejection, feasible]
  split_ifs <;> simp_all

theorem sift_fst (a : TaskAnnouncement) (bids : List Bid) :
    (sift py a bids).1 = (bids.filter (feasible a)).map (scoreBid py) := by
  induction bids with
  | nil => rfl
  | cons bid bids ih =>
    rw [sift]
    cases hr : rejection a bid with
    | none =>
      rw [filter_cons_of_pos (rejection_eq_none.mp hr), map_cons, ← ih]
    | some r =>
      have hf : ¬feasible a bid = true := fun h => by
        rw [rejection_eq_none.mpr h] at hr
        cases hr
      rw [filter_cons_of_neg hf, ← ih]

variable {py}

theorem mem_sift {x : ScoredBid} :
    x ∈ (sift py a bids).1 ↔ ∃ bid ∈ bids, feasible a bid = true ∧ scoreBid py bid = x := by
  rw [sift_fst]
  simp [and_assoc]

theorem head_insertionSort {xs : List ScoredBid} (hnum : ∀ x ∈ xs, x.score ≠ .nan) :
    ∀ w ws, xs.insertionSort ahead = w :: ws → ∀ x ∈ xs, ahead w x := by
  induction xs with
  | nil =>
    intro w ws h x hx
    cases hx
  | cons y ys ih =>
    intro w ws h x hx
    have hy := hnum y mem_cons_self
    have hys : ∀ x ∈ ys, x.score ≠ .nan := fun x hx => hnum x (mem_cons_of_mem _ hx)
    rw [insertionSort_cons] at h
    cases hs : ys.insertionSort ahead with
    | nil =>
      have hnil : ys = [] := by
        rw [← length_eq_zero_iff, ← length_insertionSort ahead, hs, length_nil]
      subst hnil
      cases h
      rw [mem_singleton.mp hx]
      exact PyFloat.le_refl hy
    | cons v vs =>
      have hbest := ih hys v vs hs
      have hv : v.score ≠ .nan := by
        refine hys v ((mem_insertionSort ahead).mp ?_)
        rw [hs]
        exact mem_cons_self
      rw [hs, List.orderedInsert] at h
      split_ifs at h with hyv
      · -- the new bid goes before the best one so far
        cases h
        obtain rfl | hx := mem_cons.mp hx
        · exact PyFloat.le_refl hy
        · exact PyFloat.le_trans (hbest x hx) hyv
      · cases h
        obtain rfl | hx := mem_cons.mp hx
        · refine PyFloat.le_of_not_lt hy hv ?_
          rw [Bool.eq_false_iff]
          exact fun hlt => hyv (PyFloat.le_of_lt hlt)
        · exact hbest x hx

theorem allocate_error (hsort : py.Sorts) {e : NoBidder} (h : allocate py a bids = .error e) :
    ∀ bid ∈ bids, feasible a bid = false := by
  intro bid hbid
  rw [allocate] at h
  cases hs : py.sort (sift py a bids).1 with
  | nil =>
    have hnil : (sift py a bids).1 = [] := nil_perm.mp (hs ▸ hsort.perm _)
    rw [Bool.eq_false_iff]
    intro hf
    have hmem : scoreBid py bid ∈ (sift py a bids).1 := mem_sift.mpr ⟨bid, hbid, hf, rfl⟩
    rw [hnil] at hmem
    cases hmem
  | cons w ws =>
    rw [hs] at h
    cases h

theorem allocate_ok (hsort : py.Sorts) {r : AllocationResult} (h : allocate py a bids = .ok r) :
    ∃ w ∈ bids, feasible a w = true ∧ r.winner = w.memberId ∧ r.score = (scoreBid py w).score
      ∧ ∃ ws, py.sort (sift py a bids).1 = scoreBid py w :: ws := by
  rw [allocate] at h
  cases hs : py.sort (sift py a bids).1 with
  | nil =>
    rw [hs] at h
    cases h
  | cons x xs =>
    rw [hs] at h
    cases h
    have hx : x ∈ (sift py a bids).1 := by
      rw [← (hsort.perm _).mem_iff, hs]
      exact mem_cons_self
    obtain ⟨w, hw, hf, rfl⟩ := mem_sift.mp hx
    exact ⟨w, hw, hf, rfl, rfl, xs, rfl⟩

/-! ### The award -/

/-- The allocator selects whenever a bid is feasible; who is selected is feasible and has the
best score; and the selection is the same for every order of the bids. -/
structure Fair (py : Interpreter) (a : TaskAnnouncement) (bids : List Bid) : Prop where
  selects : (∃ bid ∈ bids, feasible a bid = true) → ∃ r, allocate py a bids = .ok r
  best : ∀ r, allocate py a bids = .ok r →
    ∃ w ∈ bids, w.memberId = r.winner ∧ feasible a w = true
      ∧ ∀ bid ∈ bids, feasible a bid = true →
          (scoreBid py bid).score.le (scoreBid py w).score = true
  replays : ∀ bids', bids'.Perm bids →
    (allocate py a bids').toOption.map (·.winner) = (allocate py a bids).toOption.map (·.winner)

/-- The feasible bid has a score that is at least that of every feasible one. -/
def Leads (py : Interpreter) (a : TaskAnnouncement) (bids : List Bid) (w : Bid) : Prop :=
  w ∈ bids ∧ feasible a w = true
    ∧ ∀ bid ∈ bids, feasible a bid = true →
        (scoreBid py bid).score.le (scoreBid py w).score = true

section Award

variable {a : TaskAnnouncement} {bids : List Bid}

variable {bids' rest : List Bid} {w : Bid}

theorem Leads.perm (h : Leads py a bids w) (hp : bids'.Perm bids) : Leads py a bids' w :=
  ⟨hp.mem_iff.mpr h.1, h.2.1, fun bid hbid => h.2.2 bid (hp.mem_iff.mp hbid)⟩

variable (hsort : py.Sorts)
include hsort

theorem selects (h : ∃ bid ∈ bids, feasible a bid = true) : ∃ r, allocate py a bids = .ok r := by
  obtain ⟨bid, hbid, hf⟩ := h
  cases hr : allocate py a bids with
  | ok r => exact ⟨r, rfl⟩
  | error e =>
    rw [allocate_error hsort hr bid hbid] at hf
    cases hf

theorem leads_of_ok (hnum : ∀ bid ∈ bids, feasible a bid = true → (scoreBid py bid).score ≠ .nan)
    {r : AllocationResult} (h : allocate py a bids = .ok r) :
    ∃ w, Leads py a bids w ∧ w.memberId = r.winner := by
  obtain ⟨w, hw, hf, hwin, -, ws, hs⟩ := allocate_ok hsort h
  have hscores : ∀ x ∈ (sift py a bids).1, x.score ≠ .nan := by
    intro x hx
    obtain ⟨bid, hbid, hbf, rfl⟩ := mem_sift.mp hx
    exact hnum bid hbid hbf
  rw [hsort.stable _ hscores] at hs
  refine ⟨w, ⟨hw, hf, fun bid hbid hbf => ?_⟩, hwin.symm⟩
  exact head_insertionSort hscores _ _ hs _ (mem_sift.mpr ⟨bid, hbid, hbf, rfl⟩)

theorem first_wins (hnum : ∀ bid ∈ bids, feasible a bid = true → (scoreBid py bid).score ≠ .nan)
    (hw : Leads py a bids w) (hp : (w :: rest).Perm bids) :
    (allocate py a (w :: rest)).toOption.map (·.winner) = some w.memberId := by
  have hscores : ∀ x ∈ (sift py a (w :: rest)).1, x.score ≠ .nan := by
    intro x hx
    obtain ⟨bid, hbid, hbf, rfl⟩ := mem_sift.mp hx
    exact hnum bid (hp.mem_iff.mp hbid) hbf
  have hsift : (sift py a (w :: rest)).1 = scoreBid py w :: (sift py a rest).1 := by
    rw [sift_fst, sift_fst, filter_cons_of_pos hw.2.1, map_cons]
  have hahead : ∀ x ∈ (sift py a rest).1, ahead (scoreBid py w) x := by
    intro x hx
    obtain ⟨bid, hbid, hbf, rfl⟩ := mem_sift.mp hx
    exact hw.2.2 bid (hp.mem_iff.mp (mem_cons_of_mem _ hbid)) hbf
  rw [allocate, hsort.stable _ hscores, hsift, insertionSort_cons_of_forall_rel _ hahead]
  rfl

/-- **The award does not depend on the order of the bids exactly when one bid leads.**  The
scores of the feasible bids are numbers, and no two of them share the best one. -/
theorem award_iff (hdistinct : (bids.map Bid.memberId).Nodup) :
    Fair py a bids
      ↔ (∀ bid ∈ bids, feasible a bid = true → (scoreBid py bid).score ≠ .nan)
        ∧ ∀ w w', Leads py a bids w → Leads py a bids w' → w = w' := by
  constructor
  · intro hfair
    have hnum : ∀ bid ∈ bids, feasible a bid = true → (scoreBid py bid).score ≠ .nan := by
      -- nothing is at least NaN
      intro bid hbid hbf hnan
      obtain ⟨r, hr⟩ := hfair.selects ⟨bid, hbid, hbf⟩
      obtain ⟨w, -, -, -, hbest⟩ := hfair.best r hr
      have hle := hbest bid hbid hbf
      rw [hnan, PyFloat.not_nan_le] at hle
      cases hle
    refine ⟨hnum, fun w w' hw hw' => ?_⟩
    -- each of the two wins when it comes first
    have hp := List.perm_cons_erase hw.1
    have hp' := List.perm_cons_erase hw'.1
    have hwin := hfair.replays _ hp.symm
    have hwin' := hfair.replays _ hp'.symm
    rw [first_wins hsort hnum hw hp.symm] at hwin
    rw [first_wins hsort hnum hw' hp'.symm, ← hwin] at hwin'
    exact List.inj_on_of_nodup_map hdistinct hw.1 hw'.1 (Option.some.inj hwin').symm
  · rintro ⟨hnum, hone⟩
    refine ⟨selects hsort, fun r hr => ?_, fun bids' hp => ?_⟩
    · obtain ⟨w, hw, hwin⟩ := leads_of_ok hsort hnum hr
      exact ⟨w, hw.1, hwin, hw.2⟩
    · have hnum' : ∀ bid ∈ bids', feasible a bid = true → (scoreBid py bid).score ≠ .nan :=
        fun bid hbid => hnum bid (hp.mem_iff.mp hbid)
      cases hr : allocate py a bids with
      | error e =>
        cases hr' : allocate py a bids' with
        | error e' => rfl
        | ok r' =>
          obtain ⟨w, hw, -⟩ := leads_of_ok hsort hnum' hr'
          have hf := hw.2.1
          rw [allocate_error hsort hr w (hp.mem_iff.mp hw.1)] at hf
          cases hf
      | ok r =>
        obtain ⟨w, hw, hwin⟩ := leads_of_ok hsort hnum hr
        obtain ⟨r', hr'⟩ := selects hsort ⟨w, hp.mem_iff.mpr hw.1, hw.2.1⟩
        obtain ⟨w', hw', hwin'⟩ := leads_of_ok hsort hnum' hr'
        rw [hr']
        change some r'.winner = some r.winner
        rw [← hwin, ← hwin', hone w w' hw (hw'.perm hp.symm)]

end Award

/-- `sum` from left to right, and a stable sort. -/
def plainInterpreter : Interpreter where
  sum := fun xs => xs.foldl PyFloat.add (.finite 0)
  sort := fun xs => xs.insertionSort ahead

theorem sorts_plainInterpreter : plainInterpreter.Sorts where
  perm := fun xs => perm_insertionSort ahead xs
  stable := fun _ _ => rfl

def passTask : TaskAnnouncement := ⟨"task_pass", 1, none, none, "none"⟩

def evenBid (memberId : PyStr) : Bid :=
  ⟨memberId, .finite 800, .finite 150, .finite 1, .finite 1, .finite 0, .finite 1, .finite 1⟩

/-- Two members with the same bid: whoever comes first is awarded the task. -/
theorem arrival_decides :
    (allocate plainInterpreter passTask [evenBid "r1", evenBid "r2"]).toOption.map (·.winner)
        = some "r1"
      ∧ (allocate plainInterpreter passTask [evenBid "r2", evenBid "r1"]).toOption.map (·.winner)
          = some "r2"
      ∧ ¬Fair plainInterpreter passTask [evenBid "r1", evenBid "r2"] := by
  have hfirst : (allocate plainInterpreter passTask [evenBid "r1", evenBid "r2"]).toOption.map
      (·.winner) = some "r1" := by decide +kernel
  have hsecond : (allocate plainInterpreter passTask [evenBid "r2", evenBid "r1"]).toOption.map
      (·.winner) = some "r2" := by decide +kernel
  refine ⟨hfirst, hsecond, fun hfair => ?_⟩
  have hsame := hfair.replays [evenBid "r2", evenBid "r1"] (List.Perm.swap _ _ _)
  rw [hfirst, hsecond] at hsame
  exact absurd hsame (by decide)

/-- A member with a full load, one without, and one that cannot do the task. -/
def unequalBids : List Bid :=
  [{ evenBid "r2" with currentLoad := .finite 1 }, evenBid "r1",
    { evenBid "r3" with capabilityFit := .finite 0 }]

/-- The member without a load is awarded the task, in whatever order they answer. -/
theorem award_unequal : Fair plainInterpreter passTask unequalBids := by
  have hlead : ∀ w, Leads plainInterpreter passTask unequalBids w → w = evenBid "r1" := by
    rintro w ⟨hw, hf, hbest⟩
    have hled := hbest (evenBid "r1") (by decide) (by decide +kernel)
    simp only [unequalBids, mem_cons, not_mem_nil, or_false] at hw
    rcases hw with rfl | rfl | rfl
    · exact absurd hled (by decide +kernel)
    · rfl
    · exact absurd hf (by decide +kernel)
  refine (award_iff sorts_plainInterpreter (by decide)).mpr
    ⟨by decide +kernel, fun w w' hw hw' => ?_⟩
  exact (hlead w hw).trans (hlead w' hw').symm

end Rosclaw.Team.ContractNet
