/-
Every slot that is taken is given back once.

A request, a job and a slot are followed by tokens: the thread or the future that has to give the
slot of a request back carries the request's token, and the log carries one for each event.  A
statement takes a token away and puts one or two in its place, so the numbers of the tokens of a
request are bound to each other, and the slots are bound to the sum over all requests.

* `fires_moves` — every statement is an instance of a rule;
* `Inv` — the numbers of the tokens, and the threads that register a callback;
* `Served` — in a run with such answers, what the pool has to do is what is owed;
* `slots_accounted` — the results together;
* `slot_without_work` — a work item that is left in a pool that raised.
-/
import Rosclaw.Daemon.QueueSlots

namespace Rosclaw.QueueSlots

open List Option

/-! ### Tokens -/

inductive Token
  /-- a request that has not got its slot -/
  | asks (request : Nat)
  /-- one that has its slot, and no job -/
  | admits (request : Nat)
  /-- a job whose slot a thread has to give back -/
  | works (job : Nat)
  /-- a job whose slot a future has to give back -/
  | owes (job : Nat)
  | event (e : SlotEvent)
deriving DecidableEq

def Point.token : Point → Option Token
  | .check k _ | .acquire k _ => some (.asks k)
  | .makeJob k _ | .undo k _ => some (.admits k)
  | .submit k | .refuse k | .register k _ | .release k _ => some (.works k)
  | .terminal .. | .cancel _ | .override _ => none

def Future.token (fut : Future) : Option Token :=
  if fut.callback && fut.state.isOpen then some (.owes fut.job) else none

def SlotEvent.token (e : SlotEvent) : Option Token := some (.event e)

def System.count (s : System) (x : Token) : Nat :=
  tokens Point.token s.threads x + tokens Future.token s.futures x
    + tokens SlotEvent.token s.log x

/-- What a statement does with the tokens and the slots. -/
inductive Rule (slots slots' : Nat) : List Token → List Token → Prop
  | idle (h : slots' = slots) : Rule slots slots' [] []
  /-- the action is known -/
  | known (k : Nat) (h : slots' = slots) : Rule slots slots' [.asks k] []
  | refused (k : Nat) (h : slots' = slots) :
      Rule slots slots' [.asks k] [.event (.rejected k)]
  | took (k : Nat) (h : slots = slots' + 1) :
      Rule slots slots' [.asks k] [.admits k, .event (.took k)]
  | accepted (k : Nat) (h : slots' = slots) :
      Rule slots slots' [.admits k] [.works k, .event (.accepted k)]
  | undone (k : Nat) (h : slots' = slots + 1) :
      Rule slots slots' [.admits k] [.event (.gave k), .event (.rejected k)]
  | registered (k : Nat) (h : slots' = slots) : Rule slots slots' [.works k] [.owes k]
  | settled (k : Nat) (h : slots' = slots) : Rule slots slots' [.owes k] [.works k]
  | gave (k : Nat) (h : slots' = slots + 1) : Rule slots slots' [.works k] [.event (.gave k)]

structure Tallied (c : Token → Nat) (k : Nat) : Prop where
  once : c (.asks k) + c (.event (.took k)) ≤ 1
  balance : c (.event (.took k))
    = c (.event (.gave k)) + c (.admits k) + c (.works k) + c (.owes k)
  outcome : c (.event (.rejected k)) + c (.asks k) + c (.admits k) + c (.event (.accepted k)) ≤ 1
  job : c (.works k) + c (.owes k) ≤ c (.event (.accepted k))
  slot : c (.event (.accepted k)) ≤ c (.event (.took k))

variable {c c' : Token → Nat} {k slots slots' : Nat} {m n : Int} {p : Point} {post pre : List Token}
  {s s' : System} {x : Token}

theorem Tallied.of_rule (hrule : Rule slots slots' pre post) (hfires : Fires c c' pre post)
    (h : Tallied c k) : Tallied c' k := by
  obtain ⟨honce, hbalance, houtcome, hjob, hslot⟩ := h
  have h₁ := hfires (.asks k)
  have h₂ := hfires (.admits k)
  have h₃ := hfires (.works k)
  have h₄ := hfires (.owes k)
  have h₅ := hfires (.event (.took k))
  have h₆ := hfires (.event (.gave k))
  have h₇ := hfires (.event (.accepted k))
  have h₈ := hfires (.event (.rejected k))
  cases hrule with
  | idle h =>
    simp only [count_nil, Nat.add_zero] at h₁ h₂ h₃ h₄ h₅ h₆ h₇ h₈
    constructor <;> omega
  | _ k' h =>
    -- the rule is one for the request, or for another one
    simp only [count_cons, count_nil, beq_iff_eq, Token.asks.injEq, Token.admits.injEq,
      Token.works.injEq, Token.owes.injEq, Token.event.injEq, SlotEvent.took.injEq,
      SlotEvent.gave.injEq, SlotEvent.accepted.injEq, SlotEvent.rejected.injEq, reduceCtorEq,
      if_false, Nat.zero_add, Nat.add_zero] at h₁ h₂ h₃ h₄ h₅ h₆ h₇ h₈
    by_cases hk : k' = k
    · simp only [hk, if_true] at h₁ h₂ h₃ h₄ h₅ h₆ h₇ h₈
      constructor <;> omega
    · simp only [hk, if_false, Nat.add_zero] at h₁ h₂ h₃ h₄ h₅ h₆ h₇ h₈
      constructor <;> omega

def held (c : Token → Nat) (k : Nat) : Nat := c (.admits k) + c (.works k) + c (.owes k)

/-! ### What a statement does -/

namespace System

variable (s : System) (k : Nat) (f : Job → Job)

@[simp] theorem threads_setJob : (s.setJob k f).threads = s.threads := by
  rw [setJob]
  split <;> rfl

@[simp] theorem futures_setJob : (s.setJob k f).futures = s.futures := by
  rw [setJob]
  split <;> rfl

@[simp] theorem log_setJob : (s.setJob k f).log = s.log := by
  rw [setJob]
  split <;> rfl

@[simp] theorem slots_setJob : (s.setJob k f).slots = s.slots := by
  rw [setJob]
  split <;> rfl

@[simp] theorem capacity_setJob : (s.setJob k f).capacity = s.capacity := by
  rw [setJob]
  split <;> rfl

@[simp] theorem requests_setJob : (s.setJob k f).requests = s.requests := by
  rw [setJob]
  split <;> rfl

theorem evict_eq : ∃ table, s.evict = { s with table := table } := by
  have hloop : ∀ (es : List (PyStr × Nat)) (s : System) (target : Nat),
      ∃ table, s.evictJobs target es = { s with table := table } := by
    intro es
    induction es with
    | nil => exact fun s _ => ⟨s.table, rfl⟩
    | cons e es ih =>
      intro s target
      rw [evictJobs]
      split
      · exact ⟨s.table, rfl⟩
      · split
        · obtain ⟨table, htable⟩ := ih { s with table := s.table.erase e.1 } target
          exact ⟨table, htable⟩
        · exact ih s target
  exact hloop _ s _

theorem give_eq {s : System} (h : s.slots < s.capacity) (k : Nat) :
    s.give k = { s with slots := s.slots + 1, log := s.log ++ [.gave k] } := by
  rw [give, if_pos h]
  rfl

end System

/-- A statement of a thread that stands at the point, and where the thread stands next, unless it
is over; `leaves` says whether a pool that raises can keep the work item. -/
inductive Moves (leaves : Bool) (s s' : System) : Point → Option Point → Prop
  | quiet {p : Point} {q : Option Point} (ht : q.bind Point.token = p.token)
      (hp : p.isRegister = false) (hq : ∀ p' ∈ q, p'.isRegister = false)
      (hf : s'.futures = s.futures) (hl : s'.log = s.log) (hs : s'.slots = s.slots) : Moves leaves s s' p q
  | known {p : Point} {k : Nat} (ht : p.token = some (.asks k))
      (hf : s'.futures = s.futures) (hl : s'.log = s.log) (hs : s'.slots = s.slots) :
      Moves leaves s s' p none
  | refused {p : Point} {k : Nat} (ht : p.token = some (.asks k))
      (hf : s'.futures = s.futures) (hl : s'.log = s.log ++ [.rejected k])
      (hs : s'.slots = s.slots) : Moves leaves s s' p none
  | took {k : Nat} {id : PyStr} (hf : s'.futures = s.futures) (hl : s'.log = s.log ++ [.took k])
      (hs : s.slots = s'.slots + 1) : Moves leaves s s' (.acquire k id) (some (.makeJob k id))
  | accepted {k : Nat} {id : PyStr} (hf : s'.futures = s.futures)
      (hl : s'.log = s.log ++ [.accepted k]) (hs : s'.slots = s.slots) :
      Moves leaves s s' (.makeJob k id) (some (.submit k))
  | undone {k : Nat} {id : PyStr} (hf : s'.futures = s.futures)
      (hl : s'.log = s.log ++ [.gave k, .rejected k]) (hs : s'.slots = s.slots + 1) :
      Moves leaves s s' (.undo k id) none
  | submitted {k : Nat} (hf : s'.futures = s.futures ++ [{ job := k }]) (hl : s'.log = s.log)
      (hs : s'.slots = s.slots) :
      Moves leaves s s' (.submit k) (some (.register k s.futures.length))
  /-- the pool raises and keeps the work item -/
  | left {k : Nat} (hleaves : leaves = true) (hf : s'.futures = s.futures ++ [{ job := k }]) (hl : s'.log = s.log)
      (hs : s'.slots = s.slots) : Moves leaves s s' (.submit k) (some (.refuse k))
  | registered {k f : Nat} {fut : Future} (hfut : s.futures[f]? = some fut)
      (hopen : fut.state.isOpen = true)
      (hf : s'.futures = replaceAt s.futures f [{ fut with callback := true }])
      (hl : s'.log = s.log) (hs : s'.slots = s.slots) : Moves leaves s s' (.register k f) none
  /-- the future is settled before the callback is added -/
  | late {k f : Nat} {fut : Future} (hfut : s.futures[f]? = some fut)
      (hsettled : fut.state.isOpen = false) (hf : s'.futures = s.futures) (hl : s'.log = s.log)
      (hs : s'.slots = s.slots) : Moves leaves s s' (.register k f) (some (.release k none))
  | gave {p : Point} {k : Nat} {q : Option Point} (ht : p.token = some (.works k))
      (hp : p.isRegister = false) (hq : ∀ p' ∈ q, p'.token = none ∧ p'.isRegister = false)
      (hf : s'.futures = s.futures) (hl : s'.log = s.log ++ [.gave k])
      (hs : s'.slots = s.slots + 1) : Moves leaves s s' p q
  | cancelled {p q : Point} {f : Nat} {fut : Future} (ht : p.token = none)
      (hq : q.isRegister = false)
      (hfut : s.futures[f]? = some fut) (hpending : fut.state = .pending)
      (hqt : q.token = if fut.callback then some (.works fut.job) else none)
      (hf : s'.futures = replaceAt s.futures f [{ fut with state := .cancelled }])
      (hl : s'.log = s.log) (hs : s'.slots = s.slots) : Moves leaves s s' p (some q)

namespace System

variable {s : System} {i : Nat} {env : Answers}

variable {p : Point}

theorem moves_cancelFuture (i k : Nat) (env : Answers) (state : JobState) (ht : p.token = none)
    (hp : p.isRegister = false) :
    ∃ q : Option Point, (s.cancelFuture i k state).threads = replaceAt s.threads i q.toList ∧
      (s.cancelFuture i k state).capacity = s.capacity ∧
      (s.cancelFuture i k state).requests = s.requests ∧
      Moves env.leavesItem s (s.cancelFuture i k state) p q := by
  have hover : ∃ q : Option Point, (s.finish i).threads = replaceAt s.threads i q.toList ∧
      (s.finish i).capacity = s.capacity ∧ (s.finish i).requests = s.requests ∧
      Moves env.leavesItem s (s.finish i) p q :=
    ⟨none, rfl, rfl, rfl, .quiet ht.symm hp (by simp) rfl rfl rfl⟩
  rw [cancelFuture]
  split
  · exact hover
  · split
    · exact hover
    · split
      · exact hover
      · next fut hfut =>
        split
        · next hpending =>
          dsimp only
          split
          · next hcallback =>
            refine ⟨some (.release fut.job (some state)), rfl, rfl, rfl, ?_⟩
            exact .cancelled ht rfl hfut hpending (by rw [if_pos hcallback]; rfl) rfl rfl rfl
          · next hcallback =>
            refine ⟨some (.terminal k state), rfl, rfl, rfl, ?_⟩
            exact .cancelled ht rfl hfut hpending (by rw [if_neg hcallback]; rfl) rfl rfl rfl
        · refine ⟨some (.terminal k state), rfl, rfl, rfl, ?_⟩
          exact .quiet ht.symm hp (by simp [Point.isRegister]) rfl rfl rfl
        · exact hover
        · exact hover

theorem moves_of_advance
    (hgive : ∀ k, p.token = some (.admits k) ∨ p.token = some (.works k) → s.slots < s.capacity)
    (hregister : ∀ k f, p = .register k f → ∃ fut, s.futures[f]? = some fut) :
    ∃ q : Option Point, (s.advance i env p).threads = replaceAt s.threads i q.toList ∧
      (s.advance i env p).capacity = s.capacity ∧ (s.advance i env p).requests = s.requests ∧
      Moves env.leavesItem s (s.advance i env p) p q := by
  cases p with
  | check k id =>
    rw [advance]
    split
    · exact ⟨none, rfl, rfl, rfl, .refused rfl rfl rfl rfl⟩
    · split
      · exact ⟨none, rfl, rfl, rfl, .known rfl rfl rfl rfl⟩
      · split
        · exact ⟨none, rfl, rfl, rfl, .refused rfl rfl rfl rfl⟩
        · exact ⟨some _, rfl, rfl, rfl, .quiet rfl rfl (by simp [Point.isRegister]) rfl rfl rfl⟩
  | acquire k id =>
    rw [advance]
    split
    · exact ⟨none, rfl, rfl, rfl, .refused rfl rfl rfl rfl⟩
    · next hslots =>
      have hone : s.slots = s.slots - 1 + 1 := by omega
      exact ⟨some _, rfl, rfl, rfl, .took rfl rfl hone⟩
  | makeJob k id =>
    obtain ⟨table, htable⟩ := s.evict_eq
    rw [advance, htable]
    dsimp only
    split
    · exact ⟨some _, rfl, rfl, rfl, .quiet rfl rfl (by simp [Point.isRegister]) rfl rfl rfl⟩
    · exact ⟨some _, rfl, rfl, rfl, .accepted rfl rfl rfl⟩
  | undo k id =>
    have hcap : s.slots < s.capacity := hgive k (.inl rfl)
    rw [advance, give_eq (s := { s with table := s.table.erase id }) hcap]
    exact ⟨none, rfl, rfl, rfl, .undone rfl (append_assoc ..) rfl⟩
  | submit k =>
    rw [advance]
    split
    · exact ⟨some _, rfl, rfl, rfl, .quiet rfl rfl (by simp [Point.isRegister]) rfl rfl rfl⟩
    · split
      · split
        · next hleaves => exact ⟨some _, rfl, rfl, rfl, .left hleaves rfl rfl rfl⟩
        · exact ⟨some _, rfl, rfl, rfl, .quiet rfl rfl (by simp [Point.isRegister]) rfl rfl rfl⟩
      · refine ⟨some (.register k s.futures.length), ?_, ?_, ?_, .submitted ?_ ?_ ?_⟩
        all_goals simp [goto, enqueue]
  | refuse k =>
    have hcap : s.slots < s.capacity := hgive k (.inr rfl)
    rw [advance, give_eq (by simpa using hcap)]
    refine ⟨none, ?_, ?_, ?_, .gave rfl rfl (by simp) ?_ ?_ ?_⟩
    all_goals simp [finish]
  | register k f =>
    obtain ⟨fut, hfut⟩ := hregister k f rfl
    rw [advance, hfut]
    dsimp only
    split
    · next hopen => exact ⟨none, rfl, rfl, rfl, .registered hfut hopen rfl rfl rfl⟩
    · next hopen =>
      exact ⟨some _, rfl, rfl, rfl, .late hfut (Bool.not_eq_true _ ▸ hopen) rfl rfl rfl⟩
  | release k after =>
    have hcap : s.slots < s.capacity := hgive k (.inr rfl)
    cases after with
    | none =>
      rw [advance, give_eq hcap]
      exact ⟨none, rfl, rfl, rfl, .gave rfl rfl (by simp) rfl rfl rfl⟩
    | some state =>
      rw [advance]
      rw [give_eq hcap]
      exact ⟨some _, rfl, rfl, rfl,
        .gave rfl rfl (by simp [Point.isRegister, Point.token]) rfl rfl rfl⟩
  | terminal k state =>
    rw [advance]
    refine ⟨none, ?_, ?_, ?_, .quiet rfl rfl (by simp) ?_ ?_ ?_⟩
    all_goals simp [finish]
  | cancel id =>
    rw [advance]
    split
    · exact ⟨none, rfl, rfl, rfl, .quiet rfl rfl (by simp) rfl rfl rfl⟩
    · exact moves_cancelFuture i _ env _ rfl rfl
  | override k => exact moves_cancelFuture i k env _ rfl rfl

end System

/-! ### The tokens of a statement -/

section Step

variable {s s' : System} {i : Nat} {p : Point} {q : Option Point} {leaves : Bool}

variable {l l' : List Future} {post post' pre pre' : List Token}

theorem fires_count {es : List SlotEvent}
    (hT : Fires (tokens Point.token s.threads) (tokens Point.token s'.threads) pre post)
    (hF : Fires (tokens Future.token s.futures) (tokens Future.token s'.futures) pre' post')
    (hl : s'.log = s.log ++ es) :
    Fires s.count s'.count (pre ++ pre') (post ++ post' ++ es.filterMap SlotEvent.token) := by
  have hL := fires_append s.log es SlotEvent.token
  rw [← hl] at hL
  have h := (hT.add hF).add hL
  rw [append_nil] at h
  exact h

theorem fires_same (h : l' = l) :
    Fires (tokens Future.token l) (tokens Future.token l') [] [] := h ▸ Fires.refl _

/-- **Every statement is an instance of a rule.** -/
theorem fires_moves (hp : s.threads[i]? = some p)
    (hthreads : s'.threads = replaceAt s.threads i q.toList)
    (hregister : ∀ k f fut, p = .register k f → s.futures[f]? = some fut →
      fut.job = k ∧ fut.callback = false) (h : Moves leaves s s' p q) :
    ∃ pre post, Rule s.slots s'.slots pre post ∧ Fires s.count s'.count pre post := by
  have hT := fires_replaceAt hp q Point.token
  rw [← hthreads] at hT
  cases h with
  | quiet ht _ _ hf hl hs =>
    have hfires := fires_count hT (fires_same hf) (hl.trans (append_nil _).symm)
    rw [ht] at hfires
    have hsame : Fires s.count s'.count p.token.toList p.token.toList := by simpa using hfires
    exact ⟨[], [], .idle hs, hsame.cancel⟩
  | known ht hf hl hs =>
    have hfires := fires_count hT (fires_same hf) (hl.trans (append_nil _).symm)
    rw [ht] at hfires
    exact ⟨_, _, .known _ hs, hfires⟩
  | refused ht hf hl hs =>
    have hfires := fires_count hT (fires_same hf) hl
    rw [ht] at hfires
    exact ⟨_, _, .refused _ hs, hfires⟩
  | took hf hl hs => exact ⟨_, _, .took _ hs, fires_count hT (fires_same hf) hl⟩
  | accepted hf hl hs => exact ⟨_, _, .accepted _ hs, fires_count hT (fires_same hf) hl⟩
  | undone hf hl hs => exact ⟨_, _, .undone _ hs, fires_count hT (fires_same hf) hl⟩
  | @submitted k hf hl hs =>
    have hF := fires_append s.futures [{ job := k }] Future.token
    rw [← hf] at hF
    have hfires := fires_count hT hF (hl.trans (append_nil _).symm)
    exact ⟨[], [], .idle hs, hfires.cancel⟩
  | @left k _ hf hl hs =>
    have hF := fires_append s.futures [{ job := k }] Future.token
    rw [← hf] at hF
    have hfires := fires_count hT hF (hl.trans (append_nil _).symm)
    exact ⟨[], [], .idle hs, hfires.cancel⟩
  | @registered k f fut hfut hopen hf hl hs =>
    obtain ⟨rfl, hcallback⟩ := hregister _ _ _ rfl hfut
    have hF := fires_replaceAt hfut (some { fut with callback := true }) Future.token
    rw [toList_some, ← hf] at hF
    have hfires := fires_count hT hF (hl.trans (append_nil _).symm)
    simp only [bind_some, Future.token, hcallback, hopen, Bool.false_and, Bool.true_and,
      if_true, if_false, Bool.false_eq_true] at hfires
    exact ⟨_, _, .registered _ hs, hfires⟩
  | late hfut hsettled hf hl hs =>
    have hfires := fires_count hT (fires_same hf) (hl.trans (append_nil _).symm)
    exact ⟨[], [], .idle hs, hfires.cancel⟩
  | gave ht hnot hq hf hl hs =>
    have hfires := fires_count hT (fires_same hf) hl
    have hnone : q.bind Point.token = none := by
      cases q with
      | none => rfl
      | some p' => exact (hq p' rfl).1
    rw [ht, hnone] at hfires
    exact ⟨_, _, .gave _ hs, hfires⟩
  | @cancelled p q f fut ht hq hfut hpending hqt hf hl hs =>
    have hF := fires_replaceAt hfut (some { fut with state := .cancelled }) Future.token
    rw [toList_some, ← hf] at hF
    have hfires := fires_count hT hF (hl.trans (append_nil _).symm)
    rw [ht, bind_some, hqt] at hfires
    simp only [bind_some, Future.token, hpending, FutureState.isOpen, Bool.and_true,
      Bool.and_false] at hfires
    split at hfires
    · exact ⟨_, _, .settled _ hs, by simpa using hfires⟩
    · exact ⟨[], [], .idle hs, by simpa using hfires⟩

end Step

/-! ### The slots of all requests -/

def Token.request : Token → Nat
  | .asks k | .admits k | .works k | .owes k => k
  | .event (.took k) | .event (.gave k) | .event (.accepted k) | .event (.rejected k) => k

theorem rule_at (hrule : Rule slots slots' pre post) (hfires : Fires c c' pre post) :
    (slots' = slots ∧ c' = c) ∨ ∃ k, 0 < c (.asks k) + held c k ∧
      (∀ x : Token, x.request ≠ k → c' x = c x) ∧ slots' + held c' k = slots + held c k := by
  have hother : ∀ k, (∀ x ∈ pre ++ post, x.request = k) → ∀ x : Token, x.request ≠ k →
      c' x = c x := by
    intro k hk x hx
    have hpre : pre.count x = 0 := count_eq_zero.mpr fun h =>
      hx (hk x (mem_append_left _ h))
    have hpost : post.count x = 0 := count_eq_zero.mpr fun h =>
      hx (hk x (mem_append_right _ h))
    have := hfires x
    omega
  cases hrule with
  | idle h =>
    refine .inl ⟨h, funext fun x => ?_⟩
    have := hfires x
    rw [count_nil] at this
    exact this
  | _ k h =>
    right
    have h₁ := hfires (.asks k)
    have h₂ := hfires (.admits k)
    have h₃ := hfires (.works k)
    have h₄ := hfires (.owes k)
    simp only [count_cons, count_nil, beq_iff_eq, reduceCtorEq, if_false, if_true,
      Nat.zero_add, Nat.add_zero] at h₁ h₂ h₃ h₄
    refine ⟨k, ?_, hother k (by simp [Token.request]), ?_⟩
    · unfold held
      omega
    · unfold held
      omega

structure Accounted (s : System) : Prop where
  tallied : ∀ k, Tallied s.count k
  /-- a request that is not made yet has no token -/
  fresh : ∀ x : Token, s.requests ≤ x.request → s.count x = 0
  total : s.slots + (Finset.range s.requests).sum (held s.count) = s.capacity

theorem Accounted.of_rule (hs : Accounted s) (hrule : Rule s.slots s'.slots pre post)
    (hfires : Fires s.count s'.count pre post) (hcapacity : s'.capacity = s.capacity)
    (hrequests : s'.requests = s.requests) : Accounted s' := by
  refine ⟨fun k => (hs.tallied k).of_rule hrule hfires, ?_, ?_⟩
  · intro x hx
    rw [hrequests] at hx
    rcases rule_at hrule hfires with ⟨-, hsame⟩ | ⟨k, hpos, hother, -⟩
    · rw [hsame]
      exact hs.fresh x hx
    · refine (hother x fun heq => ?_).trans (hs.fresh x hx)
      -- the request of the rule has been made
      have h₁ := hs.fresh (.asks k) (heq ▸ hx)
      have h₂ := hs.fresh (.admits k) (heq ▸ hx)
      have h₃ := hs.fresh (.works k) (heq ▸ hx)
      have h₄ := hs.fresh (.owes k) (heq ▸ hx)
      unfold held at hpos
      omega
  · rw [hrequests, hcapacity, ← hs.total]
    rcases rule_at hrule hfires with ⟨hslots, hsame⟩ | ⟨k, hpos, hother, hbalance⟩
    · rw [hslots, hsame]
    · have hk : k < s.requests := by
        by_contra hge
        have h₁ := hs.fresh (.asks k) (not_lt.mp hge)
        have h₂ := hs.fresh (.admits k) (not_lt.mp hge)
        have h₃ := hs.fresh (.works k) (not_lt.mp hge)
        have h₄ := hs.fresh (.owes k) (not_lt.mp hge)
        unfold held at hpos
        omega
      have hne : ∀ j, j ≠ k → held s'.count j = held s.count j := by
        intro j hj
        rw [held, held, hother (.admits j) hj, hother (.works j) hj, hother (.owes j) hj]
      have hsum := sum_range_change hk hne
      omega

theorem Accounted.slots_lt (hs : Accounted s) (h : 0 < held s.count k) : s.slots < s.capacity := by
  have hk : k < s.requests := by
    by_contra hge
    have h₂ := hs.fresh (.admits k) (not_lt.mp hge)
    have h₃ := hs.fresh (.works k) (not_lt.mp hge)
    have h₄ := hs.fresh (.owes k) (not_lt.mp hge)
    unfold held at h
    omega
  have hsum : held s.count k + ((Finset.range s.requests).erase k).sum (held s.count)
      = (Finset.range s.requests).sum (held s.count) :=
    Finset.add_sum_erase _ (held s.count) (Finset.mem_range.mpr hk)
  have := hs.total
  omega

theorem count_pos_of_thread (hp : p ∈ s.threads) (hx : p.token = some x) : 0 < s.count x := by
  have hone : 0 < tokens Point.token s.threads x := countP_pos_iff.mpr ⟨p, hp, decide_eq_true hx⟩
  unfold System.count
  omega

theorem count_pos_of_future {fut : Future} (hfut : fut ∈ s.futures) (hx : fut.token = some x) :
    0 < s.count x := by
  have hone : 0 < tokens Future.token s.futures x :=
    countP_pos_iff.mpr ⟨fut, hfut, decide_eq_true hx⟩
  unfold System.count
  omega

theorem Tallied.one (h : Tallied c k) : c (.works k) + c (.owes k) ≤ 1 := by
  have := h.once
  have := h.job
  have := h.slot
  omega

/-! ### Every step -/

def Registering (s : System) : Prop :=
  ∀ k f, .register k f ∈ s.threads → ∃ fut, s.futures[f]? = some fut ∧ fut.job = k ∧
    fut.callback = false

def Served (s : System) : Prop :=
  ∀ f fut, s.futures[f]? = some fut → fut.state.isOpen = true →
    fut.callback = true ∨ .register fut.job f ∈ s.threads

structure Inv (s : System) : Prop where
  accounted : Accounted s
  registering : Registering s

section Run

variable {s s' : System} {i : Nat} {p : Point} {q : Option Point} {leaves : Bool}

theorem Inv.accounted_of_moves (hs : Inv s) (hp : s.threads[i]? = some p)
    (hthreads : s'.threads = replaceAt s.threads i q.toList) (hcapacity : s'.capacity = s.capacity)
    (hrequests : s'.requests = s.requests) (h : Moves leaves s s' p q) : Accounted s' := by
  have hregister : ∀ k f fut, p = .register k f → s.futures[f]? = some fut →
      fut.job = k ∧ fut.callback = false := by
    rintro k f fut rfl hfut
    obtain ⟨fut', hfut', hjob, hcallback⟩ := hs.registering k f (mem_of_getElem? hp)
    obtain rfl := Option.some.inj (hfut.symm.trans hfut')
    exact ⟨hjob, hcallback⟩
  obtain ⟨pre, post, hrule, hfires⟩ := fires_moves hp hthreads hregister h
  exact hs.accounted.of_rule hrule hfires hcapacity hrequests

variable {f f₀ k : Nat} {fut fut₀ : Future} {l : Label}

/-- What a statement leaves of the futures: the job of each, and its callback unless this is added to
an open one. -/
theorem Moves.futures (h : Moves leaves s s' p q) (hfut : s.futures[f]? = some fut) :
    ∃ fut', s'.futures[f]? = some fut' ∧ fut'.job = fut.job ∧
      (fut'.callback = fut.callback ∨ fut'.state.isOpen = true) := by
  have hsame : s'.futures = s.futures → ∃ fut', s'.futures[f]? = some fut' ∧ fut'.job = fut.job ∧
      (fut'.callback = fut.callback ∨ fut'.state.isOpen = true) := by
    intro hf
    exact ⟨fut, hf ▸ hfut, rfl, .inl rfl⟩
  have hmore : ∀ new, s'.futures = s.futures ++ [new] → ∃ fut', s'.futures[f]? = some fut' ∧
      fut'.job = fut.job ∧ (fut'.callback = fut.callback ∨ fut'.state.isOpen = true) := by
    intro new hf
    refine ⟨fut, ?_, rfl, .inl rfl⟩
    rw [hf, List.getElem?_append_left (List.getElem?_eq_some_iff.mp hfut).1]
    exact hfut
  cases h with
  | quiet _ _ _ hf => exact hsame hf
  | known _ hf => exact hsame hf
  | refused _ hf => exact hsame hf
  | took hf => exact hsame hf
  | accepted hf => exact hsame hf
  | undone hf => exact hsame hf
  | submitted hf => exact hmore _ hf
  | left _ hf => exact hmore _ hf
  | late _ _ hf => exact hsame hf
  | gave _ _ _ hf => exact hsame hf
  | @registered k f' fut' hfut' hopen hf =>
    rw [hf, getElem?_replaceAt hfut']
    split
    · next heq =>
      subst heq
      obtain rfl := Option.some.inj (hfut.symm.trans hfut')
      exact ⟨_, rfl, rfl, .inr hopen⟩
    · exact ⟨fut, hfut, rfl, .inl rfl⟩
  | @cancelled p q f' fut' _ _ hfut' _ _ hf =>
    rw [hf, getElem?_replaceAt hfut']
    split
    · next heq =>
      subst heq
      obtain rfl := Option.some.inj (hfut.symm.trans hfut')
      exact ⟨_, rfl, rfl, .inl rfl⟩
    · exact ⟨fut, hfut, rfl, .inl rfl⟩

theorem Moves.registers (h : Moves leaves s s' p q) (hq : q = some (.register k f)) :
    s'.futures[f]? = some { job := k } := by
  cases h with
  | submitted hf =>
    obtain ⟨rfl, rfl⟩ := Point.register.inj (Option.some.inj hq)
    rw [hf]
    exact List.getElem?_concat_length
  | quiet _ _ hq' => exact absurd (hq' _ hq) Bool.noConfusion
  | gave _ _ hq' => exact absurd (hq' _ hq).2 Bool.noConfusion
  | cancelled _ hq' =>
    rw [Option.some.inj hq] at hq'
    cases hq'
  | known | refused | undone | registered => cases hq
  | took | accepted | left | late => cases Option.some.inj hq

theorem Inv.of_moves (hs : Inv s) (hp : s.threads[i]? = some p)
    (hthreads : s'.threads = replaceAt s.threads i q.toList) (hcapacity : s'.capacity = s.capacity)
    (hrequests : s'.requests = s.requests) (h : Moves leaves s s' p q) : Inv s' := by
  have haccounted := hs.accounted_of_moves hp hthreads hcapacity hrequests h
  refine ⟨haccounted, fun k f hmem => ?_⟩
  rw [hthreads] at hmem
  rcases mem_replaceAt hmem with hnew | hold
  · exact ⟨_, h.registers (mem_toList.mp hnew), rfl, rfl⟩
  · obtain ⟨fut, hfut, hjob, hcallback⟩ := hs.registering k f hold
    obtain ⟨fut', hfut', hjob', hkept⟩ := h.futures hfut
    refine ⟨fut', hfut', hjob'.trans hjob, ?_⟩
    rcases hkept with hkept | hopen
    · exact hkept.trans hcallback
    · -- if the callback were there, the slot of the job would have to be given back twice
      by_contra hthere
      have hthere' : fut'.callback = true := by simpa using hthere
      have howes : fut'.token = some (.owes k) := by
        rw [Future.token, hthere', hopen, hjob', hjob]
        rfl
      have h₁ := count_pos_of_future (mem_of_getElem? hfut') howes
      have h₂ := count_pos_of_thread (hthreads ▸ hmem : .register k f ∈ s'.threads) rfl
      have hone := (haccounted.tallied k).one
      omega

theorem Inv.of_spawn (hs : Inv s) {new : List Point} (hthreads : s'.threads = s.threads ++ new)
    (hnew : ∀ p ∈ new, p.token = none ∧ p.isRegister = false) (hfutures : s'.futures = s.futures)
    (hlog : s'.log = s.log) (hslots : s'.slots = s.slots) (hcapacity : s'.capacity = s.capacity)
    (hrequests : s'.requests = s.requests) : Inv s' := by
  have hT := fires_append s.threads new Point.token
  have hnone : new.filterMap Point.token = [] := filterMap_eq_nil_iff.mpr fun p hp => (hnew p hp).1
  rw [← hthreads, hnone] at hT
  have hfires := fires_count hT (fires_same hfutures) (hlog.trans (append_nil _).symm)
  refine ⟨hs.accounted.of_rule (.idle hslots) hfires hcapacity hrequests, fun k f hmem => ?_⟩
  rw [hthreads, mem_append] at hmem
  rcases hmem with hmem | hmem
  · rw [hfutures]
    exact hs.registering k f hmem
  · exact absurd (hnew _ hmem).2 Bool.noConfusion

theorem Inv.of_request (hs : Inv s) {id : PyStr}
    (hthreads : s'.threads = s.threads ++ [.check s.requests id])
    (hfutures : s'.futures = s.futures) (hlog : s'.log = s.log) (hslots : s'.slots = s.slots)
    (hcapacity : s'.capacity = s.capacity) (hrequests : s'.requests = s.requests + 1) : Inv s' := by
  have hT := fires_append s.threads [.check s.requests id] Point.token
  rw [← hthreads] at hT
  have hfires : Fires s.count s'.count [] [.asks s.requests] :=
    fires_count hT (fires_same hfutures) (hlog.trans (append_nil _).symm)
  have hcount : ∀ x, x ≠ .asks s.requests → s'.count x = s.count x := by
    intro x hx
    have := hfires x
    rwa [count_nil, count_eq_zero.mpr (by simpa using hx)] at this
  have hheld : ∀ k, held s'.count k = held s.count k := by
    intro k
    rw [held, held, hcount _ Token.noConfusion, hcount _ Token.noConfusion,
      hcount _ Token.noConfusion]
  have hasks := hfires (.asks s.requests)
  rw [count_nil, count_singleton_self, Nat.add_zero] at hasks
  refine ⟨⟨fun k => ?_, fun x hx => ?_, ?_⟩, fun k f hmem => ?_⟩
  · obtain ⟨honce, hbalance, houtcome, hjob, hslot⟩ := hs.accounted.tallied k
    have h₂ := hcount (.admits k) Token.noConfusion
    have h₃ := hcount (.works k) Token.noConfusion
    have h₄ := hcount (.owes k) Token.noConfusion
    have h₅ := hcount (.event (.took k)) Token.noConfusion
    have h₆ := hcount (.event (.gave k)) Token.noConfusion
    have h₇ := hcount (.event (.accepted k)) Token.noConfusion
    have h₈ := hcount (.event (.rejected k)) Token.noConfusion
    by_cases hk : k = s.requests
    · subst hk
      have hfresh : ∀ x : Token, x.request = s.requests → s.count x = 0 := fun x hx =>
        hs.accounted.fresh x hx.ge
      have h₁ := hfresh (.asks s.requests) rfl
      have := hfresh (.event (.took s.requests)) rfl
      have := hfresh (.admits s.requests) rfl
      have := hfresh (.event (.accepted s.requests)) rfl
      have := hfresh (.event (.rejected s.requests)) rfl
      constructor <;> omega
    · have h₁ := hcount (.asks k) fun h => hk (Token.asks.inj h)
      constructor <;> omega
  · rw [hrequests] at hx
    rw [hcount x, hs.accounted.fresh x (by omega)]
    rintro rfl
    have : s.requests + 1 ≤ s.requests := hx
    omega
  · rw [hrequests, hslots, hcapacity, Finset.sum_range_succ,
      Finset.sum_congr rfl fun k _ => hheld k, hheld, ← hs.accounted.total]
    have h₂ := hs.accounted.fresh (.admits s.requests) le_rfl
    have h₃ := hs.accounted.fresh (.works s.requests) le_rfl
    have h₄ := hs.accounted.fresh (.owes s.requests) le_rfl
    have hzero : held s.count s.requests = 0 := by
      unfold held
      omega
    rw [hzero, Nat.add_zero]
  · rw [hthreads, mem_append] at hmem
    rcases hmem with hmem | hmem
    · rw [hfutures]
      exact hs.registering k f hmem
    · cases mem_singleton.mp hmem

theorem Inv.of_quiet (hs : Inv s) (hthreads : s'.threads = s.threads)
    (hfutures : s'.futures = s.futures) (hlog : s'.log = s.log) (hslots : s'.slots = s.slots)
    (hcapacity : s'.capacity = s.capacity) (hrequests : s'.requests = s.requests) : Inv s' :=
  hs.of_spawn (hthreads.trans (append_nil _).symm) (by simp) hfutures hlog hslots hcapacity
    hrequests

variable {state : FutureState}

theorem Inv.of_pool (hs : Inv s) (hfut : s.futures[f]? = some fut) (hopen : fut.state.isOpen = true)
    (hfutures : s'.futures = replaceAt s.futures f [{ fut with state := state }])
    (hthreads : s'.threads
      = s.threads ++ if fut.callback && !state.isOpen then [.release fut.job none] else [])
    (hlog : s'.log = s.log) (hslots : s'.slots = s.slots) (hcapacity : s'.capacity = s.capacity)
    (hrequests : s'.requests = s.requests) : Inv s' := by
  have hT := fires_append s.threads
    (if fut.callback && !state.isOpen then [.release fut.job none] else []) Point.token
  rw [← hthreads] at hT
  have hF := fires_replaceAt hfut (some { fut with state := state }) Future.token
  rw [toList_some, ← hfutures] at hF
  have hfires := fires_count hT hF (hlog.trans (append_nil _).symm)
  have haccounted : Accounted s' := by
    rw [bind_some, Future.token, Future.token, hopen, Bool.and_true] at hfires
    cases hcallback : fut.callback with
    | false =>
      rw [hcallback] at hfires
      exact hs.accounted.of_rule (.idle hslots) (by simpa using hfires) hcapacity hrequests
    | true =>
      rw [hcallback] at hfires
      cases hstate : state.isOpen with
      | false =>
        rw [hstate] at hfires
        exact hs.accounted.of_rule (.settled fut.job hslots) (by simpa [Point.token] using hfires)
          hcapacity hrequests
      | true =>
        rw [hstate] at hfires
        have hsame : Fires s.count s'.count [.owes fut.job] [.owes fut.job] := by
          simpa using hfires
        exact hs.accounted.of_rule (.idle hslots) hsame.cancel hcapacity hrequests
  refine ⟨haccounted, fun k f' hmem => ?_⟩
  rw [hthreads, mem_append] at hmem
  have hold : .register k f' ∈ s.threads := by
    rcases hmem with hmem | hmem
    · exact hmem
    · split at hmem
      · cases mem_singleton.mp hmem
      · cases hmem
  obtain ⟨fut', hfut', hjob, hcallback⟩ := hs.registering k f' hold
  rw [hfutures, getElem?_replaceAt hfut]
  split
  · next heq =>
    subst heq
    obtain rfl := Option.some.inj (hfut.symm.trans hfut')
    exact ⟨_, rfl, hjob, hcallback⟩
  · exact ⟨fut', hfut', hjob, hcallback⟩

theorem Inv.of_settle (hs : Inv s) (hfut : s.futures[f]? = some fut)
    (hopen : fut.state.isOpen = true) (hsettled : state.isOpen = false) :
    Inv (s.settle f fut state) := by
  cases hcallback : fut.callback with
  | true =>
    have heq : s.settle f fut state = { s.setFuture f { fut with state := state } with
        threads := s.threads ++ [.release fut.job none] } := by
      rw [System.settle]
      exact if_pos hcallback
    rw [heq]
    exact hs.of_pool hfut hopen rfl (by rw [hcallback, hsettled]; rfl) rfl rfl rfl rfl
  | false =>
    have heq : s.settle f fut state = s.setFuture f { fut with state := state } := by
      rw [System.settle]
      exact if_neg (by rw [hcallback]; exact Bool.false_ne_true)
    rw [heq]
    refine hs.of_pool hfut hopen rfl ?_ rfl rfl rfl rfl
    rw [hcallback]
    exact (append_nil _).symm

theorem Inv.moves (hs : Inv s) (hp : s.threads[i]? = some p) (env : Answers) :
    ∃ q : Option Point, (s.advance i env p).threads = replaceAt s.threads i q.toList ∧
      (s.advance i env p).capacity = s.capacity ∧ (s.advance i env p).requests = s.requests ∧
      Moves env.leavesItem s (s.advance i env p) p q := by
  have hmem := mem_of_getElem? hp
  refine System.moves_of_advance ?_ ?_
  · rintro k (ht | ht)
    · have := count_pos_of_thread hmem ht
      refine hs.accounted.slots_lt (k := k) ?_
      unfold held
      omega
    · have := count_pos_of_thread hmem ht
      refine hs.accounted.slots_lt (k := k) ?_
      unfold held
      omega
  · rintro k f rfl
    obtain ⟨fut, hfut, -⟩ := hs.registering k f hmem
    exact ⟨fut, hfut⟩

theorem Inv.step (hs : Inv s) (h : s.step l = some s') : Inv s' := by
  cases l with
  | request id =>
    cases h
    exact hs.of_request rfl rfl rfl rfl rfl rfl
  | cancel id =>
    cases h
    exact hs.of_spawn rfl (by simp [Point.token, Point.isRegister]) rfl rfl rfl rfl rfl
  | override k =>
    cases h
    exact hs.of_spawn rfl (by simp [Point.token, Point.isRegister]) rfl rfl rfl rfl rfl
  | run i env =>
    obtain ⟨p, hp, rfl⟩ := map_eq_some_iff.mp h
    obtain ⟨q, hthreads, hcapacity, hrequests, hmoves⟩ := hs.moves hp env
    exact hs.of_moves hp hthreads hcapacity hrequests hmoves
  | pick f =>
    obtain ⟨fut, hfut, rfl⟩ := map_eq_some_iff.mp h
    obtain ⟨hfut, hpending⟩ := filter_eq_some_iff.mp hfut
    have hopen : fut.state.isOpen = true := by rw [of_decide_eq_true hpending]; rfl
    have hfutures : (s.setFuture f { fut with state := .running }).futures
        = replaceAt s.futures f [{ fut with state := .running }] := rfl
    refine hs.of_pool hfut hopen hfutures ?_ rfl rfl rfl rfl
    simp [System.setFuture, FutureState.isOpen]
  | work f state =>
    obtain ⟨fut, hfut, rfl⟩ := map_eq_some_iff.mp h
    refine hs.of_quiet ?_ ?_ ?_ ?_ ?_ ?_
    all_goals simp
  | complete f =>
    obtain ⟨fut, hfut, rfl⟩ := map_eq_some_iff.mp h
    obtain ⟨hfut, hrunning⟩ := filter_eq_some_iff.mp hfut
    have hopen : fut.state.isOpen = true := by rw [of_decide_eq_true hrunning]; rfl
    exact hs.of_settle hfut hopen rfl
  | close =>
    simp only [System.step] at h
    split at h
    · cases h
    · cases h
      refine hs.of_spawn rfl ?_ rfl rfl rfl rfl rfl
      intro p hp
      obtain ⟨id, -, rfl⟩ := mem_map.mp hp
      exact ⟨rfl, rfl⟩
  | shutdown =>
    simp only [System.step] at h
    split at h
    · cases h
      exact hs.of_quiet rfl rfl rfl rfl rfl rfl
    · cases h
  | drain f =>
    simp only [System.step] at h
    split at h
    · obtain ⟨fut, hfut, rfl⟩ := map_eq_some_iff.mp h
      obtain ⟨hfut, hpending⟩ := filter_eq_some_iff.mp hfut
      have hopen : fut.state.isOpen = true := by rw [of_decide_eq_true hpending]; rfl
      exact hs.of_settle hfut hopen rfl
    · cases h

/-! ### Open futures -/

theorem Served.of_moves (hserved : Served s) (hp : s.threads[i]? = some p)
    (hthreads : s'.threads = replaceAt s.threads i q.toList) (h : Moves false s s' p q) :
    Served s' := by
  have hold : ∀ f fut, s.futures[f]? = some fut → fut.state.isOpen = true →
      p ≠ .register fut.job f → fut.callback = true ∨ .register fut.job f ∈ s'.threads := by
    intro f fut hfut hopen hne
    rcases hserved f fut hfut hopen with hcallback | hmem
    · exact .inl hcallback
    · rw [hthreads]
      exact .inr (mem_replaceAt_of_ne hp hmem (fun h => hne h.symm) _)
  have hsame : s'.futures = s.futures → p.isRegister = false → Served s' := by
    intro hf hnot f fut hfut hopen
    rw [hf] at hfut
    refine hold f fut hfut hopen ?_
    rintro rfl
    cases hnot
  cases h with
  | quiet _ hnot _ hf => exact hsame hf hnot
  | known ht hf =>
    refine hsame hf ?_
    cases p <;> first | rfl | cases ht
  | refused ht hf =>
    refine hsame hf ?_
    cases p <;> first | rfl | cases ht
  | took hf => exact hsame hf rfl
  | accepted hf => exact hsame hf rfl
  | undone hf => exact hsame hf rfl
  | gave _ hnot _ hf => exact hsame hf hnot
  | left hleaves => cases hleaves
  | @submitted k hf =>
    intro f fut hfut hopen
    rw [hf, List.getElem?_append] at hfut
    split at hfut
    · exact hold f fut hfut hopen Point.noConfusion
    · next hge =>
      -- the new future, which its thread is about to serve
      rw [List.getElem?_singleton] at hfut
      split at hfut
      · next heq =>
        cases hfut
        have hlast : f = s.futures.length := by omega
        rw [hthreads, hlast]
        exact .inr (mem_append_left _ (mem_append_right _ mem_cons_self))
      · cases hfut
  | @registered k f₀ fut₀ hfut₀ _ hf =>
    intro f fut hfut hopen
    rw [hf, getElem?_replaceAt hfut₀] at hfut
    split at hfut
    · cases hfut
      exact .inl rfl
    · next hne =>
      refine hold f fut hfut hopen fun h => hne ?_
      exact (Point.register.inj h).2.symm
  | @late k f₀ fut₀ hfut₀ hsettled hf =>
    intro f fut hfut hopen
    rw [hf] at hfut
    refine hold f fut hfut hopen fun h => ?_
    obtain ⟨-, rfl⟩ := Point.register.inj h
    obtain rfl := Option.some.inj (hfut.symm.trans hfut₀)
    rw [hopen] at hsettled
    cases hsettled
  | @cancelled p q f₀ fut₀ ht _ hfut₀ _ _ hf =>
    intro f fut hfut hopen
    rw [hf, getElem?_replaceAt hfut₀] at hfut
    split at hfut
    · cases hfut
      cases hopen
    · refine hold f fut hfut hopen ?_
      rintro rfl
      cases ht

theorem Served.of_pool (hserved : Served s) (hfut₀ : s.futures[f₀]? = some fut₀)
    (hopen₀ : fut₀.state.isOpen = true)
    (hfutures : s'.futures = replaceAt s.futures f₀ [{ fut₀ with state := state }])
    (hthreads : ∀ p ∈ s.threads, p ∈ s'.threads) : Served s' := by
  intro f fut hfut hopen
  rw [hfutures, getElem?_replaceAt hfut₀] at hfut
  split at hfut
  · next heq =>
    cases hfut
    exact (hserved f₀ fut₀ hfut₀ hopen₀).imp id fun hmem => heq ▸ hthreads _ hmem
  · exact (hserved f fut hfut hopen).imp id fun hmem => hthreads _ hmem

theorem Served.of_same (hserved : Served s) (hfutures : s'.futures = s.futures)
    (hthreads : ∀ p ∈ s.threads, p ∈ s'.threads) : Served s' := by
  intro f fut hfut hopen
  rw [hfutures] at hfut
  exact (hserved f fut hfut hopen).imp id fun hmem => hthreads _ hmem

theorem Served.of_settle (hserved : Served s) (hfut : s.futures[f]? = some fut)
    (hopen : fut.state.isOpen = true) : Served (s.settle f fut state) := by
  rw [System.settle]
  split
  · exact hserved.of_pool hfut hopen rfl fun p hp => mem_append_left _ hp
  · exact hserved.of_pool hfut hopen rfl fun p hp => hp

def Label.Clean : Label → Prop
  | .run _ env => env.leavesItem = false
  | _ => True

theorem Served.step (hs : Inv s) (hserved : Served s) (hl : l.Clean) (h : s.step l = some s') :
    Served s' := by
  cases l with
  | request id =>
    cases h
    exact hserved.of_same rfl fun p hp => mem_append_left _ hp
  | cancel id =>
    cases h
    exact hserved.of_same rfl fun p hp => mem_append_left _ hp
  | override k =>
    cases h
    exact hserved.of_same rfl fun p hp => mem_append_left _ hp
  | run i env =>
    obtain ⟨p, hp, rfl⟩ := map_eq_some_iff.mp h
    obtain ⟨q, hthreads, -, -, hmoves⟩ := hs.moves hp env
    change env.leavesItem = false at hl
    rw [hl] at hmoves
    exact hserved.of_moves hp hthreads hmoves
  | pick f =>
    obtain ⟨fut, hfut, rfl⟩ := map_eq_some_iff.mp h
    obtain ⟨hfut, hpending⟩ := filter_eq_some_iff.mp hfut
    have hopen : fut.state.isOpen = true := by rw [of_decide_eq_true hpending]; rfl
    exact hserved.of_pool hfut hopen rfl fun p hp => hp
  | work f state =>
    obtain ⟨fut, hfut, rfl⟩ := map_eq_some_iff.mp h
    exact hserved.of_same (by simp) (by simp)
  | complete f =>
    obtain ⟨fut, hfut, rfl⟩ := map_eq_some_iff.mp h
    obtain ⟨hfut, hrunning⟩ := filter_eq_some_iff.mp hfut
    have hopen : fut.state.isOpen = true := by rw [of_decide_eq_true hrunning]; rfl
    exact hserved.of_settle hfut hopen
  | close =>
    simp only [System.step] at h
    split at h
    · cases h
    · cases h
      exact hserved.of_same rfl fun p hp => mem_append_left _ hp
  | shutdown =>
    simp only [System.step] at h
    split at h
    · cases h
      exact hserved.of_same rfl fun p hp => hp
    · cases h
  | drain f =>
    simp only [System.step] at h
    split at h
    · obtain ⟨fut, hfut, rfl⟩ := map_eq_some_iff.mp h
      obtain ⟨hfut, hpending⟩ := filter_eq_some_iff.mp hfut
      have hopen : fut.state.isOpen = true := by rw [of_decide_eq_true hpending]; rfl
      exact hserved.of_settle hfut hopen
    · cases h

theorem capacity_settle (s : System) (f : Nat) (fut : Future) (state : FutureState) :
    (s.settle f fut state).capacity = s.capacity := by
  rw [System.settle]
  split <;> rfl

theorem capacity_step (hs : Inv s) (h : s.step l = some s') : s'.capacity = s.capacity := by
  cases l with
  | request id => cases h; rfl
  | cancel id => cases h; rfl
  | override k => cases h; rfl
  | run i env =>
    obtain ⟨p, hp, rfl⟩ := map_eq_some_iff.mp h
    obtain ⟨q, -, hcapacity, -⟩ := hs.moves hp env
    exact hcapacity
  | pick f =>
    obtain ⟨fut, -, rfl⟩ := map_eq_some_iff.mp h
    rfl
  | work f state =>
    obtain ⟨fut, -, rfl⟩ := map_eq_some_iff.mp h
    simp
  | complete f =>
    obtain ⟨fut, -, rfl⟩ := map_eq_some_iff.mp h
    exact capacity_settle ..
  | close =>
    simp only [System.step] at h
    split at h
    · cases h
    · cases h; rfl
  | shutdown =>
    simp only [System.step] at h
    split at h
    · cases h; rfl
    · cases h
  | drain f =>
    simp only [System.step] at h
    split at h
    · obtain ⟨fut, -, rfl⟩ := map_eq_some_iff.mp h
      exact capacity_settle ..
    · cases h

end Run

/-! ### The results -/

namespace System

def accepted (s : System) (k : Nat) : Bool := s.log.contains (.accepted k)

/-- The work of the job is not over: its thread is still to schedule it, its future is open, or the
callbacks of its future are still to run. -/
def atWork (s : System) (k : Nat) : Bool :=
  s.threads.any (fun p => p.token = some (.works k)) ||
    s.futures.any fun fut => fut.job = k && fut.state.isOpen

/-- The accepted jobs whose work has neither finished nor been cancelled. -/
def unfinished (s : System) : Nat :=
  ((Finset.range s.requests).filter fun k => s.accepted k && s.atWork k).card

end System

def Point.admits? : Point → Option Nat
  | .makeJob k _ | .undo k _ => some k
  | _ => none

def System.midway (s : System) : Nat := s.threads.countP fun p => p.admits?.isSome

theorem token_eq_admits : p.token = some (.admits k) ↔ p.admits? = some k := by
  cases p <;> simp [Point.token, Point.admits?]

section Counts

variable {s : System}

variable {x : Token} (p : Point)

theorem tokens_eq_zero {α : Type} {mark : α → Option Token} {l : List α}
    (h : ∀ a ∈ l, mark a ≠ some x) : tokens mark l x = 0 :=
  countP_eq_zero.mpr fun a ha => by simpa using h a ha

theorem token_ne_event (e : SlotEvent) : p.token ≠ some (.event e) := by
  cases p <;> simp [Point.token]

theorem token_ne_owes (k : Nat) : p.token ≠ some (.owes k) := by
  cases p <;> simp [Point.token]

theorem future_token_eq {fut : Future} (h : fut.token = some x) :
    x = .owes fut.job ∧ fut.callback = true ∧ fut.state.isOpen = true := by
  rw [Future.token] at h
  split at h
  · next hboth =>
    exact ⟨(Option.some.inj h).symm, Bool.and_eq_true_iff.mp hboth⟩
  · cases h

theorem count_event (s : System) (e : SlotEvent) : s.count (.event e) = s.log.count e := by
  have hthreads : tokens Point.token s.threads (.event e) = 0 :=
    tokens_eq_zero fun p _ => token_ne_event p e
  have hfutures : tokens Future.token s.futures (.event e) = 0 :=
    tokens_eq_zero fun fut _ h => by cases (future_token_eq h).1
  rw [System.count, hthreads, hfutures, Nat.zero_add, tokens, List.count]
  refine countP_congr fun a _ => ?_
  simp [SlotEvent.token]

theorem count_admits (s : System) (k : Nat) :
    s.count (.admits k) = s.threads.countP fun p => p.admits? = some k := by
  have hfutures : tokens Future.token s.futures (.admits k) = 0 :=
    tokens_eq_zero fun fut _ h => by cases (future_token_eq h).1
  have hlog : tokens SlotEvent.token s.log (.admits k) = 0 :=
    tokens_eq_zero fun e _ => by simp [SlotEvent.token]
  rw [System.count, hfutures, hlog, tokens]
  refine countP_congr fun p _ => ?_
  rw [decide_eq_true_eq, decide_eq_true_eq, token_eq_admits]

/-- **The work of a job is over if and only if nobody has to give its slot back.** -/
theorem atWork_iff (hserved : Served s) (k : Nat) :
    s.atWork k = true ↔ 0 < s.count (.works k) + s.count (.owes k) := by
  rw [System.atWork, Bool.or_eq_true, List.any_eq_true, List.any_eq_true]
  constructor
  · rintro (⟨p, hp, ht⟩ | ⟨fut, hfut, hopen⟩)
    · have := count_pos_of_thread hp (of_decide_eq_true ht)
      omega
    · rw [Bool.and_eq_true, decide_eq_true_eq] at hopen
      obtain ⟨f, hf⟩ := List.mem_iff_getElem?.mp hfut
      rcases hserved f fut hf hopen.2 with hcallback | hmem
      · have howes : fut.token = some (.owes k) := by
          rw [Future.token, hcallback, hopen.2, hopen.1]
          rfl
        have := count_pos_of_future hfut howes
        omega
      · have := count_pos_of_thread (x := .works k) hmem (by rw [← hopen.1]; rfl)
        omega
  · intro hpos
    by_cases hworks : 0 < tokens Point.token s.threads (.works k)
    · obtain ⟨p, hp, ht⟩ := List.countP_pos_iff.mp hworks
      exact .inl ⟨p, hp, ht⟩
    · right
      have hfutures : tokens Future.token s.futures (.works k) = 0 :=
        tokens_eq_zero fun fut _ h => by cases (future_token_eq h).1
      have hlog : ∀ x : Token, (∀ e, x ≠ .event e) → tokens SlotEvent.token s.log x = 0 :=
        fun x hx => tokens_eq_zero fun e _ h => hx e (Option.some.inj h).symm
      have hthreads : tokens Point.token s.threads (.owes k) = 0 :=
        tokens_eq_zero fun p _ => token_ne_owes p k
      have h₁ := hlog (.works k) fun _ => Token.noConfusion
      have h₂ := hlog (.owes k) fun _ => Token.noConfusion
      have howes : 0 < tokens Future.token s.futures (.owes k) := by
        unfold System.count at hpos
        omega
      obtain ⟨fut, hfut, ht⟩ := List.countP_pos_iff.mp howes
      obtain ⟨hjob, -, hopen⟩ := future_token_eq (of_decide_eq_true ht)
      refine ⟨fut, hfut, ?_⟩
      rw [hopen, Bool.and_true, decide_eq_true_eq]
      exact (Token.owes.inj hjob).symm

end Counts

structure SlotsAccounted (capacity : Nat) (s : System) : Prop where
  /-- the free slots, the unfinished jobs, and the requests that have no job yet -/
  balance : s.slots + s.unfinished + s.midway = capacity
  /-- an accepted job has taken one slot, and given it back once if its work is over -/
  once : ∀ k, s.accepted k = true → s.log.count (.took k) = 1 ∧
    s.log.count (.gave k) = if s.atWork k then 0 else 1
  /-- a rejected request has given back what it took -/
  rejected : ∀ k, .rejected k ∈ s.log →
    s.log.count (.gave k) = s.log.count (.took k) ∧ s.log.count (.took k) ≤ 1

theorem Inv.count_work (hs : Inv s) (hserved : Served s) (k : Nat) :
    s.count (.works k) + s.count (.owes k) = if s.accepted k && s.atWork k then 1 else 0 := by
  have ht := hs.accounted.tallied k
  have hone := ht.one
  cases hwork : s.atWork k with
  | true =>
    have hpos := (atWork_iff hserved k).mp hwork
    have hjob := ht.job
    have haccepted : s.accepted k = true := by
      rw [System.accepted, contains_iff_mem]
      refine count_pos_iff.mp ?_
      rw [← count_event]
      omega
    rw [haccepted, Bool.and_self, if_pos rfl]
    omega
  | false =>
    have hnone : ¬ 0 < s.count (.works k) + s.count (.owes k) := by
      rw [← atWork_iff hserved k, hwork]
      exact Bool.false_ne_true
    rw [Bool.and_false, if_neg Bool.false_ne_true]
    omega

theorem Inv.accountedFor (hs : Inv s) (hserved : Served s) : SlotsAccounted s.capacity s := by
  refine ⟨?_, fun k haccepted => ?_, fun k hrejected => ?_⟩
  · have hmidway : (Finset.range s.requests).sum (fun k => s.count (.admits k)) = s.midway := by
      rw [System.midway, ← sum_countP_key (n := s.requests)]
      · exact Finset.sum_congr rfl fun k _ => count_admits s k
      · intro p hp k hk
        by_contra hge
        have hfresh := hs.accounted.fresh (.admits k) (not_lt.mp hge)
        have := count_pos_of_thread hp (token_eq_admits.mpr hk)
        omega
    have hunfinished : (Finset.range s.requests).sum
        (fun k => s.count (.works k) + s.count (.owes k)) = s.unfinished := by
      rw [System.unfinished, Finset.card_filter]
      exact Finset.sum_congr rfl fun k _ => hs.count_work hserved k
    have hheld : (Finset.range s.requests).sum (held s.count) = s.midway + s.unfinished := by
      rw [← hmidway, ← hunfinished, ← Finset.sum_add_distrib]
      refine Finset.sum_congr rfl fun k _ => ?_
      unfold held
      omega
    have := hs.accounted.total
    omega
  · obtain ⟨honce, hbalance, houtcome, hjob, hslot⟩ := hs.accounted.tallied k
    have hmem : 0 < s.count (.event (.accepted k)) := by
      rw [count_event]
      exact count_pos_iff.mpr (contains_iff_mem.mp haccepted)
    have hwork := hs.count_work hserved k
    rw [haccepted, Bool.true_and] at hwork
    rw [← count_event, ← count_event]
    cases hat : s.atWork k with
    | true =>
      rw [hat, if_pos rfl] at hwork
      rw [if_pos rfl]
      omega
    | false =>
      rw [hat, if_neg Bool.false_ne_true] at hwork
      rw [if_neg Bool.false_ne_true]
      omega
  · obtain ⟨honce, hbalance, houtcome, hjob, hslot⟩ := hs.accounted.tallied k
    have hmem : 0 < s.count (.event (.rejected k)) := by
      rw [count_event]
      exact count_pos_iff.mpr hrejected
    rw [← count_event, ← count_event]
    omega

theorem inv_init (h : (queueSlots n m).Init s) :
    Inv s ∧ Served s ∧ s.capacity = (max 1 n).toNat := by
  change s = _ at h
  subst h
  refine ⟨⟨⟨fun k => ⟨?_, ?_, ?_, ?_, ?_⟩, fun x _ => rfl, ?_⟩, ?_⟩, ?_, rfl⟩
  · exact Nat.zero_le _
  · rfl
  · exact Nat.zero_le _
  · exact Nat.zero_le _
  · exact Nat.zero_le _
  · rfl
  · intro k f hmem
    cases hmem
  · intro f fut hfut
    cases hfut

/-- **The slots are accounted for in every run in which no pool that raises has kept the work
item.** -/
theorem slots_accounted (maxQueuedActions maxRetainedActions : Int) (s : System)
    (h : (queueSlots maxQueuedActions maxRetainedActions).ReachableUnder (fun _ l => l.Clean) s) :
    SlotsAccounted (max 1 maxQueuedActions).toNat s := by
  have hall : Inv s ∧ Served s ∧ s.capacity = (max 1 maxQueuedActions).toNat := by
    refine h.invariant (P := fun s => Inv s ∧ Served s ∧ s.capacity = (max 1 maxQueuedActions).toNat)
      (fun s hs => inv_init hs) ?_
    rintro s l s' ⟨hs, hserved, hcapacity⟩ hl hstep
    exact ⟨hs.step hstep, hserved.step hs hl hstep, (capacity_step hs hstep).trans hcapacity⟩
  rw [← hall.2.2]
  exact hall.1.accountedFor hall.2.1

/-! ### Two runs -/

/-- One request is scheduled and one is rejected; the first job is done when the control plane is
closed. -/
def twoRequests : List Label :=
  [.request "a1", .run 0 {}, .run 0 {}, .run 0 {}, .run 0 {}, .run 0 {}, .pick 0, .work 0 .running,
    .request "a2", .run 0 {}, .run 0 {}, .close, .work 0 .finished, .complete 0, .run 0 {}]

theorem slots_accounted_twoRequests :
    ∃ s, (queueSlots 1 1).run
        { capacity := 1, slots := 1, maxRetained := 1 } twoRequests = some s ∧
      s.log = [.took 0, .accepted 0, .rejected 1, .gave 0] ∧ SlotsAccounted (max 1 1 : Int).toNat s := by
  have hrun : ((queueSlots 1 1).run { capacity := 1, slots := 1, maxRetained := 1 } twoRequests).map
      System.log = some [.took 0, .accepted 0, .rejected 1, .gave 0] := by
    decide +kernel
  obtain ⟨s, hs, hlog⟩ := Option.map_eq_some_iff.mp hrun
  refine ⟨s, hs, hlog, slots_accounted 1 1 s (Machine.ReachableUnder.run_all (.init rfl) ?_ hs)⟩
  intro l hl s
  simp only [twoRequests, List.mem_cons, List.not_mem_nil, or_false] at hl
  rcases hl with rfl | rfl | rfl | rfl | rfl | rfl | rfl | rfl | rfl | rfl | rfl | rfl | rfl | rfl | rfl
  all_goals first | exact trivial | rfl

/-- The pool queues the work item of a job, and raises because it can start no thread. -/
def leftItem : List Label :=
  [.request "a1", .run 0 {}, .run 0 {}, .run 0 {}, .run 0 { raises := true, leavesItem := true },
    .run 0 {}]

/-- **A job that is at work, and whose slot is free.** -/
theorem slot_without_work :
    ∃ s, (queueSlots 1 1).run { capacity := 1, slots := 1, maxRetained := 1 } leftItem = some s ∧
      s.threads = [] ∧ s.slots = 1 ∧ s.accepted 0 = true ∧ s.atWork 0 = true ∧
      (s.step (.pick 0)).isSome = true ∧ ¬ SlotsAccounted 1 s := by
  have hrun : ((queueSlots 1 1).run { capacity := 1, slots := 1, maxRetained := 1 } leftItem).map
      (fun s => (s.threads, s.slots, s.accepted 0, s.atWork 0, (s.step (.pick 0)).isSome,
        s.unfinished)) = some ([], 1, true, true, true, 1) := by
    decide +kernel
  obtain ⟨s, hs, hout⟩ := Option.map_eq_some_iff.mp hrun
  simp only [Prod.mk.injEq] at hout
  obtain ⟨hthreads, hslots, haccepted, hwork, hpick, hunfinished⟩ := hout
  refine ⟨s, hs, hthreads, hslots, haccepted, hwork, hpick, fun h => ?_⟩
  have := h.balance
  omega

end Rosclaw.QueueSlots
