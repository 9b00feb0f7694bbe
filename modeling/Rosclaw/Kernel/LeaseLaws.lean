/-
One executor for each body, and one release for each handle.

A call that holds a lock is alone with it; it writes the table of active leases after it took the
lock and takes its lease out of it before it gives the lock back, so the table shows a lease only
while its owner holds the lock.

* `Inv` — who holds the locks, and what the table shows;
* `executors_alone` — the result, over all runs.
-/
import Rosclaw.Kernel.BodyLeases

namespace Rosclaw.BodyLeases

open List Option

/-! ### What a statement does -/

/-- A statement of the call at the place, which stands at `p`; `q` is where it stands next, unless
it is over. -/
inductive Moves (s s' : System) : Point → Option Point → Prop
  /-- it has nothing to do with a lock that is held -/
  | quiet {p : Point} {q : Option Point} (hp : p.holds? = none) (hq : ∀ p' ∈ q, p'.lock? = none)
      (hm : s'.manager = s.manager) (hh : s'.handles = s.handles) (hl : s'.log = s.log) :
      Moves s s' p q
  | found {e : Execution} (hm : s'.manager = (s.manager.lockOf e.action.bodyId).2)
      (hh : s'.handles = s.handles) (hl : s'.log = s.log) :
      Moves s s' (.acquire e) (some (.lock e (s.manager.lockOf e.action.bodyId).1))
  | locked {e : Execution} {n : Nat} (hn : n ∉ s.manager.held) (hm : s'.manager = s.manager.lock n)
      (hh : s'.handles = s.handles) (hl : s'.log = s.log) :
      Moves s s' (.lock e n) (some (.activate e n))
  | activated {e e' : Execution} {n : Nat} {lease : ResourceLease} (he : e'.action = e.action)
      (hbody : lease.resourceId = e.action.bodyId) (haction : lease.actionId = e.action.actionId)
      (hm : s'.manager = s.manager.activate lease) (hh : s'.handles = s.handles + 1)
      (hl : s'.log = s.log ++ [.acquired s.handles lease]) :
      Moves s s' (.activate e n)
        (some (.invoke e' { number := s.handles, lease := lease, lock := n }))
  /-- it goes on in the body of `with lease_handle` -/
  | went {p q : Point} {h : Handle} (hp : p.handle? = some h) (hq : q.handle? = some h)
      (ha : q.action = p.action) (hr : q.remaining < p.remaining)
      (hm : s'.manager = s.manager) (hh : s'.handles = s.handles) (hl : s'.log = s.log) :
      Moves s s' p (some q)
  | released {e : Execution} {h : Handle} {ending : Ending} (hreleased : h.released = false)
      (hm : s'.manager = s.manager.deactivate h.lease) (hh : s'.handles = s.handles)
      (hl : s'.log = s.log ++ [.released h.number]) :
      Moves s s' (.exit e h ending) (some (.unlock e h.lock ending))
  /-- a handle that is released is not released again -/
  | kept {e : Execution} {h : Handle} {ending : Ending} {q : Point} (hreleased : h.released = true)
      (hm : s'.manager = s.manager) (hh : s'.handles = s.handles) (hl : s'.log = s.log) :
      Moves s s' (.exit e h ending) (some q)
  | unlocked {e : Execution} {n : Nat} {ending : Ending} {q : Point} (hq : q.lock? = none)
      (hm : s'.manager = s.manager.unlock n) (hh : s'.handles = s.handles) (hl : s'.log = s.log) :
      Moves s s' (.unlock e n ending) (some q)

namespace System

variable {py : Builtins} {s s' : System} {i : Nat} {env : Answers} {p : Point}

theorem lock?_after (a : ActionEnvelope) (env : Answers) (ending : Ending) :
    (after a env ending).lock? = none := by
  cases ending <;> rfl

theorem moves_of_advance (h : s.advance py i env p = some s') :
    ∃ q : Option Point, s'.calls = replaceAt s.calls i q.toList ∧ Moves s s' p q := by
  cases p with
  | lookup a =>
    simp only [advance] at h
    split at h
    · cases h
      exact ⟨none, rfl, .quiet rfl (by simp) rfl rfl rfl⟩
    · cases h
      exact ⟨some _, rfl, .quiet rfl (by simp [Point.lock?]) rfl rfl rfl⟩
    · cases h
      exact ⟨some _, rfl, .quiet rfl (by simp [Point.lock?]) rfl rfl rfl⟩
  | wait a waiter =>
    simp only [advance] at h
    split at h
    · cases h
    · cases h
      exact ⟨none, rfl, .quiet rfl (by simp) rfl rfl rfl⟩
  | start a =>
    simp only [advance] at h
    split at h
    · cases h
      exact ⟨some _, rfl, .quiet rfl (by simp [Point.lock?]) rfl rfl rfl⟩
    · split at h
      · cases h
        exact ⟨some _, rfl, .quiet rfl (by simp [Point.lock?]) rfl rfl rfl⟩
      · cases h
        exact ⟨some _, rfl, .quiet rfl (by simp [Point.lock?]) rfl rfl rfl⟩
  | acquire e =>
    simp only [advance] at h
    split at h
    · cases h
      exact ⟨some _, rfl, .quiet rfl (by simp [Point.lock?]) rfl rfl rfl⟩
    · cases h
      exact ⟨some _, rfl, .found rfl rfl rfl⟩
  | lock e n =>
    simp only [advance] at h
    split at h
    · cases h
      exact ⟨some _, rfl, .quiet rfl (by simp [Point.lock?]) rfl rfl rfl⟩
    · split at h
      · cases h
        exact ⟨some _, rfl, .quiet rfl (by simp [Point.lock?]) rfl rfl rfl⟩
      · split at h
        · cases h
        · next hn =>
          cases h
          exact ⟨some _, rfl, .locked hn rfl rfl rfl⟩
  | activate e n =>
    simp only [advance] at h
    cases h
    exact ⟨some _, rfl, .activated rfl rfl rfl rfl rfl rfl⟩
  | invoke e hd =>
    simp only [advance] at h
    split at h
    · cases h
      exact ⟨some _, rfl, .went rfl rfl rfl (by simp [Point.remaining]) rfl rfl rfl⟩
    · split at h
      · cases h
        exact ⟨some _, rfl, .went rfl rfl rfl (by simp [Point.remaining]) rfl rfl rfl⟩
      · cases h
        exact ⟨some _, rfl, .went rfl rfl rfl (by simp [Point.remaining]) rfl rfl rfl⟩
  | executing e hd =>
    simp only [advance] at h
    split at h
    · cases h
      exact ⟨some _, rfl, .went rfl rfl rfl (by simp [Point.remaining]) rfl rfl rfl⟩
    · split at h
      · split at h
        · cases h
          exact ⟨some _, rfl, .went rfl rfl rfl (by simp [Point.remaining]) rfl rfl rfl⟩
        · cases h
          exact ⟨some _, rfl, .went rfl rfl rfl (by simp [Point.remaining]) rfl rfl rfl⟩
      · cases h
        exact ⟨some _, rfl, .went rfl rfl rfl (by simp [Point.remaining]) rfl rfl rfl⟩
  | assemble e hd result directory =>
    simp only [advance] at h
    split at h
    · cases h
      exact ⟨some _, rfl, .went rfl rfl rfl (by simp [Point.remaining]) rfl rfl rfl⟩
    · split at h
      · cases h
        exact ⟨some _, rfl, .went rfl rfl rfl (by simp [Point.remaining]) rfl rfl rfl⟩
      · cases h
        exact ⟨some _, rfl, .went rfl rfl rfl (by simp [Point.remaining]) rfl rfl rfl⟩
  | exit e hd ending =>
    simp only [advance] at h
    split at h
    · next hreleased =>
      cases h
      exact ⟨some _, rfl, .kept hreleased rfl rfl rfl⟩
    · next hreleased =>
      cases h
      exact ⟨some _, rfl, .released (Bool.not_eq_true _ ▸ hreleased) rfl rfl rfl⟩
  | unlock e n ending =>
    simp only [advance] at h
    cases h
    exact ⟨some _, rfl, .unlocked (lock?_after ..) rfl rfl rfl⟩
  | store a r =>
    simp only [advance] at h
    cases h
    exact ⟨some _, rfl, .quiet rfl (by simp [Point.lock?]) rfl rfl rfl⟩
  | leave a =>
    simp only [advance] at h
    cases h
    exact ⟨none, rfl, .quiet rfl (by simp) rfl rfl rfl⟩

end System

/-! ### Locks and their holders -/

namespace Point

def holds (n : Nat) (p : Point) : Bool := p.holds? = some n

def owes (n : Nat) (p : Point) : Bool := p.handle?.map Handle.number = some n

variable {p : Point} {h : Handle} {n : Nat}

theorem lock?_of_holds (hp : p.holds? = some n) : p.lock? = some n := by
  cases p <;> first | exact hp | cases hp

theorem holds?_of_handle (hp : p.handle? = some h) : p.holds? = some h.lock := by
  cases p <;> first | cases hp; rfl | cases hp

theorem handle?_of_holds (hp : p.holds? = none) : p.handle? = none := by
  cases p <;> first | rfl | cases hp

theorem holds?_of_lock (hp : p.lock? = none) : p.holds? = none := by
  cases p <;> first | rfl | cases hp

end Point

variable {i n : Nat} {p p' : Point} {s s' : System}

theorem mem_of_moves {q : Option Point} (hcalls : s'.calls = replaceAt s.calls i q.toList)
    (h : p' ∈ s'.calls) : q = some p' ∨ p' ∈ s.calls := by
  rw [hcalls] at h
  rcases mem_replaceAt h with h | h
  · exact .inl (mem_toList.mp h)
  · exact .inr h

namespace Manager

variable {m : Manager} {body body' : PyStr} {n : Nat} {lease : ResourceLease}

structure Distinct (m : Manager) : Prop where
  one : ∀ body body' n, m.locks.get? body = some n → m.locks.get? body' = some n → body = body'
  made : ∀ body n, m.locks.get? body = some n → n < m.made

theorem get?_lockOf (m : Manager) (body : PyStr) :
    (m.lockOf body).2.locks.get? body = some (m.lockOf body).1 := by
  rw [lockOf]
  split
  · next h => exact h
  · exact Dict.get?_set_self ..

theorem kept_lockOf (m : Manager) (body : PyStr) : m.locks.Kept (m.lockOf body).2.locks := by
  rw [lockOf]
  split
  · exact Dict.Kept.refl _
  · next h => exact Dict.kept_set h _

theorem held_lockOf (m : Manager) (body : PyStr) : (m.lockOf body).2.held = m.held := by
  rw [lockOf]
  split <;> rfl

theorem active_lockOf (m : Manager) (body : PyStr) : (m.lockOf body).2.active = m.active := by
  rw [lockOf]
  split <;> rfl

theorem Distinct.lockOf (h : m.Distinct) (body : PyStr) : (m.lockOf body).2.Distinct := by
  rw [Manager.lockOf]
  split
  · exact h
  · constructor
    · intro b b' n hb hb'
      change (m.locks.set body m.made).get? b = some n at hb
      change (m.locks.set body m.made).get? b' = some n at hb'
      rw [Dict.get?_set] at hb hb'
      split at hb
      · next heq =>
        split at hb'
        · next heq' => rw [← heq, ← heq']
        · have := h.made b' n hb'
          have := Option.some.inj hb
          omega
      · split at hb'
        · have := h.made b n hb
          have := Option.some.inj hb'
          omega
        · exact h.one b b' n hb hb'
    · intro b n hb
      change (m.locks.set body m.made).get? b = some n at hb
      show n < m.made + 1
      rw [Dict.get?_set] at hb
      split at hb
      · have := Option.some.inj hb
        omega
      · have := h.made b n hb
        omega

theorem locks_deactivate (m : Manager) (lease : ResourceLease) :
    (m.deactivate lease).locks = m.locks ∧ (m.deactivate lease).made = m.made ∧
      (m.deactivate lease).held = m.held := by
  rw [deactivate]
  split
  · split <;> exact ⟨rfl, rfl, rfl⟩
  · exact ⟨rfl, rfl, rfl⟩

theorem activeLease_deactivate (h : m.activeLease lease.resourceId = some lease) (body : PyStr) :
    (m.deactivate lease).activeLease body
      = if lease.resourceId = body then none else m.activeLease body := by
  rw [activeLease] at h
  simp only [deactivate, h, if_pos, activeLease, Dict.get?_erase]

theorem activeLease_activate (m : Manager) (lease : ResourceLease) (body : PyStr) :
    (m.activate lease).activeLease body
      = if lease.resourceId = body then some lease else m.activeLease body := Dict.get?_set ..

end Manager

variable {py : Builtins}

section Step

variable {s s' : System} {i : Nat} {p : Point} {q : Option Point}

structure Locks (s : System) : Prop where
  distinct : s.manager.Distinct
  known : ∀ p ∈ s.calls, ∀ n, p.lock? = some n → s.manager.locks.get? p.action.bodyId = some n

theorem Locks.of_moves (hs : Locks s) (hp : p ∈ s.calls)
    (hcalls : s'.calls = replaceAt s.calls i q.toList) (hmoves : Moves s s' p q)
    (hkept : ∀ h : Handle, p.handle? = some h → h.released = false) : Locks s' := by
  -- the locks are the same, and the call at the place waits for its lock or for none
  have hsame : s'.manager.locks = s.manager.locks → s'.manager.made = s.manager.made →
      (∀ p' ∈ q, ∀ n, p'.lock? = some n → s.manager.locks.get? p'.action.bodyId = some n) →
      Locks s' := by
    intro hlocks hmade hq
    refine ⟨⟨?_, ?_⟩, ?_⟩
    · rw [hlocks]
      exact hs.distinct.one
    · rw [hlocks, hmade]
      exact hs.distinct.made
    · intro p' hp' n hn
      rw [hlocks]
      rcases mem_of_moves hcalls hp' with hp' | hp'
      · exact hq p' hp' n hn
      · exact hs.known p' hp' n hn
  cases hmoves with
  | quiet _ hq hm =>
    refine hsame (by rw [hm]) (by rw [hm]) (fun p' hp' n hn => ?_)
    rw [hq p' hp'] at hn
    cases hn
  | @found e hm =>
    refine ⟨hm ▸ hs.distinct.lockOf _, fun p' hp' n hn => ?_⟩
    rw [hm]
    rcases mem_of_moves hcalls hp' with hp' | hp'
    · cases hp'
      cases hn
      exact Manager.get?_lockOf ..
    · exact Manager.kept_lockOf _ _ _ _ (hs.known p' hp' n hn)
  | @locked e n _ hm =>
    refine hsame (by rw [hm]; rfl) (by rw [hm]; rfl) (fun p' hp' n' hn' => ?_)
    cases hp'
    cases hn'
    exact hs.known _ hp n rfl
  | @activated e e' n lease he _ _ hm =>
    refine hsame (by rw [hm]; rfl) (by rw [hm]; rfl) (fun p' hp' n' hn' => ?_)
    cases hp'
    cases hn'
    show s.manager.locks.get? e'.action.bodyId = some n
    rw [he]
    exact hs.known _ hp n rfl
  | @went p q h hph hqh ha _ hm =>
    refine hsame (by rw [hm]) (by rw [hm]) (fun p' hp' n hn => ?_)
    cases hp'
    rw [Point.lock?_of_holds (Point.holds?_of_handle hqh)] at hn
    cases hn
    rw [ha]
    exact hs.known _ hp _ (Point.lock?_of_holds (Point.holds?_of_handle hph))
  | @released e h ending _ hm =>
    obtain ⟨hlocks, hmade, -⟩ := s.manager.locks_deactivate h.lease
    refine hsame (by rw [hm, hlocks]) (by rw [hm, hmade]) (fun p' hp' n hn => ?_)
    cases hp'
    cases hn
    exact hs.known _ hp _ rfl
  | kept hreleased =>
    rw [hkept _ rfl] at hreleased
    cases hreleased
  | unlocked hq hm =>
    refine hsame (by rw [hm]; rfl) (by rw [hm]; rfl) (fun p' hp' n hn => ?_)
    cases hp'
    rw [hq] at hn
    cases hn

structure Holders (s : System) : Prop where
  exclusive : ∀ n, s.calls.countP (Point.holds n) = s.manager.held.count n
  once : ∀ n, s.manager.held.count n ≤ 1

theorem Holders.of_moves (hs : Holders s) (hp : s.calls[i]? = some p)
    (hcalls : s'.calls = replaceAt s.calls i q.toList) (hmoves : Moves s s' p q)
    (hkept : ∀ h : Handle, p.handle? = some h → h.released = false) : Holders s' := by
  have hcount : ∀ n, s'.calls.countP (Point.holds n) + (if p.holds n then 1 else 0)
      = s.manager.held.count n + q.toList.countP (Point.holds n) := by
    intro n
    rw [hcalls, ← hs.exclusive n]
    exact countP_replaceAt hp _ _
  -- the same locks are held, and the call at the place holds what it held
  have hsame : s'.manager.held = s.manager.held →
      (∀ n, q.toList.countP (Point.holds n) = if p.holds n then 1 else 0) → Holders s' := by
    intro hheld hq
    refine ⟨fun n => ?_, fun n => hheld ▸ hs.once n⟩
    have := hcount n
    rw [hq n] at this
    rw [hheld]
    omega
  cases hmoves with
  | quiet hp' hq hm =>
    refine hsame (by rw [hm]) (fun n => ?_)
    have hnone : p.holds n = false := by simp [Point.holds, hp']
    rw [hnone]
    cases q with
    | none => rfl
    | some q =>
      have hq' : q.holds n = false := by
        simp [Point.holds, Point.holds?_of_lock (hq q rfl)]
      simp [hq']
  | found hm =>
    refine hsame (by rw [hm, Manager.held_lockOf]) (fun n => ?_)
    simp [Point.holds, Point.holds?]
  | @locked e n hn hm =>
    have hheld : s'.manager.held = n :: s.manager.held := by rw [hm]; rfl
    have hzero : s.manager.held.count n = 0 := count_eq_zero.mpr hn
    refine ⟨fun k => ?_, fun k => ?_⟩
    · have := hcount k
      simp only [Point.holds, Point.holds?, Option.toList, countP_cons, countP_nil,
        some_inj, decide_eq_true_eq] at this
      rw [hheld, count_cons]
      simpa using this
    · have := hs.once k
      rw [hheld, count_cons]
      by_cases hk : n = k
      · subst hk
        simp [hzero]
      · simpa [hk] using this
  | activated _ _ _ hm =>
    refine hsame (by rw [hm]; rfl) (fun n => ?_)
    simp [Point.holds, Point.holds?]
  | @went p q h hph hqh _ _ hm =>
    refine hsame (by rw [hm]) (fun n => ?_)
    simp [Point.holds, Point.holds?_of_handle hph, Point.holds?_of_handle hqh]
  | @released e h ending _ hm =>
    refine hsame (by rw [hm, (s.manager.locks_deactivate h.lease).2.2]) (fun n => ?_)
    simp [Point.holds, Point.holds?]
  | kept hreleased =>
    rw [hkept _ rfl] at hreleased
    cases hreleased
  | @unlocked e n ending q hq hm =>
    have hheld : s'.manager.held = s.manager.held.erase n := by rw [hm]; rfl
    have hnone : ∀ k, q.holds k = false := by
      intro k
      simp [Point.holds, Point.holds?_of_lock hq]
    have hone : n ∈ s.manager.held := by
      rw [← count_pos_iff, ← hs.exclusive n]
      exact countP_pos_iff.mpr ⟨_, mem_of_getElem? hp, by simp [Point.holds, Point.holds?]⟩
    refine ⟨fun k => ?_, fun k => ?_⟩
    · have hk := hcount k
      have hq' : (some q).toList.countP (Point.holds k) = 0 := by simp [hnone k]
      have hunlock : (Point.unlock e n ending).holds k = decide (n = k) := by
        simp [Point.holds, Point.holds?]
      rw [hq', hunlock] at hk
      have hpos := count_pos_iff.mpr hone
      rw [hheld, count_erase]
      by_cases hnk : n = k
      · subst hnk
        simp only [decide_true, if_pos, beq_self_eq_true] at hk ⊢
        omega
      · simp only [hnk, decide_false, Bool.false_eq_true, if_false, beq_iff_eq] at hk ⊢
        omega
    · rw [hheld]
      exact le_trans (List.Sublist.count_le _ erase_sublist) (hs.once k)

/-! ### The table of active leases -/

/-- A handle that is not released yet, of a lease of the action that the table shows. -/
structure HandleOf (m : Manager) (a : ActionEnvelope) (h : Handle) : Prop where
  resource : h.lease.resourceId = a.bodyId
  action : h.lease.actionId = a.actionId
  unreleased : h.released = false
  active : m.activeLease a.bodyId = some h.lease

/-- The table shows the leases of the handles that are not released. -/
structure Shown (s : System) : Prop where
  shown : ∀ p ∈ s.calls, ∀ h, p.handle? = some h → HandleOf s.manager p.action h
  owned : ∀ body lease, s.manager.activeLease body = some lease →
    ∃ p ∈ s.calls, ∃ h, p.handle? = some h ∧ p.action.bodyId = body ∧ h.lease = lease

theorem mem_of_same_body (hlocks : Locks s) (hholders : Holders s) (hp : s.calls[i]? = some p)
    {n : Nat} (hn : p.holds? = some n) {as : List Point} {p' : Point} {h' : Handle}
    (hp' : p' ∈ replaceAt s.calls i as) (hh' : p'.handle? = some h')
    (hbody : p'.action.bodyId = p.action.bodyId) : p' ∈ as := by
  have hle : s.calls.countP (Point.holds n) ≤ 1 := by
    rw [hholders.exclusive]
    exact hholders.once n
  rcases of_countP_le_one hp (by simp [Point.holds, hn]) hle hp' with has | ⟨hmem, hnot⟩
  · exact has
  · have hlock' := hlocks.known p' hmem _ (Point.lock?_of_holds (Point.holds?_of_handle hh'))
    have hlock := hlocks.known p (mem_of_getElem? hp) n (Point.lock?_of_holds hn)
    rw [hbody, hlock, some_inj] at hlock'
    simp [Point.holds, Point.holds?_of_handle hh', hlock'] at hnot

theorem Shown.of_moves (hs : Shown s) (hlocks : Locks s) (hholders : Holders s)
    (hp : s.calls[i]? = some p) (hcalls : s'.calls = replaceAt s.calls i q.toList)
    (hmoves : Moves s s' p q) : Shown s' := by
  have hmem : p ∈ s.calls := mem_of_getElem? hp
  -- the table is the same, and the call at the place has the handle it had
  have hsame : s'.manager.active = s.manager.active →
      (∀ h, p.handle? = some h → ∃ p', q = some p' ∧ p'.handle? = some h ∧ p'.action = p.action) →
      (∀ p' h, q = some p' → p'.handle? = some h → p.handle? = some h ∧ p'.action = p.action) →
      Shown s' := by
    intro hactive hfrom hto
    have hlease : s'.manager.activeLease = s.manager.activeLease := by
      funext body
      rw [Manager.activeLease, Manager.activeLease, hactive]
    have hof : ∀ {a h}, HandleOf s.manager a h → HandleOf s'.manager a h := fun hold =>
      ⟨hold.resource, hold.action, hold.unreleased, hlease ▸ hold.active⟩
    refine ⟨fun p' hp' h hh => ?_, fun body lease hl => ?_⟩
    · rcases mem_of_moves hcalls hp' with hp' | hp'
      · obtain ⟨hh', ha⟩ := hto p' h hp' hh
        rw [ha]
        exact hof (hs.shown p hmem h hh')
      · exact hof (hs.shown p' hp' h hh)
    · rw [hlease] at hl
      obtain ⟨p₀, hp₀, h, hh, hbody, heq⟩ := hs.owned body lease hl
      rw [hcalls]
      by_cases hne : p₀ = p
      · subst hne
        obtain ⟨p', rfl, hh', ha⟩ := hfrom h hh
        have hnew : p' ∈ replaceAt s.calls i (some p').toList := by simp [replaceAt]
        exact ⟨p', hnew, h, hh', ha ▸ hbody, heq⟩
      · exact ⟨p₀, mem_replaceAt_of_ne hp hp₀ hne _, h, hh, hbody, heq⟩
  cases hmoves with
  | quiet hp' hq hm =>
    refine hsame (by rw [hm]) (fun h hh => ?_) (fun p' h hp'' hh => ?_)
    · rw [Point.handle?_of_holds hp'] at hh
      cases hh
    · rw [Point.handle?_of_holds (Point.holds?_of_lock (hq p' hp''))] at hh
      cases hh
  | found hm =>
    refine hsame (by rw [hm, Manager.active_lockOf]) (fun h hh => ?_) (fun p' h hp'' hh => ?_)
    · cases hh
    · cases hp''
      cases hh
  | locked _ hm =>
    refine hsame (by rw [hm]; rfl) (fun h hh => ?_) (fun p' h hp'' hh => ?_)
    · cases hh
    · cases hp''
      cases hh
  | @activated e e' n lease he hbody haction hm =>
    -- nobody else has a handle of this body
    refine ⟨fun p' hp' h hh => ?_, fun body l hl => ?_⟩
    · rw [hcalls] at hp'
      by_cases hsameBody : p'.action.bodyId = e.action.bodyId
      · have hnew := mem_of_same_body hlocks hholders hp rfl hp' hh hsameBody
        rw [toList_some, mem_singleton] at hnew
        subst hnew
        cases hh
        show HandleOf s'.manager e'.action _
        rw [he]
        refine ⟨hbody, haction, rfl, ?_⟩
        rw [hm, Manager.activeLease_activate, if_pos hbody]
      · have hold : p' ∈ s.calls := by
          rcases mem_replaceAt hp' with hnew | hold
          · rw [toList_some, mem_singleton] at hnew
            subst hnew
            change e'.action.bodyId ≠ e.action.bodyId at hsameBody
            rw [he] at hsameBody
            exact absurd rfl hsameBody
          · exact hold
        have hof := hs.shown p' hold h hh
        refine ⟨hof.resource, hof.action, hof.unreleased, ?_⟩
        rw [hm, Manager.activeLease_activate, if_neg (hbody ▸ Ne.symm hsameBody)]
        exact hof.active
    · rw [hm, Manager.activeLease_activate] at hl
      rw [hcalls]
      split at hl
      · next heq =>
        cases hl
        refine ⟨.invoke e' ⟨s.handles, lease, n, false⟩, by simp [replaceAt], _, rfl, ?_, rfl⟩
        show e'.action.bodyId = body
        rw [he, ← hbody, heq]
      · obtain ⟨p₀, hp₀, h, hh, hb, heq⟩ := hs.owned body l hl
        refine ⟨p₀, mem_replaceAt_of_ne hp hp₀ (fun hne => ?_) _, h, hh, hb, heq⟩
        rw [hne] at hh
        cases hh
  | @went p q h hph hqh ha _ hm =>
    refine hsame (by rw [hm]) (fun h' hh => ?_) (fun p' h' hp'' hh => ?_)
    · exact ⟨q, rfl, hqh.trans (hph.symm.trans hh), ha⟩
    · cases hp''
      exact ⟨hph.trans (hqh.symm.trans hh), ha⟩
  | @released e h ending _ hm =>
    -- the lease that is taken out of the table is the one of this handle
    have hof := hs.shown _ hmem h rfl
    have hactive : s.manager.activeLease h.lease.resourceId = some h.lease := by
      rw [hof.resource]
      exact hof.active
    refine ⟨fun p' hp' h' hh => ?_, fun body l hl => ?_⟩
    · rw [hcalls] at hp'
      by_cases hsameBody : p'.action.bodyId = e.action.bodyId
      · have hnew := mem_of_same_body hlocks hholders hp rfl hp' hh hsameBody
        rw [toList_some, mem_singleton] at hnew
        subst hnew
        cases hh
      · have hold : p' ∈ s.calls := by
          rcases mem_replaceAt hp' with hnew | hold
          · rw [toList_some, mem_singleton] at hnew
            subst hnew
            cases hh
          · exact hold
        have hof' := hs.shown p' hold h' hh
        refine ⟨hof'.resource, hof'.action, hof'.unreleased, ?_⟩
        have hne : h.lease.resourceId ≠ p'.action.bodyId := by
          rw [hof.resource]
          exact Ne.symm hsameBody
        rw [hm, Manager.activeLease_deactivate hactive, if_neg hne]
        exact hof'.active
    · rw [hm, Manager.activeLease_deactivate hactive] at hl
      split at hl
      · cases hl
      · next hne =>
        obtain ⟨p₀, hp₀, h₀, hh₀, hb, heq⟩ := hs.owned body l hl
        rw [hcalls]
        refine ⟨p₀, mem_replaceAt_of_ne hp hp₀ (fun hp₀' => ?_) _, h₀, hh₀, hb, heq⟩
        rw [hp₀'] at hb
        exact hne (hof.resource.trans hb)
  | kept hreleased =>
    rw [(hs.shown _ hmem _ rfl).unreleased] at hreleased
    cases hreleased
  | unlocked hq hm =>
    refine hsame (by rw [hm]; rfl) (fun h hh => ?_) (fun p' h hp'' hh => ?_)
    · cases hh
    · cases hp''
      rw [Point.handle?_of_holds (Point.holds?_of_lock hq)] at hh
      cases hh

/-! ### Releases -/

def System.releases (s : System) (n : Nat) : Nat := s.log.countP (LeaseEvent.isRelease n)

def Counted (s : System) : Prop :=
  ∀ n, s.releases n + s.calls.countP (Point.owes n) = if n < s.handles then 1 else 0

theorem Counted.of_moves (hs : Counted s) (hp : s.calls[i]? = some p)
    (hcalls : s'.calls = replaceAt s.calls i q.toList) (hmoves : Moves s s' p q)
    (hkept : ∀ h : Handle, p.handle? = some h → h.released = false) : Counted s' := by
  have hcount : ∀ n, s'.calls.countP (Point.owes n) + (if p.owes n then 1 else 0)
      = s.calls.countP (Point.owes n) + q.toList.countP (Point.owes n) := by
    intro n
    rw [hcalls]
    exact countP_replaceAt hp _ _
  -- no handle is made or released, and the call at the place has the one it had
  have hsame : s'.handles = s.handles → s'.log = s.log →
      (∀ n, q.toList.countP (Point.owes n) = if p.owes n then 1 else 0) → Counted s' := by
    intro hhandles hlog hq n
    have := hcount n
    rw [hq n] at this
    rw [hhandles, ← hs n, System.releases, System.releases, hlog]
    omega
  cases hmoves with
  | quiet hp' hq _ hh hl =>
    refine hsame hh hl (fun n => ?_)
    have hnone : p.owes n = false := by simp [Point.owes, Point.handle?_of_holds hp']
    rw [hnone]
    cases q with
    | none => rfl
    | some q =>
      have hq' : q.owes n = false := by
        simp [Point.owes, Point.handle?_of_holds (Point.holds?_of_lock (hq q rfl))]
      simp [hq']
  | found _ hh hl =>
    refine hsame hh hl (fun n => ?_)
    simp [Point.owes, Point.handle?]
  | locked _ _ hh hl =>
    refine hsame hh hl (fun n => ?_)
    simp [Point.owes, Point.handle?]
  | @activated e e' n lease _ _ _ _ hh hl =>
    intro k
    have hk := hcount k
    have hold := hs k
    have hreleases : s'.releases k = s.releases k := by
      rw [System.releases, System.releases, hl, countP_append]
      simp [LeaseEvent.isRelease]
    simp only [Point.owes, Point.handle?, map_none, map_some, reduceCtorEq,
      decide_false, Bool.false_eq_true, if_false, toList_some, countP_singleton,
      some_inj, decide_eq_true_eq] at hk
    rw [hreleases, hh]
    change s'.calls.countP (Point.owes k) + 0 = s.calls.countP (Point.owes k) + _ at hk
    split at hk <;> split at hold <;> split <;> omega
  | @went p q h hph hqh _ _ _ hh hl =>
    refine hsame hh hl (fun n => ?_)
    simp [Point.owes, hph, hqh]
  | @released e h ending _ _ hh hl =>
    intro k
    have hk := hcount k
    have hold := hs k
    have hreleases : s'.releases k = s.releases k + if h.number = k then 1 else 0 := by
      rw [System.releases, System.releases, hl, countP_append]
      simp [LeaseEvent.isRelease]
    have howes : (Point.exit e h ending).owes k = decide (h.number = k) := by
      simp [Point.owes, Point.handle?]
    have hnone : (some (Point.unlock e h.lock ending)).toList.countP (Point.owes k) = 0 := by
      simp [Point.owes, Point.handle?]
    rw [howes, hnone] at hk
    rw [hreleases, hh, ← hold]
    by_cases heq : h.number = k
    · simp only [heq, decide_true, if_pos] at hk ⊢
      omega
    · simp only [heq, decide_false, Bool.false_eq_true, if_false] at hk ⊢
      omega
  | kept hreleased =>
    rw [hkept _ rfl] at hreleased
    cases hreleased
  | unlocked hq _ hh hl =>
    refine hsame hh hl (fun n => ?_)
    have hnone := Point.handle?_of_holds (Point.holds?_of_lock hq)
    have hp' : ∀ e n ending, (Point.unlock e n ending).handle? = none := fun _ _ _ => rfl
    simp [Point.owes, hp', hnone]

end Step

/-! ### All runs -/

/-- Who holds the locks, what the table shows, and what became of the handles. -/
structure Inv (s : System) : Prop where
  locks : Locks s
  holders : Holders s
  shown : Shown s
  counted : Counted s

theorem inv_init (h : (submissions py).Init s) : Inv s := by
  obtain ⟨hm, hc, hh, hl⟩ := h
  refine ⟨⟨⟨?_, ?_⟩, ?_⟩, ⟨?_, ?_⟩, ⟨?_, ?_⟩, ?_⟩
  · intro body body' n hn
    rw [hm] at hn
    cases hn
  · intro body n hn
    rw [hm] at hn
    cases hn
  · intro p hp
    rw [hc] at hp
    cases hp
  · intro n
    rw [hc, hm]
    rfl
  · intro n
    rw [hm]
    exact Nat.zero_le 1
  · intro p hp
    rw [hc] at hp
    cases hp
  · intro body lease hlease
    rw [hm] at hlease
    cases hlease
  · intro n
    rw [System.releases, hc, hh, hl]
    rfl

theorem Inv.of_calls (hs : Inv s) (hm : s'.manager = s.manager) (hh : s'.handles = s.handles)
    (hl : s'.log = s.log) {new : List Point} (hcalls : s'.calls = s.calls ++ new)
    (hnew : ∀ p ∈ new, p.lock? = none) : Inv s' := by
  have hnone : ∀ p ∈ new, p.handle? = none := fun p hp =>
    Point.handle?_of_holds (Point.holds?_of_lock (hnew p hp))
  refine ⟨⟨hm ▸ hs.locks.distinct, ?_⟩, ⟨?_, hm ▸ hs.holders.once⟩, ⟨?_, ?_⟩, ?_⟩
  · intro p hp n hn
    rw [hcalls, mem_append] at hp
    rcases hp with hp | hp
    · exact hm ▸ hs.locks.known p hp n hn
    · rw [hnew p hp] at hn
      cases hn
  · intro n
    have hzero : new.countP (Point.holds n) = 0 := countP_eq_zero.mpr fun p hp => by
      simp [Point.holds, Point.holds?_of_lock (hnew p hp)]
    rw [hcalls, countP_append, hzero, hm, hs.holders.exclusive n]
    rfl
  · intro p hp h hph
    rw [hcalls, mem_append] at hp
    rcases hp with hp | hp
    · exact hm ▸ hs.shown.shown p hp h hph
    · rw [hnone p hp] at hph
      cases hph
  · intro body lease hlease
    rw [hm] at hlease
    obtain ⟨p, hp, hrest⟩ := hs.shown.owned body lease hlease
    exact ⟨p, hcalls ▸ mem_append_left _ hp, hrest⟩
  · intro n
    have hzero : new.countP (Point.owes n) = 0 := countP_eq_zero.mpr fun p hp => by
      simp [Point.owes, hnone p hp]
    rw [hcalls, countP_append, hzero, hh, System.releases, hl]
    exact hs.counted n

theorem Inv.step {l : Label} (hs : Inv s) (h : s.step py l = some s') : Inv s' := by
  cases l with
  | submit a =>
    cases h
    exact hs.of_calls rfl rfl rfl rfl (by simp [Point.lock?])
  | run i env =>
    obtain ⟨p, hp, hadvance⟩ := bind_eq_some_iff.mp h
    obtain ⟨q, hcalls, hmoves⟩ := System.moves_of_advance hadvance
    have hkept : ∀ h : Handle, p.handle? = some h → h.released = false := fun h hh =>
      (hs.shown.shown p (mem_of_getElem? hp) h hh).unreleased
    exact ⟨hs.locks.of_moves (mem_of_getElem? hp) hcalls hmoves hkept,
      hs.holders.of_moves hp hcalls hmoves hkept,
      hs.shown.of_moves hs.locks hs.holders hp hcalls hmoves,
      hs.counted.of_moves hp hcalls hmoves hkept⟩
  | reject a code message state r =>
    cases h
    exact hs.of_calls rfl rfl rfl (append_nil _).symm (by simp)
  | discardReceipt id =>
    cases h
    exact hs.of_calls rfl rfl rfl (append_nil _).symm (by simp)
  | registerExecutor capabilityId mode =>
    cases h
    exact hs.of_calls rfl rfl rfl (append_nil _).symm (by simp)

theorem goes_of_holds (hp : s.calls[i]? = some p) (hn : p.holds? = some n)
    (hunreleased : ∀ h : Handle, p.handle? = some h → h.released = false) (env : Answers) :
    ∃ s' q, s.step py (.run i env) = some s' ∧ s'.calls = replaceAt s.calls i [q] ∧
      q.remaining < p.remaining := by
  have hsome : ∃ s', s.advance py i env p = some s' := by
    cases p with
    | activate e k => exact ⟨_, rfl⟩
    | unlock e k ending => exact ⟨_, rfl⟩
    | invoke e h =>
      simp only [System.advance]
      split_ifs <;> exact ⟨_, rfl⟩
    | executing e h =>
      simp only [System.advance]
      split
      · exact ⟨_, rfl⟩
      · split
        · split_ifs <;> exact ⟨_, rfl⟩
        · exact ⟨_, rfl⟩
    | assemble e h result directory =>
      simp only [System.advance]
      split_ifs <;> exact ⟨_, rfl⟩
    | exit e h ending =>
      simp only [System.advance]
      split_ifs <;> exact ⟨_, rfl⟩
    | _ => cases hn
  obtain ⟨s', hadvance⟩ := hsome
  obtain ⟨q, hcalls, hmoves⟩ := System.moves_of_advance hadvance
  have hstep : s.step py (.run i env) = some s' := by
    rw [System.step, hp, bind_some, hadvance]
  cases hmoves with
  | quiet hp' =>
    rw [hp'] at hn
    cases hn
  | found => cases hn
  | locked => cases hn
  | activated => exact ⟨s', _, hstep, hcalls, by simp [Point.remaining]⟩
  | went _ _ _ hr => exact ⟨s', _, hstep, hcalls, hr⟩
  | released => exact ⟨s', _, hstep, hcalls, by simp [Point.remaining]⟩
  | kept hreleased =>
    rw [hunreleased _ rfl] at hreleased
    cases hreleased
  | @unlocked _ _ _ q hq =>
    refine ⟨s', q, hstep, hcalls, ?_⟩
    have hzero : q.remaining = 0 := by
      cases q <;> first | rfl | cases hq
    rw [hzero]
    exact Nat.one_pos

structure OneByOne (py : Builtins) (s : System) : Prop where
  /-- two executors of one body do not run at the same time -/
  alone : ∀ (i j : Nat) (p p' : Point), s.calls[i]? = some p → s.calls[j]? = some p' →
    p.isExecuting = true → p'.isExecuting = true → p.action.bodyId = p'.action.bodyId → i = j
  /-- a handle is released once, or not yet and a call has to do it -/
  once : ∀ n < s.handles,
    (s.releases n = 0 ∧ ∃ p ∈ s.calls, p.handle?.map Handle.number = some n) ∨
      (s.releases n = 1 ∧ ∀ p ∈ s.calls, p.handle?.map Handle.number ≠ some n)
  /-- which never waits -/
  goes : ∀ (i : Nat) (p : Point), s.calls[i]? = some p → p.holds?.isSome = true →
    ∀ env, ∃ s' q, s.step py (.run i env) = some s' ∧ s'.calls = replaceAt s.calls i [q] ∧
      q.remaining < p.remaining
  /-- one call at most holds a lock -/
  holder : ∀ (i j n : Nat) (p p' : Point), s.calls[i]? = some p → s.calls[j]? = some p' →
    p.holds? = some n → p'.holds? = some n → i = j
  /-- a lease is shown while its action holds the lock of the body -/
  active : ∀ body lease, s.manager.activeLease body = some lease → ∃ p ∈ s.calls, ∃ h n,
    p.handle? = some h ∧ h.lease = lease ∧ p.action.bodyId = body ∧
      lease.actionId = p.action.actionId ∧ lease.resourceId = body ∧
      s.manager.locks.get? body = some n ∧ n ∈ s.manager.held ∧ p.holds? = some n

theorem Inv.oneByOne (hs : Inv s) : OneByOne py s := by
  have hcount : ∀ n, s.calls.countP (Point.holds n) ≤ 1 := fun n => by
    rw [hs.holders.exclusive n]
    exact hs.holders.once n
  have hholder : ∀ (i j n : Nat) (p p' : Point), s.calls[i]? = some p → s.calls[j]? = some p' →
      p.holds? = some n → p'.holds? = some n → i = j := by
    intro i j n p p' hp hp' hn hn'
    exact eq_of_countP_le_one hp hp' (by simp [Point.holds, hn]) (by simp [Point.holds, hn'])
      (hcount n)
  refine ⟨?_, ?_, ?_, hholder, ?_⟩
  · intro i j p p' hp hp' he he' hbody
    -- both hold the lock of the body
    have hheld : ∀ {p : Point}, p ∈ s.calls → p.isExecuting = true →
        ∃ n, p.holds? = some n ∧ s.manager.locks.get? p.action.bodyId = some n := by
      intro p hp he
      cases p with
      | executing e h => exact ⟨h.lock, rfl, hs.locks.known _ hp _ rfl⟩
      | _ => cases he
    obtain ⟨n, hn, hlock⟩ := hheld (mem_of_getElem? hp) he
    obtain ⟨n', hn', hlock'⟩ := hheld (mem_of_getElem? hp') he'
    rw [hbody, hlock', some_inj] at hlock
    exact hholder i j n p p' hp hp' hn (hlock ▸ hn')
  · intro n hn
    have hc := hs.counted n
    rw [if_pos hn] at hc
    by_cases hpos : 0 < s.calls.countP (Point.owes n)
    · left
      obtain ⟨p, hp, howes⟩ := countP_pos_iff.mp hpos
      exact ⟨by omega, p, hp, of_decide_eq_true howes⟩
    · right
      refine ⟨by omega, fun p hp howes => hpos ?_⟩
      exact countP_pos_iff.mpr ⟨p, hp, decide_eq_true howes⟩
  · intro i p hp hholds env
    obtain ⟨n, hn⟩ := isSome_iff_exists.mp hholds
    exact goes_of_holds hp hn
      (fun h hh => (hs.shown.shown p (mem_of_getElem? hp) h hh).unreleased) env
  · intro body lease hlease
    obtain ⟨p, hp, h, hh, hbody, hl⟩ := hs.shown.owned body lease hlease
    have hof := hs.shown.shown p hp h hh
    have hn := Point.holds?_of_handle hh
    have hlock := hs.locks.known p hp _ (Point.lock?_of_holds hn)
    refine ⟨p, hp, h, h.lock, hh, hl, hbody, hl ▸ hof.action, ?_, hbody ▸ hlock, ?_, hn⟩
    · rw [← hl, hof.resource, hbody]
    · rw [← count_pos_iff, ← hs.holders.exclusive]
      exact countP_pos_iff.mpr ⟨p, hp, by simp [Point.holds, hn]⟩

/-- **Executors of one body run one by one, every handle is released once, and the table shows a
lease only while its action holds the lock.** -/
theorem executors_alone (py : Builtins) (s : System) (h : (submissions py).Reachable s) :
    OneByOne py s :=
  (h.invariant (P := Inv) (fun _ hi => inv_init hi) (fun _ _ _ hi _ hl => hi.step hl)).oneByOne

/-! ### Two actions on one body -/

def sample : System where
  gateway := { executors := [("c", .fixture)] }

theorem isBlank_a2 : PyStr.isBlank "a2" = false := by decide

def firstAction : ActionEnvelope := .sample "a1" ActionEnvelope.isBlank_a1 .fixture .none .second

def secondAction : ActionEnvelope := .sample "a2" isBlank_a2 .fixture .none .second

def quietly : Answers where
  readings := ⟨fun _ => default, fun _ => default, id⟩

/-- The first action goes up to its executor; the second one asks for the lock. -/
def twoActions : List Label :=
  [.submit firstAction, .submit secondAction, .run 0 quietly, .run 0 quietly, .run 0 quietly,
    .run 0 quietly, .run 0 quietly, .run 0 quietly, .run 1 quietly, .run 1 quietly, .run 1 quietly]

theorem init_sample : (submissions .zero).Init sample := ⟨rfl, rfl, rfl, rfl⟩

theorem executors_alone_twoActions :
    ∃ s, (submissions .zero).run sample twoActions = some s ∧
      s.calls.map Point.isExecuting = [true, false] ∧
      ((submissions .zero).step s (.run 1 quietly)).isNone = true ∧ OneByOne .zero s := by
  have hrun : ((submissions .zero).run sample twoActions).map (fun s =>
      (s.calls.map Point.isExecuting, ((submissions .zero).step s (.run 1 quietly)).isNone))
        = some ([true, false], true) := by
    decide +kernel
  obtain ⟨s, hs, hout⟩ := Option.map_eq_some_iff.mp hrun
  rw [Prod.mk.injEq] at hout
  exact ⟨s, hs, hout.1, hout.2,
    executors_alone .zero s (Machine.ReachableUnder.of_run init_sample hs)⟩

end Rosclaw.BodyLeases
