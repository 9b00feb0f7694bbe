/-
The lifecycle of a skill job.

* `Inv`, `inv_step` — the invariant, kept by every sound step;
* `job_laws` — the laws hold in every state of every run of sound steps;
* `handed_after_cancel` — a plan that is handed over although the job was cancelled.
-/
import Rosclaw.Skill.Jobs

namespace Rosclaw.SkillJobs

open List

variable {P D : Type} {h : Host P D} {s s' : State P D} {i now : Nat} {p q : Phase P D}

/-! ### The condition -/

def Update.own : Update P D → Bool
  | .verify _ _ | .finish _ _ _ => true
  | _ => false

def Phase.executing : Phase P D → Bool
  | .handing _ | .running _ | .verifying _ _ | .recovering _ _ _ | .recording _ _ _ _ => true
  | .reading u | .writing u _ => u.own
  | _ => false

def Phase.sound (h : Host P D) (status : JobState) : Phase P D → Bool
  | .writing u _ =>
      (!status.terminal || u.status = status) && (!status.busy || u.own)
  | .handing e => h.accepts e
  | _ => true

def Sound (h : Host P D) (s : State P D) : Label D → Bool
  | .raise i => s.phases[i]?.all fun p => !p.executing
  | .move i _ => s.phases[i]?.all (Phase.sound h s.job.status)
  | _ => true

/-! ### The laws -/

def Entry.handed? : Entry P D → Option Nat
  | .handed n _ => some n
  | _ => none

def handed (log : List (Entry P D)) : List Nat := log.filterMap Entry.handed?

def EntryLaw (h : Host P D) (log : List (Entry P D)) : Entry P D → Prop
  -- the terminal states are absorbing
  | .wrote job => ∀ job', .wrote job' ∈ log → job'.status.terminal = true →
      job.status = job'.status
  -- once per authorization, of the plan that was authorized, and not after a cancellation
  | .handed n plan => n ∉ handed log ∧
      (∃ k job, n = k + 1 ∧ (authorizations log)[k]? = some job ∧ job.plan = some plan) ∧
      ∀ job, .wrote job ∈ log → job.status ≠ .cancelled
  | .began n plan =>
      ∃ k job, n = k + 1 ∧ (authorizations log)[k]? = some job ∧ job.planHash = h.planHash plan

structure JobLaws (h : Host P D) (s : State P D) : Prop where
  entries : Log.Each (EntryLaw h) s.log
  /-- A job that entered `EXECUTING` is being executed, or ended with a receipt. -/
  ended : (∃ job, .wrote job ∈ s.log ∧ job.status = .executing) →
    (∃ p ∈ s.phases, p.executing = true) ∨
      (s.job.status = .succeeded ∨ s.job.status = .failed) ∧ s.receipt.isSome = true

/-! ### The invariant -/

def Same (job job' : Job P D) : Prop := job.plan = job'.plan ∧ job.planHash = job'.planHash

/-- What a call of `execute_authorized_job` read is still so. -/
structure Held.Fits (job : Job P D) (n : Nat) (e : Held P D) : Prop where
  same : Same e.job job
  plan : job.plan = some e.plan
  pos : 0 < e.authorization
  le : e.authorization ≤ n

def Update.Fits (job : Job P D) (n : Nat) : Update P D → Prop
  | .execute e | .verify e _ => e.Fits job n
  | .finish final _ _ => final = .succeeded ∨ final = .failed
  | _ => True

def Phase.Fits (job : Job P D) (n : Nat) : Phase P D → Prop
  | .handing e | .running e | .verifying e _ | .recovering e _ _ | .recording e _ _ _ =>
      e.Fits job n
  | .reading u => u.Fits job n
  | .writing u job' => u.Fits job n ∧ job'.status = u.status ∧ Same job' job
  | _ => True

def Phase.recorded : Phase P D → Bool
  | .reading (.finish _ _ _) | .writing (.finish _ _ _) _ => true
  | _ => false

def Phase.hands : Phase P D → Bool
  | .handing _ => true
  | _ => false

inductive Stage (s : State P D) : Prop
  | before : s.job.status.busy = false → (∀ job, .wrote job ∈ s.log → job.status ≠ .executing) →
      s.phases.filter Phase.executing = [] → handed s.log = [] → Stage s
  | ready (p : Phase P D) : s.job.status = .executing → p.hands = true →
      s.phases.filter Phase.executing = [p] → handed s.log = [] → Stage s
  | under (p : Phase P D) : s.job.status.busy = true → p.hands = false →
      s.phases.filter Phase.executing = [p] → (p.recorded = true → s.receipt.isSome = true) →
      Stage s
  | done : s.job.status = .succeeded ∨ s.job.status = .failed →
      s.phases.filter Phase.executing = [] → s.receipt.isSome = true → Stage s

structure Inv (h : Host P D) (s : State P D) : Prop where
  current : .wrote s.job ∈ s.log
  same : ∀ job, .wrote job ∈ s.log → Same job s.job
  settled : ∀ job, .wrote job ∈ s.log → job.status.terminal = true → s.job.status = job.status
  fits : ∀ p ∈ s.phases, p.Fits s.job (authorizations s.log).length
  entries : Log.Each (EntryLaw h) s.log
  stage : Stage s

/-! ### Small facts -/

variable {a b c : Job P D} {l : Label D} {m n : Nat} {ps : List (Phase P D)}
  (log : List (Entry P D)) (e : Entry P D)

theorem Stage.congr {s : State P D} (h : Stage s)
    (hfilter : ps.filter Phase.executing = s.phases.filter Phase.executing) :
    Stage { s with phases := ps } := by
  cases h with
  | before hbusy hnot hnone hhanded => exact .before hbusy hnot (hfilter.trans hnone) hhanded
  | ready p hst hhands hone hhanded => exact .ready p hst hhands (hfilter.trans hone) hhanded
  | under p hst hhands hone hrec => exact .under p hst hhands (hfilter.trans hone) hrec
  | done hst hnone hreceipt => exact .done hst (hfilter.trans hnone) hreceipt

theorem Same.trans (hab : Same a b) (hbc : Same b c) : Same a c :=
  ⟨hab.1.trans hbc.1, hab.2.trans hbc.2⟩

theorem same_apply (u : Update P D) (job : Job P D) : Same (u.apply now job) job := by
  cases u <;> exact ⟨rfl, rfl⟩

theorem status_apply (u : Update P D) (job : Job P D) : (u.apply now job).status = u.status := by
  cases u <;> rfl

theorem not_recorded_of_hands (hp : p.hands = true) : p.recorded = false := by
  cases p <;> first | rfl | cases hp

theorem final_ends (x : Execution D) (v : D) :
    h.final x v = .succeeded ∨ h.final x v = .failed := by
  unfold Host.final
  split
  · exact .inl rfl
  · exact .inr rfl

theorem Phase.Fits.later {job job' : Job P D} (hp : p.Fits job m) (hsame : Same job' job)
    (hmn : m ≤ n) : p.Fits job' n := by
  have hback : Same job job' := ⟨hsame.1.symm, hsame.2.symm⟩
  have hheld : ∀ {e : Held P D}, e.Fits job m → e.Fits job' n := fun he =>
    ⟨he.same.trans hback, hsame.1.trans he.plan, he.pos, Nat.le_trans he.le hmn⟩
  have hupdate : ∀ {u : Update P D}, u.Fits job m → u.Fits job' n := by
    intro u hu
    cases u with
    | execute e => exact hheld hu
    | verify e x => exact hheld hu
    | finish final v path => exact hu
    | _ => trivial
  cases p with
  | handing e => exact hheld hp
  | running e => exact hheld hp
  | verifying e x => exact hheld hp
  | recovering e x v => exact hheld hp
  | recording e x v r => exact hheld hp
  | reading u => exact hupdate hp
  | writing u job'' => exact ⟨hupdate hp.1, hp.2.1, hp.2.2.trans hback⟩
  | _ => trivial

theorem authorizations_snoc :
    authorizations (log ++ [e]) = authorizations log ++ e.authorization?.toList := by
  rw [authorizations, filterMap_append]
  cases he : e.authorization? <;> simp [authorizations, he]

theorem handed_snoc : handed (log ++ [e]) = handed log ++ e.handed?.toList := by
  rw [handed, filterMap_append]
  cases he : e.handed? <;> simp [handed, he]

theorem length_authorizations_le :
    (authorizations log).length ≤ (authorizations (log ++ [e])).length := by
  rw [authorizations_snoc, length_append]
  omega

theorem Inv.authorized_pos (hs : Inv h s) (hauth : s.job.status = .authorized) :
    0 < (authorizations s.log).length := by
  have hlast : (Entry.wrote s.job).authorization? = some s.job := by
    rw [Entry.authorization?, if_pos hauth]
  exact length_pos_of_mem (mem_filterMap.mpr ⟨_, hs.current, hlast⟩)

theorem Inv.authorization (hs : Inv h s) {e : Held P D}
    (he : e.Fits s.job (authorizations s.log).length) :
    ∃ k job, e.authorization = k + 1 ∧ (authorizations s.log)[k]? = some job ∧ Same job s.job := by
  obtain ⟨k, hk⟩ := Nat.exists_eq_add_of_lt he.pos
  rw [Nat.zero_add] at hk
  have hlt : k < (authorizations s.log).length := by
    have := he.le
    omega
  refine ⟨k, (authorizations s.log)[k], hk, List.getElem?_eq_getElem hlt, ?_⟩
  obtain ⟨entry, hmem, heq⟩ := mem_filterMap.mp (getElem_mem hlt)
  cases entry with
  | wrote job =>
    rw [Entry.authorization?] at heq
    split at heq
    · rw [← Option.some.inj heq]
      exact hs.same job hmem
    · cases heq
  | handed n plan => cases heq
  | began n plan => cases heq

/-! ### Steps that write nothing -/

theorem Inv.quiet (hs : Inv h s) (hp : s.phases[i]? = some p) (hquiet : p.executing = false)
    (hps : ∀ q ∈ ps, q.executing = false ∧ q.Fits s.job (authorizations s.log).length) :
    Inv h (s.goes i ps) := by
  have hfilter : (replaceAt s.phases i ps).filter Phase.executing =
      s.phases.filter Phase.executing := filter_replaceAt_of_not hp hquiet fun q hq => (hps q hq).1
  refine ⟨hs.current, hs.same, hs.settled, ?_, hs.entries, ?_⟩
  · intro q hq
    rcases mem_replaceAt hq with hq | hq
    · exact (hps q hq).2
    · exact hs.fits q hq
  · exact hs.stage.congr hfilter

theorem Inv.executing (hs : Inv h s) (hp : s.phases[i]? = some p) (hexec : p.executing = true) :
    s.job.status.busy = true ∧ s.phases.filter Phase.executing = [p] ∧
      (p.hands = true → s.job.status = .executing ∧ handed s.log = []) ∧
      (p.recorded = true → s.receipt.isSome = true) := by
  have hmem : p ∈ s.phases.filter Phase.executing := mem_filter.mpr ⟨mem_of_getElem? hp, hexec⟩
  cases hs.stage with
  | before _ _ hnone _ => rw [hnone] at hmem; cases hmem
  | done _ hnone _ => rw [hnone] at hmem; cases hmem
  | ready p' hst hhands hone hhanded =>
    rw [hone] at hmem
    obtain rfl := mem_singleton.mp hmem
    refine ⟨by rw [hst]; rfl, hone, fun _ => ⟨hst, hhanded⟩, fun hrec => ?_⟩
    rw [not_recorded_of_hands hhands] at hrec
    cases hrec
  | under p' hst hhands hone hrec =>
    rw [hone] at hmem
    obtain rfl := mem_singleton.mp hmem
    refine ⟨hst, hone, fun htrue => ?_, hrec⟩
    rw [hhands] at htrue
    cases htrue

theorem Inv.onward (hs : Inv h s) (hp : s.phases[i]? = some p) (hexec : p.executing = true)
    (hq : q.executing = true) (hhands : q.hands = false)
    (hfits : q.Fits s.job (authorizations s.log).length)
    {r : Option (Receipt D)} (hkept : s.receipt.isSome = true → r.isSome = true)
    (hrec : q.recorded = true → p.recorded = true ∨ r.isSome = true) :
    Inv h { s.goes i [q] with receipt := r } := by
  obtain ⟨hbusy, hone, -, hreceipt⟩ := hs.executing hp hexec
  refine ⟨hs.current, hs.same, hs.settled, ?_, hs.entries, ?_⟩
  · intro q' hq'
    rcases mem_replaceAt hq' with hq' | hq'
    · rw [mem_singleton.mp hq']
      exact hfits
    · exact hs.fits q' hq'
  · refine .under q hbusy hhands ?_ fun hq' => ?_
    · show (replaceAt s.phases i [q]).filter Phase.executing = [q]
      rw [(filter_replaceAt_of_singleton hp hexec hone).2, filter_cons_of_pos hq, filter_nil]
    · rcases hrec hq' with hrec | hrec
      · exact hkept (hreceipt hrec)
      · exact hrec

theorem Inv.answered (hs : Inv h s) (hp : s.phases[i]? = some p) (hexec : p.executing = true)
    (hq : q.executing = true) (hhands : q.hands = false) (hrec : q.recorded = false)
    (hfits : q.Fits s.job (authorizations s.log).length) : Inv h (s.goes i [q]) := by
  refine hs.onward (r := s.receipt) hp hexec hq hhands hfits (fun hkept => hkept) fun h => ?_
  rw [hrec] at h
  cases h

/-! ### Writes -/

theorem Update.Fits.next {u : Update P D} {job : Job P D} (hu : u.Fits job n) :
    ∀ q ∈ u.next, q.Fits job n := by
  intro q hq
  cases u with
  | authorize t => obtain rfl := mem_singleton.mp hq; trivial
  | execute e => obtain rfl := mem_singleton.mp hq; exact hu
  | verify e x => obtain rfl := mem_singleton.mp hq; exact hu
  | _ => cases hq

variable {u : Update P D} {job : Job P D}

def State.write (s : State P D) (i : Nat) (u : Update P D) (job : Job P D) : State P D :=
  { s.goes i u.next with job := job, log := s.log ++ [.wrote job] }

theorem terminal_of_ended {st : JobState} (hst : st = .succeeded ∨ st = .failed) :
    st.terminal = true := by
  rcases hst with rfl | rfl <;> rfl

theorem Inv.stage_write (hs : Inv h s) (hp : s.phases[i]? = some (.writing u job))
    (hstatus : job.status = u.status)
    (hterminal : s.job.status.terminal = true → u.status = s.job.status)
    (hbusy : s.job.status.busy = true → u.own = true) : Stage (s.write i u job) := by
  have hlog : handed (s.log ++ [.wrote job]) = handed s.log := by
    rw [handed_snoc]
    exact append_nil _
  cases hown : u.own with
  | true =>
    obtain ⟨hbusy', hone, -, hreceipt⟩ := hs.executing hp hown
    have hnext : (replaceAt s.phases i u.next).filter Phase.executing =
        u.next.filter Phase.executing := (filter_replaceAt_of_singleton hp hown hone).2
    cases u with
    | verify e x =>
      refine .under (.verifying e x) ?_ rfl hnext fun hrec => by cases hrec
      show job.status.busy = true
      rw [hstatus]
      rfl
    | finish final v path =>
      have hfits := hs.fits _ (mem_of_getElem? hp)
      refine .done ?_ hnext (hreceipt rfl)
      show job.status = .succeeded ∨ job.status = .failed
      rw [hstatus]
      exact hfits.1
    | _ => cases hown
  | false =>
    have hidle : s.job.status.busy = false := by
      cases hb : s.job.status.busy with
      | false => rfl
      | true => rw [hbusy hb] at hown; cases hown
    cases hs.stage with
    | ready p hst _ _ _ => rw [hst] at hidle; cases hidle
    | under p hst _ _ _ => rw [hst] at hidle; cases hidle
    | done hst hnone hreceipt =>
      have hsame : u.status = s.job.status := hterminal (terminal_of_ended hst)
      have hended : job.status = .succeeded ∨ job.status = .failed := by
        rw [hstatus, hsame]
        exact hst
      refine .done hended ?_ hreceipt
      have hnext : ∀ q ∈ u.next, q.executing = false := by
        intro q hq
        cases u with
        | authorize t => obtain rfl := mem_singleton.mp hq; rfl
        | execute e => rw [hstatus] at hended; rcases hended with hend | hend <;> cases hend
        | verify e x => cases hown
        | _ => cases hq
      exact (filter_replaceAt_of_not hp hown hnext).trans hnone
    | before _ hnot hnone hhanded =>
      have hnext : (replaceAt s.phases i u.next).filter Phase.executing =
          u.next.filter Phase.executing := filter_replaceAt_of_nil hp hnone
      cases u with
      | execute e => exact .ready (.handing e) hstatus rfl hnext (hlog.trans hhanded)
      | verify e x => cases hown
      | finish final v path => cases hown
      | _ =>
        refine .before ?_ ?_ hnext (hlog.trans hhanded)
        · show job.status.busy = false
          rw [hstatus]
          rfl
        · intro job' hjob'
          rcases Log.mem_snoc.mp hjob' with hold | hnew
          · exact hnot job' hold
          · cases hnew
            rw [hstatus]
            intro heq
            cases heq

theorem Inv.write (hs : Inv h s) (hp : s.phases[i]? = some (.writing u job))
    (hsound : Phase.sound h s.job.status (.writing u job) = true) : Inv h (s.write i u job) := by
  obtain ⟨hu, hstatus, hsame⟩ := hs.fits _ (mem_of_getElem? hp)
  simp only [Phase.sound, Bool.and_eq_true, Bool.or_eq_true, Bool.not_eq_true',
    decide_eq_true_eq] at hsound
  have hterminal : s.job.status.terminal = true → u.status = s.job.status := fun ht =>
    hsound.1.resolve_left (by rw [ht]; exact Bool.noConfusion)
  have hbusy : s.job.status.busy = true → u.own = true := fun hb =>
    hsound.2.resolve_left (by rw [hb]; exact Bool.noConfusion)
  have hkept : ∀ job', .wrote job' ∈ s.log → job'.status.terminal = true →
      job.status = job'.status := by
    intro job' hmem hter
    have heq := hs.settled job' hmem hter
    rw [hstatus, hterminal (heq ▸ hter), heq]
  have hle := length_authorizations_le s.log (.wrote job)
  refine ⟨Log.mem_snoc.mpr (.inr rfl), ?_, ?_, ?_, Log.each_snoc.mpr ⟨hs.entries, hkept⟩,
    hs.stage_write hp hstatus hterminal hbusy⟩
  · intro job' hmem
    rcases Log.mem_snoc.mp hmem with hold | hnew
    · exact (hs.same job' hold).trans ⟨hsame.1.symm, hsame.2.symm⟩
    · cases hnew
      exact ⟨rfl, rfl⟩
  · intro job' hmem hter
    rcases Log.mem_snoc.mp hmem with hold | hnew
    · exact hkept job' hold hter
    · cases hnew
      rfl
  · intro q hq
    rcases mem_replaceAt hq with hq | hq
    · exact (hu.next q hq).later hsame hle
    · exact (hs.fits q hq).later hsame hle

/-! ### The plan is handed over -/

theorem Inv.hand (hs : Inv h s) {e : Held P D} (hp : s.phases[i]? = some (.handing e))
    (haccepts : h.accepts e = true) : Inv h (s.hand h i e) := by
  have hfits : e.Fits s.job (authorizations s.log).length := hs.fits _ (mem_of_getElem? hp)
  obtain ⟨hbusy, hone, hhands, -⟩ := hs.executing hp rfl
  obtain ⟨hst, hhanded⟩ := hhands rfl
  obtain ⟨k, job, hk, hjob, hsame⟩ := hs.authorization hfits
  have hcheck := haccepts
  simp only [Host.accepts, decide_eq_true_eq] at hcheck
  obtain ⟨hne, -, hhash⟩ := hcheck
  have hauths : ∀ es, (∀ e' ∈ es, Entry.authorization? e' = none) →
      authorizations (s.log ++ es) = authorizations s.log := by
    intro es hes
    rw [authorizations, filterMap_append, filterMap_eq_nil_iff.mpr hes, append_nil]
    rfl
  have hstate : s.hand h i e = { s.goes i [.running e] with
      log := s.log ++ [.handed e.authorization e.plan] ++ [.began e.authorization e.plan] } := by
    rw [State.hand, if_neg hne, if_pos haccepts]
  have hwrote : ∀ job', .wrote job' ∈ s.log ++ [.handed e.authorization e.plan] ++
      [.began e.authorization e.plan] → .wrote job' ∈ s.log := by
    intro job' hmem
    rw [append_assoc, mem_append] at hmem
    refine hmem.resolve_right fun hnew => ?_
    rcases mem_cons.mp hnew with hnew | hnew
    · cases hnew
    · cases mem_singleton.mp hnew
  have hall : authorizations (s.log ++ [.handed e.authorization e.plan] ++
      [.began e.authorization e.plan]) = authorizations s.log := by
    rw [append_assoc]
    refine hauths _ fun e' he' => ?_
    rcases mem_cons.mp he' with rfl | he'
    · rfl
    · obtain rfl := mem_singleton.mp he'
      rfl
  rw [hstate]
  refine ⟨?_, fun job' hmem => hs.same job' (hwrote job' hmem),
    fun job' hmem => hs.settled job' (hwrote job' hmem), ?_, ?_, ?_⟩
  · exact mem_append_left _ (mem_append_left _ hs.current)
  · intro q hq
    show q.Fits s.job (authorizations (s.log ++ [.handed e.authorization e.plan] ++
      [.began e.authorization e.plan])).length
    rw [hall]
    rcases mem_replaceAt hq with hq | hq
    · rw [mem_singleton.mp hq]
      exact hfits
    · exact hs.fits q hq
  · refine Log.each_snoc.mpr ⟨Log.each_snoc.mpr ⟨hs.entries, ?_, ?_, ?_⟩, ?_⟩
    · rw [hhanded]
      exact not_mem_nil
    · exact ⟨k, job, hk, hjob, hsame.1.trans hfits.plan⟩
    · intro job' hmem hcancelled
      have hsettled := hs.settled job' hmem (by rw [hcancelled]; rfl)
      rw [hcancelled, hst] at hsettled
      cases hsettled
    · refine ⟨k, job, hk, ?_, ?_⟩
      · rw [hauths [.handed e.authorization e.plan] fun e' he' => by
          obtain rfl := mem_singleton.mp he'; rfl]
        exact hjob
      · rw [hhash, hsame.2, hfits.same.2]
  · refine .under (.running e) hbusy rfl ?_ fun hrec => by cases hrec
    show (replaceAt s.phases i [.running e]).filter Phase.executing = [.running e]
    rw [(filter_replaceAt_of_singleton hp rfl hone).2]
    rfl

/-! ### Runs -/

theorem Inv.goes_nil (hs : Inv h s) (hp : s.phases[i]? = some p) (hquiet : p.executing = false) :
    Inv h (s.goes i []) := hs.quiet hp hquiet fun q hq => by cases hq

theorem inv_move (hs : Inv h s) (hp : s.phases[i]? = some p)
    (hsound : p.sound h s.job.status = true) (hmove : s.move h i now p = some s') : Inv h s' := by
  have hfits := hs.fits p (mem_of_getElem? hp)
  cases p with
  | cancelling =>
    cases hmove
    refine hs.quiet hp rfl fun q hq => ?_
    split at hq
    · cases hq
    · obtain rfl := mem_singleton.mp hq
      exact ⟨rfl, trivial⟩
  | authorizing =>
    cases hmove
    refine hs.quiet hp rfl fun q hq => ?_
    split at hq
    · obtain rfl := mem_singleton.mp hq
      exact ⟨rfl, trivial⟩
    · cases hq
  | starting =>
    cases hmove
    refine hs.quiet hp rfl fun q hq => ?_
    split at hq
    · next hauth =>
      obtain ⟨plan, hplan, rfl⟩ := mem_map.mp hq
      have hsome : s.job.plan = some plan :=
        (Option.filter_eq_some_iff.mp (Option.mem_toList.mp hplan)).1
      exact ⟨rfl, ⟨rfl, rfl⟩, hsome, hs.authorized_pos hauth, Nat.le_refl _⟩
    · cases hq
  | handing e =>
    cases hmove
    exact hs.hand hp hsound
  | recording e x v r =>
    cases hmove
    exact hs.onward (q := .reading (.finish (h.final x v) v h.receiptPath)) hp rfl rfl rfl
      (final_ends x v) (fun _ => rfl) fun _ => .inr rfl
  | reading u =>
    cases hmove
    have hnew : (Phase.writing u (u.apply now s.job)).Fits s.job
        (authorizations s.log).length := ⟨hfits, status_apply u s.job, same_apply u s.job⟩
    cases hown : u.own with
    | true =>
      -- it is the same update, with or without the receipt
      refine hs.onward (q := .writing u (u.apply now s.job)) (r := s.receipt) hp hown hown
        rfl hnew (fun hreceipt => hreceipt) fun hrec => .inl ?_
      cases u with
      | finish final v path => rfl
      | _ => cases hrec
    | false =>
      refine hs.quiet hp hown fun q hq => ?_
      obtain rfl := mem_singleton.mp hq
      exact ⟨hown, hnew⟩
  | writing u job =>
    cases hmove
    exact hs.write hp hsound
  | _ => cases hmove

theorem inv_answer (hs : Inv h s) (hp : s.phases[i]? = some p)
    (hsound : (∃ j, l = .raise j) → p.executing = false) (hanswer : State.answer h l p = some ps) :
    Inv h (s.goes i ps) := by
  have hfits := hs.fits p (mem_of_getElem? hp)
  cases l with
  | call c => cases hanswer
  | move j now => cases hanswer
  | raise j =>
    obtain rfl : [] = ps := by
      cases p <;> exact Option.some.inj hanswer
    exact hs.goes_nil hp (hsound ⟨j, rfl⟩)
  | returned j now rc =>
    cases p with
    | authenticating =>
      cases hanswer
      refine hs.quiet hp rfl fun q hq => ?_
      obtain rfl := mem_singleton.mp hq
      split
      · exact ⟨rfl, trivial⟩
      · exact ⟨rfl, trivial⟩
    | launched =>
      cases hanswer
      exact hs.goes_nil hp rfl
    | _ => cases hanswer
  | executed j x =>
    cases p with
    | running e =>
      cases hanswer
      cases x.ok with
      | true => exact hs.answered (q := .reading (.verify e x)) hp rfl rfl rfl rfl hfits
      | false => exact hs.answered (q := .recovering e x h.nothing) hp rfl rfl rfl rfl hfits
    | _ => cases hanswer
  | verified j v =>
    cases p with
    | verifying e x =>
      cases hanswer
      cases h.verified v with
      | true => exact hs.answered (q := .recording e x v none) hp rfl rfl rfl rfl hfits
      | false => exact hs.answered (q := .recovering e x v) hp rfl rfl rfl rfl hfits
    | _ => cases hanswer
  | recovered j r =>
    cases p with
    | recovering e x v =>
      cases hanswer
      exact hs.answered (q := .recording e x v (some r)) hp rfl rfl rfl rfl hfits
    | _ => cases hanswer

theorem inv_step (hs : Inv h s) (hsound : Sound h s l = true)
    (hstep : (jobs h).step s l = some s') : Inv h s' := by
  have hanswered : ∀ {j : Nat}, ((s.phases[j]?.bind (State.answer h l)).map (s.goes j)) = some s' →
      ((∃ k, l = .raise k) → (s.phases[j]?.all fun p => !p.executing) = true) → Inv h s' := by
    intro j heq hraise
    obtain ⟨ps, hbind, rfl⟩ := Option.map_eq_some_iff.mp heq
    obtain ⟨p, hp, hanswer⟩ := Option.bind_eq_some_iff.mp hbind
    refine inv_answer hs hp (fun hl => ?_) hanswer
    have hall := hraise hl
    rw [hp] at hall
    simpa using hall
  cases l with
  | call c =>
    cases hstep
    have hnew : Phase.executing (c.phase : Phase P D) = false := by cases c <;> rfl
    have hfilter : (s.phases ++ [c.phase]).filter Phase.executing =
        s.phases.filter Phase.executing := by
      rw [filter_append, filter_cons_of_neg (by rw [hnew]; exact Bool.noConfusion),
        filter_nil, append_nil]
    refine ⟨hs.current, hs.same, hs.settled, ?_, hs.entries, ?_⟩
    · intro q hq
      rcases mem_append.mp hq with hq | hq
      · exact hs.fits q hq
      · obtain rfl := mem_singleton.mp hq
        cases c <;> trivial
    · exact hs.stage.congr hfilter
  | move j now =>
    obtain ⟨p, hp, hmove⟩ := Option.bind_eq_some_iff.mp hstep
    refine inv_move hs hp ?_ hmove
    rw [Sound, hp] at hsound
    exact hsound
  | raise j => exact hanswered hstep fun _ => hsound
  | returned j now rc => exact hanswered hstep fun ⟨k, hk⟩ => by cases hk
  | executed j x => exact hanswered hstep fun ⟨k, hk⟩ => by cases hk
  | verified j v => exact hanswered hstep fun ⟨k, hk⟩ => by cases hk
  | recovered j r => exact hanswered hstep fun ⟨k, hk⟩ => by cases hk

theorem inv_created (hs : Created s) : Inv h s := by
  have hwrote : ∀ job, .wrote job ∈ s.log → job = s.job := by
    intro job hmem
    rw [hs.log] at hmem
    cases mem_singleton.mp hmem
    rfl
  have hawaits : ∀ st, st.awaits = false → s.job.status ≠ st := by
    intro st hst heq
    have htrue := hs.status
    rw [heq, hst] at htrue
    cases htrue
  refine ⟨?_, ?_, ?_, ?_, ?_, .before ?_ ?_ ?_ ?_⟩
  · rw [hs.log]
    exact mem_singleton_self _
  · intro job hmem
    rw [hwrote job hmem]
    exact ⟨rfl, rfl⟩
  · intro job hmem _
    rw [hwrote job hmem]
  · intro p hp
    rw [hs.phases] at hp
    cases hp
  · rw [hs.log]
    show Log.Each (EntryLaw h) ([] ++ [.wrote s.job])
    exact Log.each_snoc.mpr ⟨Log.each_nil, fun job' hmem => by cases hmem⟩
  · cases hb : s.job.status <;> first | rfl | exact absurd hb (hawaits _ rfl)
  · intro job hmem
    rw [hwrote job hmem]
    exact hawaits _ rfl
  · rw [hs.phases, filter_nil]
  · rw [hs.log]
    rfl

theorem Inv.laws (hs : Inv h s) : JobLaws h s := by
  have hat : ∀ {p : Phase P D}, s.phases.filter Phase.executing = [p] →
      ∃ p ∈ s.phases, p.executing = true := by
    intro p hone
    have hmem : p ∈ s.phases.filter Phase.executing := by
      rw [hone]
      exact mem_singleton_self p
    exact ⟨p, mem_filter.mp hmem⟩
  refine ⟨hs.entries, ?_⟩
  rintro ⟨job, hmem, hexec⟩
  cases hs.stage with
  | before _ hnot _ _ => exact absurd hexec (hnot job hmem)
  | ready p _ _ hone _ => exact .inl (hat hone)
  | under p _ _ hone _ => exact .inl (hat hone)
  | done hst _ hreceipt => exact .inr ⟨hst, hreceipt⟩

/-- **The laws hold in every state of every run of sound steps.** -/
theorem job_laws (h : Host P D) {s : State P D}
    (hs : (jobs h).ReachableUnder (fun s l => Sound h s l = true) s) : JobLaws h s := by
  have hinv : Inv h s := by
    refine hs.invariant (P := Inv h) (fun s hinit => inv_created hinit) ?_
    intro s l s' hs hsound hstep
    exact inv_step hs hsound hstep
  exact hinv.laws

/-- A job that is authorized and carried out; its second process is the execution. -/
def sampleHost : Host String Bool :=
  ⟨fun p => p = "", fun p => p, fun _ => true, false, fun v => v, "job.receipt.json"⟩

def sampleJob : Job String Bool where
  skill := "ros2"
  capability := none
  status := .authenticationRequired
  planHash := "install"
  plan := some "install"
  createdAt := 0
  updatedAt := 0

def sampleState : State String Bool := ⟨sampleJob, none, [], [.wrote sampleJob]⟩

theorem created_sampleState : Created sampleState := ⟨rfl, rfl, rfl, rfl⟩

def authorizing : List (Label Bool) :=
  [.call .authorizeJob, .move 0 1, .returned 0 2 0, .move 0 2, .move 0 2]

def sampleRun : List (Label Bool) :=
  authorizing ++
    [.call .executeAuthorizedJob, .move 1 3, .move 1 3, .move 1 3, .move 1 3,
      .executed 1 ⟨true, true⟩, .move 1 4, .move 1 4, .verified 1 true, .move 1 5, .move 1 5,
      .move 1 5, .returned 0 6 0]

theorem job_laws_succeeded :
    ∃ s, s.job.status = .succeeded ∧ s.receipt.isSome = true ∧ JobLaws sampleHost s := by
  obtain ⟨s, hrun, hstatus, hreceipt⟩ : ∃ s,
      (jobs sampleHost).runUnder (fun s l => Sound sampleHost s l = true) sampleState sampleRun =
        some s ∧ s.job.status = .succeeded ∧ s.receipt.isSome = true :=
    ⟨_, rfl, rfl, rfl⟩
  exact ⟨s, hstatus, hreceipt, job_laws sampleHost (.of_runUnder created_sampleState hrun)⟩

/-- The job is cancelled between the `get` of the execution and its `update`. -/
def overtaken : List (Label Bool) :=
  authorizing ++
    [.call .executeAuthorizedJob, .move 1 3, .call .cancel, .move 2 4, .move 2 4, .move 2 4,
      .move 1 5, .move 1 5, .move 1 5]

/-- **The plan of a cancelled job is handed over.** -/
theorem handed_after_cancel :
    ∃ s, (jobs sampleHost).Reachable s ∧ ¬ JobLaws sampleHost s := by
  let authorized : Job String Bool := (Update.authorize 2).apply 2 sampleJob
  let cancelled : Job String Bool := Update.cancel.apply 4 authorized
  let executing : Job String Bool :=
    (Update.execute ⟨authorized, "install", 1⟩).apply 5 cancelled
  obtain ⟨s, hrun, hlog⟩ : ∃ s, (jobs sampleHost).run sampleState overtaken = some s ∧
      s.log = [.wrote sampleJob, .wrote authorized, .wrote cancelled, .wrote executing] ++
        .handed 1 "install" :: [.began 1 "install"] := ⟨_, rfl, rfl⟩
  refine ⟨s, .of_run created_sampleState hrun, fun hlaws => ?_⟩
  exact (hlaws.entries _ _ _ hlog).2.2 cancelled (by simp) rfl

end Rosclaw.SkillJobs
