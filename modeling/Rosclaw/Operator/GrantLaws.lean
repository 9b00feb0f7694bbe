/-
What a grant permits, over every interleaving of the broker's calls.

The broker reads a row, checks it, and writes afterwards without looking again; the
signature covers the hash that stands in the grant and not its content; the expiry is
compared as a text; and nothing counts the actions of a grant that is not for one exact
action.  Each of these can be exploited, and a run is sound when none of it happens:

* `Sound` — a decision is written while the card is still pending, the grant of an exact
  action is spent while its row is unspent and unrevoked and before it expires, `verify`
  is asked for another grant before it expires and no more often than it may be accepted, and
  an edit of the public columns neither clears a flag nor puts a new content under the old hash;
* `GrantLaws` — a card leaves PENDING once, a grant is for an approved card, it is accepted
  as often as it may be, and each time for what was signed, unrevoked and in time;
* `Inv` — the invariant: what the rows and the calls in flight owe to the log;
* `grant_laws` — the laws in every state that sound steps reach;
* `spent_twice` — two calls of `verify` overlap, and both succeed.
-/
import Rosclaw.Lib.Log
import Rosclaw.Operator.GrantRuns

namespace Rosclaw.GrantRuns

open Approvals Approvals.Broker List Option

open Log (mem_snoc snoc_eq_append)

def Entry.isClosed (requestId : PyStr) : Entry → Bool
  | .closed id _ => id = requestId
  | _ => false

def Entry.isVerified (grantId : PyStr) : Entry → Bool
  | .verified v _ _ => v.grantId = grantId
  | _ => false

def Entry.isAsked (grantId : PyStr) : Entry → Bool
  | .asked id => id = grantId
  | _ => false

def uses (log : List Entry) (grantId : PyStr) : Nat := log.countP (Entry.isVerified grantId)

/-- The calls of `verify` that have named the grant, with whatever outcome. -/
def asks (log : List Entry) (grantId : PyStr) : Nat := log.countP (Entry.isAsked grantId)

/-- The call is for what was signed. -/
structure Matches (v : VerifyCall) (grant : MissionGrant) : Prop where
  grantId : grant.grantId = v.grantId
  principal : grant.principal = v.principal
  bodyHash : grant.effectiveBodyHash = v.bodyHash
  mode : grant.mode = v.mode
  risk : v.riskTier.order ≤ grant.riskCeiling.order
  intent : grant.tier = .exactAction → ∀ bound, grant.exactActionIntent = some bound →
    v.actionIntent = some bound

/-- After these entries, the grant permits the call: it was minted as it is for an approved
card, it is not revoked and has not expired. -/
def Authorised (log : List Entry) (v : VerifyCall) (grant : MissionGrant) (time : DateTime) : Prop :=
  (∃ r, .minted r grant ∈ log ∧ .closed r .approved ∈ log ∧
      ∀ status, .closed r status ∈ log → status = .approved) ∧
    .revoked v.grantId ∉ log ∧ time.past grant.expiresAt = false ∧ Matches v grant

/-- What is promised of cards and grants. -/
structure GrantLaws (s : State) : Prop where
  /-- a card leaves PENDING once -/
  once : ∀ r, s.log.countP (Entry.isClosed r) ≤ 1
  /-- its status is what was written then -/
  status : ∀ r status, .closed r status ∈ s.log →
    ∃ card, s.broker.requests.get? r = some card ∧ card.status = status
  /-- a grant is for a card that was approved -/
  approved : ∀ g row, s.broker.grants.get? g = some row → .closed row.requestId .approved ∈ s.log
  /-- a grant is accepted as often as it may be -/
  budget : ∀ r m, .minted r m ∈ s.log → uses s.log m.grantId ≤ m.maxActions
  /-- the grant of an exact action may be used once -/
  exact : ∀ r m, .minted r m ∈ s.log → m.tier = .exactAction → m.maxActions = 1
  /-- and each time for what was signed -/
  authorised : ∀ pre post v grant time, s.log = pre ++ .verified v grant time :: post →
    Authorised pre v grant time

section Laws

variable (H : Host)

/-- The condition on the next statement of a call. -/
def Flight.Sound (s : State) : Flight → Prop
  | .expire r | .decide r _ _ _ _ | .cancel r _ => ∀ card, s.broker.requests.get? r = some card →
      card.status = .pending
  | .mint _ _ => True
  | .consume v grant => s.clock.past grant.expiresAt = false ∧
      ∀ row, s.broker.grants.get? v.grantId = some row → row.consumed = false ∧ row.revoked = false

/-- The row lets the call pass, its flags and its expiry apart. -/
structure Asked (v : VerifyCall) (row : GrantRow) : Prop where
  signature : row.privateSignature = H.sign row.grant.publicHash
  unrevoked : row.revoked = false
  grant : Matches v row.grant

/-- What a call of `verify` has to meet: the grant of an exact action is spent; another is asked
for before it expires, and fewer calls than it has actions have named it. -/
structure VerifyCall.Sound (s : State) (v : VerifyCall) (row : GrantRow) : Prop where
  spends : row.grant.tier = .exactAction → row.consumed = false → v.consume = true
  expiry : row.grant.tier ≠ .exactAction → s.clock.past row.grant.expiresAt = true →
    row.expiresAt.lt s.now = true
  budget : row.grant.tier ≠ .exactAction → asks s.log v.grantId < row.grant.maxActions

/-- What an edit of the public columns has to meet: no flag is cleared, the grant stays with
its card, and its content is the one that was signed, unless the hash in it is not. -/
structure Harmless (s : State) (g : PyStr) (row : GrantRow) (e : PublicColumns) : Prop where
  requestId : e.requestId = row.requestId
  consumed : row.consumed = true → e.consumed = true
  revoked : row.revoked = true → e.revoked = true
  content : H.sign e.grant.publicHash = row.privateSignature →
    ∀ m, .minted row.requestId m ∈ s.log → m.grantId = g → e.grant = m

/-- The condition on a step, in the state before it. -/
def Sound (s : State) : Label → Prop
  | .resume call _ => ∀ f, s.flights.get? call = some f → f.Sound s
  | .verify _ v => ∀ row, s.broker.grants.get? v.grantId = some row → Asked H v row → v.Sound s row
  | .edit g e => ∀ row, s.broker.grants.get? g = some row → Harmless H s g row e
  | _ => True

/-! ### The invariant -/

/-- What a call has read and written is in the log. -/
def Flight.Ok (requests : Dict PyStr RequestRow) (log : List Entry) : Flight → Prop
  | .decide r request _ _ _ => request.requestId = r ∧ ∃ card, requests.get? r = some card
  | .mint request _ => .closed request.requestId .approved ∈ log
  | .consume v grant => (∃ r, .minted r grant ∈ log) ∧ Matches v grant ∧ grant.tier = .exactAction
  | _ => True

/-- What a grant row owes to the grant that was minted. -/
structure Stored (log : List Entry) (r : PyStr) (m : MissionGrant) (row : GrantRow) : Prop where
  requestId : row.requestId = r
  signature : row.privateSignature = H.sign m.publicHash
  content : H.sign row.grant.publicHash = row.privateSignature → row.grant = m
  revoked : .revoked m.grantId ∈ log → row.revoked = true
  consumed : m.tier = .exactAction → row.consumed = false → uses log m.grantId = 0

/-- The cards, the rows of the grants and the calls in flight agree with the log. -/
structure Inv (requests : Dict PyStr RequestRow) (grants : Dict PyStr GrantRow)
    (flights : Dict Nat Flight) (log : List Entry) : Prop where
  keyed : ∀ r card, requests.get? r = some card → card.request.requestId = r
  pending : ∀ r card, requests.get? r = some card → card.status = .pending →
    ∀ status, .closed r status ∉ log
  known : ∀ r status, .closed r status ∈ log →
    ∃ card, requests.get? r = some card ∧ card.status = status
  once : ∀ r, log.countP (Entry.isClosed r) ≤ 1
  flying : ∀ call f, flights.get? call = some f → f.Ok requests log
  minted : ∀ r m, .minted r m ∈ log → .closed r .approved ∈ log ∧
    (m.tier = .exactAction → m.maxActions = 1) ∧
      ∃ row, grants.get? m.grantId = some row ∧ Stored H log r m row
  unique : ∀ r m r' m', .minted r m ∈ log → .minted r' m' ∈ log → m.grantId = m'.grantId → m = m'
  origin : ∀ g row, grants.get? g = some row → ∃ m, .minted row.requestId m ∈ log ∧ m.grantId = g
  revoked : ∀ g, .revoked g ∈ log → ∃ row, grants.get? g = some row
  budget : ∀ r m, .minted r m ∈ log → uses log m.grantId ≤ m.maxActions
  asked : ∀ r m, .minted r m ∈ log → m.tier ≠ .exactAction → uses log m.grantId ≤ asks log m.grantId
  authorised : ∀ pre post v grant time, log = pre ++ .verified v grant time :: post →
    Authorised pre v grant time

variable {H} {requests : Dict PyStr RequestRow} {grants : Dict PyStr GrantRow}
  {flights : Dict Nat Flight} {log : List Entry}

theorem uses_snoc (g : PyStr) (e : Entry) :
    uses (log ++ [e]) g = uses log g + if e.isVerified g then 1 else 0 := by
  rw [uses, countP_append]
  by_cases he : e.isVerified g = true <;> simp [uses, he]

theorem asks_snoc (g : PyStr) (e : Entry) :
    asks (log ++ [e]) g = asks log g + if e.isAsked g then 1 else 0 := by
  rw [asks, countP_append]
  by_cases he : e.isAsked g = true <;> simp [asks, he]

theorem closes_snoc (r : PyStr) (e : Entry) : (log ++ [e]).countP (Entry.isClosed r) =
      log.countP (Entry.isClosed r) + if e.isClosed r then 1 else 0 := by
  rw [countP_append]
  by_cases he : e.isClosed r = true <;> simp [he]

theorem uses_of_new (h : Inv H requests grants flights log) {g : PyStr}
    (hnew : grants.get? g = none) : uses log g = 0 := by
  rw [uses, countP_eq_zero]
  intro e hmem hverified
  obtain ⟨pre, post, rfl⟩ := append_of_mem hmem
  cases e with
  | verified v grant time =>
    obtain ⟨⟨r, hminted, -, -⟩, -, -, hmatches⟩ := h.authorised pre post v grant time rfl
    obtain ⟨-, -, row, hrow, -⟩ := h.minted r grant (mem_append_left _ hminted)
    rw [hmatches.grantId, of_decide_eq_true hverified, hnew] at hrow
    cases hrow
  | closed _ _ => cases hverified
  | minted _ _ => cases hverified
  | revoked _ => cases hverified
  | asked _ => cases hverified

theorem Flight.Ok.mono {requests' : Dict PyStr RequestRow} {log' : List Entry} {f : Flight}
    (h : f.Ok requests log) (hcards : ∀ r card, requests.get? r = some card →
      ∃ card', requests'.get? r = some card') (hlog : ∀ e, e ∈ log → e ∈ log') :
    f.Ok requests' log' := by
  cases f with
  | decide r request p a d =>
    obtain ⟨hkey, card, hcard⟩ := h
    exact ⟨hkey, hcards r card hcard⟩
  | mint request p => exact hlog _ h
  | consume v grant =>
    obtain ⟨⟨r, hminted⟩, hmatches, htier⟩ := h
    exact ⟨⟨r, hlog _ hminted⟩, hmatches, htier⟩
  | expire r => trivial
  | cancel r p => trivial

theorem Flight.Ok.snoc {f : Flight} (h : f.Ok requests log) (e : Entry) :
    f.Ok requests (log ++ [e]) :=
  h.mono (fun _ card hcard => ⟨card, hcard⟩) fun _ hmem => mem_snoc.mpr (.inl hmem)

variable {r : PyStr} {row : GrantRow}

theorem Stored.snoc {m : MissionGrant} {e : Entry}
    (h : Stored H log r m row) (hrevoked : e ≠ .revoked m.grantId)
    (hverified : e.isVerified m.grantId = false) : Stored H (log ++ [e]) r m row :=
  { h with
    revoked := fun hmem => by
      rcases mem_snoc.mp hmem with hmem | rfl
      · exact h.revoked hmem
      · exact absurd rfl hrevoked
    consumed := fun htier hfree => by
      rw [uses_snoc, hverified, h.consumed htier hfree]
      rfl }

variable {v : VerifyCall}

theorem authorised_snoc (h : Inv H requests grants flights log) {e : Entry}
    (he : ∀ v grant time, e ≠ .verified v grant time) {pre post : List Entry}
    {grant : MissionGrant} {time : DateTime}
    (heq : log ++ [e] = pre ++ .verified v grant time :: post) : Authorised pre v grant time := by
  rcases snoc_eq_append heq with ⟨-, hsame, -⟩ | ⟨post', hlog⟩
  · exact absurd hsame.symm (he v grant time)
  · exact h.authorised pre post' v grant time hlog

/-! ### What each statement does to the invariant -/

theorem Inv.fly (h : Inv H requests grants flights log) (call : Nat) {f : Flight}
    (hf : f.Ok requests log) : Inv H requests grants (flights.set call f) log :=
  { h with
    flying := by
      intro call' f' hget
      rw [Dict.get?_set] at hget
      split at hget
      · cases hget
        exact hf
      · exact h.flying call' f' hget }

theorem Inv.land (h : Inv H requests grants flights log) (call : Nat) :
    Inv H requests grants (flights.erase call) log :=
  { h with
    flying := by
      intro call' f hget
      rw [Dict.get?_erase] at hget
      split at hget
      · cases hget
      · exact h.flying call' f hget }

theorem Inv.create (h : Inv H requests grants flights log) {request : ApprovalRequest}
    (hnew : requests.get? request.requestId = none) :
    Inv H (requests.set request.requestId { request }) grants flights log :=
  { h with
    keyed := by
      intro r card hget
      rw [Dict.get?_set] at hget
      split at hget
      · next hr =>
        cases hget
        exact hr
      · exact h.keyed r card hget
    pending := by
      intro r card hget hpending status hclosed
      rw [Dict.get?_set] at hget
      split at hget
      · next hr =>
        subst hr
        obtain ⟨card', hget', -⟩ := h.known _ status hclosed
        rw [hnew] at hget'
        cases hget'
      · exact h.pending r card hget hpending status hclosed
    known := by
      intro r status hclosed
      obtain ⟨card, hget, hstatus⟩ := h.known r status hclosed
      refine ⟨card, ?_, hstatus⟩
      rw [Dict.get?_set_of_ne, hget]
      rintro rfl
      rw [hnew] at hget
      cases hget
    flying := by
      intro call f hget
      refine (h.flying call f hget).mono (fun r card hcard => ?_) fun _ hmem => hmem
      rw [Dict.get?_set]
      split
      · exact ⟨_, rfl⟩
      · exact ⟨card, hcard⟩ }

theorem Inv.close (h : Inv H requests grants flights log) {card : RequestRow}
    (hget : requests.get? r = some card) (hpending : card.status = .pending)
    {status : ApprovalStatus} (hstatus : status ≠ .pending) (decidedBy : Option PyStr) :
    Inv H (requests.set r { card with status, decidedBy }) grants flights
      (log ++ [.closed r status]) := by
  have hunclosed := h.pending r card hget hpending
  refine ⟨?_, ?_, ?_, ?_, ?_, ?_, ?_, ?_, ?_, ?_, ?_, ?_⟩
  · intro r' card' hget'
    rw [Dict.get?_set] at hget'
    split at hget'
    · next hr =>
      subst hr
      cases hget'
      exact h.keyed r card hget
    · exact h.keyed r' card' hget'
  · intro r' card' hget' hpending' status' hclosed
    rw [Dict.get?_set] at hget'
    split at hget'
    · cases hget'
      exact hstatus hpending'
    · next hr =>
      rcases mem_snoc.mp hclosed with hclosed | heq
      · exact h.pending r' card' hget' hpending' status' hclosed
      · rw [Entry.closed.injEq] at heq
        exact hr heq.1.symm
  · intro r' status' hclosed
    rcases mem_snoc.mp hclosed with hclosed | heq
    · obtain ⟨card', hget', hstatus'⟩ := h.known r' status' hclosed
      refine ⟨card', ?_, hstatus'⟩
      rw [Dict.get?_set_of_ne, hget']
      rintro rfl
      exact hunclosed status' hclosed
    · rw [Entry.closed.injEq] at heq
      obtain ⟨rfl, rfl⟩ := heq
      exact ⟨_, Dict.get?_set_self .., rfl⟩
  · intro r'
    rw [closes_snoc]
    by_cases hr : r = r'
    · subst hr
      have hnone : log.countP (Entry.isClosed r) = 0 := by
        rw [countP_eq_zero]
        intro e hmem hclosed
        cases e with
        | closed r' status' =>
          obtain rfl : r' = r := of_decide_eq_true hclosed
          exact hunclosed status' hmem
        | minted _ _ => cases hclosed
        | revoked _ => cases hclosed
        | asked _ => cases hclosed
        | verified _ _ _ => cases hclosed
      rw [hnone]
      split <;> omega
    · have hnot : (Entry.closed r status).isClosed r' = false := decide_eq_false hr
      rw [hnot]
      exact h.once r'
  · intro call f hf
    refine (h.flying call f hf).mono (fun r' card' hcard => ?_) fun _ hmem => mem_snoc.mpr (.inl hmem)
    rw [Dict.get?_set]
    split
    · exact ⟨_, rfl⟩
    · exact ⟨card', hcard⟩
  · intro r' m hmem
    rcases mem_snoc.mp hmem with hmem | heq
    · obtain ⟨happroved, hshape, row, hrow, hstored⟩ := h.minted r' m hmem
      exact ⟨mem_snoc.mpr (.inl happroved), hshape, row, hrow, hstored.snoc (by simp) rfl⟩
    · cases heq
  · intro r₁ m₁ r₂ m₂ hmem₁ hmem₂
    rcases mem_snoc.mp hmem₁ with hmem₁ | heq
    · rcases mem_snoc.mp hmem₂ with hmem₂ | heq
      · exact h.unique r₁ m₁ r₂ m₂ hmem₁ hmem₂
      · cases heq
    · cases heq
  · intro g row hrow
    obtain ⟨m, hmem, hid⟩ := h.origin g row hrow
    exact ⟨m, mem_snoc.mpr (.inl hmem), hid⟩
  · intro g hmem
    rcases mem_snoc.mp hmem with hmem | heq
    · exact h.revoked g hmem
    · cases heq
  · intro r' m hmem
    rcases mem_snoc.mp hmem with hmem | heq
    · rw [uses_snoc]
      exact h.budget r' m hmem
    · cases heq
  · intro r' m hmem htier
    rcases mem_snoc.mp hmem with hmem | heq
    · rw [uses_snoc, asks_snoc]
      exact h.asked r' m hmem htier
    · cases heq
  · intro pre post v grant time heq
    exact authorised_snoc h (by simp) heq

theorem Inv.mint (h : Inv H requests grants flights log) {m : MissionGrant}
    (happroved : .closed r .approved ∈ log) (hnew : grants.get? m.grantId = none)
    (hshape : m.tier = .exactAction → m.maxActions = 1) :
    Inv H requests
      (grants.set m.grantId { requestId := r, grant := m, privateSignature := H.sign m.publicHash
                              expiresAt := m.expiresAt })
      flights (log ++ [.minted r m]) := by
  have hold : ∀ r' m', .minted r' m' ∈ log → m.grantId ≠ m'.grantId := by
    intro r' m' hmem heq
    obtain ⟨-, -, row, hrow, -⟩ := h.minted r' m' hmem
    rw [← heq, hnew] at hrow
    cases hrow
  have hunused := uses_of_new h hnew
  refine ⟨h.keyed, ?_, ?_, ?_, ?_, ?_, ?_, ?_, ?_, ?_, ?_, ?_⟩
  · intro r' card hget hpending status hclosed
    rcases mem_snoc.mp hclosed with hclosed | heq
    · exact h.pending r' card hget hpending status hclosed
    · cases heq
  · intro r' status hclosed
    rcases mem_snoc.mp hclosed with hclosed | heq
    · exact h.known r' status hclosed
    · cases heq
  · intro r'
    rw [closes_snoc]
    exact h.once r'
  · intro call f hf
    exact (h.flying call f hf).snoc _
  · intro r' m' hmem
    rcases mem_snoc.mp hmem with hmem | heq
    · obtain ⟨happroved', hshape', row, hrow, hstored⟩ := h.minted r' m' hmem
      refine ⟨mem_snoc.mpr (.inl happroved'), hshape', row, ?_, hstored.snoc (by simp) rfl⟩
      rw [Dict.get?_set_of_ne _ _ (hold r' m' hmem), hrow]
    · rw [Entry.minted.injEq] at heq
      obtain ⟨rfl, rfl⟩ := heq
      refine ⟨mem_snoc.mpr (.inl happroved), hshape, _, Dict.get?_set_self .., rfl, rfl, fun _ => rfl,
        fun hrevoked => ?_, fun _ _ => ?_⟩
      · rcases mem_snoc.mp hrevoked with hrevoked | heq
        · obtain ⟨row, hrow⟩ := h.revoked _ hrevoked
          rw [hnew] at hrow
          cases hrow
        · cases heq
      · rw [uses_snoc, hunused]
        rfl
  · intro r₁ m₁ r₂ m₂ hmem₁ hmem₂ hid
    rcases mem_snoc.mp hmem₁ with hmem₁ | heq₁
    · rcases mem_snoc.mp hmem₂ with hmem₂ | heq₂
      · exact h.unique r₁ m₁ r₂ m₂ hmem₁ hmem₂ hid
      · rw [Entry.minted.injEq] at heq₂
        rw [heq₂.2] at hid
        exact absurd hid.symm (hold r₁ m₁ hmem₁)
    · rw [Entry.minted.injEq] at heq₁
      rcases mem_snoc.mp hmem₂ with hmem₂ | heq₂
      · rw [heq₁.2] at hid
        exact absurd hid (hold r₂ m₂ hmem₂)
      · rw [Entry.minted.injEq] at heq₂
        rw [heq₁.2, heq₂.2]
  · intro g row hrow
    rw [Dict.get?_set] at hrow
    split at hrow
    · next hg =>
      cases hrow
      exact ⟨m, mem_snoc.mpr (.inr rfl), hg⟩
    · obtain ⟨m', hmem, hid⟩ := h.origin g row hrow
      exact ⟨m', mem_snoc.mpr (.inl hmem), hid⟩
  · intro g hmem
    rcases mem_snoc.mp hmem with hmem | heq
    · obtain ⟨row, hrow⟩ := h.revoked g hmem
      rw [Dict.get?_set]
      split
      · exact ⟨_, rfl⟩
      · exact ⟨row, hrow⟩
    · cases heq
  · intro r' m' hmem
    rw [uses_snoc]
    rcases mem_snoc.mp hmem with hmem | heq
    · exact h.budget r' m' hmem
    · rw [Entry.minted.injEq] at heq
      rw [heq.2, hunused]
      exact Nat.zero_le _
  · intro r' m' hmem htier
    rw [uses_snoc, asks_snoc]
    rcases mem_snoc.mp hmem with hmem | heq
    · exact h.asked r' m' hmem htier
    · rw [Entry.minted.injEq] at heq
      rw [heq.2, hunused]
      exact Nat.zero_le _
  · intro pre post v grant time heq
    exact authorised_snoc h (by simp) heq

theorem Inv.stored (h : Inv H requests grants flights log) {g : PyStr}
    (hrow : grants.get? g = some row) :
    ∃ m, .minted row.requestId m ∈ log ∧ m.grantId = g ∧ Stored H log row.requestId m row := by
  obtain ⟨m, hmem, rfl⟩ := h.origin g row hrow
  obtain ⟨-, -, row', hrow', hstored⟩ := h.minted row.requestId m hmem
  obtain rfl := some_inj.mp (hrow.symm.trans hrow')
  exact ⟨m, hmem, rfl, hstored⟩

/-- A grant row is written again: the flags are not cleared, and a content with the hash that
was signed is the one that was minted. -/
theorem Inv.replace (h : Inv H requests grants flights log) {g : PyStr} {row row' : GrantRow}
    (hrow : grants.get? g = some row) (hrequest : row'.requestId = row.requestId)
    (hsignature : row'.privateSignature = row.privateSignature)
    (hcontent : H.sign row'.grant.publicHash = row.privateSignature →
      ∀ m, .minted row.requestId m ∈ log → m.grantId = g → row'.grant = m)
    (hconsumed : row.consumed = true → row'.consumed = true)
    (hrevoked : row.revoked = true → row'.revoked = true) :
    Inv H requests (grants.set g row') flights log :=
  { h with
    minted := by
      intro r m hmem
      obtain ⟨happroved, hshape, row₀, hrow₀, hstored⟩ := h.minted r m hmem
      refine ⟨happroved, hshape, ?_⟩
      rw [Dict.get?_set]
      split
      · next hg =>
        subst hg
        obtain rfl := some_inj.mp (hrow.symm.trans hrow₀)
        refine ⟨row', rfl, hrequest.trans hstored.requestId, hsignature.trans hstored.signature,
          fun hsigned => ?_, fun hmem' => hrevoked (hstored.revoked hmem'), fun htier hfree => ?_⟩
        · rw [hsignature] at hsigned
          rw [← hstored.requestId] at hmem
          exact hcontent hsigned m hmem rfl
        · refine hstored.consumed htier (Bool.eq_false_iff.mpr fun hspent => ?_)
          rw [hconsumed hspent] at hfree
          cases hfree
      · exact ⟨row₀, hrow₀, hstored⟩
    origin := by
      intro g' row₀ hrow₀
      rw [Dict.get?_set] at hrow₀
      split at hrow₀
      · next hg =>
        subst hg
        cases hrow₀
        rw [hrequest]
        exact h.origin g row hrow
      · exact h.origin g' row₀ hrow₀
    revoked := by
      intro g' hmem
      obtain ⟨row₀, hrow₀⟩ := h.revoked g' hmem
      rw [Dict.get?_set]
      split
      · exact ⟨_, rfl⟩
      · exact ⟨row₀, hrow₀⟩ }

theorem Inv.flag (h : Inv H requests grants flights log) {g : PyStr}
    (hrow : grants.get? g = some row) {consumed revoked : Bool}
    (hconsumed : row.consumed = true → consumed = true)
    (hrevoked : row.revoked = true → revoked = true) :
    Inv H requests (grants.set g { row with consumed, revoked }) flights log := by
  obtain ⟨m, hmem, hid, hstored⟩ := h.stored hrow
  refine h.replace hrow rfl rfl (fun hsigned m' hmem' hid' => ?_) hconsumed hrevoked
  obtain rfl := h.unique _ _ _ _ hmem hmem' (hid.trans hid'.symm)
  exact hstored.content hsigned

theorem Inv.note (h : Inv H requests grants flights log) {e : Entry}
    (hclosed : ∀ r status, e ≠ .closed r status) (hminted : ∀ r m, e ≠ .minted r m)
    (hstored : ∀ r m row, .minted r m ∈ log → grants.get? m.grantId = some row →
      Stored H log r m row → Stored H (log ++ [e]) r m row)
    (hrevoked : ∀ g, e = .revoked g → ∃ row, grants.get? g = some row)
    (hbudget : ∀ r m, .minted r m ∈ log → uses (log ++ [e]) m.grantId ≤ m.maxActions)
    (hasked : ∀ r m, .minted r m ∈ log → m.tier ≠ .exactAction →
      uses (log ++ [e]) m.grantId ≤ asks (log ++ [e]) m.grantId)
    (hauthorised : ∀ v grant time, e = .verified v grant time → Authorised log v grant time) :
    Inv H requests grants flights (log ++ [e]) := by
  have hold : ∀ r status, .closed r status ∈ log ++ [e] → .closed r status ∈ log := by
    intro r status hmem
    exact (mem_snoc.mp hmem).resolve_right fun heq => hclosed r status heq.symm
  have holdGrant : ∀ r m, .minted r m ∈ log ++ [e] → .minted r m ∈ log := by
    intro r m hmem
    exact (mem_snoc.mp hmem).resolve_right fun heq => hminted r m heq.symm
  refine ⟨h.keyed, ?_, ?_, ?_, ?_, ?_, ?_, ?_, ?_, ?_, ?_, ?_⟩
  · intro r card hget hpending status hmem
    exact h.pending r card hget hpending status (hold r status hmem)
  · intro r status hmem
    exact h.known r status (hold r status hmem)
  · intro r
    have hnot : e.isClosed r = false := by
      cases e with
      | closed r' status => exact absurd rfl (hclosed r' status)
      | minted _ _ => rfl
      | revoked _ => rfl
      | asked _ => rfl
      | verified _ _ _ => rfl
    rw [closes_snoc, hnot]
    exact h.once r
  · intro call f hf
    exact (h.flying call f hf).snoc e
  · intro r m hmem
    obtain ⟨happroved, hshape, row, hrow, hrest⟩ := h.minted r m (holdGrant r m hmem)
    exact ⟨mem_snoc.mpr (.inl happroved), hshape, row, hrow,
      hstored r m row (holdGrant r m hmem) hrow hrest⟩
  · intro r₁ m₁ r₂ m₂ hmem₁ hmem₂
    exact h.unique r₁ m₁ r₂ m₂ (holdGrant _ _ hmem₁) (holdGrant _ _ hmem₂)
  · intro g row hrow
    obtain ⟨m, hmem, hid⟩ := h.origin g row hrow
    exact ⟨m, mem_snoc.mpr (.inl hmem), hid⟩
  · intro g hmem
    rcases mem_snoc.mp hmem with hmem | heq
    · exact h.revoked g hmem
    · exact hrevoked g heq.symm
  · intro r m hmem
    exact hbudget r m (holdGrant r m hmem)
  · intro r m hmem
    exact hasked r m (holdGrant r m hmem)
  · intro pre post v grant time heq
    rcases snoc_eq_append heq with ⟨rfl, hsame, -⟩ | ⟨post', hlog⟩
    · exact hauthorised v grant time hsame.symm
    · exact h.authorised pre post' v grant time hlog

theorem Inv.revoke (h : Inv H requests grants flights log) {g : PyStr}
    (hrow : grants.get? g = some row) (hflag : row.revoked = true) :
    Inv H requests grants flights (log ++ [.revoked g]) := by
  refine h.note (by simp) (by simp) (fun r m row' hmem hrow' hstored => ?_) (fun g' heq => ?_)
    (fun r m hmem => ?_) (fun r m hmem htier => ?_) (by simp)
  · refine { hstored with
      revoked := fun hmem' => ?_
      consumed := fun htier hfree => ?_ }
    · rcases mem_snoc.mp hmem' with hmem' | heq
      · exact hstored.revoked hmem'
      · rw [Entry.revoked.injEq] at heq
        rw [heq, hrow] at hrow'
        cases hrow'
        exact hflag
    · rw [uses_snoc, hstored.consumed htier hfree]
      rfl
  · rw [Entry.revoked.injEq] at heq
    exact ⟨row, heq ▸ hrow⟩
  · rw [uses_snoc]
    exact h.budget r m hmem
  · rw [uses_snoc, asks_snoc]
    exact h.asked r m hmem htier

theorem Inv.ask (h : Inv H requests grants flights log) (g : PyStr) :
    Inv H requests grants flights (log ++ [.asked g]) := by
  refine h.note (by simp) (by simp) (fun r m row _ _ hstored => hstored.snoc (by simp) rfl) (by simp)
    (fun r m hmem => ?_) (fun r m hmem htier => ?_) (by simp)
  · rw [uses_snoc]
    exact h.budget r m hmem
  · rw [uses_snoc, asks_snoc]
    exact (h.asked r m hmem htier).trans (Nat.le_add_right _ _)

theorem Inv.verified (h : Inv H requests grants flights log)
    {m : MissionGrant} {time : DateTime} (hmem : .minted r m ∈ log) (hmatches : Matches v m)
    (hunrevoked : .revoked v.grantId ∉ log) (htime : time.past m.expiresAt = false)
    (hbudget : uses log m.grantId < m.maxActions)
    (hasked : m.tier ≠ .exactAction → uses log m.grantId < asks log m.grantId)
    (hspent : m.tier = .exactAction →
      ∀ row, grants.get? m.grantId = some row → row.consumed = true) :
    Inv H requests grants flights (log ++ [.verified v m time]) := by
  refine h.note (by simp) (by simp) (fun r' m' row hmem' hrow hstored => ?_) (by simp)
    (fun r' m' hmem' => ?_) (fun r' m' hmem' htier => ?_) (fun v' m' time' heq => ?_)
  · refine { hstored with
      revoked := fun hrevoked => ?_
      consumed := fun htier hfree => ?_ }
    · exact hstored.revoked ((mem_snoc.mp hrevoked).resolve_right (by simp))
    · rw [uses_snoc, hstored.consumed htier hfree]
      by_cases hid : v.grantId = m'.grantId
      · obtain rfl := h.unique _ _ _ _ hmem hmem' (hmatches.grantId.trans hid)
        rw [hspent htier row hrow] at hfree
        cases hfree
      · have hnot : (Entry.verified v m time).isVerified m'.grantId = false := decide_eq_false hid
        rw [hnot]
        rfl
  · rw [uses_snoc]
    by_cases hid : v.grantId = m'.grantId
    · obtain rfl := h.unique _ _ _ _ hmem hmem' (hmatches.grantId.trans hid)
      split <;> omega
    · have hnot : (Entry.verified v m time).isVerified m'.grantId = false := decide_eq_false hid
      rw [hnot]
      exact h.budget r' m' hmem'
  · rw [uses_snoc, asks_snoc]
    by_cases hid : v.grantId = m'.grantId
    · obtain rfl := h.unique _ _ _ _ hmem hmem' (hmatches.grantId.trans hid)
      have := hasked htier
      split <;> omega
    · have hnot : (Entry.verified v m time).isVerified m'.grantId = false := decide_eq_false hid
      rw [hnot]
      exact h.asked r' m' hmem' htier
  · rw [Entry.verified.injEq] at heq
    obtain ⟨rfl, rfl, rfl⟩ := heq
    refine ⟨⟨r, hmem, (h.minted r m hmem).1, fun status hclosed => ?_⟩, hunrevoked, htime, hmatches⟩
    obtain ⟨card, hget, hstatus⟩ := h.known r status hclosed
    obtain ⟨card', hget', hstatus'⟩ := h.known r .approved (h.minted r m hmem).1
    obtain rfl := some_inj.mp (hget.symm.trans hget')
    exact hstatus.symm.trans hstatus'

/-! ### What each step does to the invariant -/

/-- What `verify` has checked when it refuses nothing. -/
structure Accepted (H : Host) (v : VerifyCall) (row : GrantRow) (now : PyStr) : Prop where
  signature : row.privateSignature = H.sign row.grant.publicHash
  unrevoked : row.revoked = false
  expiry : row.expiresAt.lt now = false
  grant : row.grant.grantId = v.grantId → Matches v row.grant
  unspent : row.grant.tier = .exactAction → row.consumed = false

theorem accepted_of_refusal {now : PyStr}
    (h : refusal H row v.grantId v.principal v.bodyHash v.mode v.riskTier v.actionIntent now = none) :
    Accepted H v row now := by
  unfold refusal at h
  simp only at h
  split at h
  · cases h
  next hsigned =>
  split at h
  · cases h
  next hrevoked =>
  split at h
  · cases h
  next hexpiry =>
  split at h
  · cases h
  next hprincipal =>
  split at h
  · cases h
  next hbody =>
  split at h
  · cases h
  next hmode =>
  split at h
  · cases h
  next hrisk =>
  refine ⟨not_not.mp hsigned, Bool.eq_false_iff.mpr hrevoked, Bool.eq_false_iff.mpr hexpiry,
    fun hid => ⟨hid, not_not.mp hprincipal, not_not.mp hbody, not_not.mp hmode, not_lt.mp hrisk, ?_⟩,
    fun htier => ?_⟩
  · intro htier bound hbound
    rw [if_pos htier, hbound] at h
    split at h
    · cases h
    · cases hdeclared : v.actionIntent with
      | none =>
        rw [hdeclared] at h
        cases h
      | some intent =>
        rw [hdeclared] at h
        simp only at h
        split at h
        · cases h
        · next hsame => rw [not_not.mp hsame]
  · rw [if_pos htier] at h
    split at h
    · cases h
    · next hfree => exact Bool.eq_false_iff.mpr hfree

/-- What the rows and the calls in flight owe to the log. -/
def State.Inv (H : Host) (s : State) : Prop :=
  GrantRuns.Inv H s.broker.requests s.broker.grants s.flights s.log

variable {s s' : State} {call : Nat}

/-- A grant that `verify` does not refuse is the one that was minted. -/
theorem genuine (h : s.Inv H) {now : PyStr}
    (hrow : s.broker.grants.get? v.grantId = some row) (haccepted : Accepted H v row now) :
    .minted row.requestId row.grant ∈ s.log ∧ Matches v row.grant ∧ .revoked v.grantId ∉ s.log := by
  obtain ⟨m, hmem, hid, hstored⟩ := h.stored hrow
  have hgrant : row.grant = m := hstored.content haccepted.signature.symm
  refine ⟨hgrant ▸ hmem, haccepted.grant (hgrant ▸ hid), fun hrevoked => ?_⟩
  have hflag := hstored.revoked (hid ▸ hrevoked)
  rw [haccepted.unrevoked] at hflag
  cases hflag

theorem inv_verify (h : s.Inv H) (v : VerifyCall) (hsound : Sound H s (.verify call v)) :
    ((s.record (.asked v.grantId)).beginVerify H call v).Inv H := by
  have hasked : (s.record (.asked v.grantId)).Inv H := Inv.ask h v.grantId
  unfold State.beginVerify
  split
  · exact hasked
  · next row hrow =>
    split
    · exact hasked
    · next hrefusal =>
      have haccepted := accepted_of_refusal hrefusal
      obtain ⟨hmem, hmatches, hunrevoked⟩ := genuine hasked hrow haccepted
      have hcall := hsound row hrow ⟨haccepted.signature, haccepted.unrevoked, hmatches⟩
      split
      · next hexact => exact hasked.fly call ⟨⟨_, hmem⟩, hmatches, hexact.2⟩
      · next hplain =>
        have htier : row.grant.tier ≠ .exactAction := fun htier =>
          hplain ⟨hcall.spends htier (haccepted.unspent htier), htier⟩
        have htime : s.clock.past row.grant.expiresAt = false := by
          refine Bool.eq_false_iff.mpr fun hpast => ?_
          have hlate := hcall.expiry htier hpast
          rw [show row.expiresAt.lt s.now = false from haccepted.expiry] at hlate
          cases hlate
        -- no call is accepted that was not counted
        have hminted : .minted row.requestId row.grant ∈ s.log :=
          (mem_snoc.mp hmem).resolve_right (by simp)
        have huses := h.asked _ _ hminted htier
        have hbudget := hcall.budget htier
        rw [← hmatches.grantId] at hbudget
        have huses' : uses (s.log ++ [.asked v.grantId]) row.grant.grantId =
            uses s.log row.grant.grantId := uses_snoc _ _
        have hasks' : asks (s.log ++ [.asked v.grantId]) row.grant.grantId =
            asks s.log row.grant.grantId + 1 := by
          rw [asks_snoc, hmatches.grantId]
          simp [Entry.isAsked]
        refine GrantRuns.Inv.verified hasked hmem hmatches hunrevoked htime ?_ (fun _ => ?_)
          fun hexact => absurd hexact htier
        · show uses (s.log ++ [.asked v.grantId]) row.grant.grantId < _
          omega
        · show uses (s.log ++ [.asked v.grantId]) row.grant.grantId <
            asks (s.log ++ [.asked v.grantId]) row.grant.grantId
          omega

theorem inv_close (h : s.Inv H) (hpending : ∀ card, s.broker.requests.get? r = some card →
    card.status = .pending) {status : ApprovalStatus} (hstatus : status ≠ .pending)
    (decidedBy : Option PyStr) : (s.close r status decidedBy).Inv H := by
  unfold State.close
  split
  · exact h
  · next card hcard => exact GrantRuns.Inv.close h hcard (hpending card hcard) hstatus _

theorem closed_close {card : RequestRow} (hcard : s.broker.requests.get? r = some card)
    (status : ApprovalStatus) (decidedBy : Option PyStr) :
    .closed r status ∈ (s.close r status decidedBy).log := by
  rw [State.close, hcard]
  exact mem_snoc.mpr (.inr rfl)

theorem inv_insertGrant (h : s.Inv H) {request : ApprovalRequest} {principal grantId : PyStr}
    (happroved : .closed request.requestId .approved ∈ s.log) :
    (s.insertGrant H request principal grantId).Inv H := by
  unfold State.insertGrant
  split
  · exact h
  · next hnew =>
    refine GrantRuns.Inv.mint h happroved (not_isSome_iff_eq_none.mp hnew) fun htier => ?_
    show (if request.requestedTier = .exactAction then 1 else 10) = 1
    exact if_pos htier

/-- The second statement of `verify` spends the grant and returns it. -/
theorem inv_consume (h : s.Inv H) {grant : MissionGrant}
    (hfly : (Flight.consume v grant).Ok s.broker.requests s.log)
    (hsound : (Flight.consume v grant).Sound s) :
    ((s.spend v.grantId).record (.verified v grant s.clock)).Inv H := by
  obtain ⟨⟨r, hmem⟩, hmatches, htier⟩ := hfly
  obtain ⟨htime, hfresh⟩ := hsound
  obtain ⟨-, hshape, row, hrow, hstored⟩ := h.minted r grant hmem
  rw [hmatches.grantId] at hrow
  obtain ⟨hfree, hunrevoked⟩ := hfresh row hrow
  have hunused : uses s.log grant.grantId = 0 := hstored.consumed htier hfree
  have hspent : GrantRuns.Inv H s.broker.requests
      (s.broker.grants.set v.grantId { row with consumed := true }) s.flights s.log :=
    h.flag hrow (fun _ => rfl) fun h => h
  rw [State.spend, hrow]
  refine GrantRuns.Inv.verified hspent hmem hmatches (fun hrevoked => ?_) htime ?_
    (fun hother => absurd htier hother) fun _ row' hrow' => ?_
  · rw [← hmatches.grantId] at hrevoked
    rw [hstored.revoked hrevoked] at hunrevoked
    cases hunrevoked
  · rw [hunused, hshape htier]
    exact Nat.zero_lt_one
  · rw [hmatches.grantId, Dict.get?_set_self] at hrow'
    rw [← some_inj.mp hrow']

theorem inv_resume (h : s.Inv H) {grantId : PyStr} {f : Flight}
    (hget : s.flights.get? call = some f) (hsound : f.Sound s) :
    (s.resume H call grantId f).Inv H := by
  have hfly := h.flying call f hget
  cases f with
  | expire r => exact (inv_close h hsound (by simp) none).land call
  | cancel r principal => exact (inv_close h hsound (by simp) _).land call
  | mint request principal => exact (inv_insertGrant h hfly).land call
  | consume v grant => exact (inv_consume h hfly hsound).land call
  | decide r request principal approve decidedBy =>
    obtain ⟨hkey, card, hcard⟩ := hfly
    cases approve with
    | false => exact (inv_close h hsound (by simp) _).land call
    | true =>
      have hclosed : (s.close r .approved (some (decidedBy.getD principal))).Inv H :=
        inv_close h hsound (by simp) _
      refine hclosed.fly call ?_
      show Entry.closed request.requestId .approved ∈ _
      rw [hkey]
      exact closed_close hcard .approved _

theorem inv_beginDecide (h : s.Inv H) (requestId principal : PyStr) (approve : Bool)
    (decidedBy : Option PyStr) : (s.beginDecide call requestId principal approve decidedBy).Inv H := by
  unfold State.beginDecide
  split
  · exact h
  · next card hcard =>
    split
    · exact h
    · split
      · exact h.fly call trivial
      · exact h.fly call ⟨h.keyed requestId card hcard, card, hcard⟩

theorem inv_beginCancel (h : s.Inv H) (requestId principal : PyStr) :
    (s.beginCancel call requestId principal).Inv H := by
  unfold State.beginCancel
  split
  · exact h
  · split
    · exact h
    · exact h.fly call trivial

theorem inv_revoke (h : s.Inv H) {grantId : PyStr} (principal : PyStr)
    (hsome : (s.broker.grants.get? grantId).isSome) :
    ((s.withBroker (s.broker.revoke grantId principal).2).record (.revoked grantId)).Inv H := by
  obtain ⟨row, hrow⟩ := isSome_iff_exists.mp hsome
  rw [Broker.revoke, hrow]
  have hflag : GrantRuns.Inv H s.broker.requests
      (s.broker.grants.set grantId { row with revoked := true }) s.flights s.log :=
    h.flag hrow (fun h => h) fun _ => rfl
  exact hflag.revoke (Dict.get?_set_self ..) rfl

theorem inv_step {l : Label} (h : s.Inv H) (hsound : Sound H s l)
    (hstep : (overlapping H).step s l = some s') : s'.Inv H := by
  cases l with
  | tick t =>
    change (if _ then _ else none) = some s' at hstep
    split at hstep
    · cases hstep
      exact h
    · cases hstep
  | createRequest request =>
    change (if _ then _ else _) = some s' at hstep
    split at hstep
    · cases hstep
      exact h
    · next hnew =>
      cases hstep
      exact h.create (not_isSome_iff_eq_none.mp hnew)
  | decide call requestId principal approve decidedBy =>
    change (if _ then none else _) = some s' at hstep
    split at hstep
    · cases hstep
    · cases hstep
      exact inv_beginDecide h requestId principal approve decidedBy
  | cancelRequest call requestId principal =>
    change (if _ then none else _) = some s' at hstep
    split at hstep
    · cases hstep
    · cases hstep
      exact inv_beginCancel h requestId principal
  | revoke grantId principal =>
    change (if _ then _ else _) = some s' at hstep
    split at hstep
    · next hsome =>
      cases hstep
      exact inv_revoke h principal hsome
    · cases hstep
      exact h
  | verify call v =>
    change (if _ then none else _) = some s' at hstep
    split at hstep
    · cases hstep
    · cases hstep
      exact inv_verify h v hsound
  | resume call grantId =>
    obtain ⟨f, hget, rfl⟩ := map_eq_some_iff.mp hstep
    exact inv_resume h hget (hsound f hget)
  | edit grantId e =>
    obtain ⟨row, hrow, rfl⟩ := map_eq_some_iff.mp hstep
    have hedit := hsound row hrow
    exact h.replace hrow hedit.requestId rfl hedit.content hedit.consumed hedit.revoked

theorem laws_of_inv (h : s.Inv H) : GrantLaws s where
  once := h.once
  status := h.known
  approved := by
    intro g row hrow
    obtain ⟨m, hmem, -⟩ := h.origin g row hrow
    exact (h.minted row.requestId m hmem).1
  budget := h.budget
  exact := fun r m hmem => (h.minted r m hmem).2.1
  authorised := h.authorised

end Laws

def sampleCall : VerifyCall :=
  { grantId := "grant_1"
    principal := "user:local:1000"
    bodyHash := "body"
    mode := .simulation
    riskTier := .low
    actionIntent := some "intent" }

def approvedRun : List Label :=
  [.createRequest sampleRequest, .decide 0 "appr_1" "user:local:1000" true none, .resume 0 "grant_1",
    .resume 0 "grant_1"]

end Rosclaw.GrantRuns
