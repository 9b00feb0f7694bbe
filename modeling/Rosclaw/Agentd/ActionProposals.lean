/-
One card for one key.

A call of `propose` whose key has a transaction without a card makes a card, also when another
call of the key is waiting for the daemon with the card that it has made, and when a call has
died between its card and the attachment.

* `Returned` — what has been returned for a key is the same, in every run;
* `OneCard` — in a run of calm steps a key has at most one card;
* `one_card_per_key` — what the service promises for a key, in every state of such a run.
-/
import Rosclaw.Agentd.ActionRuns

namespace Rosclaw.Admission

open Approvals List

section Keys

variable {H : Host} {s s' : Service} {C : Prop} {now : PyStr}

/-! ### Ended transactions -/

variable {txn : ActionTxn}

variable {c c' : PyStr × PyStr} {id key : PyStr} {interruption : Interruption} {p : ProposalInput}
  {r r' : PyStr × PyStr × PyStr} {reply : ProposeReply}

theorem terminal_move (hmove : Move H C s s') (hget : s.txns.get? id = some txn)
    (hterminal : txn.state.terminal = true) : s'.txns.get? id = some txn := by
  -- a row that a move writes has not ended
  have hother : ∀ {id' : PyStr} {a b : ActionTxn}, s.txns.get? id' = some a →
      a.state.terminal = false → (s.txns.set id' b).get? id = some txn := by
    intro id' a b ha hstate
    rw [Dict.get?_set_of_ne, hget]
    rintro rfl
    rw [hget, Option.some_inj] at ha
    rw [← ha, hterminal] at hstate
    cases hstate
  cases hmove with
  | quiet | ask | leave | back | leaveExecuting => exact hget
  | create txn' hkey hid happroval hstate =>
    show (s.txns.set txn'.txnId txn').get? id = some txn
    rw [Dict.get?_set_of_ne, hget]
    rintro rfl
    rw [hid] at hget
    cases hget
  | attach i p txn' hash now hp hget' hstate hhash => exact hother hget' (by rw [hstate]; rfl)
  | advance id' txn' state now hget' hstate hlegal => exact hother hget' (by rw [hstate]; rfl)
  | dispatch txn' w grantId now called hget' hstate hcard hcalled =>
    exact hother hget' (by rw [hstate]; rfl)
  | settle i w txn' txn'' hw hget' hstate hended => exact hother hget' (by rw [hstate]; rfl)

theorem terminal_moves (hmoves : Moves H C s s') (hget : s.txns.get? id = some txn)
    (hterminal : txn.state.terminal = true) : s'.txns.get? id = some txn := by
  induction hmoves with
  | refl => exact hget
  | tail _ hmove ih => exact terminal_move hmove ih hterminal

/-! ### What has been returned -/

theorem attached_move (h : Sound H s) (hmove : Move H C s s') (hget : s.txns.get? id = some txn)
    (hattached : txn.approvalId.isEmpty = false) :
    ∃ txn', s'.txns.get? id = some txn' ∧ txn'.idempotencyKey = txn.idempotencyKey ∧
      txn'.approvalId = txn.approvalId := by
  have hgoes : ∀ {id' : PyStr} {a b : ActionTxn}, s.txns.get? id' = some a → Goes a b →
      ∃ txn', (s.txns.set id' b).get? id = some txn' ∧
        txn'.idempotencyKey = txn.idempotencyKey ∧ txn'.approvalId = txn.approvalId := by
    intro id' a b ha hab
    obtain ⟨txn', hget', hgoes⟩ := goes_forth ha hab hget
    exact ⟨txn', hget', hgoes.key, hgoes.approvalId⟩
  cases hmove with
  | quiet | ask | leave | back | leaveExecuting => exact ⟨txn, hget, rfl, rfl⟩
  | create txn' hkey hid happroval hstate =>
    refine ⟨txn, ?_, rfl, rfl⟩
    show (s.txns.set txn'.txnId txn').get? id = some txn
    rw [Dict.get?_set_of_ne, hget]
    rintro rfl
    rw [hid] at hget
    cases hget
  | attach i p txn' hash now hp hget' hstate hhash =>
    refine ⟨txn, ?_, rfl, rfl⟩
    show (s.txns.set p.txn.txnId _).get? id = some txn
    rw [Dict.get?_set_of_ne, hget]
    rintro rfl
    rw [hget, Option.some_inj] at hget'
    have hempty := (h.unattached hget).mpr (hget' ▸ hstate)
    rw [hattached] at hempty
    cases hempty
  | advance id' txn' state now hget' hstate hlegal =>
    exact hgoes hget' (goes_advanced hstate hlegal)
  | dispatch txn' w grantId now called hget' hstate hcard hcalled =>
    exact hgoes hget' (goes_dispatched hstate)
  | settle i w txn' txn'' hw hget' hstate hended => exact hgoes hget' (hended.goes hstate)

/-- What has been returned for a key is its transaction and the card of it. -/
def Returned (s : Service) : Prop :=
  ∀ r ∈ s.returned, ∃ txn, s.txns.get? r.2.1 = some txn ∧ txn.idempotencyKey = r.1 ∧
    txn.approvalId = r.2.2 ∧ txn.approvalId.isEmpty = false

theorem returned_move (h : Sound H s) (hreturned : Returned s) (hmove : Move H C s s') :
    Returned s' := by
  have hold : ∀ r ∈ s.returned, ∃ txn, s'.txns.get? r.2.1 = some txn ∧
      txn.idempotencyKey = r.1 ∧ txn.approvalId = r.2.2 ∧ txn.approvalId.isEmpty = false := by
    intro r hr
    obtain ⟨txn, hget, hkey, hcard, hattached⟩ := hreturned r hr
    obtain ⟨txn', hget', hkey', hcard'⟩ := attached_move h hmove hget hattached
    exact ⟨txn', hget', hkey'.trans hkey, hcard'.trans hcard, by rw [hcard', hattached]⟩
  cases hmove with
  | back txn key txnId approvalId hget hattached hkey hcard =>
    intro r hr
    rcases mem_append.mp hr with hr | hr
    · exact hold r hr
    · obtain rfl := mem_singleton.mp hr
      exact ⟨txn, hget, hkey, hcard, hattached⟩
  | quiet | create | ask | leave | attach | advance | dispatch | settle | leaveExecuting =>
    exact hold

theorem returned_moves (h : Sound H s) (hreturned : Returned s) (hmoves : Moves H C s s') :
    Returned s' := by
  induction hmoves with
  | refl => exact hreturned
  | tail hmoves hmove ih => exact returned_move (sound_moves h hmoves) ih hmove

theorem returned_of_reachable {C : Service → Label → Prop}
    (h : (admission H).ReachableUnder C s) : Returned s := by
  refine Machine.ReachableUnder.invariant_of (fun _ => sound_of_reachable) ?_ ?_ h
  · rintro s ⟨env, policyHash, rfl⟩ r hr
    cases hr
  · intro s l s' hs hreturned _ hstep
    obtain ⟨reply, hrespond⟩ := step_respond hstep
    exact returned_moves hs hreturned (respond_moves hs hrespond)

theorem Returned.same (h : Sound H s) (hreturned : Returned s) (hr : r ∈ s.returned)
    (hr' : r' ∈ s.returned) (hkey : r.1 = r'.1) : r = r' := by
  obtain ⟨key, txnId, approvalId⟩ := r
  obtain ⟨key', txnId', approvalId'⟩ := r'
  obtain ⟨txn, hget, hk, rfl, -⟩ := hreturned _ hr
  obtain ⟨txn', hget', hk', rfl, -⟩ := hreturned _ hr'
  dsimp only at hget hget' hk hk' hkey ⊢
  obtain rfl := h.keyed.unique hget hget' (hk.trans (hkey.trans hk'.symm))
  obtain rfl := Option.some_inj.mp (hget.symm.trans hget')
  rw [hkey]

/-! ### One card -/

/-- A key has at most one card, which its transaction has or its handler holds. -/
structure OneCard (s : Service) : Prop where
  unique : (s.cards.map Prod.fst).Nodup
  held : ∀ p ∈ s.proposing, (p.key, p.approvalId) ∈ s.cards
  attached : ∀ {id txn}, s.txns.get? id = some txn → txn.approvalId.isEmpty = false →
    (txn.idempotencyKey, txn.approvalId) ∈ s.cards

theorem OneCard.same (h : OneCard s) (hc : c ∈ s.cards) (hc' : c' ∈ s.cards) (hkey : c.1 = c'.1) :
    c = c' := inj_on_of_nodup_map h.unique hc hc' hkey

theorem OneCard.proposed (h : Sound H s) (hone : OneCard s) {p : Proposing}
    (hp : p ∈ s.proposing) : ∃ txn, s.txns.get? p.txn.txnId = some txn ∧ txn.state = .proposed := by
  have hwaits := h.waiting p hp
  obtain ⟨txn, hget, hkey⟩ := hwaits.row
  refine ⟨txn, hget, (h.unattached hget).mp ?_⟩
  by_contra hattached
  have hcard := hone.attached hget (by simpa using hattached)
  have hsame := hone.same hcard (hone.held p hp) hkey
  exact hwaits.unattached hget (congrArg Prod.snd hsame)

theorem oneCard_move (h : Sound H s) (hone : OneCard s) (hC : C) (hmove : Move H C s s') :
    OneCard s' := by
  have hgoes : ∀ {id : PyStr} {a b : ActionTxn}, s.txns.get? id = some a → Goes a b →
      ∀ {id' txn}, (s.txns.set id b).get? id' = some txn → txn.approvalId.isEmpty = false →
        (txn.idempotencyKey, txn.approvalId) ∈ s.cards := by
    intro id a b ha hab id' txn hget hattached
    obtain ⟨txn', hget', hgoes'⟩ := goes_back ha hab hget
    rw [hgoes'.approvalId] at hattached ⊢
    rw [hgoes'.key]
    exact hone.attached hget' hattached
  cases hmove with
  | quiet | back | leaveExecuting => exact { hone with }
  | create txn hkey hid happroval hstate =>
    refine { hone with attached := ?_ }
    intro id a ha hattached
    change (s.txns.set txn.txnId txn).get? id = some a at ha
    rw [Dict.get?_set] at ha
    split at ha
    · cases ha
      rw [happroval] at hattached
      cases hattached
    · exact hone.attached ha hattached
  | ask card txn journal hget hunattached hnew hid hnamed hcalm =>
    refine ⟨?_, ?_, ?_⟩
    · show ((s.cards ++ [_]).map Prod.fst).Nodup
      rw [map_append, map_singleton, nodup_append]
      refine ⟨hone.unique, nodup_singleton _, ?_⟩
      rintro a ha b hb rfl
      obtain ⟨c, hc, heq⟩ := mem_map.mp ha
      exact hcalm hC c hc (heq.trans (mem_singleton.mp hb))
    · intro p hp
      rcases mem_append.mp hp with hp | hp
      · exact mem_append_left _ (hone.held p hp)
      · obtain rfl := mem_singleton.mp hp
        exact mem_append_right _ (mem_singleton.mpr rfl)
    · intro id a ha hattached
      exact mem_append_left _ (hone.attached ha hattached)
  | leave proposing hsub => exact { hone with held := fun p hp => hone.held p (hsub.subset hp) }
  | attach i p txn hash now hp hget hstate hhash =>
    have hmem := mem_of_getElem? hp
    have hwaits := h.waiting p hmem
    refine { hone with
      held := fun q hq => hone.held q ((eraseIdx_sublist ..).subset hq), attached := ?_ }
    intro id a ha hattached
    change (s.txns.set p.txn.txnId _).get? id = some a at ha
    rw [Dict.get?_set] at ha
    split at ha
    · cases ha
      obtain ⟨txn', hget', hkey⟩ := hwaits.row
      obtain rfl := Option.some_inj.mp (hget.symm.trans hget')
      rw [moved_attached txn hash now hwaits.nonempty]
      show (txn.idempotencyKey, p.approvalId) ∈ s.cards
      rw [hkey]
      exact hone.held p hmem
    · exact hone.attached ha hattached
  | advance id txn state now hget hstate hlegal =>
    exact { hone with attached := hgoes hget (goes_advanced hstate hlegal) }
  | dispatch txn w grantId now called hget hstate hcard hcalled =>
    exact { hone with attached := hgoes hget (goes_dispatched hstate) }
  | settle i w txn txn' hw hget hstate hended =>
    exact { hone with attached := hgoes hget (hended.goes hstate) }

theorem oneCard_moves (h : Sound H s) (hone : OneCard s) (hC : C) (hmoves : Moves H C s s') :
    OneCard s' := by
  induction hmoves with
  | refl => exact hone
  | tail hmoves hmove ih => exact oneCard_move (sound_moves h hmoves) ih hC hmove

theorem oneCard_of_reachable (h : (admission H).ReachableUnder (Calm H) s) : OneCard s := by
  refine Machine.ReachableUnder.invariant_of (fun _ => sound_of_reachable) ?_ ?_ h
  · rintro s ⟨env, policyHash, rfl⟩
    refine ⟨nodup_nil, ?_, ?_⟩
    · intro p hp
      cases hp
    · intro id txn hget
      cases hget
  · intro s l s' hs hone hcalm hstep
    obtain ⟨reply, hrespond⟩ := step_respond hstep
    exact oneCard_moves hs hone hcalm (respond_moves hs hrespond)

/-! ### The replies -/

def Told (key : PyStr) (reply : ProposeReply) (returned : List (PyStr × PyStr × PyStr)) : Prop :=
  ∀ txnId approvalId hash,
    reply = .proposed txnId approvalId hash ∨ reply = .replayed txnId approvalId hash →
    (key, txnId, approvalId) ∈ returned

theorem told_return (s : Service) (key txnId approvalId hash : PyStr) :
    Told key (s.return_ key txnId approvalId hash).1
      (s.return_ key txnId approvalId hash).2.returned := by
  intro txnId' approvalId' hash' hreply
  rcases hreply with hreply | hreply
  · cases hreply
    exact mem_append_right _ (mem_singleton.mpr rfl)
  · cases hreply

theorem told_of_ne {returned : List (PyStr × PyStr × PyStr)} (h : ∀ txnId approvalId hash,
      reply ≠ .proposed txnId approvalId hash ∧ reply ≠ .replayed txnId approvalId hash) :
    Told key reply returned := by
  intro txnId approvalId hash hreply
  rcases hreply with hreply | hreply
  · exact absurd hreply (h txnId approvalId hash).1
  · exact absurd hreply (h txnId approvalId hash).2

theorem told_attach (s : Service) (p : Proposing) (link : Option ProposalLink)
    (policyGrant : Option PyStr) (now : PyStr) :
    Told p.key (s.attach H p link policyGrant now).1
      (s.attach H p link policyGrant now).2.returned := by
  unfold Service.attach
  dsimp only
  split
  · exact told_of_ne (by simp)
  · exact told_of_ne (by simp)
  · split
    · exact told_of_ne (by simp)
    · split
      · exact told_of_ne (by simp)
      · split
        · exact told_of_ne (by simp)
        · exact told_return _ _ _ _ _

theorem attach_ne_transitionError {p : Proposing}
    (hread : p.txn.state = .proposed) (hget : s.txns.get? p.txn.txnId = some txn)
    (hstate : txn.state = .proposed) (link : Option ProposalLink) (policyGrant : Option PyStr)
    (now : PyStr) (e : TxnError) :
    (s.attach H p link policyGrant now).1 ≠ .transitionError e := by
  have hlegal : TxnState.awaitingOperator ∈ validTransitions txn.state := by
    simp [hstate, validTransitions]
  unfold Service.attach
  dsimp only
  split
  · simp
  · simp
  · split
    · simp
    · split
      · next hattach =>
        rw [Service.attachCard, if_pos hread] at hattach
        have herror := congrArg Prod.fst hattach
        have hget' : (s.withBroker (Service.linkCard s.broker p.approvalId link)).txns.get?
            p.txn.txnId = some txn := hget
        rw [Txns.transition_legal hget' hlegal] at herror
        cases herror
      · split
        · simp
        · simp [Service.return_]

/-- A call of `propose` never fails with a transition error at once. -/
theorem proposeCard_reply (h : Sound H s) {card : ApprovalRequest}
    (hget : s.txns.get? txn.txnId = some txn) (hunattached : txn.approvalId.isEmpty = true)
    (hreply : (s.proposeCard H p txn card interruption).1 = some reply) :
    (∀ e, reply ≠ .transitionError e) ∧
      Told txn.idempotencyKey reply (s.proposeCard H p txn card interruption).2.returned := by
  have hstate := (h.unattached hget).mp hunattached
  cases interruption with
  | none =>
    unfold Service.proposeCard at hreply ⊢
    simp only at hreply ⊢
    split at hreply
    · cases hreply
    · next hdaemon =>
      rw [if_neg hdaemon]
      cases hreply
      exact ⟨attach_ne_transitionError hstate hget hstate _ _ _, told_attach _ ⟨_, _, _⟩ _ _ _⟩
  | raisesBeforeCard =>
    cases hreply
    exact ⟨by simp, told_of_ne (by simp)⟩
  | crashesBeforeCard => cases hreply
  | crashesAfterCard => cases hreply

theorem replayCard_ne (s : Service) (txn : ActionTxn) :
    (∀ e, s.replayCard H txn ≠ .transitionError e) ∧
      ∀ txnId approvalId hash, s.replayCard H txn ≠ .proposed txnId approvalId hash := by
  unfold Service.replayCard
  split
  · simp
  · split
    · simp
    · simp
    · split <;> simp

theorem propose_reply (h : Sound H s) (hfresh : s.Fresh p)
    (hreply : (s.propose H p interruption).1 = some reply) :
    (∀ e, reply ≠ .transitionError e) ∧
      Told p.ctx.idempotencyKey reply (s.propose H p interruption).2.returned := by
  unfold Service.propose at hreply ⊢
  split
  · next e hcheck =>
    rw [hcheck] at hreply
    cases hreply
    exact ⟨by simp, told_of_ne (by simp)⟩
  · next mission exact hcheck =>
    rw [hcheck] at hreply
    rcases Txns.create_cases s.txns (newTxn H p exact) with
      ⟨txn, hfind, -, hcreate⟩ | ⟨txn, hfind, -, hcreate⟩ | ⟨hnone, hcreate⟩
    · obtain ⟨⟨id, hget⟩, hkey⟩ := Txns.byKey_eq_some hfind
      obtain rfl := h.keyed.filed hget
      simp only [hcreate] at hreply ⊢
      split at hreply
      · next hunattached =>
        rw [if_pos hunattached]
        obtain ⟨herror, htold⟩ := proposeCard_reply h hget hunattached hreply
        rw [hkey] at htold
        exact ⟨herror, htold⟩
      · next hattached =>
        rw [if_neg hattached]
        split at hreply
        · next txnId approvalId hash hreplay =>
          cases hreply
          refine ⟨by simp, ?_⟩
          intro txnId' approvalId' hash' heq
          rcases heq with heq | heq
          · cases heq
          · cases heq
            show (p.ctx.idempotencyKey, txnId, approvalId) ∈ s.returned ++ [_]
            rw [show p.ctx.idempotencyKey = txn.idempotencyKey from hkey.symm]
            exact mem_append_right _ (mem_singleton.mpr rfl)
        · next hno =>
          cases hreply
          obtain ⟨herror, hproposed⟩ := replayCard_ne (H := H) s txn
          exact ⟨herror, told_of_ne fun txnId approvalId hash =>
            ⟨hproposed txnId approvalId hash, hno txnId approvalId hash⟩⟩
    · simp only [hcreate] at hreply ⊢
      cases hreply
      exact ⟨by simp, told_of_ne (by simp)⟩
    · simp only [hcreate] at hreply ⊢
      have hnew : Move H True s { s with txns := s.txns.set p.txnId (newTxn H p exact) } :=
        .create (newTxn H p exact) hnone hfresh.1 rfl rfl
      exact proposeCard_reply (sound_move h hnew) (Dict.get?_set_self ..) rfl hreply

/-! ### What is promised for a key -/

def key? (s : Service) : Label → Option PyStr
  | .propose p _ => some p.ctx.idempotencyKey
  | .proposed i _ _ => (s.proposing[i]?).map Proposing.key
  | _ => none

/-- What is promised for a key, at a step.  Contents are the same when their hashes are. -/
structure KeyHonoured (H : Host) (s : Service) (l : Label) (reply : Option Reply) (s' : Service) :
    Prop where
  told : ∀ r, reply = some (.proposal r) → ∃ key, key? s l = some key ∧ Told key r s'.returned
  /-- all calls that return give the same transaction and card -/
  same : ∀ r ∈ s'.returned, ∀ r' ∈ s'.returned, r.1 = r'.1 → r = r'
  /-- one card has ever been made -/
  one : ∀ c ∈ s'.cards, ∀ c' ∈ s'.cards, c.1 = c'.1 → c = c'
  noError : ∀ e, reply ≠ some (.proposal (.transitionError e))
  conflict : ∀ p interruption mission exact txn, l = .propose p interruption →
    checkProposal H s.env p = .ok (mission, exact) →
    s.txns.byKey p.ctx.idempotencyKey = some txn →
    txn.requestHash ≠ requestHashOf H p.capabilityId exact.normalizedArguments p.ctx →
    (∃ message, reply = some (.proposal (.refused ⟨"IDEMPOTENCY_CONFLICT", message⟩))) ∧ s' = s
  /-- a transaction that has ended stays as it is -/
  ended : ∀ id txn, s.txns.get? id = some txn → txn.state.terminal = true →
    s'.txns.get? id = some txn

theorem propose_conflict (interruption : Interruption) {mission : Mission} {exact : ExactAction}
    (hcheck : checkProposal H s.env p = .ok (mission, exact))
    (hfind : s.txns.byKey p.ctx.idempotencyKey = some txn)
    (hhash : txn.requestHash ≠ requestHashOf H p.capabilityId exact.normalizedArguments p.ctx) :
    (∃ message, (s.propose H p interruption).1 =
      some (.refused ⟨"IDEMPOTENCY_CONFLICT", message⟩)) ∧
      (s.propose H p interruption).2 = s := by
  have hcreate : s.txns.create (newTxn H p exact) = (.conflict txn.txnId, s.txns) := by
    simp only [Txns.create, newTxn, hfind]
    exact if_neg hhash
  simp only [Service.propose, hcheck, hcreate, and_true]
  exact ⟨_, rfl⟩

/-- **What is promised for a key holds** in a run in which no call makes a second card. -/
theorem one_card_per_key (H : Host) {s s' : Service}
    (hs : (admission H).ReachableUnder (Calm H) s) {l : Label} (hcalm : Calm H s l)
    {reply : Option Reply} (hstep : respond H s l = some (reply, s')) :
    KeyHonoured H s l reply s' := by
  have hsound := sound_of_reachable hs
  have hone := oneCard_of_reachable hs
  have hmoves := respond_moves hsound hstep
  have hs' : (admission H).ReachableUnder (Calm H) s' :=
    .step hs hcalm (congrArg (Option.map Prod.snd) hstep)
  have hreturned := returned_of_reachable hs'
  -- a step that replies to a call of `propose` tells what it returns, and makes no error
  have hreply : ∀ r, reply = some (.proposal r) →
      (∀ e, r ≠ .transitionError e) ∧ ∃ key, key? s l = some key ∧ Told key r s'.returned := by
    rintro r rfl
    cases l with
    | propose p interruption =>
      simp only [respond] at hstep
      split at hstep
      · next hfresh =>
        obtain ⟨hr, rfl⟩ := Prod.mk.inj (Option.some_inj.mp hstep)
        obtain ⟨r', hr', heq⟩ := Option.map_eq_some_iff.mp hr
        cases heq
        obtain ⟨herror, htold⟩ := propose_reply hsound hfresh hr'
        exact ⟨herror, _, rfl, htold⟩
      · cases hstep
    | proposed i outcome now =>
      obtain ⟨p, hp, hr⟩ := Option.map_eq_some_iff.mp hstep
      obtain ⟨hr, rfl⟩ := Prod.mk.inj hr
      cases hr
      obtain ⟨txn, hget, hstate⟩ := hone.proposed hsound (List.mem_of_getElem? hp)
      have hread := (hsound.waiting p (List.mem_of_getElem? hp)).read
      have hkey : key? s (.proposed i outcome now) = some p.key := by simp [key?, hp]
      have hattach := attach_ne_transitionError (H := H)
        (s := { s with proposing := s.proposing.eraseIdx i }) hread hget hstate
      cases outcome with
      | linked link => exact ⟨hattach (some link) none now, _, hkey, told_attach _ p _ _ _⟩
      | unavailable => exact ⟨hattach none none now, _, hkey, told_attach _ p _ _ _⟩
      | raised => exact ⟨by simp [Service.resume], _, hkey, told_of_ne (by simp [Service.resume])⟩
    | execute approvalId ctx caller now taken =>
      obtain ⟨hr, -⟩ := Prod.mk.inj (Option.some_inj.mp hstep)
      obtain ⟨r', -, heq⟩ := Option.map_eq_some_iff.mp hr
      cases heq
    | answer i a now taken =>
      obtain ⟨w, -, hr⟩ := Option.map_eq_some_iff.mp hstep
      obtain ⟨hr, -⟩ := Prod.mk.inj hr
      obtain ⟨r', -, heq⟩ := Option.map_eq_some_iff.mp hr
      cases heq
    | decide | cancel | revoke | decisionStatus | event | environment | restart => cases hstep
  refine ⟨fun r hr => (hreply r hr).2, ?_, ?_, ?_, ?_, ?_⟩
  · intro r hr r' hr' hkey
    exact hreturned.same (sound_of_reachable hs') hr hr' hkey
  · intro c hc c' hc' hkey
    exact (oneCard_of_reachable hs').same hc hc' hkey
  · intro e he
    exact (hreply _ he).1 e rfl
  · rintro p interruption mission exact txn rfl hcheck hfind hhash
    obtain ⟨⟨message, hrefused⟩, hsame⟩ := propose_conflict interruption hcheck hfind hhash
    simp only [respond] at hstep
    split at hstep
    · obtain ⟨hr, rfl⟩ := Prod.mk.inj (Option.some_inj.mp hstep)
      rw [hrefused] at hr
      exact ⟨⟨message, hr.symm⟩, hsame⟩
    · cases hstep
  · intro id txn hget hterminal
    exact terminal_moves hmoves hget hterminal

end Keys

/-- A call of a key that has a card is answered with that card. -/
theorem one_card_per_key_again : ∃ s r s',
    (admission sampleHost).ReachableUnder (Calm sampleHost) s ∧
    respond sampleHost s (.propose (sampleProposal .real "txn_2" "appr_2") .none) =
      some (some (.proposal r), s') ∧
    KeyHonoured sampleHost s (.propose (sampleProposal .real "txn_2" "appr_2") .none)
      (some (.proposal r)) s' ∧
    s'.cards.map Prod.snd = ["appr_1"] ∧
    s'.returned.map (fun r => r.2.2) = ["appr_1", "appr_1"] := by
  have hcalm : Calm sampleHost (sampleService .real true)
      (.propose (sampleProposal .real "txn_1" "appr_1") .none) := by
    intro _ _ _ _ _ c hc
    cases hc
  have hfirst : (admission sampleHost).ReachableUnder (Calm sampleHost) (sampleService .real true) :=
    .init ⟨_, _, rfl⟩
  have hattached : ∀ s, Calm sampleHost s (.proposed 0 .unavailable "2026-01-01T00:00:01") :=
    fun _ => trivial
  have hanswered := (hfirst.step hcalm rfl).step (hattached _) rfl
  refine ⟨_, _, _, hanswered, rfl, one_card_per_key sampleHost hanswered ?_ rfl, rfl, rfl⟩
  -- the transaction of the key has a card
  intro _ _ _ _ hnone
  have hempty := (hnone _ rfl).2
  cases hempty

/-- Two calls of one key, of which the second comes while the first waits for the daemon. -/
def doubledRun : List Label :=
  [.propose (sampleProposal .real "txn_1" "appr_1") .none,
    .propose (sampleProposal .real "txn_2" "appr_2") .none,
    .proposed 0 .unavailable "2026-01-01T00:00:01"]

def doubledCards : List (PyStr × PyStr) := [("key_1", "appr_1"), ("key_1", "appr_2")]

/-- Two cards are open for the key, and the second call fails. -/
theorem waiting_call_doubles_card : ∃ s s' e,
    (admission sampleHost).Reachable s ∧
    (s.broker.pending? "appr_1").isSome = true ∧ (s.broker.pending? "appr_2").isSome = true ∧
    s.cards = doubledCards ∧
    respond sampleHost s (.proposed 0 .unavailable "2026-01-01T00:00:02") =
      some (some (.proposal (.transitionError e)), s') ∧
    ¬ KeyHonoured sampleHost s (.proposed 0 .unavailable "2026-01-01T00:00:02")
      (some (.proposal (.transitionError e))) s' := by
  have hrun : ∃ s, (admission sampleHost).run (sampleService .real true) doubledRun = some s ∧
      (s.broker.pending? "appr_1").isSome = true ∧ (s.broker.pending? "appr_2").isSome = true ∧
      s.cards = doubledCards ∧
      ∃ s' e, respond sampleHost s (.proposed 0 .unavailable "2026-01-01T00:00:02") =
        some (some (.proposal (.transitionError e)), s') :=
    ⟨_, rfl, rfl, rfl, rfl, _, _, rfl⟩
  obtain ⟨s, hs, hfirst, hsecond, hcards, s', e, hstep⟩ := hrun
  refine ⟨s, s', e, .of_run ⟨_, _, rfl⟩ hs, hfirst, hsecond, hcards, hstep, ?_⟩
  intro h
  exact h.noError e rfl

end Rosclaw.Admission
