/-
Laws of the permit authority over whole lives of its ledger.

A run registers, authorizes and revokes in any order, loses its process at any
point, inside an append included, and opens a new authority on the same ledger.

* `Reflects` — the tables say what the PERMIT events of the ledger say;
* `reflects_restoreEvents` — a successful restart establishes it, and
  `PermitState.Inv` keeps it through every step;
* `permit_laws` — bounded use, one permit per action id, no second consumption,
  no use after revocation, and no effect of a denied authorization.
-/
import Rosclaw.Daemon.Permits
import Rosclaw.Lib.Machine
import Mathlib.Data.List.Dedup
import Mathlib.Data.List.Perm.Subperm

namespace Rosclaw

open PermitAuthority List Option Dict Ledger

/-! ### What the events say -/

def isRegistration (permitId : PyStr) (e : LedgerEvent) : Bool :=
  e.entityKind = "PERMIT" && e.eventType = "PERMIT_REGISTERED" && e.entityId = permitId

def isConsumption (actionId : PyStr) (e : LedgerEvent) : Bool :=
  e.entityKind = "PERMIT" && e.eventType = "PERMIT_CONSUMED" &&
    match e.payload.get "action_id" with
    | .str s => s = actionId
    | _ => false

def consumptions (es : List LedgerEvent) (actionId : PyStr) : List LedgerEvent :=
  es.filter (isConsumption actionId)

variable {e : LedgerEvent}

variable {P : ExecutionPermit} {a s : PyStr} {targets : List PyStr} (py : Builtins) (reason : PyStr)

theorem isConsumption_iff :
    isConsumption a e = true ↔ e.entityKind = "PERMIT" ∧ e.eventType = "PERMIT_CONSUMED" ∧
      e.payload.get "action_id" = .str a := by
  simp only [isConsumption, Bool.and_eq_true, decide_eq_true_eq, and_assoc]
  refine and_congr_right fun _ => and_congr_right fun _ => ?_
  cases e.payload.get "action_id" <;> simp

variable {p : PyStr}

theorem isRegistration_iff :
    isRegistration p e = true ↔ e.entityKind = "PERMIT" ∧ e.eventType = "PERMIT_REGISTERED" ∧
      e.entityId = p := by
  simp [isRegistration, and_assoc]

def Registered (es : List LedgerEvent) (permitId : PyStr) : Prop :=
  ∃ e ∈ es, isRegistration permitId e = true

def ConsumedBy (es : List LedgerEvent) (actionId permitId : PyStr) : Prop :=
  ∃ e ∈ es, isConsumption actionId e = true ∧ e.entityId = permitId

/-- The tables have nothing that the events do not say. -/
structure Backed (es : List LedgerEvent) (A : PermitAuthority) : Prop where
  permit : ∀ p P, A.permits.get? p = some P → P.permitId = p ∧ Registered es p
  consumed : ∀ a p, A.consumedActions.get? a = some p → ConsumedBy es a p
  uses : ∀ p, A.usesOf p = (A.consumedActions.keysOf p).length
  uses_le : ∀ p P, A.permits.get? p = some P → A.usesOf p ≤ P.maxUses
  consumed_permit : ∀ a p, A.consumedActions.get? a = some p → A.permits.contains p = true
  revoked_permit : ∀ p, A.revoked.contains p = true → A.permits.contains p = true

/-- The events say nothing that the tables do not have. -/
structure Complete (es : List LedgerEvent) (A : PermitAuthority) : Prop where
  registered : ∀ p, Registered es p → A.permits.contains p = true
  consumed : ∀ a p, ConsumedBy es a p → A.consumedActions.get? a = some p

structure Reflects (es : List LedgerEvent) (A : PermitAuthority) : Prop where
  backed : Backed es A
  complete : Complete es A

variable {es es' : List LedgerEvent}

theorem Registered.mono (h : Registered es p) (hsub : es ⊆ es') : Registered es' p := by
  obtain ⟨e, he, hr⟩ := h
  exact ⟨e, hsub he, hr⟩

theorem ConsumedBy.mono {p : PyStr} (h : ConsumedBy es a p) (hsub : es ⊆ es') :
    ConsumedBy es' a p := by
  obtain ⟨e, he, hc⟩ := h
  exact ⟨e, hsub he, hc⟩

variable {A : PermitAuthority}

theorem Backed.mono (h : Backed es A) (hsub : es ⊆ es') : Backed es' A where
  permit p P hp := ⟨(h.permit p P hp).1, (h.permit p P hp).2.mono hsub⟩
  consumed a p hc := (h.consumed a p hc).mono hsub
  uses := h.uses
  uses_le := h.uses_le
  consumed_permit := h.consumed_permit
  revoked_permit := h.revoked_permit

variable {es : List LedgerEvent}

theorem registered_snoc :
    Registered (es ++ [e]) p ↔ Registered es p ∨ isRegistration p e = true := by
  simp [Registered, or_and_right, exists_or]

theorem consumedBy_snoc {p : PyStr} : ConsumedBy (es ++ [e]) a p ↔
      ConsumedBy es a p ∨ (isConsumption a e = true ∧ e.entityId = p) := by
  simp [ConsumedBy, or_and_right, exists_or]

/-! ### What an update of the tables keeps -/

theorem Backed.unused (h : Backed es A) (hp : A.permits.contains p = false) : A.usesOf p = 0 := by
  have hnone : A.consumedActions.keysOf p = [] := by
    rw [eq_nil_iff_forall_not_mem]
    intro a ha
    have := h.consumed_permit a p (mem_keysOf.mp ha)
    rw [hp] at this
    exact nomatch this
  rw [h.uses, hnone]
  rfl

variable {A A' : PermitAuthority}

theorem Reflects.register (h : Reflects es A) (he : isRegistration P.permitId e = true)
    (hfresh : A.permits.contains P.permitId = false)
    (hpermits : A'.permits = A.permits.set P.permitId P) (huses : ∀ p, A'.usesOf p = A.usesOf p)
    (hconsumed : A'.consumedActions = A.consumedActions) (hrevoked : A'.revoked = A.revoked) :
    Reflects (es ++ [e]) A' := by
  have hcontains : ∀ p, A.permits.contains p = true → A'.permits.contains p = true := by
    intro p hp
    obtain ⟨Q, hQ⟩ := Dict.contains_iff.mp hp
    rw [hpermits, Dict.contains_iff, Dict.get?_set]
    by_cases hpp : P.permitId = p
    · exact ⟨P, by rw [if_pos hpp]⟩
    · exact ⟨Q, by rw [if_neg hpp, hQ]⟩
  have hself : A'.permits.contains P.permitId = true := by
    rw [hpermits, Dict.contains_iff]
    exact ⟨P, Dict.get?_set_self _ _ _⟩
  obtain ⟨hkind, htype, hid⟩ := isRegistration_iff.mp he
  refine ⟨⟨?_, ?_, ?_, ?_, ?_, ?_⟩, ?_, ?_⟩
  · intro p Q hQ
    rw [hpermits, Dict.get?_set] at hQ
    by_cases hpp : P.permitId = p
    · rw [if_pos hpp, some_inj] at hQ
      exact ⟨hQ ▸ hpp, registered_snoc.mpr (.inr (hpp ▸ he))⟩
    · rw [if_neg hpp] at hQ
      exact ⟨(h.backed.permit p Q hQ).1, registered_snoc.mpr (.inl (h.backed.permit p Q hQ).2)⟩
  · intro a p hc
    rw [hconsumed] at hc
    exact consumedBy_snoc.mpr (.inl (h.backed.consumed a p hc))
  · intro p
    rw [huses, hconsumed]
    exact h.backed.uses p
  · intro p Q hQ
    rw [hpermits, Dict.get?_set] at hQ
    rw [huses]
    by_cases hpp : P.permitId = p
    · rw [← hpp, h.backed.unused hfresh]
      exact Nat.zero_le _
    · rw [if_neg hpp] at hQ
      exact h.backed.uses_le p Q hQ
  · intro a p hc
    rw [hconsumed] at hc
    exact hcontains p (h.backed.consumed_permit a p hc)
  · intro p hr
    rw [hrevoked] at hr
    exact hcontains p (h.backed.revoked_permit p hr)
  · intro p hp
    rcases registered_snoc.mp hp with hp | hp
    · exact hcontains p (h.complete.registered p hp)
    · rw [← (isRegistration_iff.mp hp).2.2, hid]
      exact hself
  · intro a p hc
    rcases consumedBy_snoc.mp hc with hc | ⟨hc, -⟩
    · rw [hconsumed]
      exact h.complete.consumed a p hc
    · have := (isConsumption_iff.mp hc).2.1
      simp [htype] at this

theorem Reflects.consume {p : PyStr} (h : Reflects es A) (he : isConsumption a e = true)
    (hid : e.entityId = p) (hp : A.permits.get? p = some P) (hmax : A.usesOf p < P.maxUses)
    (ha : A.consumedActions.get? a = none) (hpermits : A'.permits = A.permits)
    (huses : ∀ q, A'.usesOf q = A.usesOf q + if p = q then 1 else 0)
    (hconsumed : A'.consumedActions = A.consumedActions.set a p)
    (hrevoked : A'.revoked = A.revoked) : Reflects (es ++ [e]) A' := by
  refine ⟨⟨?_, ?_, ?_, ?_, ?_, ?_⟩, ?_, ?_⟩
  · intro q Q hQ
    rw [hpermits] at hQ
    exact ⟨(h.backed.permit q Q hQ).1, registered_snoc.mpr (.inl (h.backed.permit q Q hQ).2)⟩
  · intro b q hc
    rw [hconsumed, Dict.get?_set] at hc
    by_cases hab : a = b
    · rw [if_pos hab, some_inj] at hc
      exact consumedBy_snoc.mpr (.inr ⟨hab ▸ he, hid.trans hc⟩)
    · rw [if_neg hab] at hc
      exact consumedBy_snoc.mpr (.inl (h.backed.consumed b q hc))
  · intro q
    rw [huses, hconsumed, keysOf_set_of_none ha, h.backed.uses, length_append]
    split <;> rfl
  · intro q Q hQ
    rw [hpermits] at hQ
    rw [huses]
    by_cases hq : p = q
    · subst hq
      rw [hp, some_inj] at hQ
      rw [if_pos rfl]
      exact hQ ▸ hmax
    · rw [if_neg hq]
      exact h.backed.uses_le q Q hQ
  · intro b q hc
    rw [hconsumed, Dict.get?_set] at hc
    rw [hpermits]
    by_cases hab : a = b
    · rw [if_pos hab, some_inj] at hc
      exact hc ▸ contains_iff.mpr ⟨P, hp⟩
    · rw [if_neg hab] at hc
      exact h.backed.consumed_permit b q hc
  · intro q hq
    rw [hrevoked] at hq
    rw [hpermits]
    exact h.backed.revoked_permit q hq
  · intro q hq
    rw [hpermits]
    rcases registered_snoc.mp hq with hq | hq
    · exact h.complete.registered q hq
    · have := (isRegistration_iff.mp hq).2.1
      simp [(isConsumption_iff.mp he).2.1] at this
  · intro b q hc
    rw [hconsumed, Dict.get?_set]
    rcases consumedBy_snoc.mp hc with hc | ⟨hc, hq⟩
    · have hb := h.complete.consumed b q hc
      have hab : a ≠ b := by
        rintro rfl
        simp [ha] at hb
      rw [if_neg hab, hb]
    · have hab : a = b := by
        have h₁ := (isConsumption_iff.mp hc).2.2
        rw [(isConsumption_iff.mp he).2.2] at h₁
        exact PyVal.str.inj h₁
      rw [if_pos hab, ← hid, hq]

theorem Backed.revoke {p reason : PyStr} (h : Backed es A) (hp : A.permits.contains p = true) :
    Backed es { A with revoked := A.revoked.set p reason } := by
  refine ⟨h.permit, h.consumed, h.uses, h.uses_le, h.consumed_permit, ?_⟩
  intro q hq
  rw [Dict.contains_iff] at hq
  obtain ⟨r, hr⟩ := hq
  rw [Dict.get?_set] at hr
  by_cases hpq : p = q
  · exact hpq ▸ hp
  · rw [if_neg hpq] at hr
    exact h.revoked_permit q (Dict.contains_iff.mpr ⟨r, hr⟩)

theorem Complete.snoc (h : Complete es A) (hr : ∀ p, isRegistration p e = false)
    (hc : ∀ a, isConsumption a e = false) : Complete (es ++ [e]) A where
  registered p hp := by
    rcases registered_snoc.mp hp with hp | hp
    · exact h.registered p hp
    · rw [hr] at hp
      exact nomatch hp
  consumed a p hp := by
    rcases consumedBy_snoc.mp hp with hp | ⟨hp, -⟩
    · exact h.consumed a p hp
    · rw [hc] at hp
      exact nomatch hp

theorem not_registration_of_type (h : e.eventType ≠ "PERMIT_REGISTERED")
    (p : PyStr) : isRegistration p e = false := by
  simp [isRegistration, h]

theorem not_consumption_of_type (h : e.eventType ≠ "PERMIT_CONSUMED")
    (a : PyStr) : isConsumption a e = false := by
  simp [isConsumption, h]

/-! ### Restart -/

theorem reflects_nil : Reflects [] {} := by
  refine ⟨⟨?_, ?_, fun p => rfl, ?_, ?_, ?_⟩, ?_, ?_⟩ <;>
    simp [Registered, ConsumedBy, Dict.contains]

theorem strictString_ok {v : PyVal} (h : ExecutionPermit.strictString v = .ok s) : v = .str s := by
  cases v with
  | str t =>
    simp only [ExecutionPermit.strictString] at h
    split at h
    · exact nomatch h
    · exact congrArg PyVal.str (Except.ok.inj h)
  | _ => exact nomatch h

theorem reflects_restoreEvent
    (h : Reflects es A) (hkind : e.entityKind = "PERMIT") (hA : restoreEvent A e = some A') :
    Reflects (es ++ [e]) A' := by
  unfold restoreEvent at hA
  by_cases h₁ : e.eventType = "PERMIT_REGISTERED"
  · rw [if_pos h₁] at hA
    split at hA
    swap
    · exact nomatch hA
    split at hA
    · exact nomatch hA
    next P _ =>
    split at hA
    · exact nomatch hA
    next hid =>
    split at hA
    · exact nomatch hA
    next hnew =>
    rw [not_not] at hid
    rw [some_inj] at hA
    subst hA
    refine h.register (P := P) (isRegistration_iff.mpr ⟨hkind, h₁, hid.symm⟩)
      (eq_false_of_ne_true hnew) rfl ?_ rfl rfl
    intro p
    cases hu : A.uses.get? P.permitId with
    | some n => rfl
    | none =>
      simp only [usesOf, Dict.get?_set]
      by_cases hp : P.permitId = p
      · rw [if_pos hp, ← hp, hu]
        rfl
      · rw [if_neg hp]
  rw [if_neg h₁] at hA
  by_cases h₂ : e.eventType = "PERMIT_CONSUMED"
  · rw [if_pos h₂] at hA
    split at hA
    swap
    · exact nomatch hA
    next permitId actionId peerUid intentHash _ haction _ _ =>
    split at hA
    · exact nomatch hA
    next hid =>
    rw [not_not] at hid
    cases hp : A.permits.get? permitId with
    | none => simp [hp] at hA
    | some P =>
      simp only [hp] at hA
      split at hA
      · exact nomatch hA
      next ha =>
      split at hA
      · exact nomatch hA
      split at hA
      · exact nomatch hA
      next hmax =>
      rw [some_inj] at hA
      subst hA
      refine h.consume (isConsumption_iff.mpr ⟨hkind, h₂, strictString_ok haction⟩) hid.symm hp
        (Nat.not_lt.mp hmax) (by simpa [Dict.contains] using ha) rfl ?_ rfl rfl
      intro q
      simp only [usesOf, Dict.get?_set]
      by_cases hq : permitId = q
      · simp [hq]
      · simp [hq]
  rw [if_neg h₂] at hA
  split at hA
  swap
  · exact nomatch hA
  split at hA
  swap
  · exact nomatch hA
  next permitId reason _ _ =>
  split at hA
  · exact nomatch hA
  next hbad =>
  simp only [not_or, not_not, Bool.not_eq_true', Bool.not_eq_false] at hbad
  rw [some_inj] at hA
  subst hA
  refine ⟨(h.backed.mono (subset_append_left _ _)).revoke hbad.2.1, ?_⟩
  have := h.complete.snoc (not_registration_of_type h₁) (not_consumption_of_type h₂)
  exact ⟨this.registered, this.consumed⟩

/-- **A successful restart**: the restored tables reflect the events. -/
theorem reflects_restoreEvents
    (h : Reflects es A) (hkind : ∀ e ∈ es', e.entityKind = "PERMIT")
    (hA : restoreEvents A es' = some A') : Reflects (es ++ es') A' := by
  induction es' generalizing es A with
  | nil =>
    rw [restoreEvents, foldlM_nil] at hA
    rw [append_nil]
    exact some_inj.mp hA ▸ h
  | cons e es' ih =>
    rw [restoreEvents, foldlM_cons, bind_eq_bind, bind_eq_some_iff] at hA
    obtain ⟨A₁, h₁, h₂⟩ := hA
    have := ih (reflects_restoreEvent h (hkind e mem_cons_self) h₁)
      (fun e' he' => hkind e' (mem_cons_of_mem _ he')) h₂
    rwa [append_assoc, singleton_append] at this

variable {L : Ledger}

theorem reflects_of_select
    (h : Reflects (L.select "PERMIT" none) A) : Reflects L.events A := by
  have hsub : L.select "PERMIT" none ⊆ L.events := filter_sublist.subset
  refine ⟨h.backed.mono hsub, ?_, ?_⟩
  · rintro p ⟨e, he, hr⟩
    exact h.complete.registered p ⟨e, mem_select.mpr ⟨he, (isRegistration_iff.mp hr).1, nofun⟩, hr⟩
  · rintro a p ⟨e, he, hc⟩
    exact h.complete.consumed a p ⟨e, mem_select.mpr ⟨he, (isConsumption_iff.mp hc.1).1, nofun⟩, hc⟩

/-! ### The live authority -/

/-- The tables are backed by the ledger, and complete while it is usable. -/
structure Live (L : Ledger) (A : PermitAuthority) : Prop where
  backed : Backed L.events A
  complete : L.Usable → Complete L.events A

theorem Live.withOutcomes (h : Live L A)
    (as : List AppendOutcome) (r : ReadOutcome) : Live (L.withOutcomes as r) A :=
  ⟨h.backed, h.complete⟩

def OnceConsumed (es : List LedgerEvent) : Prop := ∀ a, (consumptions es a).length ≤ 1

def Irrelevant (e : LedgerEvent) : Prop :=
  e.entityKind = "PERMIT" → e.eventType ≠ "PERMIT_REGISTERED" ∧ e.eventType ≠ "PERMIT_CONSUMED"

theorem Irrelevant.stored {e e' : LedgerEvent} (h : Irrelevant e) (hs : Ledger.Stored e e') :
    Irrelevant e' := by
  obtain ⟨ht, hk, -⟩ := hs
  rw [Irrelevant, ht, hk]
  exact h

theorem Irrelevant.not_registration (h : Irrelevant e) (p : PyStr) :
    isRegistration p e = false := by
  rw [← Bool.not_eq_true, isRegistration_iff]
  exact fun hr => (h hr.1).1 hr.2.1

theorem Irrelevant.not_consumption (h : Irrelevant e) (a : PyStr) : isConsumption a e = false := by
  rw [← Bool.not_eq_true, isConsumption_iff]
  exact fun hc => (h hc.1).2 hc.2.1

theorem OnceConsumed.snoc (h : OnceConsumed es)
    (he : ∀ a, isConsumption a e = true → consumptions es a = []) : OnceConsumed (es ++ [e]) := by
  intro a
  rw [consumptions, filter_append, length_append]
  by_cases hc : isConsumption a e = true
  · have := he a hc
    rw [consumptions] at this
    simp [this, hc]
  · simpa [hc, consumptions] using h a

theorem Live.append (h : Live L A) (he : Irrelevant e) : Live (L.append py e).1 A := by
  rcases append_cases py L e with ⟨hu, -, -, e', hs, hev⟩ | ⟨-, hev, hkeep⟩ |
    ⟨-, -, hnu, e', -, hev⟩
  · have he' := he.stored hs
    exact ⟨hev ▸ h.backed.mono (subset_append_left _ _),
      fun _ => hev ▸ (h.complete hu).snoc he'.not_registration he'.not_consumption⟩
  · exact ⟨hev ▸ h.backed, fun hu => hev ▸ h.complete (hkeep hu)⟩
  · exact ⟨hev ▸ h.backed.mono (subset_append_left _ _), fun hu => absurd hu hnu⟩

theorem OnceConsumed.append (h : OnceConsumed L.events) (he : Irrelevant e) :
    OnceConsumed (L.append py e).1.events := by
  have hsnoc : ∀ e', Ledger.Stored e e' → OnceConsumed (L.events ++ [e']) := fun e' hs =>
    h.snoc fun a ha => by simp [(he.stored hs).not_consumption a] at ha
  rcases append_cases py L e with ⟨-, -, -, e', hs, hev⟩ | ⟨-, hev, -⟩ |
    ⟨-, -, -, e', hs, hev⟩
  · exact hev ▸ hsnoc e' hs
  · exact hev ▸ h
  · exact hev ▸ hsnoc e' hs

theorem isRegistration_stored {ctx : Option PyVal.Dictionary}
    (h : Ledger.Stored (registeredEvent P ctx) e) : isRegistration P.permitId e = true :=
  isRegistration_iff.mpr ⟨h.2.1, h.1, h.2.2.1⟩

theorem isConsumption_stored {p ih : PyStr} {peer : PeerCredentials}
    (h : Ledger.Stored (consumedEvent p a peer ih) e) :
    isConsumption a e = true ∧ e.entityId = p := by
  obtain ⟨ht, hk, hid, hpayload⟩ := h
  refine ⟨isConsumption_iff.mpr ⟨hk, ht, ?_⟩, hid⟩
  have : (consumedEvent p a peer ih).payload = e.payload := by
    simpa [consumedEvent, permitEvent, PyVal.canon, PyVal.canonEntries] using hpayload
  rw [← this]
  simp [consumedEvent, permitEvent, PyVal.get]

theorem irrelevant_revokedEvent (p reason : PyStr) : Irrelevant (revokedEvent p reason) :=
  fun _ => ⟨by simp [revokedEvent, permitEvent], by simp [revokedEvent, permitEvent]⟩

/-- The tables only gain entries, and a registered permit never changes. -/
structure Grows (A A' : PermitAuthority) : Prop where
  permit : ∀ p P, A.permits.get? p = some P → A'.permits.get? p = some P
  consumed : ∀ a p, A.consumedActions.get? a = some p → A'.consumedActions.get? a = some p
  revoked : ∀ p, A.revoked.contains p = true → A'.revoked.contains p = true

theorem Grows.refl (A : PermitAuthority) : Grows A A :=
  ⟨fun _ _ h => h, fun _ _ h => h, fun _ h => h⟩

theorem Grows.trans {A B C : PermitAuthority} (h₁ : Grows A B) (h₂ : Grows B C) : Grows A C :=
  ⟨fun p P h => h₂.permit p P (h₁.permit p P h), fun a p h => h₂.consumed a p (h₁.consumed a p h),
    fun p h => h₂.revoked p (h₁.revoked p h)⟩

structure Kept (L : Ledger) (A : PermitAuthority) (L' : Ledger) (A' : PermitAuthority) :
    Prop where
  live : Live L' A'
  once : OnceConsumed L'.events
  grows : Grows A A'
  events : L.events <+: L'.events

/-- An append that raises has stored nothing, or leaves the ledger unusable. -/
theorem kept_of_raised (h : Live L A) (ho : OnceConsumed L.events) {e : LedgerEvent} {L' : Ledger}
    {fault : LedgerFault} (hL : L.append py e = (L', some fault))
    (honce : L.Usable → ∀ e', Ledger.Stored e e' → OnceConsumed (L.events ++ [e'])) :
    Kept L A L' A := by
  have hpre := events_prefix_append py L e
  have hcases := append_cases py L e
  rw [hL] at hpre hcases
  rcases hcases with ⟨-, hn, -⟩ | ⟨-, hev, hkeep⟩ | ⟨hu, -, hnu, e', hs, hev⟩
  · contradiction
  · dsimp only at hev hkeep
    exact ⟨⟨hev ▸ h.backed, fun hu => hev ▸ h.complete (hkeep hu)⟩, hev ▸ ho, .refl A, hpre⟩
  · -- stored although it raised: the ledger is unusable from then on
    dsimp only at hev hnu
    exact ⟨⟨hev ▸ h.backed.mono (subset_append_left _ _), fun hu => absurd hu hnu⟩,
      hev ▸ honce hu e' hs, .refl A, hpre⟩

theorem kept_register (h : Live L A) (ho : OnceConsumed L.events) (P : ExecutionPermit)
    (ctx : Option PyVal.Dictionary) :
    Kept L A (register py L A P ctx).1 (register py L A P ctx).2.1 := by
  unfold register
  cases hp : A.permits.get? P.permitId with
  | some existing => exact ⟨h, ho, .refl A, prefix_refl _⟩
  | none =>
    have hreg : ∀ e, Ledger.Stored (registeredEvent P ctx) e → OnceConsumed (L.events ++ [e]) :=
      fun e hs => ho.snoc fun a ha => by
        have := (isConsumption_iff.mp ha).2.1
        rw [hs.1] at this
        simp [registeredEvent, permitEvent] at this
    rcases hL : L.append py (registeredEvent P ctx) with ⟨L', _ | fault⟩
    · have hret := append_returned (congrArg Prod.snd hL)
      rw [hL] at hret
      obtain ⟨hu, -, e, hs, hev⟩ := hret
      dsimp only at hev ⊢
      have hr : Reflects L'.events { A with
          permits := A.permits.set P.permitId P, uses := A.uses.set P.permitId 0 } := by
        rw [hev]
        have hfresh : A.permits.contains P.permitId = false := by
          simp [Dict.contains, hp]
        refine Reflects.register ⟨h.backed, h.complete hu⟩ (isRegistration_stored hs) hfresh rfl ?_
          rfl rfl
        intro p
        by_cases hpp : P.permitId = p
        · rw [← hpp, h.backed.unused hfresh]
          simp [usesOf]
        · simp [usesOf, Dict.get?_set_of_ne _ _ hpp]
      refine ⟨⟨hr.backed, fun _ => hr.complete⟩, hev ▸ hreg e hs, ⟨?_, fun _ _ hc => hc,
        fun _ hc => hc⟩, ⟨[e], hev.symm⟩⟩
      intro p Q hQ
      have hne : P.permitId ≠ p := by
        rintro rfl
        simp [hp] at hQ
      exact (Dict.get?_set_of_ne _ _ hne).trans hQ
    · exact kept_of_raised py h ho hL fun _ e hs => hreg e hs

theorem kept_authorize (now : DateTime) (h : Live L A) (ho : OnceConsumed L.events)
    (a : ActionEnvelope) (peer : PeerCredentials) :
    Kept L A (authorize py now L A a peer).1 (authorize py now L A a peer).2.1 := by
  have hsame : Kept L A L A := ⟨h, ho, .refl A, prefix_refl _⟩
  -- a consumption is new while the ledger is usable
  have hfresh : L.Usable → A.consumedActions.get? a.actionId = none →
      ∀ {pid ih : PyStr} {e : LedgerEvent}, Ledger.Stored (consumedEvent pid a.actionId peer ih) e →
        OnceConsumed (L.events ++ [e]) := by
    intro hu hnone pid ih e hs
    refine ho.snoc fun b hb => ?_
    have hab : a.actionId = b := by
      have h₁ := (isConsumption_iff.mp hb).2.2
      rw [(isConsumption_iff.mp (isConsumption_stored hs).1).2.2] at h₁
      exact PyVal.str.inj h₁
    rw [consumptions, filter_eq_nil_iff]
    intro e₁ he₁ hc₁
    have := (h.complete hu).consumed b e₁.entityId ⟨e₁, he₁, hc₁, rfl⟩
    rw [← hab, hnone] at this
    contradiction
  have hcases := authorize_cases py now L A a peer
  generalize authorize py now L A a peer = r at hcases ⊢
  cases hcases with
  | denied | raised | replayed => exact hsame
  | @consumed p e L' hm hc hu he hL =>
    subst he
    have hret := append_returned (congrArg Prod.snd hL)
    rw [hL] at hret
    obtain ⟨husable, -, e, hs, hev⟩ := hret
    dsimp only at hev
    have hr : Reflects L'.events { A with
        uses := A.uses.set (approvalIdOf py a) (A.usesOf (approvalIdOf py a) + 1)
        consumedActions := A.consumedActions.set a.actionId (approvalIdOf py a) } := by
      rw [hev]
      refine Reflects.consume ⟨h.backed, h.complete husable⟩ (isConsumption_stored hs).1
        (isConsumption_stored hs).2 hm.registered hu hc rfl ?_ rfl rfl
      intro q
      by_cases hq : approvalIdOf py a = q
      · simp [usesOf, hq]
      · simp [usesOf, Dict.get?_set_of_ne _ _ hq, hq]
    refine ⟨⟨hr.backed, fun _ => hr.complete⟩, hev ▸ hfresh husable hc hs,
      ⟨fun _ _ hp => hp, ?_, fun _ hp => hp⟩, ⟨[e], hev.symm⟩⟩
    intro b q hb
    have hne : a.actionId ≠ b := by
      rintro rfl
      simp [hc] at hb
    exact (Dict.get?_set_of_ne _ _ hne).trans hb
  | @appendRaised p e L' fault hm hc he hL =>
    subst he
    exact kept_of_raised py h ho hL fun hu _ hs => hfresh hu hc hs

theorem kept_revokeLocked (h : Live L A) (ho : OnceConsumed L.events)
    (hp : A.permits.contains p = true) :
    Kept L A (revokeLocked py L A reason p).1 (revokeLocked py L A reason p).2.1 := by
  have hlive := h.append py (irrelevant_revokedEvent p reason)
  refine ⟨⟨hlive.backed.revoke hp, fun hu => ?_⟩, ho.append py (irrelevant_revokedEvent p reason),
    ⟨fun _ _ hq => hq, fun _ _ hq => hq, ?_⟩, Ledger.events_prefix_append ..⟩
  · exact ⟨(hlive.complete hu).registered, (hlive.complete hu).consumed⟩
  · intro q hq
    obtain ⟨r, hr⟩ := Dict.contains_iff.mp hq
    show (A.revoked.set p reason).contains q = true
    rw [Dict.contains_iff, Dict.get?_set]
    by_cases hpq : p = q
    · exact ⟨reason, if_pos hpq⟩
    · exact ⟨r, (if_neg hpq).trans hr⟩

theorem revokeEach_permits (L : Ledger) (A : PermitAuthority) (targets : List PyStr) :
    (revokeEach py reason L A targets).2.1.permits = A.permits := by
  induction targets generalizing L A with
  | nil => rfl
  | cons p targets ih =>
    unfold revokeEach
    rcases hr : revokeLocked py L A reason p with ⟨L', A', _ | fault⟩
    · have : A'.permits = A.permits := by
        have h₂ := congrArg (fun r => r.2.1.permits) hr
        exact h₂.symm
      exact (ih L' A').trans this
    · exact (congrArg (fun r => r.2.1.permits) hr).symm

theorem kept_revokeEach (h : Live L A) (ho : OnceConsumed L.events)
    (ht : ∀ p ∈ targets, A.permits.contains p = true) :
    Kept L A (revokeEach py reason L A targets).1 (revokeEach py reason L A targets).2.1 := by
  induction targets generalizing L A with
  | nil => exact ⟨h, ho, .refl A, prefix_refl _⟩
  | cons p targets ih =>
    have hk := kept_revokeLocked py reason h ho (ht p mem_cons_self)
    have hpermits := revokeEach_permits py reason L A [p]
    unfold revokeEach at hpermits ⊢
    rcases hr : revokeLocked py L A reason p with ⟨L', A', _ | fault⟩
    · rw [hr] at hk hpermits
      dsimp only [revokeEach] at hk hpermits ⊢
      have hk' := ih hk.live hk.once fun q hq =>
        hpermits ▸ ht q (mem_cons_of_mem _ hq)
      exact ⟨hk'.live, hk'.once, hk.grows.trans hk'.grows, hk.events.trans hk'.events⟩
    · rw [hr] at hk
      exact hk

theorem revoked_revokeEach {py : Builtins} {reason : PyStr} {L L' : Ledger}
    (h : revokeEach py reason L A targets = (L', A', none)) :
    (∀ p ∈ targets, A'.revoked.contains p = true) ∧
      ∀ p, A.revoked.contains p = true → A'.revoked.contains p = true := by
  induction targets generalizing L A with
  | nil =>
    simp only [revokeEach, Prod.mk.injEq] at h
    exact ⟨nofun, fun p hp => h.2.1 ▸ hp⟩
  | cons q targets ih =>
    unfold revokeEach at h
    rcases hr : revokeLocked py L A reason q with ⟨L₁, A₁, _ | fault⟩
    · rw [hr] at h
      obtain ⟨h₁, h₂⟩ := ih h
      have hA₁ : A₁.revoked = A.revoked.set q reason := (congrArg (fun r => r.2.1.revoked) hr).symm
      have hkeep : ∀ p, q = p ∨ A.revoked.contains p = true → A₁.revoked.contains p = true := by
        intro p hp
        rw [hA₁, Dict.contains_iff, Dict.get?_set]
        by_cases hqp : q = p
        · exact ⟨reason, if_pos hqp⟩
        · rw [if_neg hqp]
          exact Dict.contains_iff.mp (hp.resolve_left hqp)
      refine ⟨fun p hp => ?_, fun p hp => h₂ p (hkeep p (.inr hp))⟩
      rcases mem_cons.mp hp with rfl | hp
      · exact h₂ p (hkeep p (.inl rfl))
      · exact h₁ p hp
    · rw [hr] at h
      exact nomatch congrArg (fun r => r.2.2) h

theorem contains_of_mem_sessionTargets {sessionId p : PyStr}
    (h : p ∈ A.sessionTargets sessionId) : A.permits.contains p = true := by
  obtain ⟨e, he, rfl⟩ := mem_map.mp h
  exact contains_iff.mpr ⟨e.2, mem_entries_iff.mp (mem_filter.mp he).1⟩

theorem contains_of_mem_allTargets (h : p ∈ A.allTargets) : A.permits.contains p = true :=
  mem_keys_iff.mp (mem_filter.mp h).1

theorem reflects_restored
    (hA : restoreEvents {} (L.select "PERMIT" none) = some A) : Reflects L.events A := by
  have := reflects_restoreEvents reflects_nil (fun e he => (mem_select.mp he).2.1) hA
  exact reflects_of_select (by simpa using this)

theorem open_events (ho : OnceConsumed L.events) :
    OnceConsumed (PermitAuthority.open py L).1.events ∧
      L.events <+: (PermitAuthority.open py L).1.events := by
  unfold PermitAuthority.open
  rcases hread : L.read "PERMIT" none with ⟨L₁, _ | es⟩
  · have := read_events L "PERMIT" none
    rw [hread] at this
    exact ⟨this ▸ ho, this ▸ prefix_refl _⟩
  · obtain ⟨-, rfl, rfl⟩ := read_ok hread
    cases hA : restoreEvents {} (L₁.select "PERMIT" none) with
    | none =>
      simp only [hA]
      exact ⟨ho, prefix_refl _⟩
    | some A₀ =>
      have hreflects := reflects_restored hA
      have hk := kept_revokeEach py "daemon_restart_generation_changed"
        ⟨hreflects.backed, fun _ => hreflects.complete⟩ ho
        fun p (hp : p ∈ A₀.allTargets) => contains_of_mem_allTargets hp
      simp only [hA, revokeAll]
      rcases hr : revokeEach py "daemon_restart_generation_changed" L₁ A₀ A₀.allTargets with
        ⟨L₂, A₂, _ | fault⟩ <;>
      · rw [hr] at hk
        exact ⟨hk.once, hk.events⟩

/-- **A restart** gives tables that reflect the ledger, in which every permit is
revoked. -/
theorem kept_open {py : Builtins} {L L' : Ledger}
    (ho : OnceConsumed L.events) (h : PermitAuthority.open py L = (L', some A)) :
    Live L' A ∧ (∀ p, Registered L.events p → A.permits.contains p = true) ∧
      (∀ a p, ConsumedBy L.events a p → A.consumedActions.get? a = some p) ∧
      ∀ p, A.permits.contains p = true → A.revoked.contains p = true := by
  unfold PermitAuthority.open at h
  rcases hread : L.read "PERMIT" none with ⟨L₁, _ | es⟩
  · simp [hread] at h
  · obtain ⟨-, rfl, rfl⟩ := read_ok hread
    simp only [hread] at h
    cases hA : restoreEvents {} (L₁.select "PERMIT" none) with
    | none => simp [hA] at h
    | some A₀ =>
      simp only [hA] at h
      rcases hr : revokeAll py L₁ A₀ "daemon_restart_generation_changed" with ⟨L₂, A₂, _ | fault⟩
      · simp only [hr, Prod.mk.injEq, some_inj] at h
        obtain ⟨rfl, rfl⟩ := h
        have hreflects := reflects_restored hA
        have hk := kept_revokeEach py "daemon_restart_generation_changed"
          ⟨hreflects.backed, fun _ => hreflects.complete⟩ ho
          fun p (hp : p ∈ A₀.allTargets) => contains_of_mem_allTargets hp
        have hpermits := revokeEach_permits py "daemon_restart_generation_changed" L₁ A₀
          A₀.allTargets
        have hrevoked := revoked_revokeEach hr
        rw [revokeAll] at hr
        rw [hr] at hk hpermits
        dsimp only at hk hpermits
        refine ⟨hk.live, ?_, ?_, ?_⟩
        · intro p hp
          rw [hpermits]
          exact hreflects.complete.registered p hp
        · exact fun a p hp => hk.grows.consumed a p (hreflects.complete.consumed a p hp)
        · intro p hp
          by_cases hrev : A₀.revoked.contains p = true
          · exact hrevoked.2 p hrev
          · refine hrevoked.1 p (mem_filter.mpr ⟨?_, by simpa using hrev⟩)
            rw [hpermits] at hp
            exact mem_keys_iff.mpr hp
      · simp [hr] at h

/-! ### Lives of a ledger -/

/-- A ledger, the authority of the running process if there is one, and what has
happened so far: which permit authorized which action, and which permits have
been revoked. -/
structure PermitState where
  ledger : Ledger
  authority : Option PermitAuthority
  authorized : List (ExecutionPermit × PyStr) := []
  everRevoked : List PyStr := []

/-- One operation, with the answers of the database and the clock; or the death
of the process, or a new one. -/
inductive PermitLabel
  | register (p : ExecutionPermit) (auditContext : Option PyVal.Dictionary)
      (outcomes : List AppendOutcome)
  | authorize (a : ActionEnvelope) (peer : PeerCredentials) (now : DateTime)
      (outcomes : List AppendOutcome)
  | revokeSession (sessionId reason : PyStr) (outcomes : List AppendOutcome)
  | revokeAll (reason : PyStr) (outcomes : List AppendOutcome)
  | crash
  | restart (outcomes : List AppendOutcome) (readOutcome : ReadOutcome)

namespace PermitState

/-- The state after an operation; an append in which the process died leaves no
authority. -/
def settle (s : PermitState) (L : Ledger) (A : PermitAuthority) : PermitState :=
  { s with
    ledger := L
    authority := if L.dead then none else some A
    everRevoked := s.everRevoked ++ A.revoked.keys }

def record (s : PermitState) (py : Builtins) (A : PermitAuthority) (a : ActionEnvelope)
    (r : Except LedgerFault PermitDecision) : PermitState :=
  match r, A.permits.get? (approvalIdOf py a) with
  | .ok d, some p =>
    if d.allowed then { s with authorized := s.authorized ++ [(p, a.actionId)] } else s
  | _, _ => s

def operate (py : Builtins) (s : PermitState) (A : PermitAuthority) : PermitLabel → Option PermitState
  | .register p ctx os =>
    let r := A.register py (s.ledger.withOutcomes os .answered) p ctx
    some (s.settle r.1 r.2.1)
  | .authorize a peer now os =>
    let r := A.authorize py now (s.ledger.withOutcomes os .answered) a peer
    some ((s.settle r.1 r.2.1).record py A a r.2.2)
  | .revokeSession sessionId reason os =>
    let r := A.revokeSession py (s.ledger.withOutcomes os .answered) sessionId reason
    some (s.settle r.1 r.2.1)
  | .revokeAll reason os =>
    let r := A.revokeAll py (s.ledger.withOutcomes os .answered) reason
    some (s.settle r.1 r.2.1)
  | .crash => some { s with authority := none }
  | .restart _ _ => none

def step (py : Builtins) (s : PermitState) (l : PermitLabel) : Option PermitState :=
  match s.authority, l with
  | some A, l => s.operate py A l
  | none, .restart os r =>
    match PermitAuthority.open py (s.ledger.reopen os r) with
    | (L, some A) => some (s.settle L A)
    | (L, none) => some { s with ledger := L }
  | none, _ => none

def actionsOf (s : PermitState) (permitId : PyStr) : List PyStr :=
  ((s.authorized.filter fun e => e.1.permitId = permitId).map Prod.snd).dedup

end PermitState

def permitMachine (py : Builtins) : Machine PermitState PermitLabel where
  Init s := s.authority = none ∧ s.authorized = [] ∧ s.everRevoked = [] ∧
    ∀ e ∈ s.ledger.events, e.entityKind ≠ "PERMIT"
  step := PermitState.step py

namespace PermitState

structure Inv (s : PermitState) : Prop where
  once : OnceConsumed s.ledger.events
  authorized : ∀ P a, (P, a) ∈ s.authorized →
    ConsumedBy s.ledger.events a P.permitId ∧ Registered s.ledger.events P.permitId
  revoked : ∀ p ∈ s.everRevoked, Registered s.ledger.events p
  bound : ∀ P a, (P, a) ∈ s.authorized → (s.actionsOf P.permitId).length ≤ P.maxUses
  alive : ∀ A, s.authority = some A → s.ledger.dead = false
  live : ∀ A, s.authority = some A → Live s.ledger A
  consumed : ∀ A, s.authority = some A → ∀ P a, (P, a) ∈ s.authorized →
    A.consumedActions.get? a = some P.permitId
  permit : ∀ A, s.authority = some A → ∀ P a, (P, a) ∈ s.authorized →
    A.permits.get? P.permitId = some P ∨ A.revoked.contains P.permitId = true
  everRevoked : ∀ A, s.authority = some A → ∀ p ∈ s.everRevoked, A.revoked.contains p = true

variable {py : Builtins} {s : PermitState}

theorem inv_init (h : (permitMachine py).Init s) : s.Inv := by
  obtain ⟨hA, hauth, hrev, hkind⟩ := h
  refine ⟨?_, by simp [hauth], by simp [hrev], by simp [hauth], by simp [hA], by simp [hA],
    by simp [hA], by simp [hA], by simp [hA]⟩
  intro a
  have : consumptions s.ledger.events a = [] := by
    rw [consumptions, filter_eq_nil_iff]
    exact fun e he hc => hkind e he (isConsumption_iff.mp hc).1
  simp [this]

/-- An operation that keeps tables and ledger in step and authorizes nothing new
keeps the invariant. -/
theorem Inv.settle {A A' : PermitAuthority} {L : Ledger} (h : s.Inv)
    (hA : s.authority = some A) (hk : Kept s.ledger A L A') : (s.settle L A').Inv := by
  have hsub : s.ledger.events ⊆ L.events := hk.events.subset
  have hA' : ∀ B, (s.settle L A').authority = some B → B = A' ∧ L.dead = false := by
    intro B hB
    simp only [PermitState.settle] at hB
    split at hB
    · exact nomatch hB
    · next hdead => exact ⟨(some_inj.mp hB).symm, eq_false_of_ne_true hdead⟩
  have hmem : ∀ p, A'.revoked.contains p = true → Registered L.events p := by
    intro p hp
    obtain ⟨P, hP⟩ := contains_iff.mp (hk.live.backed.revoked_permit p hp)
    exact (hk.live.backed.permit p P hP).2
  refine ⟨hk.once, ?_, ?_, h.bound, fun B hB => (hA' B hB).2, ?_, ?_, ?_, ?_⟩
  · intro P a hPa
    exact ⟨(h.authorized P a hPa).1.mono hsub, (h.authorized P a hPa).2.mono hsub⟩
  · intro p hp
    rcases mem_append.mp hp with hp | hp
    · exact (h.revoked p hp).mono hsub
    · exact hmem p (mem_keys_iff.mp hp)
  · intro B hB
    exact (hA' B hB).1 ▸ hk.live
  · intro B hB P a hPa
    exact (hA' B hB).1 ▸ hk.grows.consumed _ _ (h.consumed A hA P a hPa)
  · intro B hB P a hPa
    rw [(hA' B hB).1]
    rcases h.permit A hA P a hPa with hp | hp
    · exact .inl (hk.grows.permit _ _ hp)
    · exact .inr (hk.grows.revoked _ hp)
  · intro B hB p hp
    rw [(hA' B hB).1]
    rcases mem_append.mp hp with hp | hp
    · exact hk.grows.revoked _ (h.everRevoked A hA p hp)
    · exact mem_keys_iff.mp hp

variable {A : PermitAuthority}

variable {P : ExecutionPermit} {a : PyStr} {s' : PermitState}

theorem length_actionsOf_record {p : PyStr}
    (hcons : ∀ Q b, (Q, b) ∈ s.authorized ++ [(P, a)] → A.consumedActions.get? b = some Q.permitId) :
    ({ s with authorized := s.authorized ++ [(P, a)] }.actionsOf p).length
      ≤ (A.consumedActions.keysOf p).length := by
  refine (List.subperm_of_subset (List.nodup_dedup _) ?_).length_le
  intro b hb
  rw [List.mem_dedup, List.mem_map] at hb
  obtain ⟨⟨Q, b'⟩, hQ, rfl⟩ := hb
  rw [List.mem_filter, decide_eq_true_eq] at hQ
  exact mem_keysOf.mpr (hQ.2 ▸ hcons Q b' hQ.1)

theorem Inv.record (h : s.Inv) (hA : s.authority = some A) (hP : A.permits.get? P.permitId = some P)
    (hrev : A.revoked.contains P.permitId = false) (hc : A.consumedActions.get? a = some P.permitId)
    (hmax : A.usesOf P.permitId ≤ P.maxUses) :
    ({ s with authorized := s.authorized ++ [(P, a)] } : PermitState).Inv := by
  have hlive := h.live A hA
  have hcons : ∀ Q b, (Q, b) ∈ s.authorized ++ [(P, a)] →
      A.consumedActions.get? b = some Q.permitId := by
    intro Q b hQ
    rcases mem_append.mp hQ with hQ | hQ
    · exact h.consumed A hA Q b hQ
    · rw [mem_singleton, Prod.mk.injEq] at hQ
      rw [hQ.1, hQ.2, hc]
  refine ⟨h.once, ?_, h.revoked, ?_, h.alive, h.live, ?_, ?_, h.everRevoked⟩
  · intro Q b hQ
    rcases mem_append.mp hQ with hQ | hQ
    · exact h.authorized Q b hQ
    · rw [mem_singleton, Prod.mk.injEq] at hQ
      rw [hQ.1, hQ.2]
      exact ⟨hlive.backed.consumed _ _ hc, (hlive.backed.permit _ _ hP).2⟩
  · intro Q b hQ
    by_cases hid : Q.permitId = P.permitId
    · -- every permit recorded under this id is the registered one
      have hQP : Q = P := by
        rcases mem_append.mp hQ with hQ | hQ
        · rcases h.permit A hA Q b hQ with hp | hp
          · rw [hid, hP, some_inj] at hp
            exact hp.symm
          · rw [hid, hrev] at hp
            exact nomatch hp
        · rw [mem_singleton, Prod.mk.injEq] at hQ
          exact hQ.1
      rw [hQP]
      calc (({ s with authorized := s.authorized ++ [(P, a)] } : PermitState).actionsOf
              P.permitId).length
          ≤ (A.consumedActions.keysOf P.permitId).length := length_actionsOf_record hcons
        _ = A.usesOf P.permitId := (hlive.backed.uses _).symm
        _ ≤ P.maxUses := hmax
    · have hQ' : (Q, b) ∈ s.authorized := by
        rcases mem_append.mp hQ with hQ | hQ
        · exact hQ
        · rw [mem_singleton, Prod.mk.injEq] at hQ
          exact absurd (congrArg (fun R => R.permitId) hQ.1) hid
      have hsame : ({ s with authorized := s.authorized ++ [(P, a)] } : PermitState).actionsOf
          Q.permitId = s.actionsOf Q.permitId := by
        have hid' : P.permitId ≠ Q.permitId := fun e => hid e.symm
        simp [actionsOf, filter_append, hid']
      rw [hsame]
      exact h.bound Q b hQ'
  · intro B hB Q b hQ
    rw [hA, some_inj] at hB
    exact hB ▸ hcons Q b hQ
  · intro B hB Q b hQ
    rw [hA, some_inj] at hB
    subst hB
    rcases mem_append.mp hQ with hQ | hQ
    · exact h.permit A hA Q b hQ
    · rw [mem_singleton, Prod.mk.injEq] at hQ
      exact .inl (hQ.1 ▸ hP)

theorem allowed_authorize {now : DateTime} {L : Ledger}
    {a : ActionEnvelope} {peer : PeerCredentials} {d : PermitDecision} (hlive : Live L A)
    (hr : (authorize py now L A a peer).2.2 = .ok d) (hd : d.allowed = true) :
    ∃ p, Matches py now A a peer p ∧ p.permitId = approvalIdOf py a ∧
      ((authorize py now L A a peer).1 = L ∨ (authorize py now L A a peer).1.dead = false) ∧
      (authorize py now L A a peer).2.1.consumedActions.get? a.actionId = some p.permitId ∧
      (authorize py now L A a peer).2.1.revoked = A.revoked := by
  have hcases := authorize_cases py now L A a peer
  generalize authorize py now L A a peer = r at hr hcases ⊢
  cases hcases with
  | denied h =>
    rw [Except.ok.injEq] at hr
    rw [hr, hd] at h
    exact nomatch h
  | raised | appendRaised => exact nomatch hr
  | @replayed p hm hc =>
    have hid := (hlive.backed.permit _ _ hm.registered).1
    exact ⟨p, hm, hid, .inl rfl, hid ▸ hc, rfl⟩
  | @consumed p e L' hm hc hu he hL =>
    have hid := (hlive.backed.permit _ _ hm.registered).1
    have hret := append_returned (congrArg Prod.snd hL)
    rw [hL] at hret
    refine ⟨p, hm, hid, .inr hret.2.1.2, ?_, rfl⟩
    rw [hid]
    exact Dict.get?_set_self _ _ _

theorem inv_authorize (h : s.Inv) (hA : s.authority = some A) (a : ActionEnvelope)
    (peer : PeerCredentials) (now : DateTime) (os : List AppendOutcome)
    (hs : s.operate py A (.authorize a peer now os) = some s') : s'.Inv := by
  cases hs
  have hlive := (h.live A hA).withOutcomes os .answered
  have hk := kept_authorize py now hlive h.once a peer
  have hsettled := h.settle hA ⟨hk.live, hk.once, hk.grows, hk.events⟩
  unfold PermitState.record
  split
  · next d p hr hp =>
    by_cases hd : d.allowed = true
    · rw [if_pos hd]
      obtain ⟨p', hm, hid, hdead, hc, hrevoked⟩ := allowed_authorize hlive hr hd
      obtain rfl : p' = p := some_inj.mp (hm.registered.symm.trans hp)
      have hreg := hk.grows.permit p'.permitId p' (hid ▸ hm.registered)
      refine hsettled.record ?_ hreg ?_ hc (hk.live.backed.uses_le _ _ hreg)
      · have halive : (authorize py now (s.ledger.withOutcomes os .answered) A a peer).1.dead
            = false := by
          rcases hdead with hdead | hdead
          · rw [hdead]
            exact h.alive A hA
          · exact hdead
        simp [PermitState.settle, halive]
      · rw [hrevoked, hid]
        simp [Dict.contains, hm.unrevoked]
    · rwa [if_neg hd]
  · exact hsettled

theorem inv_restart {L : Ledger} {os : List AppendOutcome} {r : ReadOutcome} (h : s.Inv)
    (ho : PermitAuthority.open py (s.ledger.reopen os r) = (L, some A)) : (s.settle L A).Inv := by
  obtain ⟨hlive, hreg, hcons, hrev⟩ := kept_open (L := s.ledger.reopen os r) h.once ho
  obtain ⟨honce, hpre⟩ := open_events py (L := s.ledger.reopen os r) h.once
  rw [ho] at honce hpre
  have hsub : s.ledger.events ⊆ L.events := hpre.subset
  have hA' : ∀ B, (s.settle L A).authority = some B → B = A ∧ L.dead = false := by
    intro B hB
    simp only [PermitState.settle] at hB
    split at hB
    · exact nomatch hB
    · next hdead => exact ⟨(some_inj.mp hB).symm, eq_false_of_ne_true hdead⟩
  refine ⟨honce, ?_, ?_, h.bound, fun B hB => (hA' B hB).2, ?_, ?_, ?_, ?_⟩
  · intro P a hPa
    exact ⟨(h.authorized P a hPa).1.mono hsub, (h.authorized P a hPa).2.mono hsub⟩
  · intro p hp
    rcases mem_append.mp hp with hp | hp
    · exact (h.revoked p hp).mono hsub
    · obtain ⟨P, hP⟩ := contains_iff.mp (hlive.backed.revoked_permit p (mem_keys_iff.mp hp))
      exact (hlive.backed.permit p P hP).2
  · intro B hB
    exact (hA' B hB).1 ▸ hlive
  · intro B hB P a hPa
    exact (hA' B hB).1 ▸ hcons _ _ (h.authorized P a hPa).1
  · intro B hB P a hPa
    rw [(hA' B hB).1]
    exact .inr (hrev _ (hreg _ (h.authorized P a hPa).2))
  · intro B hB p hp
    rw [(hA' B hB).1]
    rcases mem_append.mp hp with hp | hp
    · exact hrev _ (hreg _ (h.revoked p hp))
    · exact mem_keys_iff.mp hp

theorem Inv.noAuthority {s : PermitState} (h : s.Inv) (hA : s'.authority = none)
    (honce : OnceConsumed s'.ledger.events) (hsub : s.ledger.events ⊆ s'.ledger.events)
    (hauth : s'.authorized = s.authorized) (hrev : s'.everRevoked = s.everRevoked) : s'.Inv := by
  refine ⟨honce, ?_, ?_, ?_, by simp [hA], by simp [hA], by simp [hA], by simp [hA],
    by simp [hA]⟩
  · rw [hauth]
    intro P a hPa
    exact ⟨(h.authorized P a hPa).1.mono hsub, (h.authorized P a hPa).2.mono hsub⟩
  · rw [hrev]
    exact fun p hp => (h.revoked p hp).mono hsub
  · unfold PermitState.actionsOf
    rw [hauth]
    exact h.bound

theorem inv_step {s : PermitState} {l : PermitLabel} (h : s.Inv)
    (hs : PermitState.step py s l = some s') : s'.Inv := by
  unfold PermitState.step at hs
  cases hA : s.authority with
  | some A =>
    simp only [hA] at hs
    have hlive := fun os => (h.live A hA).withOutcomes os .answered
    cases l with
    | register p ctx os =>
      have hk := kept_register py (hlive os) h.once p ctx
      exact some_inj.mp hs ▸ h.settle hA ⟨hk.live, hk.once, hk.grows, hk.events⟩
    | authorize a peer now os => exact inv_authorize h hA a peer now os hs
    | revokeSession sessionId reason os =>
      have hk := kept_revokeEach py reason (hlive os) h.once
        fun p (hp : p ∈ A.sessionTargets sessionId) => contains_of_mem_sessionTargets hp
      exact some_inj.mp hs ▸ h.settle hA ⟨hk.live, hk.once, hk.grows, hk.events⟩
    | revokeAll reason os =>
      have hk := kept_revokeEach py reason (hlive os) h.once
        fun p (hp : p ∈ A.allTargets) => contains_of_mem_allTargets hp
      exact some_inj.mp hs ▸ h.settle hA ⟨hk.live, hk.once, hk.grows, hk.events⟩
    | crash =>
      exact some_inj.mp hs ▸ h.noAuthority rfl h.once (List.Subset.refl _) rfl rfl
    | restart os r => exact nomatch hs
  | none =>
    cases l with
    | restart os r =>
      simp only [hA] at hs
      rcases ho : PermitAuthority.open py (s.ledger.reopen os r) with ⟨L, _ | A⟩
      · rw [ho] at hs
        obtain ⟨honce, hpre⟩ := open_events py (L := s.ledger.reopen os r) h.once
        rw [ho] at honce hpre
        exact some_inj.mp hs ▸ h.noAuthority rfl honce hpre.subset rfl rfl
      · rw [ho] at hs
        exact some_inj.mp hs ▸ inv_restart h ho
    | _ => simp [hA] at hs

theorem inv_of_reachable (h : (permitMachine py).Reachable s) : s.Inv :=
  Machine.ReachableUnder.invariant (fun _ => inv_init) (fun _ _ _ hi _ hs => inv_step hi hs) h

end PermitState

/-- **The laws of permits**, in every state of every life of a ledger.  A permit
authorizes at most `max_uses` distinct actions; an action is bound to one permit,
in the authorizations and in the ledger; authorizing an action that its permit
has already consumed consumes nothing; a permit that was ever revoked authorizes
nothing; and a denied authorization changes neither tables nor ledger. -/
theorem permit_laws (py : Builtins) {s : PermitState} (h : (permitMachine py).Reachable s) :
    (∀ P a, (P, a) ∈ s.authorized → (s.actionsOf P.permitId).length ≤ P.maxUses) ∧
    (∀ P Q a, (P, a) ∈ s.authorized → (Q, a) ∈ s.authorized → P.permitId = Q.permitId) ∧
    (∀ a, (consumptions s.ledger.events a).length ≤ 1) ∧
    ∀ A, s.authority = some A → ∀ (a : ActionEnvelope) (peer : PeerCredentials) (now : DateTime)
      (os : List AppendOutcome),
      let L := s.ledger.withOutcomes os .answered
      let r := A.authorize py now L a peer
      (A.consumedActions.get? a.actionId = some (approvalIdOf py a) → r.1 = L ∧ r.2.1 = A) ∧
      (∀ d, r.2.2 = .ok d → d.allowed = true → approvalIdOf py a ∉ s.everRevoked) ∧
      (∀ d, r.2.2 = .ok d → d.allowed = false → r.1 = L ∧ r.2.1 = A) := by
  have hinv := PermitState.inv_of_reachable h
  refine ⟨hinv.bound, ?_, hinv.once, ?_⟩
  · intro P Q a hP hQ
    obtain ⟨e, he, hce, hide⟩ := (hinv.authorized P a hP).1
    obtain ⟨f, hf, hcf, hidf⟩ := (hinv.authorized Q a hQ).1
    have hlen := hinv.once a
    have he' : e ∈ consumptions s.ledger.events a := List.mem_filter.mpr ⟨he, hce⟩
    have hf' : f ∈ consumptions s.ledger.events a := List.mem_filter.mpr ⟨hf, hcf⟩
    have hef : e = f := by
      rcases hcs : consumptions s.ledger.events a with _ | ⟨g, _ | ⟨g', gs⟩⟩
      · simp [hcs] at he'
      · rw [hcs, List.mem_singleton] at he' hf'
        rw [he', hf']
      · simp [hcs] at hlen
    rw [← hide, ← hidf, hef]
  · intro A hA a peer now os L r
    have hcases := authorize_cases py now L A a peer
    have hr : authorize py now L A a peer = r := rfl
    rw [hr] at hcases
    clear_value r
    refine ⟨fun hc => ?_, fun d hd hallowed hmem => ?_, fun d hd hdenied => ?_⟩
    · cases hcases with
      | denied | raised | replayed => exact ⟨rfl, rfl⟩
      | consumed hm hnone | appendRaised hm hnone => simp [hc] at hnone
    · have hrevoked := hinv.everRevoked A hA _ hmem
      have hm : ∀ {p}, Matches py now A a peer p → False := fun hm => by
        simp [Dict.contains, hm.unrevoked] at hrevoked
      cases hcases with
      | denied h =>
        rw [Except.ok.injEq] at hd
        simp [hd, hallowed] at h
      | raised | appendRaised => contradiction
      | replayed h => exact hm h
      | consumed h => exact hm h
    · cases hcases with
      | denied => exact ⟨rfl, rfl⟩
      | raised | appendRaised => contradiction
      | replayed =>
        rw [Except.ok.injEq] at hd
        simp [← hd, allow] at hdenied
      | consumed =>
        rw [Except.ok.injEq] at hd
        simp [← hd, allow] at hdenied

def onePermitLife : List PermitLabel :=
  [.restart [] .answered, .register (.sample .second) none [],
    .authorize (.sample "a1" ActionEnvelope.isBlank_a1 .real (.str "p") default) ⟨1, 7, 7⟩ default []]

theorem permit_laws_onePermitLife :
    ∃ s, (permitMachine .zero).run ⟨⟨[], false, false, [], .answered⟩, none, [], []⟩ onePermitLife
        = some s ∧
      s.authorized.map (fun e => (e.1.permitId, e.2)) = [(("p" : PyStr), ("a1" : PyStr))] ∧
      ∀ P a, (P, a) ∈ s.authorized → (s.actionsOf P.permitId).length ≤ P.maxUses := by
  have hrun : ((permitMachine .zero).run ⟨⟨[], false, false, [], .answered⟩, none, [], []⟩
      onePermitLife).map (fun s => s.authorized.map fun e => (e.1.permitId, e.2))
        = some [(("p" : PyStr), ("a1" : PyStr))] := by
    rfl
  obtain ⟨s, hs, hauth⟩ := Option.map_eq_some_iff.mp hrun
  have hreach : (permitMachine .zero).Reachable s :=
    Machine.ReachableUnder.of_run ⟨rfl, rfl, rfl, by simp⟩ hs
  exact ⟨s, hs, hauth, (permit_laws .zero hreach).1⟩

end Rosclaw
