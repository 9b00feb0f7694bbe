/-
`DurableEventLog` (`continual/services/persistence.py`): one file for each event, numbered from 1.

An event is on disk once its file is linked.  Then the temporary file is removed and the
directory is synced, which can still fail, and only then does the instance keep the event.
The payload is copied, but not the lists and dictionaries in it.

* `Sound` — the payloads and kinds are plain, nobody changes what is in a payload, and nothing
  raises after the link;
* `LogLaws`, `log_laws` — what then holds in every state of every run;
* `bool_key_breaks` — a payload after which the journal does not open;
* `stuck_until_reopened` — a failure after which nothing is appended any more.
The names of the files have 20 digits, so they sort like their numbers.  A link that was not
synced may be lost in the crash that came before the sync, but not after it was read again.
-/
import Mathlib.Data.List.Forall2
import Rosclaw.Continual.Payload
import Rosclaw.Lib.Machine

namespace Rosclaw.Continual

open Option

/-- `DurableServiceEvent`, with hashes of type `H`. -/
structure Event (H : Type) where
  service : PyStr
  sequence : Nat
  timestampNs : Int
  kind : PyStr
  payload : List (Key × Value)
  previousEventHash : H
  eventHash : H
  schemaVersion : PyStr := "rosclaw.continual.service_event.v1"

/-- What the text of `hash_material` says; its keys are always the same. -/
structure Material (H : Type) where
  schemaVersion : PyStr
  service : PyStr
  sequence : Nat
  timestampNs : Int
  kind : PyStr
  payload : Value
  previousEventHash : H

/-- A journal: its service, and the hash of texts. -/
structure Journal (H : Type) where
  repr : PyFloat → String
  digest : Material H → H
  genesis : H
  service : PyStr
  named : service.isBlank = false
  plain : joined service = service

variable {H : Type}

namespace Journal

variable (j : Journal H)

/-- `canonical_hash(self.hash_material())`. -/
def canonicalHash (e : Event H) : Option H :=
  (dumps j.repr (jsonValue j.repr (.dict e.payload))).map fun w =>
    j.digest ⟨joined e.schemaVersion, joined e.service, e.sequence, e.timestampNs, joined e.kind,
      w, e.previousEventHash⟩

/-- `__post_init__` does not raise. -/
def Valid (e : Event H) : Prop :=
  e.service.isBlank = false ∧ e.kind.isBlank = false ∧ 0 < e.sequence ∧ 0 ≤ e.timestampNs ∧
    j.canonicalHash e = some e.eventHash

instance [DecidableEq H] (e : Event H) : Decidable (j.Valid e) := by
  unfold Valid
  infer_instance

def lastHash (es : List (Event H)) : H := (es.getLast?.map Event.eventHash).getD j.genesis

/-- The event that `append` makes, before its hash. -/
def material (es : List (Event H)) (kind : PyStr) (payload : List (Key × Value))
    (timestampNs : Int) : Event H :=
  ⟨j.service, es.length + 1, timestampNs, kind, payload, j.lastHash es, j.genesis,
    "rosclaw.continual.service_event.v1"⟩

/-- The event that `append` makes, if nothing raises. -/
def make (es : List (Event H)) (kind : PyStr) (payload : List (Key × Value)) (timestampNs : Int) :
    Option (Event H) :=
  if kind.isBlank = false ∧ 0 ≤ timestampNs then
    (j.canonicalHash (j.material es kind payload timestampNs)).map fun h =>
      { j.material es kind payload timestampNs with eventHash := h }
  else none

/-- The event with the texts that `json` writes, and this payload. -/
def written (e : Event H) (payload : List (Key × Value)) : Event H :=
  { e with
    service := joined e.service
    kind := joined e.kind
    schemaVersion := joined e.schemaVersion
    payload := payload }

/-- What is read from the text of `to_dict()`. -/
def file (e : Event H) : Option (Event H) :=
  (dumps j.repr (.dict e.payload)).bind fun
    | .dict kvs => some (written e kvs)
    | _ => none

variable [DecidableEq H]

/-- `_read_events`, from a number and a hash on. -/
def readFrom : Nat → H → List (Event H) → Option (List (Event H))
  | _, _, [] => some []
  | expected, previous, f :: fs =>
      if j.Valid f ∧ f.service = j.service ∧ f.sequence = expected ∧
          f.previousEventHash = previous then
        (readFrom (expected + 1) f.eventHash fs).map (f :: ·)
      else none

def read (files : List (Event H)) : Option (List (Event H)) := j.readFrom 1 j.genesis files

end Journal

/-- The steps of `_atomic_create_json`. -/
inductive CreateStep
  | mkstemp | write | fsync | link | unlink | syncDirectory
deriving DecidableEq, Repr

def CreateStep.linked : CreateStep → Bool
  | .unlink | .syncDirectory => true
  | _ => false

/-- A step that raises, or at which the process ends; `lost` if the link was not synced and is
gone. -/
structure Stop where
  step : CreateStep
  crash : Bool
  lost : Bool

def Stop.linked (t : Stop) : Bool := t.step.linked && !(t.crash && t.lost)

inductive Label
  | append (kind : PyStr) (payload : List (Key × Value)) (timestampNs : Int) (stop : Option Stop)
  | reopen
  /-- whoever also holds the containers in the payloads of the instance changes them -/
  | mutate (change : Nat → Key → Value → Value)

structure State (H : Type) where
  disk : List (Event H)
  /-- the events of the instance, if there is one -/
  memory : Option (List (Event H))
  /-- what the last instance had read and appended -/
  known : List (Event H)
  /-- the last append, if it did not return -/
  last : Option (Event H)

section

variable [DecidableEq H]

/-- `append`, by an instance with these events. -/
def append (j : Journal H) (s : State H) (es : List (Event H)) (kind : PyStr)
    (payload : List (Key × Value)) (timestampNs : Int) (stop : Option Stop) : State H :=
  match j.make es kind payload timestampNs with
  | none => s
  | some e =>
      if e.sequence ≤ s.disk.length then { s with last := some e }
      else match j.file e, stop with
        | none, _ => { s with last := some e }
        | some f, none =>
            { disk := s.disk ++ [f], memory := some (es ++ [e]), known := es ++ [e], last := none }
        | some f, some t =>
            { s with
              disk := if t.linked then s.disk ++ [f] else s.disk
              memory := if t.crash then none else some es
              last := some e }

def reopen (j : Journal H) (s : State H) : State H :=
  { s with
    memory := j.read s.disk
    known := (j.read s.disk).getD s.known
    last := none }

/-- The kind of a container. -/
def Value.container : Value → Option Nat
  | .list _ => some 0
  | .tuple _ => some 1
  | .dict _ => some 2
  | .object _ => some 3
  | _ => Option.none

/-- What the name still holds after a change: a container of the same kind, or what it held. -/
def Value.changed (change : Value → Value) (v : Value) : Value :=
  if v.container.isSome ∧ (change v).container = v.container then change v else v

def Event.changed (change : Key → Value → Value) (e : Event H) : Event H :=
  { e with payload := e.payload.map fun kv => (kv.1, kv.2.changed (change kv.1)) }

def mutate (change : Nat → Key → Value → Value) (s : State H) : State H :=
  { s with memory := s.memory.map fun es => es.mapIdx fun n e => e.changed (change n) }

def log (j : Journal H) : Machine (State H) Label where
  Init s := s = ⟨[], some [], [], none⟩
  step s l := match l with
    | .append kind payload timestampNs stop =>
        s.memory.map fun es => append j s es kind payload timestampNs stop
    | .reopen => some (reopen j s)
    | .mutate change => some (mutate change s)

end

/-! ### The laws -/

/-- The condition on a step. -/
def Sound : Label → Prop
  | .append kind payload _ stop =>
      joined kind = kind ∧ Plain (.dict payload) ∧
        ∀ t ∈ stop, t.step.linked = true → t.crash = true
  | .reopen => True
  | .mutate change => ∀ n k v, change n k v = v

/-- The events are equal, up to the order of the keys. -/
structure Same (e e' : Event H) : Prop where
  service : e.service = e'.service
  sequence : e.sequence = e'.sequence
  timestampNs : e.timestampNs = e'.timestampNs
  kind : e.kind = e'.kind
  payload : norm (.dict e.payload) = norm (.dict e'.payload)
  previousEventHash : e.previousEventHash = e'.previousEventHash
  eventHash : e.eventHash = e'.eventHash
  schemaVersion : e.schemaVersion = e'.schemaVersion

abbrev Alike (es es' : List (Event H)) : Prop := List.Forall₂ Same es es'

/-- What is promised of the log. -/
structure LogLaws [DecidableEq H] (j : Journal H) (s : State H) : Prop where
  /-- A reopening reads what returned, and at most the last append, which did not. -/
  reopens : ∃ es, j.read s.disk = some es ∧
    (Alike es s.known ∨ ∃ e, s.last = some e ∧ Alike es (s.known ++ [e]))
  /-- An instance has the events that a reopening would read. -/
  agrees : ∀ ms, s.memory = some ms → ∃ es, j.read s.disk = some es ∧ Alike es ms
  /-- It can append whatever it accepts, if the disk works. -/
  works : ∀ ms, s.memory = some ms → ∀ kind payload timestampNs e,
    j.make ms kind payload timestampNs = some e → (j.file e).isSome = true →
      ∃ s', (log j).step s (.append kind payload timestampNs none) = some s' ∧
        s'.memory = some (ms ++ [e])

/-! ### One event -/

variable {j : Journal H} {s s' : State H} {e f : Event H} {es ms : List (Event H)}

theorem Same.refl (e : Event H) : Same e e := ⟨rfl, rfl, rfl, rfl, rfl, rfl, rfl, rfl⟩

variable {payload : List (Key × Value)} {timestampNs : Int}

variable {kind : PyStr}

theorem make_eq_some (h : j.make es kind payload timestampNs = some e) :
    e.kind.isBlank = false ∧ 0 ≤ e.timestampNs ∧ e.service = j.service ∧ e.kind = kind ∧
      e.payload = payload ∧ e.sequence = es.length + 1 ∧ e.previousEventHash = j.lastHash es ∧
      e.schemaVersion = "rosclaw.continual.service_event.v1" ∧
      j.canonicalHash e = some e.eventHash := by
  unfold Journal.make at h
  split at h
  · next hvalid =>
    obtain ⟨hash, hhash, rfl⟩ := map_eq_some_iff.mp h
    exact ⟨hvalid.1, hvalid.2, rfl, rfl, rfl, rfl, rfl, rfl, hhash⟩
  · cases h

theorem file_eq_some (h : j.file e = some f) :
    ∃ kvs, dumps j.repr (.dict e.payload) = some (.dict kvs) ∧ f = Journal.written e kvs := by
  obtain ⟨w, hw, h⟩ := bind_eq_some_iff.mp h
  cases w with
  | dict kvs => exact ⟨kvs, hw, (Option.some.inj h).symm⟩
  | _ => cases h

/-- **A plain event is read as it was made.** -/
theorem file_plain (hmake : j.make es kind payload timestampNs = some e) (hfile : j.file e = some f)
    (hkind : joined kind = kind) (hpayload : Plain (.dict payload)) :
    j.Valid f ∧ f.service = j.service ∧ Same f e := by
  obtain ⟨hblank, htime, hservice, rfl, rfl, hseq, -, hschema, hhash⟩ := make_eq_some hmake
  obtain ⟨kvs, hw, rfl⟩ := file_eq_some hfile
  have hnamed : joined e.service = e.service := by rw [hservice, j.plain]
  have htag : joined e.schemaVersion = e.schemaVersion := by rw [hschema, joined_ofString]
  have hsame : j.canonicalHash (Journal.written e kvs) = j.canonicalHash e := by
    have hread : jsonValue j.repr (.dict kvs) = .dict kvs := jsonValue_plain (plain_of_dumps hw)
    simp only [Journal.canonicalHash, Journal.written, hread, dumps_dumps hpayload hw,
      jsonValue_plain hpayload, hw, map_some, joined_joined]
  refine ⟨⟨?_, ?_, ?_, htime, hsame.trans hhash⟩, hnamed.trans hservice, ?_⟩
  · show (joined e.service).isBlank = false
    rw [hnamed, hservice]
    exact j.named
  · show (joined e.kind).isBlank = false
    rw [hkind]
    exact hblank
  · show 0 < e.sequence
    omega
  · exact ⟨hnamed, rfl, rfl, hkind, (norm_dumps_iff hw).mpr hpayload, rfl, rfl, htag⟩

theorem lastHash_alike (h : Alike es ms) : j.lastHash es = j.lastHash ms := by
  have hhashes : es.map Event.eventHash = ms.map Event.eventHash :=
    List.forall₂_eq_eq_eq ▸ (List.forall₂_map_left_iff.mpr
      (List.forall₂_map_right_iff.mpr (h.imp fun _ _ hsame => hsame.eventHash)))
  rw [Journal.lastHash, Journal.lastHash, ← List.getLast?_map, ← List.getLast?_map, hhashes]

theorem alike_refl (es : List (Event H)) : Alike es es := by
  induction es with
  | nil => exact .nil
  | cons e es ih => exact .cons (.refl e) ih

theorem Alike.snoc (h : Alike es ms) (hsame : Same f e) : Alike (es ++ [f]) (ms ++ [e]) :=
  List.rel_append h (.cons hsame .nil)

/-! ### Reading -/

variable [DecidableEq H]

theorem readFrom_snoc {fs : List (Event H)} {n : Nat} {h : H}
    (hread : j.readFrom n h fs = some fs) (hvalid : j.Valid f) (hservice : f.service = j.service)
    (hseq : f.sequence = n + fs.length)
    (hprev : f.previousEventHash = (fs.getLast?.map Event.eventHash).getD h) :
    j.readFrom n h (fs ++ [f]) = some (fs ++ [f]) := by
  induction fs generalizing n h with
  | nil =>
    rw [List.nil_append, Journal.readFrom, if_pos ⟨hvalid, hservice, hseq, hprev⟩]
    rfl
  | cons g fs ih =>
    rw [Journal.readFrom] at hread
    split at hread
    · next hg =>
      obtain ⟨rs, hrs, heq⟩ := map_eq_some_iff.mp hread
      rw [(List.cons.inj heq).2] at hrs
      have hlast : f.previousEventHash = (fs.getLast?.map Event.eventHash).getD g.eventHash := by
        rw [hprev, List.getLast?_cons]
        cases fs.getLast? <;> rfl
      have hnext : f.sequence = n + 1 + fs.length := by
        rw [hseq, List.length_cons]
        omega
      rw [List.cons_append, Journal.readFrom, if_pos hg, ih hrs hnext hlast, map_some]
    · cases hread

theorem read_snoc (hread : j.read es = some es) (hvalid : j.Valid f)
    (hservice : f.service = j.service) (hseq : f.sequence = es.length + 1)
    (hprev : f.previousEventHash = j.lastHash es) : j.read (es ++ [f]) = some (es ++ [f]) :=
  readFrom_snoc hread hvalid hservice (by rw [hseq]; omega) hprev


/-! ### Runs -/

/-- The directory can be read, and an instance has what is in it. -/
structure Inv (j : Journal H) (s : State H) : Prop where
  readable : j.read s.disk = some s.disk
  held : ∀ ms, s.memory = some ms → Alike s.disk ms ∧ s.known = ms
  lost : s.memory = none →
    Alike s.disk s.known ∨ ∃ e, s.last = some e ∧ Alike s.disk (s.known ++ [e])

theorem Inv.not_exists (hs : Inv j s) (hm : s.memory = some ms)
    (hmake : j.make ms kind payload timestampNs = some e) : ¬ e.sequence ≤ s.disk.length := by
  obtain ⟨-, -, -, -, -, hseq, -⟩ := make_eq_some hmake
  have hlen : s.disk.length = ms.length := (hs.held ms hm).1.length_eq
  omega

theorem inv_append (hs : Inv j s) (hm : s.memory = some ms) {stop : Option Stop}
    (hsound : Sound (.append kind payload timestampNs stop)) :
    Inv j (append j s ms kind payload timestampNs stop) := by
  obtain ⟨hkind, hpayload, hstop⟩ := hsound
  obtain ⟨halike, hknown⟩ := hs.held ms hm
  have hfailed : ∀ e, Inv j { s with last := some e } := fun e =>
    ⟨hs.readable, hs.held, fun hnone => by rw [hm] at hnone; cases hnone⟩
  unfold append
  cases hmake : j.make ms kind payload timestampNs with
  | none => exact hs
  | some e =>
    show Inv j (if e.sequence ≤ s.disk.length then _ else _)
    rw [if_neg (hs.not_exists hm hmake)]
    cases hfile : j.file e with
    | none => exact hfailed e
    | some f =>
      obtain ⟨-, -, -, -, -, hseq, hprev, -⟩ := make_eq_some hmake
      obtain ⟨hvalid, hservice, hsame⟩ := file_plain hmake hfile hkind hpayload
      have hread : j.read (s.disk ++ [f]) = some (s.disk ++ [f]) := by
        refine read_snoc hs.readable hvalid hservice ?_ ?_
        · rw [hsame.sequence, hseq, halike.length_eq]
        · rw [hsame.previousEventHash, hprev, lastHash_alike halike]
      cases stop with
      | none =>
        refine ⟨hread, fun ms' hms' => ?_, fun hnone => by cases hnone⟩
        cases hms'
        exact ⟨halike.snoc hsame, rfl⟩
      | some t =>
        cases hlinked : t.linked with
        | true =>
          have hcrash : t.crash = true := by
            refine hstop t rfl ?_
            rw [Stop.linked, Bool.and_eq_true] at hlinked
            exact hlinked.1
          refine ⟨?_, fun ms' hms' => ?_, fun _ => .inr ⟨e, rfl, ?_⟩⟩
          · show j.read (if t.linked then _ else _) = some (if t.linked then _ else _)
            rw [hlinked]
            exact hread
          · have hgone : (if t.crash then none else some ms) = some ms' := hms'
            rw [hcrash] at hgone
            cases hgone
          · show Alike (if t.linked then s.disk ++ [f] else s.disk) (s.known ++ [e])
            rw [hlinked, hknown]
            exact halike.snoc hsame
        | false =>
          -- the disk is as it was
          show Inv j ⟨if t.linked then s.disk ++ [f] else s.disk,
            if t.crash then none else some ms, s.known, some e⟩
          rw [hlinked]
          refine ⟨hs.readable, fun ms' hms' => ?_, fun _ => .inl (hknown ▸ halike)⟩
          have hkept : (if t.crash then none else some ms) = some ms' := hms'
          cases hc : t.crash with
          | true =>
            rw [hc] at hkept
            cases hkept
          | false =>
            rw [hc] at hkept
            cases hkept
            exact ⟨halike, hknown⟩

omit [DecidableEq H] in
theorem mutate_self {change : Nat → Key → Value → Value} (h : ∀ n k v, change n k v = v)
    (s : State H) : mutate change s = s := by
  have hvalue : ∀ n (kv : Key × Value), (kv.1, kv.2.changed (change n kv.1)) = kv := by
    intro n kv
    rw [Value.changed, h, ite_self]
  have hevent : ∀ n (e : Event H), e.changed (change n) = e := by
    intro n e
    rw [Event.changed, List.map_id'' (hvalue n)]
  have hevents : ∀ es : List (Event H), es.mapIdx (fun n e => e.changed (change n)) = es := by
    intro es
    refine List.ext_getElem List.length_mapIdx fun n _ _ => ?_
    rw [List.getElem_mapIdx, hevent]
  rw [mutate, Option.map_congr fun es _ => hevents es, Option.map_id']

theorem inv_step (l : Label) (hs : Inv j s) (hsound : Sound l) (hstep : (log j).step s l = some s') :
    Inv j s' := by
  cases l with
  | append kind payload timestampNs stop =>
    obtain ⟨ms, hm, rfl⟩ := map_eq_some_iff.mp hstep
    exact inv_append hs hm hsound
  | reopen =>
    cases hstep
    refine ⟨hs.readable, fun ms hms => ?_, fun hnone => ?_⟩
    · have hread : j.read s.disk = some ms := hms
      obtain rfl : s.disk = ms := Option.some.inj (hs.readable.symm.trans hread)
      refine ⟨alike_refl s.disk, ?_⟩
      show (j.read s.disk).getD s.known = s.disk
      rw [hs.readable]
      rfl
    · have hread : j.read s.disk = none := hnone
      rw [hs.readable] at hread
      cases hread
  | mutate change =>
    cases hstep
    rw [mutate_self hsound]
    exact hs

theorem Inv.laws (hs : Inv j s) : LogLaws j s := by
  refine ⟨⟨s.disk, hs.readable, ?_⟩, fun ms hm => ⟨s.disk, hs.readable, (hs.held ms hm).1⟩, ?_⟩
  · cases hm : s.memory with
    | none => exact hs.lost hm
    | some ms =>
      obtain ⟨halike, hknown⟩ := hs.held ms hm
      exact .inl (hknown ▸ halike)
  · intro ms hm kind payload timestampNs e hmake hfile
    obtain ⟨f, hf⟩ := isSome_iff_exists.mp hfile
    refine ⟨append j s ms kind payload timestampNs none, ?_, ?_⟩
    · show s.memory.map _ = _
      rw [hm, map_some]
    · unfold append
      rw [hmake]
      show (if e.sequence ≤ s.disk.length then _ else _ : State H).memory = _
      rw [if_neg (hs.not_exists hm hmake), hf]

/-- **In every run of sound steps the journal opens, with what was appended.** -/
theorem log_laws (j : Journal H) {s : State H}
    (hs : (log j).ReachableUnder (fun _ l => Sound l) s) : LogLaws j s := by
  have hinv : Inv j s := by
    refine hs.invariant (P := Inv j) ?_ fun s l s' h hsound hstep => inv_step l h hsound hstep
    rintro s rfl
    refine ⟨rfl, fun ms hm => ?_, fun hnone => by cases hnone⟩
    obtain rfl := Option.some.inj hm
    exact ⟨.nil, rfl⟩
  exact hinv.laws

def sampleJournal : Journal PyStr where
  repr := fun _ => "0.0"
  digest := fun m => match m.payload with
    | .dict ((.str k, _) :: _) => k
    | _ => ""
  genesis := ""
  service := "learner"
  named := rfl
  plain := rfl

def emptyLog : State PyStr := ⟨[], some [], [], none⟩

/-- The second append crashes after its link. -/
theorem log_laws_crash :
    ∃ s, s.disk.length = 2 ∧ s.memory.isSome = true ∧ LogLaws sampleJournal s := by
  have hplain : Plain (.dict [(.str "mode", .int 1)]) := by
    simp [Plain, PlainEntries, Key.plain]
  have h₀ : (log sampleJournal).ReachableUnder (fun _ l => Sound l) emptyLog := .init rfl
  have hset : Sound (.append "set" [(.str "mode", .int 1)] 5 none) :=
    ⟨rfl, hplain, fun t ht => by cases ht⟩
  have hcrash : Sound (.append "set" [(.str "mode", .int 1)] 6
      (some ⟨.syncDirectory, true, false⟩)) := by
    refine ⟨rfl, hplain, fun t ht _ => ?_⟩
    obtain rfl := Option.some.inj ht
    rfl
  have hopen : Sound .reopen := trivial
  have h₃ := ((h₀.step hset rfl).step hcrash rfl).step hopen rfl
  exact ⟨_, rfl, rfl, log_laws sampleJournal h₃⟩

/-- **A key that is `True` when it is hashed and `true` when it is read.** -/
theorem bool_key_breaks :
    ∃ s, (log sampleJournal).Reachable s ∧ ¬ LogLaws sampleJournal s := by
  obtain ⟨s, hrun, hread⟩ : ∃ s,
      (log sampleJournal).run emptyLog [.append "set" [(.bool true, .int 1)] 5 none] = some s ∧
        sampleJournal.read s.disk = none := ⟨_, rfl, rfl⟩
  refine ⟨s, .of_run rfl hrun, fun hlaws => ?_⟩
  obtain ⟨es, hes, -⟩ := hlaws.reopens
  rw [hread] at hes
  cases hes

/-! ### An instance that is behind -/

/-- The instance has as many events as the directory. -/
def InStep (s : State H) : Prop := ∀ ms, s.memory = some ms → ms.length = s.disk.length

/-- Nothing raises between the link and the return of `append`; a crash there is calm. -/
def Calm : Label → Prop
  | .append _ _ _ stop => ∀ t ∈ stop, t.step.linked = true → t.crash = true
  | .reopen | .mutate _ => True

def Label.isAppend : Label → Bool
  | .append _ _ _ _ => true
  | _ => false

theorem length_readFrom {n : Nat} {h : H} {fs : List (Event H)}
    (hread : j.readFrom n h fs = some es) : es.length = fs.length := by
  induction fs generalizing n h es with
  | nil =>
    cases hread
    rfl
  | cons f fs ih =>
    rw [Journal.readFrom] at hread
    split at hread
    · obtain ⟨rest, hrest, rfl⟩ := map_eq_some_iff.mp hread
      rw [List.length_cons, List.length_cons, ih hrest]
    · cases hread

theorem inStep_reopen (j : Journal H) (s : State H) : InStep (reopen j s) :=
  fun _ hms => length_readFrom hms

omit [DecidableEq H] in
theorem inStep_mutate (hs : InStep s) (change : Nat → Key → Value → Value) :
    InStep (mutate change s) := by
  intro ms hms
  obtain ⟨es, hes, rfl⟩ := map_eq_some_iff.mp hms
  rw [List.length_mapIdx]
  exact hs es hes

omit [DecidableEq H] in
theorem inStep_append (hs : InStep s) (hm : s.memory = some ms) {stop : Option Stop}
    (hcalm : ∀ t ∈ stop, t.step.linked = true → t.crash = true) :
    InStep (append j s ms kind payload timestampNs stop) := by
  have hlength := hs ms hm
  unfold append
  split
  · exact hs
  split
  · exact hs
  split
  · exact hs
  · intro es hes
    cases hes
    rw [List.length_append, List.length_append, hlength]
    rfl
  · next t _ =>
    intro es hes
    dsimp only at hes ⊢
    split at hes
    · cases hes
    · next hcrash =>
      cases hes
      have hlinked : t.linked = false := by
        rw [Stop.linked, Bool.eq_false_iff.mpr fun h => hcrash (hcalm t rfl h), Bool.false_and]
      rw [hlinked, if_neg Bool.false_ne_true]
      exact hlength

theorem inStep_of_reachable (h : (log j).ReachableUnder (fun _ l => Calm l) s) : InStep s := by
  refine h.invariant ?_ fun s l s' hs hcalm hstep => ?_
  · rintro _ rfl ms hms
    cases hms
    rfl
  · cases l with
    | reopen =>
      cases hstep
      exact inStep_reopen j s
    | mutate change =>
      cases hstep
      exact inStep_mutate hs change
    | append kind payload timestampNs stop =>
      obtain ⟨ms, hms, rfl⟩ := map_eq_some_iff.mp hstep
      exact inStep_append hs hms hcalm

omit [DecidableEq H] in
/-- The file of the next number is there already. -/
theorem append_behind (hbehind : ms.length < s.disk.length) (kind : PyStr)
    (payload : List (Key × Value)) (timestampNs : Int) (stop : Option Stop) :
    (append j s ms kind payload timestampNs stop).memory = s.memory ∧
      (append j s ms kind payload timestampNs stop).disk = s.disk := by
  unfold append
  cases hmake : j.make ms kind payload timestampNs with
  | none => exact ⟨rfl, rfl⟩
  | some e =>
    obtain ⟨-, -, -, -, -, hseq, -⟩ := make_eq_some hmake
    have hexists : e.sequence ≤ s.disk.length := by
      rw [hseq]
      exact hbehind
    dsimp only
    rw [if_pos hexists]
    exact ⟨rfl, rfl⟩

/-- **An instance that is behind appends nothing more.**  As long as nothing raises between the
link of an event and the return of `append`, an instance has as many events as the directory.  If
an append then leaves it behind, no later one adds an event, to the instance or to the directory;
a new instance is in step again, or does not open. -/
theorem stuck_until_reopened {s₁ : State H} {stop : Option Stop}
    (hs : (log j).ReachableUnder (fun _ l => Calm l) s)
    (hstep : (log j).step s (.append kind payload timestampNs stop) = some s₁)
    (hrun : (log j).PathUnder (fun _ l => l.isAppend = true) s₁ s') :
    InStep s ∧ (Calm (.append kind payload timestampNs stop) → InStep s₁) ∧
      ((∃ ms, s₁.memory = some ms ∧ ms.length < s₁.disk.length) →
        s'.memory = s₁.memory ∧ s'.disk = s₁.disk) ∧ InStep (reopen j s') := by
  refine ⟨inStep_of_reachable hs, fun hcalm => inStep_of_reachable (hs.step hcalm hstep), ?_,
    inStep_reopen j s'⟩
  rintro ⟨ms, hms, hbehind⟩
  induction hrun with
  | refl => exact ⟨rfl, rfl⟩
  | @step s₂ s₃ l _ hl hstep' ih =>
    obtain ⟨hmemory, hdisk⟩ := ih
    cases l with
    | reopen => cases hl
    | mutate change => cases hl
    | append kind payload timestampNs stop =>
      obtain ⟨es, hes, rfl⟩ := map_eq_some_iff.mp hstep'
      obtain rfl := Option.some.inj (hes.symm.trans (hmemory.trans hms))
      have hkept := append_behind (j := j) (s := s₂) (by rwa [hdisk]) kind payload timestampNs stop
      exact ⟨hkept.1.trans hmemory, hkept.2.trans hdisk⟩

/-- After a sync that failed the instance lacks the event. -/
theorem stuck_until_reopened_unsynced :
    ∃ s₁ s', (log sampleJournal).step emptyLog
        (.append "set" [(.str "mode", .int 1)] 5 (some ⟨.syncDirectory, false, false⟩)) = some s₁ ∧
      (log sampleJournal).step s₁ (.append "set" [(.str "mode", .int 2)] 6 none) = some s' ∧
      s'.memory = some [] ∧ s'.disk = s₁.disk ∧ s₁.disk.length = 1 := by
  obtain ⟨s₁, s', hfirst, hsecond, hmemory, hdisk⟩ : ∃ s₁ s', (log sampleJournal).step emptyLog
        (.append "set" [(.str "mode", .int 1)] 5 (some ⟨.syncDirectory, false, false⟩)) = some s₁ ∧
      (log sampleJournal).step s₁ (.append "set" [(.str "mode", .int 2)] 6 none) = some s' ∧
      s₁.memory = some [] ∧ s₁.disk.length = 1 := ⟨_, _, rfl, rfl, rfl, rfl⟩
  have hlaws := stuck_until_reopened (.init rfl) hfirst (.step .refl rfl hsecond)
  obtain ⟨hmemory', hdisk'⟩ := hlaws.2.2.1 ⟨[], hmemory, hdisk ▸ Nat.one_pos⟩
  exact ⟨s₁, s', hfirst, hsecond, hmemory'.trans hmemory, hdisk', hdisk⟩

end Rosclaw.Continual
