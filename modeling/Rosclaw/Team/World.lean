/-
The shared world model: deltas of many sources, merged as they arrive.

An object is what its newest observation says it is, whatever the order in which the
observations arrive; and what is known of a source does not get older.  A delta that removes an
object leaves no trace of when it did, and the time of a source is that of its last delta.  So
this holds of every order of arrival only for deltas that do not come close to either.

* `Converges` — every order of arrival leaves the newest of each object, and no source goes
  back;
* `Decided`, `Steady` — the deltas for which it does: of the newest deltas of an object all say
  the same, and if they do not delete it, no older one does; and a source does not observe twice;
* `converges_iff` — it does for these and for no others.
-/
import Mathlib.Algebra.Field.Rat
import Mathlib.Algebra.Order.Field.Basic
import Mathlib.Algebra.Order.Ring.Rat
import Mathlib.Data.List.Induction
import Mathlib.Data.List.Perm.Basic
import Rosclaw.Lib.DateTime
import Rosclaw.Lib.Dict

namespace Rosclaw.Team

open List Option

/-- `ObjectState`; `D` is what it says of the object. -/
structure ObjectState (D : Type) where
  objectId : PyStr
  tombstone : Bool
  data : D
deriving DecidableEq

/-- `SharedWorldDeltaV1`, as it is merged. -/
structure WorldDelta (D : Type) where
  sourceMember : PyStr
  observedAt : PyStr
  maxAgeMs : Int
  worldRevision : Int
  objects : List (ObjectState D)

inductive WorldError
  | valueError (observedAt : PyStr)
  | clockSkew (sourceMember : PyStr) (skewMicros toleranceMs maxAgeMs : Int)

/-- `object …: stale observation ignored (existing from …)`. -/
structure StaleWarning where
  objectId : PyStr
  existing : DateTime

structure WorldModel (D : Type) where
  objects : Dict PyStr (DateTime × ObjectState D) := ∅
  sources : Dict PyStr DateTime := ∅
  worldRevision : Int := 0
  toleranceMs : Int := 500

variable {D : Type}

structure Merging (D : Type) where
  objects : Dict PyStr (DateTime × ObjectState D)
  warnings : List StaleWarning := []
  changed : Bool := false

def Merging.take [DecidableEq D] (observed : DateTime) (m : Merging D) (obj : ObjectState D) : Merging D :=
  if obj.tombstone then
    { m with
      objects := m.objects.erase obj.objectId
      changed := m.changed || (m.objects.get? obj.objectId).isSome }
  else
    match m.objects.get? obj.objectId with
    | some existing =>
        if observed.instant < existing.1.instant then
          { m with warnings := m.warnings ++ [⟨obj.objectId, existing.1⟩] }
        else
          { m with
            objects := m.objects.set obj.objectId (observed, obj)
            changed := m.changed || existing.2 ≠ obj }
    | none => { m with objects := m.objects.set obj.objectId (observed, obj), changed := true }

def WorldDelta.timely (d : WorldDelta D) (toleranceMs : Int) (observed now : DateTime) : Bool :=
  (now.instant - observed.instant).natAbs ≤ (toleranceMs + d.maxAgeMs) * 1000

def WorldModel.mergeDelta [DecidableEq D] (w : WorldModel D) (d : WorldDelta D) (now : DateTime) :
    Except WorldError (WorldModel D × List StaleWarning) :=
  match DateTime.parse (some 0) d.observedAt with
  | none => .error (.valueError d.observedAt)
  | some observed =>
      if d.timely w.toleranceMs observed now then
        let m := d.objects.foldl (Merging.take observed) { objects := w.objects }
        .ok ({ w with
          objects := m.objects
          sources := w.sources.set d.sourceMember observed
          worldRevision := if m.changed then max (w.worldRevision + 1) d.worldRevision
            else w.worldRevision }, m.warnings)
      else .error (.clockSkew d.sourceMember (now.instant - observed.instant).natAbs
        w.toleranceMs d.maxAgeMs)

/-- Deltas, each at its own time, in the order in which they arrive. -/
def WorldModel.mergeAll [DecidableEq D] (w : WorldModel D) :
    List (WorldDelta D × DateTime) → Except WorldError (WorldModel D)
  | [] => .ok w
  | (d, now) :: ms =>
      match w.mergeDelta d now with
      | .ok (w', _) => w'.mergeAll ms
      | .error e => .error e

/-! ### What a delta does to an object -/

def put (observed : DateTime) (slot : Option (DateTime × ObjectState D)) (obj : ObjectState D) :
    Option (DateTime × ObjectState D) :=
  if obj.tombstone then none
  else if slot.any fun e => observed.instant < e.1.instant then slot
  else some (observed, obj)

def WorldDelta.about (d : WorldDelta D) (id : PyStr) : List (ObjectState D) :=
  d.objects.filter fun obj => obj.objectId = id

/-- What it says last; `none` inside is a deletion. -/
def WorldDelta.verdict (d : WorldDelta D) (id : PyStr) : Option (Option (ObjectState D)) :=
  (d.about id).getLast?.map fun obj => if obj.tombstone then none else some obj

def WorldDelta.clears (d : WorldDelta D) (id : PyStr) : Bool := (d.about id).any fun obj => obj.tombstone

def WorldDelta.observed (d : WorldDelta D) : DateTime := (DateTime.parse (some 0) d.observedAt).getD default

variable {now : DateTime} {warnings : List StaleWarning} (d : WorldDelta D) (observed : DateTime)
  (objs : List (ObjectState D)) (m : Merging D) (obj : ObjectState D) (id : PyStr)
  (slot : Option (DateTime × ObjectState D))

theorem get?_take [DecidableEq D] : (m.take observed obj).objects.get? id =
      if obj.objectId = id then put observed (m.objects.get? id) obj else m.objects.get? id := by
  unfold Merging.take put
  by_cases hid : obj.objectId = id
  · subst hid
    rw [if_pos rfl]
    split
    · rw [Dict.get?_erase, if_pos rfl]
    · split
      · next existing hexisting =>
        rw [hexisting]
        by_cases hlt : observed.instant < existing.1.instant
        · simp [hlt, hexisting]
        · simp [hlt]
      · next hnone => simp [hnone]
  · rw [if_neg hid]
    split
    · rw [Dict.get?_erase, if_neg hid]
    · split
      · split
        · rfl
        · exact Dict.get?_set_of_ne _ _ hid
      · exact Dict.get?_set_of_ne _ _ hid

theorem get?_takeAll [DecidableEq D] : (objs.foldl (Merging.take observed) m).objects.get? id =
      (objs.filter fun obj => obj.objectId = id).foldl (put observed) (m.objects.get? id) := by
  induction objs generalizing m with
  | nil => rfl
  | cons obj objs ih =>
    rw [foldl_cons, ih, get?_take]
    by_cases hid : obj.objectId = id
    · rw [if_pos hid, filter_cons_of_pos (by simpa using hid), foldl_cons]
    · rw [if_neg hid, filter_cons_of_neg (by simpa using hid)]

/-- Entries of one time: the last one stands, unless none of them deletes and the object has
been seen later. -/
theorem foldl_put : (objs ++ [obj]).foldl (put observed) slot = if obj.tombstone then none
      else if (objs.any fun o => o.tombstone) = false ∧ slot.any fun e => observed.instant < e.1.instant
        then slot
      else some (observed, obj) := by
  induction objs generalizing slot with
  | nil =>
    show put observed slot obj = _
    simp [put]
  | cons o objs ih =>
    rw [cons_append, foldl_cons, ih, any_cons]
    cases hobj : obj.tombstone with
    | true => rfl
    | false =>
      cases ho : o.tombstone with
      | true => simp [put, ho]
      | false =>
        by_cases hlater : slot.any fun e => observed.instant < e.1.instant
        · simp [put, ho, hlater]
        · simp [put, ho, hlater]

/-- A delta acts on an object by what it says last, unless the object has been seen later and
the delta does not delete it on the way. -/
def WorldDelta.act (d : WorldDelta D) (id : PyStr) (slot : Option (DateTime × ObjectState D)) :
    Option (DateTime × ObjectState D) := (d.about id).foldl (put d.observed) slot

theorem act_eq : d.act id slot = match d.verdict id with
      | none => slot
      | some none => none
      | some (some obj) =>
          if d.clears id = false ∧ slot.any fun e => d.observed.instant < e.1.instant then slot
          else some (d.observed, obj) := by
  unfold WorldDelta.act WorldDelta.verdict WorldDelta.clears
  induction d.about id using List.reverseRecOn with
  | nil => rfl
  | append_singleton objs obj _ =>
    rw [foldl_put, List.getLast?_concat, map_some, any_append]
    cases htombstone : obj.tombstone <;> simp [htombstone]

/-! ### Merging many deltas -/

def fresh (D : Type) (toleranceMs : Int) : WorldModel D := { toleranceMs }

def slotAfter (ds : List (WorldDelta D)) (id : PyStr) (slot : Option (DateTime × ObjectState D)) :
    Option (DateTime × ObjectState D) := ds.foldl (fun slot d => d.act id slot) slot

variable {w w' : WorldModel D}

theorem mergeDelta_ok [DecidableEq D] {d : WorldDelta D}
    (h : w.mergeDelta d now = .ok (w', warnings)) :
    (∀ id, w'.objects.get? id = d.act id (w.objects.get? id)) ∧
      w'.sources = w.sources.set d.sourceMember d.observed ∧ w'.toleranceMs = w.toleranceMs := by
  unfold WorldModel.mergeDelta at h
  split at h
  · cases h
  · next observed hparse =>
    have hobserved : d.observed = observed := by rw [WorldDelta.observed, hparse]; rfl
    split at h
    · obtain ⟨rfl, -⟩ := Prod.mk.inj (Except.ok.inj h)
      refine ⟨fun id => ?_, by rw [hobserved], rfl⟩
      rw [WorldDelta.act, hobserved]
      exact get?_takeAll observed d.objects _ id
    · cases h

variable {ms : List (WorldDelta D × DateTime)}

theorem mergeAll_cons_ok [DecidableEq D] {d : WorldDelta D}
    (h : w.mergeAll ((d, now) :: ms) = .ok w') :
    ∃ w₁ warnings, w.mergeDelta d now = .ok (w₁, warnings) ∧ w₁.mergeAll ms = .ok w' := by
  rw [WorldModel.mergeAll] at h
  split at h
  · next w₁ warnings hmerge => exact ⟨w₁, warnings, hmerge, h⟩
  · cases h

theorem get?_mergeAll [DecidableEq D] (h : w.mergeAll ms = .ok w') (id : PyStr) :
    w'.objects.get? id = slotAfter (ms.map Prod.fst) id (w.objects.get? id) := by
  induction ms generalizing w with
  | nil =>
    cases h
    rfl
  | cons m ms ih =>
    obtain ⟨d, now⟩ := m
    obtain ⟨w₁, warnings, hmerge, hrest⟩ := mergeAll_cons_ok h
    rw [ih hrest, (mergeDelta_ok hmerge).1 id]
    rfl

def Mergeable (toleranceMs : Int) (d : WorldDelta D) : Prop :=
  ∃ observed now, DateTime.parse (some 0) d.observedAt = some observed ∧
    d.timely toleranceMs observed now = true

theorem mergeDelta_of_mergeable [DecidableEq D] {w : WorldModel D} {d : WorldDelta D}
    (h : Mergeable w.toleranceMs d) : ∃ now w' warnings, w.mergeDelta d now = .ok (w', warnings) := by
  obtain ⟨observed, now, hparse, htimely⟩ := h
  unfold WorldModel.mergeDelta
  rw [hparse]
  refine ⟨now, ?_⟩
  dsimp only
  rw [if_pos htimely]
  exact ⟨_, _, rfl⟩

theorem exists_run [DecidableEq D] {ds : List (WorldDelta D)} {w : WorldModel D}
    (h : ∀ d ∈ ds, Mergeable w.toleranceMs d) :
    ∃ ms w', ms.map Prod.fst = ds ∧ w.mergeAll ms = .ok w' := by
  induction ds generalizing w with
  | nil => exact ⟨[], w, rfl, rfl⟩
  | cons d ds ih =>
    obtain ⟨now, w₁, warnings, hmerge⟩ := mergeDelta_of_mergeable (h d mem_cons_self)
    have htolerance := (mergeDelta_ok hmerge).2.2
    obtain ⟨ms, w', hmap, hrun⟩ := ih (w := w₁) fun d' hd' => by
      rw [htolerance]
      exact h d' (mem_cons_of_mem _ hd')
    refine ⟨(d, now) :: ms, w', by rw [map_cons, hmap], ?_⟩
    rw [WorldModel.mergeAll, hmerge]
    exact hrun

theorem toleranceMs_mergeAll [DecidableEq D] (h : w.mergeAll ms = .ok w') :
    w'.toleranceMs = w.toleranceMs := by
  induction ms generalizing w with
  | nil =>
    cases h
    rfl
  | cons m ms ih =>
    obtain ⟨w₁, warnings, hmerge, hrest⟩ := mergeAll_cons_ok h
    rw [ih hrest, (mergeDelta_ok hmerge).2.2]

theorem mergeAll_snoc [DecidableEq D] {w w₁ w₂ : WorldModel D} {d : WorldDelta D}
    (h : w.mergeAll ms = .ok w₁) (hmerge : w₁.mergeDelta d now = .ok (w₂, warnings)) :
    w.mergeAll (ms ++ [(d, now)]) = .ok w₂ := by
  induction ms generalizing w with
  | nil =>
    cases h
    rw [nil_append, WorldModel.mergeAll, hmerge]
    rfl
  | cons m ms ih =>
    obtain ⟨w₀, warnings₀, hmerge₀, hrest⟩ := mergeAll_cons_ok h
    rw [cons_append, WorldModel.mergeAll, hmerge₀]
    exact ih hrest

/-! ### What the order of arrival must not matter for -/

def WorldModel.object (w : WorldModel D) (id : PyStr) : Option (Int × ObjectState D) :=
  (w.objects.get? id).map fun e => (e.1.instant, e.2)

def WorldDelta.IsNewest (d : WorldDelta D) (ds : List (WorldDelta D)) (id : PyStr) : Prop :=
  ∀ d' ∈ ds, d'.verdict id ≠ none → d'.observed.instant ≤ d.observed.instant

def Newest (ds : List (WorldDelta D)) (id : PyStr) (known : Option (Int × ObjectState D)) : Prop :=
  (known = none ∧ ∀ d ∈ ds, d.verdict id = none) ∨
    ∃ d ∈ ds, d.IsNewest ds id ∧ d.verdict id = some (known.map Prod.snd) ∧
      ∀ e, known = some e → e.1 = d.observed.instant

/-- The deltas may arrive in any order, each in its time. -/
structure Converges [DecidableEq D] (toleranceMs : Int) (ds : List (WorldDelta D)) : Prop where
  same : ∀ ms ms' w w', (ms.map Prod.fst).Perm ds → (ms'.map Prod.fst).Perm ds →
    (fresh D toleranceMs).mergeAll ms = .ok w → (fresh D toleranceMs).mergeAll ms' = .ok w' →
    ∀ id, w.object id = w'.object id
  newest : ∀ ms w, (ms.map Prod.fst).Perm ds → (fresh D toleranceMs).mergeAll ms = .ok w →
    ∀ id, Newest ds id (w.object id)
  forward : ∀ pre d now post w w' warnings, ((pre ++ (d, now) :: post).map Prod.fst).Perm ds →
    (fresh D toleranceMs).mergeAll pre = .ok w → w.mergeDelta d now = .ok (w', warnings) →
    ∀ member t, w.sources.get? member = some t →
      ∃ t', w'.sources.get? member = some t' ∧ t.instant ≤ t'.instant

/-- All deltas that mention the object delete it; or the newest ones leave the same of it, and
the others do not delete it. -/
def Decided (ds : List (WorldDelta D)) (id : PyStr) : Prop :=
  (∀ d ∈ ds, ∀ obj, d.verdict id ≠ some (some obj)) ∨
    ∃ obj, ∀ d ∈ ds, (d.IsNewest ds id → d.verdict id = none ∨ d.verdict id = some (some obj)) ∧
      (¬ d.IsNewest ds id → d.clears id = false)

def Steady (ds : List (WorldDelta D)) : Prop :=
  ∀ d ∈ ds, ∀ d' ∈ ds, d.sourceMember = d'.sourceMember → d.observed.instant = d'.observed.instant

/-! ### The deltas that converge -/

section Laws

variable {ds ps : List (WorldDelta D)} {id : PyStr} {toleranceMs : Int}

theorem slotAfter_snoc (ps : List (WorldDelta D)) (d : WorldDelta D) (id : PyStr)
    (slot : Option (DateTime × ObjectState D)) :
    slotAfter (ps ++ [d]) id slot = d.act id (slotAfter ps id slot) := by
  rw [slotAfter, foldl_append]
  rfl

variable {d : WorldDelta D} {known known' : Option (Int × ObjectState D)}

theorem clears_of_verdict_none (h : d.verdict id = none) : d.clears id = false := by
  have hnil : d.about id = [] := by
    rwa [WorldDelta.verdict, map_eq_none_iff, List.getLast?_eq_none_iff] at h
  rw [WorldDelta.clears, hnil]
  rfl

theorem clears_of_verdict_deleted (h : d.verdict id = some none) : d.clears id = true := by
  obtain ⟨obj, hlast, hobj⟩ := map_eq_some_iff.mp h
  refine any_eq_true.mpr ⟨obj, mem_of_getLast? hlast, ?_⟩
  by_contra htombstone
  rw [if_neg htombstone] at hobj
  cases hobj

theorem slot_origin {e : DateTime × ObjectState D} (h : slotAfter ps id none = some e) :
    ∃ d ∈ ps, d.verdict id ≠ none ∧ e.1 = d.observed := by
  induction ps using List.reverseRecOn with
  | nil => cases h
  | append_singleton ps d ih =>
    have hold : slotAfter ps id none = some e →
        ∃ d' ∈ ps ++ [d], d'.verdict id ≠ none ∧ e.1 = d'.observed := by
      intro hslot
      obtain ⟨d', hmem, hd'⟩ := ih hslot
      exact ⟨d', mem_append_left _ hmem, hd'⟩
    rw [slotAfter_snoc, act_eq] at h
    split at h
    · exact hold h
    · cases h
    · next hverdict =>
      split at h
      · exact hold h
      · cases h
        exact ⟨d, by simp, by rw [hverdict]; simp, rfl⟩

theorem slot_deleted (h : ∀ d ∈ ps, ∀ obj, d.verdict id ≠ some (some obj)) :
    slotAfter ps id none = none := by
  induction ps using List.reverseRecOn with
  | nil => rfl
  | append_singleton ps d ih =>
    have hrest := ih fun d' hd' => h d' (mem_append_left _ hd')
    rw [slotAfter_snoc, hrest, act_eq]
    split
    · rfl
    · rfl
    · next obj hverdict => exact absurd hverdict (h d (by simp) obj)

theorem exists_newest (h : ∃ d ∈ ds, d.verdict id ≠ none) :
    ∃ d ∈ ds, d.verdict id ≠ none ∧ d.IsNewest ds id := by
  induction ds with
  | nil =>
    obtain ⟨d, hd, -⟩ := h
    cases hd
  | cons d ds ih =>
    by_cases hrest : ∃ d' ∈ ds, d'.verdict id ≠ none
    · obtain ⟨d', hd', hmentions', hnewest'⟩ := ih hrest
      by_cases hlater : d.verdict id ≠ none ∧ d'.observed.instant < d.observed.instant
      · refine ⟨d, mem_cons_self, hlater.1, fun d₁ hd₁ hmentions₁ => ?_⟩
        rcases mem_cons.mp hd₁ with rfl | hd₁
        · exact Int.le_refl _
        · exact (hnewest' d₁ hd₁ hmentions₁).trans hlater.2.le
      · refine ⟨d', mem_cons_of_mem _ hd', hmentions', fun d₁ hd₁ hmentions₁ => ?_⟩
        rcases mem_cons.mp hd₁ with rfl | hd₁
        · exact not_lt.mp fun hlt => hlater ⟨hmentions₁, hlt⟩
        · exact hnewest' d₁ hd₁ hmentions₁
    · have honly : ∀ d₁ ∈ d :: ds, d₁.verdict id ≠ none → d₁ = d := by
        intro d₁ hd₁ hmentions₁
        rcases mem_cons.mp hd₁ with rfl | hd₁
        · rfl
        · exact absurd ⟨d₁, hd₁, hmentions₁⟩ hrest
      obtain ⟨d', hd', hmentions'⟩ := h
      obtain rfl := honly d' hd' hmentions'
      refine ⟨d', hd', hmentions', fun d₁ hd₁ hmentions₁ => ?_⟩
      rw [honly d₁ hd₁ hmentions₁]

theorem slot_newest {obj : ObjectState D} (hps : ∀ d ∈ ps, d ∈ ds)
    (hobj : ∀ d ∈ ds, (d.IsNewest ds id → d.verdict id = none ∨ d.verdict id = some (some obj)) ∧
      (¬ d.IsNewest ds id → d.clears id = false)) (hd : d ∈ ps) (hmentions : d.verdict id ≠ none)
    (hnewest : d.IsNewest ds id) :
    ∃ t, slotAfter ps id none = some (t, obj) ∧ t.instant = d.observed.instant := by
  induction ps using List.reverseRecOn with
  | nil => cases hd
  | append_singleton ps d₁ ih =>
    have hrest : ∀ d' ∈ ps, d' ∈ ds := fun d' hd' => hps d' (mem_append_left _ hd')
    have hd₁ : d₁ ∈ ds := hps d₁ (by simp)
    have hd' : d ∈ ds := hps d hd
    rw [slotAfter_snoc, act_eq]
    by_cases hnewest₁ : d₁.IsNewest ds id
    · rcases (hobj d₁ hd₁).1 hnewest₁ with hverdict | hverdict
      · -- it does not mention the object, and is not the one
        rw [hverdict]
        rcases mem_append.mp hd with hmem | hmem
        · exact ih hrest hmem
        · obtain rfl := mem_singleton.mp hmem
          exact absurd hverdict hmentions
      · rw [hverdict]
        have hsame : d₁.observed.instant = d.observed.instant := by
          have h₁ := hnewest d₁ hd₁ (by rw [hverdict]; simp)
          have h₂ := hnewest₁ d hd' hmentions
          omega
        dsimp only
        rw [if_neg]
        · exact ⟨d₁.observed, rfl, hsame⟩
        · rintro ⟨-, hlater⟩
          obtain ⟨e, hslot, hlt⟩ := (any_eq_true _ _).mp hlater
          obtain ⟨d₂, hd₂, hmentions₂, heq⟩ := slot_origin hslot
          have hle := hnewest₁ d₂ (hrest d₂ hd₂) hmentions₂
          rw [decide_eq_true_eq, heq] at hlt
          omega
    · -- an older delta comes too late
      have hmem : d ∈ ps := by
        rcases mem_append.mp hd with hmem | hmem
        · exact hmem
        · exact absurd (mem_singleton.mp hmem ▸ hnewest) hnewest₁
      obtain ⟨t, hslot, ht⟩ := ih hrest hmem
      have hclears := (hobj d₁ hd₁).2 hnewest₁
      have hlt : d₁.observed.instant < d.observed.instant := by
        by_contra hge
        exact hnewest₁ fun d₂ hd₂ h₂ => (hnewest d₂ hd₂ h₂).trans (not_lt.mp hge)
      split
      · exact ⟨t, hslot, ht⟩
      · next hverdict =>
        rw [clears_of_verdict_deleted hverdict] at hclears
        cases hclears
      · rw [if_pos]
        · exact ⟨t, hslot, ht⟩
        · refine ⟨hclears, ?_⟩
          rw [hslot, any_some, decide_eq_true_eq, ht]
          exact hlt

theorem newest_of_decided (hdecided : Decided ds id) (hperm : ps.Perm ds) :
    Newest ds id ((slotAfter ps id none).map fun e => (e.1.instant, e.2)) := by
  by_cases hmentions : ∃ d ∈ ds, d.verdict id ≠ none
  · obtain ⟨d, hd, hmentions, hnewest⟩ := exists_newest hmentions
    rcases hdecided with hdeleted | ⟨obj, hobj⟩
    · rw [slot_deleted fun d' hd' => hdeleted d' (hperm.mem_iff.mp hd')]
      refine .inr ⟨d, hd, hnewest, ?_, by simp⟩
      cases hverdict : d.verdict id with
      | none => exact absurd hverdict hmentions
      | some v =>
        cases v with
        | none => rfl
        | some obj => exact absurd hverdict (hdeleted d hd obj)
    · obtain ⟨t, hslot, ht⟩ := slot_newest (fun d' hd' => hperm.mem_iff.mp hd') hobj
        (hperm.mem_iff.mpr hd) hmentions hnewest
      rw [hslot]
      refine .inr ⟨d, hd, hnewest, ?_, ?_⟩
      · exact ((hobj d hd).1 hnewest).resolve_left hmentions
      · rintro e he
        cases he
        exact ht
  · refine .inl ⟨?_, fun d hd => by_contra fun h => hmentions ⟨d, hd, h⟩⟩
    cases hslot : slotAfter ps id none with
    | none => rfl
    | some e =>
      obtain ⟨d, hd, hverdict, -⟩ := slot_origin hslot
      exact absurd ⟨d, hperm.mem_iff.mp hd, hverdict⟩ hmentions

theorem Newest.unique (hdecided : Decided ds id) (h : Newest ds id known)
    (h' : Newest ds id known') : known = known' := by
  rcases h with ⟨rfl, hnone⟩ | ⟨d, hd, hnewest, hverdict, htime⟩
  · rcases h' with ⟨rfl, -⟩ | ⟨d', hd', -, hverdict', -⟩
    · rfl
    · rw [hnone d' hd'] at hverdict'
      cases hverdict'
  rcases h' with ⟨rfl, hnone⟩ | ⟨d', hd', hnewest', hverdict', htime'⟩
  · rw [hnone d hd] at hverdict
    cases hverdict
  rcases hdecided with hdeleted | ⟨obj, hobj⟩
  · have hgone : ∀ {d : WorldDelta D} {known : Option (Int × ObjectState D)}, d ∈ ds →
        d.verdict id = some (known.map Prod.snd) → known = none := by
      intro d known hd hverdict
      cases known with
      | none => rfl
      | some e => exact absurd hverdict (hdeleted d hd e.2)
    rw [hgone hd hverdict, hgone hd' hverdict']
  · have hleft : ∀ {d : WorldDelta D} {known : Option (Int × ObjectState D)}, d ∈ ds →
        d.IsNewest ds id → d.verdict id = some (known.map Prod.snd) →
        (∀ e, known = some e → e.1 = d.observed.instant) →
        known = some (d.observed.instant, obj) := by
      intro d known hd hnewest hverdict htime
      rcases (hobj d hd).1 hnewest with hnone | hsome
      · rw [hnone] at hverdict
        cases hverdict
      · rw [hsome, some_inj] at hverdict
        obtain ⟨e, rfl, he⟩ := map_eq_some_iff.mp hverdict.symm
        rw [← htime e rfl, ← he]
    have hsame : d.observed.instant = d'.observed.instant := by
      have h₁ := hnewest d' hd' (by rw [hverdict']; simp)
      have h₂ := hnewest' d hd (by rw [hverdict]; simp)
      omega
    rw [hleft hd hnewest hverdict htime, hleft hd' hnewest' hverdict' htime', hsame]

theorem exists_last (hd : d ∈ ds) : ∃ ps, (ps ++ [d]).Perm ds := by
  obtain ⟨l₁, l₂, rfl⟩ := append_of_mem hd
  exact ⟨l₁ ++ l₂, (perm_append_singleton d _).trans perm_middle.symm⟩

theorem decided_of_newest (hsame : ∀ ps ps', List.Perm ps ds → List.Perm ps' ds →
      (slotAfter ps id none).map (fun e => (e.1.instant, e.2)) =
        (slotAfter ps' id none).map fun e => (e.1.instant, e.2))
    (hnewest : ∀ ps, List.Perm ps ds →
      Newest ds id ((slotAfter ps id none).map fun e => (e.1.instant, e.2))) : Decided ds id := by
  -- what an order leaves whose last delta is `d`
  have hlast : ∀ d ∈ ds, ∃ ps, (∀ d' ∈ ps, d' ∈ ds) ∧
      (d.act id (slotAfter ps id none)).map (fun e => (e.1.instant, e.2)) =
        (slotAfter ds id none).map fun e => (e.1.instant, e.2) := by
    intro d hd
    obtain ⟨ps, hperm⟩ := exists_last hd
    refine ⟨ps, fun d' hd' => hperm.mem_iff.mp (mem_append_left _ hd'), ?_⟩
    rw [← slotAfter_snoc]
    exact hsame _ _ hperm (List.Perm.refl ds)
  cases hslot : slotAfter ds id none with
  | none =>
    refine .inl fun d hd obj hverdict => ?_
    obtain ⟨ps, -, hleft⟩ := hlast d hd
    rw [hslot, act_eq, hverdict] at hleft
    dsimp only at hleft
    split at hleft
    · next hlater =>
      obtain ⟨e, he, -⟩ := (any_eq_true _ _).mp hlater.2
      rw [he] at hleft
      cases hleft
    · cases hleft
  | some e =>
    have hfinal := hnewest ds (List.Perm.refl ds)
    rw [hslot] at hfinal
    rcases hfinal with ⟨hnone, -⟩ | ⟨d₀, hd₀, hnewest₀, -, htime₀⟩
    · cases hnone
    refine .inr ⟨e.2, fun d hd => ⟨fun hnew => ?_, fun hold => ?_⟩⟩
    · obtain ⟨ps, hps, hleft⟩ := hlast d hd
      rw [hslot, act_eq] at hleft
      cases hverdict : d.verdict id with
      | none => exact .inl rfl
      | some v =>
        rw [hverdict] at hleft
        cases v with
        | none => cases hleft
        | some obj =>
          dsimp only at hleft
          split at hleft
          · next hlater =>
            -- nothing is later than a newest delta
            obtain ⟨e', he', hlt⟩ := (any_eq_true _ _).mp hlater.2
            obtain ⟨d', hd', hmentions', heq⟩ := slot_origin he'
            have hle := hnew d' (hps d' hd') hmentions'
            rw [decide_eq_true_eq, heq] at hlt
            omega
          · obtain ⟨-, hobj⟩ := Prod.mk.inj (some_inj.mp hleft)
            exact .inr (by rw [← hobj])
    · by_contra hclears
      rw [Bool.not_eq_false] at hclears
      obtain ⟨ps, -, hleft⟩ := hlast d hd
      rw [hslot, act_eq] at hleft
      cases hverdict : d.verdict id with
      | none =>
        rw [clears_of_verdict_none hverdict] at hclears
        cases hclears
      | some v =>
        rw [hverdict] at hleft
        cases v with
        | none => cases hleft
        | some obj =>
          dsimp only at hleft
          rw [if_neg fun h => by rw [hclears] at h; cases h.1] at hleft
          obtain ⟨htime, -⟩ := Prod.mk.inj (some_inj.mp hleft)
          have htime₀' : e.1.instant = d₀.observed.instant := htime₀ _ rfl
          exact hold fun d' hd' hmentions' => by
            rw [htime, htime₀']
            exact hnewest₀ d' hd' hmentions'

/-! ### The sources -/

theorem sources_mergeAll [DecidableEq D] {w w' : WorldModel D} {ms : List (WorldDelta D × DateTime)}
    (h : w.mergeAll ms = .ok w') (member : PyStr) :
    w'.sources.get? member = w.sources.get? member ∨
      ∃ d ∈ ms.map Prod.fst, d.sourceMember = member ∧ w'.sources.get? member = some d.observed := by
  induction ms generalizing w with
  | nil =>
    cases h
    exact .inl rfl
  | cons m ms ih =>
    obtain ⟨d, now⟩ := m
    obtain ⟨w₁, warnings, hmerge, hrest⟩ := mergeAll_cons_ok h
    rcases ih hrest with hsame | ⟨d', hd', hmember, hget⟩
    · rw [hsame, (mergeDelta_ok hmerge).2.1]
      by_cases hmember : d.sourceMember = member
      · subst hmember
        exact .inr ⟨d, mem_cons_self, rfl, Dict.get?_set_self ..⟩
      · exact .inl (Dict.get?_set_of_ne _ _ hmember)
    · exact .inr ⟨d', mem_cons_of_mem _ hd', hmember, hget⟩

theorem steady_of_forward [DecidableEq D] (hmergeable : ∀ d ∈ ds, Mergeable toleranceMs d)
    (hconverges : Converges toleranceMs ds) : Steady ds := by
  have hle : ∀ d ∈ ds, ∀ d' ∈ ds, d.sourceMember = d'.sourceMember →
      d'.observed.instant ≤ d.observed.instant := by
    intro d hd d' hd' hsource
    by_contra hlt
    obtain ⟨ps, hperm⟩ := exists_last hd
    have hmem : d' ∈ ps := by
      rcases mem_append.mp (hperm.mem_iff.mpr hd') with hmem | hmem
      · exact hmem
      · obtain rfl := mem_singleton.mp hmem
        exact absurd (Int.le_refl _) hlt
    obtain ⟨qs, hperm'⟩ := exists_last hmem
    have hds : ∀ d₁ ∈ qs ++ [d'], d₁ ∈ ds := fun d₁ hd₁ =>
      hperm.mem_iff.mp (mem_append_left _ (hperm'.mem_iff.mp hd₁))
    -- the newer delta, and then the older one
    obtain ⟨ms, w₀, hmap, hrun⟩ := exists_run (w := fresh D toleranceMs) fun d₁ hd₁ =>
      hmergeable d₁ (hds d₁ (mem_append_left _ hd₁))
    obtain ⟨now', w₁, warnings', hmerge'⟩ := mergeDelta_of_mergeable (w := w₀) (d := d') (by
      rw [toleranceMs_mergeAll hrun]
      exact hmergeable d' hd')
    obtain ⟨now, w₂, warnings, hmerge⟩ := mergeDelta_of_mergeable (w := w₁) (d := d) (by
      rw [(mergeDelta_ok hmerge').2.2, toleranceMs_mergeAll hrun]
      exact hmergeable d hd)
    have horder : ((ms ++ [(d', now')] ++ [(d, now)]).map Prod.fst).Perm ds := by
      rw [map_append, map_append, hmap]
      exact (hperm'.append_right [d]).trans hperm
    have hbefore : w₁.sources.get? d.sourceMember = some d'.observed := by
      rw [(mergeDelta_ok hmerge').2.1, hsource]
      exact Dict.get?_set_self ..
    obtain ⟨t, ht, hforward⟩ := hconverges.forward _ d now [] w₁ w₂ warnings horder
      (mergeAll_snoc hrun hmerge') hmerge _ _ hbefore
    rw [(mergeDelta_ok hmerge).2.1, Dict.get?_set_self, some_inj] at ht
    rw [← ht] at hforward
    exact hlt hforward
  intro d hd d' hd' hsource
  exact Int.le_antisymm (hle d' hd' d hd hsource.symm) (hle d hd d' hd' hsource)

/-- **Deltas converge if and only if every object is decided and every source steady.** -/
theorem converges_iff [DecidableEq D] (toleranceMs : Int) (ds : List (WorldDelta D))
    (hmergeable : ∀ d ∈ ds, Mergeable toleranceMs d) :
    Converges toleranceMs ds ↔ (∀ id, Decided ds id) ∧ Steady ds := by
  have hobject : ∀ {ms w}, (fresh D toleranceMs).mergeAll ms = .ok w → ∀ id,
      w.object id = (slotAfter (ms.map Prod.fst) id none).map fun e => (e.1.instant, e.2) := by
    intro ms w hrun id
    rw [WorldModel.object, get?_mergeAll hrun id]
    rfl
  constructor
  · intro h
    refine ⟨fun id => ?_, steady_of_forward hmergeable h⟩
    have hrun : ∀ ps, ps.Perm ds → ∃ ms w, ms.map Prod.fst = ps ∧
        (fresh D toleranceMs).mergeAll ms = .ok w := fun ps hperm =>
      exists_run fun d hd => hmergeable d (hperm.mem_iff.mp hd)
    refine decided_of_newest (fun ps ps' hperm hperm' => ?_) fun ps hperm => ?_
    · obtain ⟨ms, w, rfl, hok⟩ := hrun ps hperm
      obtain ⟨ms', w', rfl, hok'⟩ := hrun ps' hperm'
      rw [← hobject hok id, ← hobject hok' id]
      exact h.same ms ms' w w' hperm hperm' hok hok' id
    · obtain ⟨ms, w, rfl, hok⟩ := hrun ps hperm
      rw [← hobject hok id]
      exact h.newest ms w hperm hok id
  · rintro ⟨hdecided, hsteady⟩
    have hnewest : ∀ ms w, (ms.map Prod.fst).Perm ds → (fresh D toleranceMs).mergeAll ms = .ok w →
        ∀ id, Newest ds id (w.object id) := by
      intro ms w hperm hrun id
      rw [hobject hrun id]
      exact newest_of_decided (hdecided id) hperm
    refine ⟨fun ms ms' w w' hperm hperm' hrun hrun' id => ?_, hnewest, ?_⟩
    · exact (hnewest ms w hperm hrun id).unique (hdecided id) (hnewest ms' w' hperm' hrun' id)
    · intro pre d now post w w' warnings hperm hrun hmerge member t ht
      have hd : d ∈ ds := hperm.mem_iff.mp (by simp)
      rw [(mergeDelta_ok hmerge).2.1]
      by_cases hmember : d.sourceMember = member
      · subst hmember
        refine ⟨d.observed, Dict.get?_set_self .., ?_⟩
        rcases sources_mergeAll hrun d.sourceMember with hsame | ⟨d', hd', hsource, hget⟩
        · rw [hsame] at ht
          cases ht
        · rw [hget, Option.some_inj] at ht
          have hmem : d' ∈ ds := hperm.mem_iff.mp (by
            rw [List.map_append]
            exact List.mem_append_left _ hd')
          rw [← ht]
          exact (hsteady d' hmem d hd hsource).le
      · exact ⟨t, (Dict.get?_set_of_ne _ _ hmember).trans ht, Int.le_refl _⟩

end Laws

/-! ### Deltas that do and deltas that do not -/

def sampleObject (tombstone : Bool) : ObjectState Nat := ⟨"ball", tombstone, 2⟩

def sampleDelta (observedAt : PyStr) (tombstone : Bool) : WorldDelta Nat where
  sourceMember := "r1"
  observedAt := observedAt
  maxAgeMs := 1000
  worldRevision := 1
  objects := [sampleObject tombstone]

def sampleSeen : WorldDelta Nat := sampleDelta "2026-01-01T12:00:02+00:00" false

/-- An older report of another member, which saw the ball elsewhere, and a goal. -/
def sampleElder : WorldDelta Nat :=
  { sampleDelta "2026-01-01T12:00:01+00:00" false with
    sourceMember := "r2"
    objects := [⟨"ball", false, 1⟩, ⟨"goal", false, 5⟩] }

theorem clears_eq_false {d : WorldDelta Nat} (h : ∀ obj ∈ d.objects, obj.tombstone = false)
    (id : PyStr) : d.clears id = false := by
  rw [WorldDelta.clears, List.any_eq_false]
  intro obj hobj
  rw [h obj (mem_of_mem_filter hobj)]
  exact Bool.false_ne_true

/-- Two members that report the same ball at different times. -/
theorem converges_elder : Converges 500 [sampleSeen, sampleElder] := by
  have hmem : ∀ d ∈ [sampleSeen, sampleElder], d = sampleSeen ∨ d = sampleElder := by simp
  have hlt : sampleElder.observed.instant < sampleSeen.observed.instant := by decide +kernel
  have hdecided : ∀ id, Decided [sampleSeen, sampleElder] id := by
    intro id
    refine .inr ⟨if "ball" = id then sampleObject false else ⟨"goal", false, 5⟩,
      fun d hd => ⟨fun hnew => ?_, fun _ => ?_⟩⟩
    · by_cases hball : "ball" = id
      · subst hball
        rcases hmem d hd with rfl | rfl
        · exact .inr rfl
        · -- the older report of the ball is not the newest
          have hle := hnew sampleSeen mem_cons_self (by decide)
          omega
      · by_cases hgoal : "goal" = id
        · subst hgoal
          rcases hmem d hd with rfl | rfl
          · exact .inl rfl
          · exact .inr rfl
        · left
          rcases hmem d hd with rfl | rfl <;>
            simp [WorldDelta.verdict, WorldDelta.about, sampleSeen, sampleElder, sampleDelta,
              sampleObject, hball, hgoal]
    · rcases hmem d hd with rfl | rfl <;> exact clears_eq_false (by decide) id
  have hsteady : Steady [sampleSeen, sampleElder] := by
    intro d hd d' hd' hsource
    rcases hmem d hd with rfl | rfl <;> rcases hmem d' hd' with rfl | rfl
    · rfl
    · cases hsource
    · cases hsource
    · rfl
  refine (converges_iff 500 _ fun d hd => ?_).mpr ⟨hdecided, hsteady⟩
  rcases hmem d hd with rfl | rfl
  · exact ⟨sampleSeen.observed, sampleSeen.observed, by decide +kernel, by decide +kernel⟩
  · exact ⟨sampleElder.observed, sampleSeen.observed, by decide +kernel, by decide +kernel⟩

def sampleGone : WorldDelta Nat := sampleDelta "2026-01-01T12:00:01+00:00" true

theorem older_tombstone_removes : ¬ Converges 500 [sampleSeen, sampleGone] := by
  intro h
  obtain ⟨w, hrun, hobject⟩ : ∃ w, (fresh Nat 500).mergeAll
      [(sampleSeen, sampleSeen.observed), (sampleGone, sampleSeen.observed)] = .ok w ∧
      w.object "ball" = none := ⟨_, by rfl, by rfl⟩
  have hnewest := h.newest _ w (List.Perm.refl _) hrun "ball"
  rw [hobject] at hnewest
  rcases hnewest with ⟨-, hnone⟩ | ⟨d, hd, hnew, hverdict, -⟩
  · have := hnone sampleSeen List.mem_cons_self
    cases this
  · rcases List.mem_cons.mp hd with rfl | hd
    · cases hverdict
    · obtain rfl := List.mem_singleton.mp hd
      have hle := hnew sampleSeen List.mem_cons_self (by simp [show sampleSeen.verdict "ball" =
        some (some (sampleObject false)) from rfl])
      have hlt : sampleGone.observed.instant < sampleSeen.observed.instant := by decide +kernel
      omega

end Rosclaw.Team
