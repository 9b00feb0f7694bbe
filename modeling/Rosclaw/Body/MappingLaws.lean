/-
What a mapping commands (`body/action_mapping/mapper.py`).

The row of a chunk is made by writes to a row of zeros, so what stands at a position is what the
last write to it has put there (`row_of_writes`); the joints of one name write to one position, the
last of that name.

* **`mapping_laws`** — a mapped action that is not blocked is the calibrated and converted action
  of the policy exactly if no position is left to chance: every joint is named by the policy, in
  a unit that can be converted, the units that differ are both listed, and a joint whose name
  comes again is due the value 0.
-/
import Mathlib.Algebra.Order.Ring.Rat
import Rosclaw.Body.ActionMapping
import Rosclaw.Lib.Text

namespace Rosclaw.ActionMapping

open List Option

/-! ## Lists -/

variable {α β : Type*}

variable {c : ℚ × ℚ × Int} {chunk dim i off p : Nat} {f : α → Option β} {joints : List JointMapping}
  {names : List PyStr} {xs : List α} {ys : List β}

theorem mapM_cons_eq_some {x : α} :
    (x :: xs).mapM f = some ys ↔ ∃ y, f x = some y ∧ ∃ zs, xs.mapM f = some zs ∧ y :: zs = ys := by
  simp [mapM_cons, bind_eq_some_iff]

theorem getElem?_mapM (h : xs.mapM f = some ys) (k : Nat) : ys[k]? = xs[k]?.bind f := by
  induction xs generalizing ys k with
  | nil =>
    obtain rfl : [] = ys := by simpa using h
    simp
  | cons x xs ih =>
    obtain ⟨y, hy, zs, hzs, rfl⟩ := mapM_cons_eq_some.mp h
    cases k with
    | zero => simp [hy]
    | succ k => simpa using ih hzs k

theorem mem_mapM (h : xs.mapM f = some ys) {y : β} : y ∈ ys ↔ ∃ x ∈ xs, f x = some y := by
  simp only [mem_iff_getElem?, getElem?_mapM h, bind_eq_some_iff]
  constructor
  · rintro ⟨k, x, hx, hy⟩
    exact ⟨x, ⟨k, hx⟩, hy⟩
  · rintro ⟨x, ⟨k, hx⟩, hy⟩
    exact ⟨k, x, hx, hy⟩

theorem exists_mapM : (∃ ys, xs.mapM f = some ys) ↔ ∀ x ∈ xs, ∃ y, f x = some y := by
  induction xs with
  | nil => simp
  | cons x xs ih =>
    rw [forall_mem_cons, ← ih]
    constructor
    · rintro ⟨ys, h⟩
      obtain ⟨y, hy, zs, hzs, -⟩ := mapM_cons_eq_some.mp h
      exact ⟨⟨y, hy⟩, zs, hzs⟩
    · rintro ⟨⟨y, hy⟩, zs, hzs⟩
      exact ⟨y :: zs, mapM_cons_eq_some.mpr ⟨y, hy, zs, hzs, rfl⟩⟩

theorem length_mapM (h : xs.mapM f = some ys) : ys.length = xs.length := by
  induction xs generalizing ys with
  | nil =>
    obtain rfl : [] = ys := by simpa using h
    rfl
  | cons x xs ih =>
    obtain ⟨y, -, zs, hzs, rfl⟩ := mapM_cons_eq_some.mp h
    simp [ih hzs]

/-- A position of a list of rows of one length. -/
theorem getElem?_flatten {α : Type*} {rows : List (List α)} (h : ∀ row ∈ rows, row.length = dim)
    {c : Nat} (hi : i < dim) : rows.flatten[c * dim + i]? = rows[c]?.bind (·[i]?) := by
  induction rows generalizing c with
  | nil => simp
  | cons row rows ih =>
    obtain ⟨hrow, hrows⟩ := forall_mem_cons.mp h
    cases c with
    | zero => simp [List.getElem?_append_left (hrow ▸ hi)]
    | succ c =>
      have hle : row.length ≤ (c + 1) * dim + i := by rw [hrow, Nat.succ_mul]; omega
      have hsub : (c + 1) * dim + i - row.length = c * dim + i := by
        rw [hrow, Nat.succ_mul]; omega
      rw [flatten_cons, List.getElem?_append_right hle, hsub, ih hrows]
      simp

/-- What stands at a position is what the last write to it has put there. -/
theorem row_of_writes (row : List ℚ) (ws : List (Nat × ℚ)) (k : Nat) :
    (ws.foldl (fun row w => row.set w.1 w.2) row)[k]? =
      row[k]?.map fun v => (LastWriter.last k ws).getD v := by
  induction ws using List.reverseRecOn with
  | nil => simp
  | append_singleton ws w ih =>
    rw [foldl_append, foldl_cons, foldl_nil, List.getElem?_set', ih, LastWriter.last_snoc]
    by_cases hk : w.1 = k
    · rcases row[k]? with _ | v <;> simp [hk]
    · simp [hk]

/-! ## The promise and its condition -/

section

variable {M : Type*} (conv : Conversions M) (lower : PyStr → PyStr) (policy : ActionSpace M)
  (body : BodyActionSpace) (allowPartial : Bool) (values : List ℚ) (chunkSize : Option Int)

def mapped : Option MappedAction :=
  (generateActionMapping conv lower policy body allowPartial).bind fun m =>
    mapActionToBody lower values m chunkSize

def calibrated (c : ℚ × ℚ × Int) (x : ℚ) : ℚ := c.2.2 * (c.1 * x + c.2.1)

/-- The value is that of the entry of the name in the chunk, calibrated and converted. -/
def Commanded (chunk i : Nat) (name : PyStr) (v : ℚ) : Prop :=
  ∃ p f c x, nameToIndex policy.names name = some p ∧
    getUnitConversion lower (unitAt policy.units p) (unitAt body.units i) = some f ∧
    calibration conv policy = some c ∧
    values[chunk * policy.names.length + p]? = some x ∧ v = f (calibrated c x)

/-- Nothing is raised, and what is not blocked commands each joint as the policy says. -/
def Meets : Prop :=
  ∃ r, mapped conv lower policy body allowPartial values chunkSize = some r ∧
    (r.blocked = false → r.bodyJointNames = body.jointNames ∧
      r.bodyActionValues.length = (chunksOf chunkSize).toNat * body.jointNames.length ∧
      ∀ chunk < (chunksOf chunkSize).toNat, ∀ i name, body.jointNames[i]? = some name →
        ∃ v, r.bodyActionValues[chunk * body.jointNames.length + i]? = some v ∧
          Commanded conv lower policy body values chunk i name v)

/-- The names are compared. -/
structure Enters : Prop where
  joints : body.jointNames ≠ []
  names : policy.names ≠ []
  representation : policy.representation ∈ representations
  same : policy.representation = body.representation

def Matches : Prop := ∃ name ∈ body.jointNames, name ∈ policy.names

def Partly : Prop :=
  (∃ name ∈ body.jointNames, name ∉ policy.names) ∨ ∃ name ∈ policy.names, name ∉ body.jointNames

def Convertible (name : PyStr) : Prop :=
  ∀ p i, nameToIndex policy.names name = some p → nameToIndex body.jointNames name = some i →
    (getUnitConversion lower (unitAt policy.units p) (unitAt body.units i)).isSome

/-- The mapping is not blocked, and the values fit. -/
structure Serves : Prop where
  enters : Enters policy body
  matched : Matches policy body
  allowed : Partly policy body → allowPartial = true
  units : ¬ Partly policy body → ∀ name ∈ body.jointNames, Convertible lower policy body name
  length : (values.length : Int) = policy.names.length * chunksOf chunkSize

def Right (c : ℚ × ℚ × Int) (i : Nat) (name : PyStr) : Prop :=
  ∃ p f, nameToIndex policy.names name = some p ∧
    getUnitConversion lower (unitAt policy.units p) (unitAt body.units i) = some f ∧
    (nameToIndex body.jointNames name = some i →
      unitAt policy.units p = unitAt body.units i ∨
        p < policy.units.length ∧ i < body.units.length) ∧
    (nameToIndex body.jointNames name ≠ some i → ∀ chunk < (chunksOf chunkSize).toNat, ∀ x,
      values[chunk * policy.names.length + p]? = some x → f (calibrated c x) = 0)

structure Sound : Prop where
  metadata : Enters policy body → Matches policy body → ∃ c, calibration conv policy = some c
  position : Serves lower policy body allowPartial values chunkSize →
    ∀ c, calibration conv policy = some c → ∀ i name, body.jointNames[i]? = some name →
      Right lower policy body values chunkSize c i name

end

/-! ## Joints -/

variable {M : Type*} {conv : Conversions M} {lower : PyStr → PyStr} {policy : ActionSpace M}
  {body : BodyActionSpace} {allowPartial : Bool} {values : List ℚ} {chunkSize : Option Int}

variable {name : PyStr}

theorem getElem?_of_index (h : nameToIndex names name = some i) : names[i]? = some name := by
  simpa [mem_zipIdx_iff_getElem?] using LastWriter.mem_of_last h

theorem index_isSome : (nameToIndex names name).isSome ↔ name ∈ names := by
  rw [← not_iff_not, not_isSome_iff_eq_none, nameToIndex, LastWriter.last_eq_none]
  constructor
  · rintro h hmem
    obtain ⟨i, hi⟩ := mem_iff_getElem?.mp hmem
    exact h (name, i) (mem_zipIdx_iff_getElem?.mpr hi) rfl
  · rintro h ⟨n, i⟩ hw rfl
    exact h (mem_of_getElem? (mem_zipIdx_iff_getElem?.mp hw))

theorem exists_index (h : name ∈ names) :
    ∃ i, nameToIndex names name = some i := isSome_iff_exists.mp (index_isSome.mpr h)

/-- The entry of a joint: the joint has no name in the policy, or it is calibrated. -/
theorem jointOf_cases {j : JointMapping} (h : jointOf conv lower policy body name = some j) :
    ∃ i, nameToIndex body.jointNames name = some i ∧
      (name ∉ policy.names ∧ j.policyIndex = none ∨ ∃ p c, nameToIndex policy.names name = some p ∧
        calibration conv policy = some c ∧ j = matchedJoint lower policy body name i p c) := by
  obtain ⟨i, hi, h⟩ := bind_eq_some_iff.mp h
  refine ⟨i, hi, ?_⟩
  cases hp : nameToIndex policy.names name with
  | none =>
    rw [hp] at h
    cases h
    exact .inl ⟨fun hmem => by simpa [hp] using index_isSome.mpr hmem, rfl⟩
  | some p =>
    rw [hp] at h
    obtain ⟨c, hc, h⟩ := bind_eq_some_iff.mp h
    exact .inr ⟨p, c, rfl, hc, (Option.some.inj h).symm⟩

theorem jointOf_matched (hi : nameToIndex body.jointNames name = some i)
    (hp : nameToIndex policy.names name = some p) (hc : calibration conv policy = some c) :
    jointOf conv lower policy body name = some (matchedJoint lower policy body name i p c) := by
  simp [jointOf, hi, hp, hc]

theorem exists_jointOf (hname : name ∈ body.jointNames) :
    (∃ j, jointOf conv lower policy body name = some j) ↔
      (name ∈ policy.names → ∃ c, calibration conv policy = some c) := by
  obtain ⟨i, hi⟩ := exists_index hname
  by_cases hmem : name ∈ policy.names
  · obtain ⟨p, hp⟩ := exists_index hmem
    simp [jointOf, hi, hp, hmem, bind_eq_some_iff]
  · have hp : nameToIndex policy.names name = none := by simpa using mt index_isSome.mp hmem
    simp [jointOf, hi, hp, hmem]

/-! ## The mapping -/

theorem classify_blocked (allowPartial : Bool)
    (h : body.jointNames.mapM (jointOf conv lower policy body) = some joints) :
    (mappingOf policy body allowPartial joints).isBlocked = false ↔
      Matches policy body ∧ (Partly policy body → allowPartial = true) ∧
        (¬ Partly policy body → ∀ name ∈ body.jointNames, Convertible lower policy body name) := by
  have hnone : ∀ {name j}, jointOf conv lower policy body name = some j →
      (j.policyIndex = none ↔ name ∉ policy.names) := by
    intro name j hj
    obtain ⟨i, hi, ⟨hno, hj'⟩ | ⟨p, c, hp, hc, rfl⟩⟩ := jointOf_cases hj
    · simp [hno, hj']
    · simpa [matchedJoint] using index_isSome.mp (Option.isSome_iff_exists.mpr ⟨p, hp⟩)
  have hall : joints.all (·.policyIndex.isNone) = true ↔ ¬ Matches policy body := by
    simp only [List.all_eq_true, Option.isNone_iff_eq_none, Matches, not_exists, not_and]
    constructor
    · intro hj name hname
      obtain ⟨j, hj'⟩ := exists_mapM.mp ⟨joints, h⟩ name hname
      exact (hnone hj').mp (hj j ((mem_mapM h).mpr ⟨name, hname, hj'⟩))
    · intro hno j hj
      obtain ⟨name, hname, hj'⟩ := (mem_mapM h).mp hj
      exact (hnone hj').mpr (hno name hname)
  have hpart : (joints.filter (·.policyIndex.isNone) ≠ [] ∨
      policy.names.filter (· ∉ body.jointNames) ≠ []) ↔ Partly policy body := by
    refine or_congr ?_ (by simp [List.filter_eq_nil_iff])
    simp only [ne_eq, List.filter_eq_nil_iff, not_forall, not_not, Option.isNone_iff_eq_none]
    constructor
    · rintro ⟨j, hj, hno⟩
      obtain ⟨name, hname, hj'⟩ := (mem_mapM h).mp hj
      exact ⟨name, hname, (hnone hj').mp hno⟩
    · rintro ⟨name, hname, hno⟩
      obtain ⟨j, hj'⟩ := exists_mapM.mp ⟨joints, h⟩ name hname
      exact ⟨j, (mem_mapM h).mpr ⟨name, hname, hj'⟩, (hnone hj').mpr hno⟩
  have hany : ¬ Partly policy body → (joints.any (!·.compatible) = false ↔
      ∀ name ∈ body.jointNames, Convertible lower policy body name) := by
    intro hno
    simp only [List.any_eq_false, Bool.not_eq_true', Bool.not_eq_false]
    constructor
    · intro hj name hname p i hp hi
      obtain ⟨j, hj'⟩ := exists_mapM.mp ⟨joints, h⟩ name hname
      have hcompatible := hj j ((mem_mapM h).mpr ⟨name, hname, hj'⟩)
      obtain ⟨i', hi', ⟨hno', -⟩ | ⟨p', c, hp', -, rfl⟩⟩ := jointOf_cases hj'
      · exact absurd (Or.inl ⟨name, hname, hno'⟩) hno
      · obtain rfl := Option.some.inj (hi.symm.trans hi')
        obtain rfl := Option.some.inj (hp.symm.trans hp')
        exact hcompatible
    · intro hconv j hj
      obtain ⟨name, hname, hj'⟩ := (mem_mapM h).mp hj
      obtain ⟨i, hi, ⟨hno', -⟩ | ⟨p, c, hp, -, rfl⟩⟩ := jointOf_cases hj'
      · exact absurd (Or.inl ⟨name, hname, hno'⟩) hno
      · exact hconv name hname p i hp hi
  by_cases hm : Matches policy body
  · have hall' : joints.all (·.policyIndex.isNone) = false := by
      rw [← Bool.not_eq_true, hall, not_not]
      exact hm
    by_cases hp : Partly policy body
    · rw [mappingOf, classify, if_neg (by simp [hall']), if_pos (hpart.mpr hp)]
      cases allowPartial <;> simp [ActionMapping.isBlocked, hm, hp]
    · rw [mappingOf, classify, if_neg (by simp [hall']), if_neg (mt hpart.mp hp)]
      by_cases hc : joints.any (!·.compatible) = true
      · have hc' := mt (hany hp).mpr (by simp [hc])
        simp [hc, hc', hp, ActionMapping.isBlocked]
      · have hc' := (hany hp).mp (by simpa using hc)
        rw [if_neg hc]
        by_cases hu : joints.any (·.unitConversion.isSome) = true
        · rw [if_pos hu]
          simp [ActionMapping.isBlocked, hm, hp]
          exact hc'
        · rw [if_neg hu]
          simp [ActionMapping.isBlocked, hm, hp]
          exact hc'
  · simp [mappingOf, classify, hall.mpr hm, hm, ActionMapping.isBlocked]

theorem generate_of_enters (h : Enters policy body) :
    generateActionMapping conv lower policy body allowPartial =
      (body.jointNames.mapM (jointOf conv lower policy body)).map
        (mappingOf policy body allowPartial) := by
  simp [generateActionMapping, h.joints, h.names, ← h.same, h.representation]

theorem generate_of_not_enters (conv : Conversions M) (lower : PyStr → PyStr)
    (allowPartial : Bool) (h : ¬ Enters policy body) :
    ∃ m, generateActionMapping conv lower policy body allowPartial = some m ∧
      m.isBlocked = true := by
  unfold generateActionMapping
  by_cases hj : body.jointNames = []
  · exact ⟨_, if_pos hj, rfl⟩
  by_cases hn : policy.names = []
  · exact ⟨_, (if_neg hj).trans (if_pos hn), rfl⟩
  by_cases hr : policy.representation ∈ representations
  · by_cases hs : policy.representation = body.representation
    · exact absurd ⟨hj, hn, hr, hs⟩ h
    · rw [if_neg hj, if_neg hn, if_neg (not_not_intro hr), if_pos hs]
      exact ⟨_, rfl, rfl⟩
  · rw [if_neg hj, if_neg hn, if_pos hr]
    exact ⟨_, rfl, rfl⟩

theorem mapAction_blocked (lower : PyStr → PyStr) (values : List ℚ) (chunkSize : Option Int)
    {m : ActionMapping M} (h : m.isBlocked = true) :
    ∃ r, mapActionToBody lower values m chunkSize = some r ∧ r.blocked = true := by
  exact ⟨_, if_pos h, rfl⟩

/-! ## Rows -/

theorem valueOf_matched {x : ℚ} (hx : values[off + p]? = some x) :
    valueOf lower values (mappingOf policy body allowPartial joints) off
        (matchedJoint lower policy body name i p c) =
      if unitAt policy.units p = unitAt body.units i then some (calibrated c x)
      else if p < policy.units.length ∧ i < body.units.length then
        some (((getUnitConversion lower (unitAt policy.units p) (unitAt body.units i)).getD id)
          (calibrated c x))
      else none := by
  by_cases hu : unitAt policy.units p = unitAt body.units i
  · simp [valueOf, matchedJoint, hx, hu, calibrated]
  · by_cases hp : p < policy.units.length
    · by_cases hi : i < body.units.length
      · simp only [unitAt, getD_eq_getElem?_getD, List.getElem?_eq_getElem, hp, hi, getD_some] at hu
        simp [valueOf, matchedJoint, hx, hu, calibrated, mappingOf, hp, hi, unitAt]
      · simp [valueOf, matchedJoint, hu, mappingOf, hp, hi]
    · simp [valueOf, matchedJoint, hu, mappingOf, hp]

section

variable {joints : List JointMapping} {c : ℚ × ℚ × Int} {chunk : Nat}
  (hjoints : body.jointNames.mapM (jointOf conv lower policy body) = some joints)
  (hc : calibration conv policy = some c)
include hjoints hc

theorem mem_matched {j : JointMapping} :
    j ∈ joints.filter (·.policyIndex.isSome) ↔ ∃ name ∈ body.jointNames, ∃ i p,
      nameToIndex body.jointNames name = some i ∧ nameToIndex policy.names name = some p ∧
        j = matchedJoint lower policy body name i p c := by
  rw [mem_filter, mem_mapM hjoints]
  constructor
  · rintro ⟨⟨name, hname, hj⟩, hsome⟩
    obtain ⟨i, hi, ⟨-, hnone⟩ | ⟨p, c', hp, hc', rfl⟩⟩ := jointOf_cases hj
    · simp [hnone] at hsome
    · obtain rfl := Option.some.inj (hc.symm.trans hc')
      exact ⟨name, hname, i, p, hi, hp, rfl⟩
  · rintro ⟨name, hname, i, p, hi, hp, rfl⟩
    exact ⟨⟨name, hname, jointOf_matched hi hp hc⟩, rfl⟩

variable {row : List ℚ}

/-- What a row has at a position of the body. -/
theorem row_at {i : Nat} {name : PyStr}
    (hrow : bodyRow lower values (mappingOf policy body allowPartial joints) chunk = some row)
    (hname : body.jointNames[i]? = some name) :
    (nameToIndex body.jointNames name ≠ some i → row[i]? = some 0) ∧
      ∀ p, nameToIndex body.jointNames name = some i → nameToIndex policy.names name = some p →
        ∃ v, valueOf lower values (mappingOf policy body allowPartial joints)
          (chunk * policy.names.length) (matchedJoint lower policy body name i p c) = some v ∧
          row[i]? = some v := by
  obtain ⟨ws, hws, hrow⟩ := bind_eq_some_iff.mp hrow
  cases hrow
  have hi : i < body.jointNames.length := (List.getElem?_eq_some_iff.mp hname).1
  have hat : ∀ v, (LastWriter.last i ws).getD 0 = v → (ws.foldl (fun row w => row.set w.1 w.2)
        (List.replicate body.jointNames.length (0 : ℚ)))[i]? = some v := by
    rintro v rfl
    simp [row_of_writes, hi]
  -- a write to this position is one of the joint of its name
  have hwrite : ∀ v, (i, v) ∈ ws → nameToIndex body.jointNames name = some i ∧
      ∃ p, nameToIndex policy.names name = some p ∧
        valueOf lower values (mappingOf policy body allowPartial joints)
          (chunk * policy.names.length) (matchedJoint lower policy body name i p c) = some v := by
    intro v hv
    obtain ⟨j, hj, hw⟩ := (mem_mapM hws).mp hv
    obtain ⟨w, hvalue, hpair⟩ := map_eq_some_iff.mp hw
    obtain ⟨name', -, i', p, hi', hp, rfl⟩ := (mem_matched hjoints hc).mp hj
    obtain ⟨rfl, rfl⟩ := Prod.mk.inj hpair
    obtain rfl := Option.some.inj (hname.symm.trans (getElem?_of_index hi'))
    exact ⟨hi', p, hp, hvalue⟩
  constructor
  · intro hne
    have hlast : LastWriter.last i ws = none := by
      rw [LastWriter.last_eq_none]
      rintro ⟨k, v⟩ hv rfl
      exact hne (hwrite v hv).1
    exact hat 0 (by rw [hlast]; rfl)
  · intro p hi' hp
    have hj := (mem_matched hjoints hc).mpr ⟨name, mem_of_getElem? hname, i, p, hi', hp, rfl⟩
    cases hlast : LastWriter.last i ws with
    | none =>
      obtain ⟨w, hw⟩ := exists_mapM.mp ⟨ws, hws⟩ _ hj
      obtain ⟨v, -, rfl⟩ := map_eq_some_iff.mp hw
      exact absurd rfl (LastWriter.last_eq_none.mp hlast _ ((mem_mapM hws).mpr ⟨_, hj, hw⟩))
    | some v =>
      obtain ⟨-, p', hp', hw⟩ := hwrite v (LastWriter.mem_of_last hlast)
      obtain rfl := Option.some.inj (hp.symm.trans hp')
      exact ⟨v, hw, hat v (by rw [hlast]; rfl)⟩

omit hc in
/-- The action of a mapping that serves is made of the rows of its chunks. -/
theorem mapped_of_serves (h : Serves lower policy body allowPartial values chunkSize) :
    mapped conv lower policy body allowPartial values chunkSize =
      ((List.range (chunksOf chunkSize).toNat).mapM
        (bodyRow lower values (mappingOf policy body allowPartial joints))).map fun rows =>
          { bodyActionValues := rows.flatten, bodyJointNames := body.jointNames,
            compatibility := (mappingOf policy body allowPartial joints).compatibility,
            blocked := false, blockReasons := [],
            warnings := (mappingOf policy body allowPartial joints).warnings,
            referenceFrame := body.referenceFrame, chunkSize := chunkSize } := by
  have hfree := (classify_blocked allowPartial hjoints).mpr ⟨h.matched, h.allowed, h.units⟩
  rw [mapped, generate_of_enters h.enters, hjoints, map_some, bind_some,
    mapActionToBody, if_neg (by simp [hfree])]
  exact if_neg (not_not_intro h.length)

omit hjoints hc in
theorem length_row
    (hrow : bodyRow lower values (mappingOf policy body allowPartial joints) chunk = some row) :
    row.length = body.jointNames.length := by
  have hset : ∀ (ws : List (Nat × ℚ)) (row : List ℚ),
      (ws.foldl (fun row w => row.set w.1 w.2) row).length = row.length := by
    intro ws
    induction ws with
    | nil => exact fun _ => rfl
    | cons w ws ih => exact fun row => (ih _).trans length_set
  obtain ⟨ws, -, hrow⟩ := bind_eq_some_iff.mp hrow
  cases hrow
  exact (hset ws _).trans length_replicate

end

/-! ## The theorem -/

theorem chunks_pos (h : Serves lower policy body allowPartial values chunkSize) :
    0 < (chunksOf chunkSize).toNat ∧
      values.length = (chunksOf chunkSize).toNat * policy.names.length := by
  have hlength := h.length
  have hnames : 0 < policy.names.length := length_pos_iff.mpr h.enters.names
  have hne : chunksOf chunkSize ≠ 0 := by
    unfold chunksOf
    split_ifs with h0
    · exact one_ne_zero
    · exact h0
  have hnonneg : 0 ≤ chunksOf chunkSize := by
    by_contra hlt
    have := Int.mul_neg_of_pos_of_neg (Int.natCast_pos.mpr hnames) (not_le.mp hlt)
    omega
  obtain ⟨n, hn⟩ := Int.eq_ofNat_of_zero_le hnonneg
  rw [hn] at hlength hne ⊢
  refine ⟨by simpa [Nat.pos_iff_ne_zero] using hne, ?_⟩
  rw [Int.toNat_natCast, Nat.mul_comm]
  exact_mod_cast hlength

theorem exists_value (h : Serves lower policy body allowPartial values chunkSize)
    (hchunk : chunk < (chunksOf chunkSize).toNat) (hp : nameToIndex policy.names name = some p) :
    ∃ x, values[chunk * policy.names.length + p]? = some x := by
  have hlt : p < policy.names.length := (List.getElem?_eq_some_iff.mp (getElem?_of_index hp)).1
  have hle : (chunk + 1) * policy.names.length ≤ values.length := by
    rw [(chunks_pos h).2]
    exact Nat.mul_le_mul_right _ hchunk
  rw [Nat.succ_mul] at hle
  exact ⟨_, List.getElem?_eq_getElem (by omega)⟩

theorem exists_joints (lower : PyStr → PyStr)
    (h : Matches policy body → ∃ c, calibration conv policy = some c) :
    ∃ joints, body.jointNames.mapM (jointOf conv lower policy body) = some joints :=
  exists_mapM.mpr fun name hname =>
    (exists_jointOf hname).mpr fun hmem => h ⟨name, hname, hmem⟩

theorem sound_of_meets (h : Meets conv lower policy body allowPartial values chunkSize) :
    Sound conv lower policy body allowPartial values chunkSize := by
  obtain ⟨r, hr, hmeets⟩ := h
  constructor
  · rintro henters ⟨name, hname, hmem⟩
    rw [mapped, generate_of_enters henters] at hr
    obtain ⟨m, hm, -⟩ := bind_eq_some_iff.mp hr
    obtain ⟨joints, hjoints, -⟩ := map_eq_some_iff.mp hm
    exact (exists_jointOf hname).mp (exists_mapM.mp ⟨joints, hjoints⟩ name hname) hmem
  · intro hserves c hc i name hname
    obtain ⟨joints, hjoints⟩ := exists_joints lower fun _ => ⟨c, hc⟩
    rw [mapped_of_serves hjoints hserves] at hr
    obtain ⟨rows, hrows, rfl⟩ := map_eq_some_iff.mp hr
    obtain ⟨-, -, hmeets⟩ := hmeets rfl
    have hi : i < body.jointNames.length := (List.getElem?_eq_some_iff.mp hname).1
    have hlength : ∀ row ∈ rows, row.length = body.jointNames.length := by
      intro row hrow
      obtain ⟨chunk, -, hrow⟩ := (mem_mapM hrows).mp hrow
      exact length_row hrow
    have hrow : ∀ chunk < (chunksOf chunkSize).toNat, ∃ row,
        bodyRow lower values (mappingOf policy body allowPartial joints) chunk = some row ∧
          rows.flatten[chunk * body.jointNames.length + i]? = row[i]? := by
      intro chunk hchunk
      obtain ⟨row, hrow⟩ := exists_mapM.mp ⟨rows, hrows⟩ chunk (mem_range.mpr hchunk)
      refine ⟨row, hrow, ?_⟩
      rw [getElem?_flatten hlength hi, getElem?_mapM hrows, List.getElem?_range hchunk]
      simp [hrow]
    have hpos := (chunks_pos hserves).1
    obtain ⟨v, -, p, f, -, -, hp, hf, -, -, -⟩ := hmeets 0 hpos i name hname
    refine ⟨p, f, hp, hf, fun hindex => ?_, fun hindex chunk hchunk x hx => ?_⟩
    · obtain ⟨row, hrow, -⟩ := hrow 0 hpos
      obtain ⟨v, hv, -⟩ := (row_at hjoints hc hrow hname).2 p hindex hp
      obtain ⟨x, hx⟩ := exists_value hserves hpos hp
      rw [valueOf_matched hx] at hv
      split_ifs at hv with hu hlisted
      · exact .inl hu
      · exact .inr hlisted
    · obtain ⟨row, hrow, hat⟩ := hrow chunk hchunk
      obtain ⟨v, hv, p', f', c', x', hp', hf', hc', hx', rfl⟩ := hmeets chunk hchunk i name hname
      obtain rfl := Option.some.inj (hp.symm.trans hp')
      obtain rfl := Option.some.inj (hf.symm.trans hf')
      obtain rfl := Option.some.inj (hc.symm.trans hc')
      obtain rfl := Option.some.inj (hx.symm.trans hx')
      exact Option.some.inj (hv.symm.trans (hat.trans ((row_at hjoints hc hrow hname).1 hindex)))

theorem meets_of_blocked {m : ActionMapping M}
    (hm : generateActionMapping conv lower policy body allowPartial = some m)
    (h : m.isBlocked = true) : Meets conv lower policy body allowPartial values chunkSize := by
  obtain ⟨r, hr, hblocked⟩ := mapAction_blocked lower values chunkSize h
  exact ⟨r, by rw [mapped, hm, bind_some, hr], fun hfree => by simp [hblocked] at hfree⟩

theorem meets_of_serves (hserves : Serves lower policy body allowPartial values chunkSize)
    (hc : calibration conv policy = some c) (h : ∀ i name, body.jointNames[i]? = some name →
      Right lower policy body values chunkSize c i name) :
    Meets conv lower policy body allowPartial values chunkSize := by
  obtain ⟨joints, hjoints⟩ := exists_joints lower fun _ => ⟨c, hc⟩
  -- what a matched joint writes
  have hvalue : ∀ chunk < (chunksOf chunkSize).toNat, ∀ i name p,
      nameToIndex body.jointNames name = some i → nameToIndex policy.names name = some p →
      ∃ f x, getUnitConversion lower (unitAt policy.units p) (unitAt body.units i) = some f ∧
        values[chunk * policy.names.length + p]? = some x ∧
        valueOf lower values (mappingOf policy body allowPartial joints)
          (chunk * policy.names.length) (matchedJoint lower policy body name i p c) =
            some (f (calibrated c x)) := by
    intro chunk hchunk i name p hi hp
    obtain ⟨p', f, hp', hf, hunits, -⟩ := h i name (getElem?_of_index hi)
    obtain rfl := Option.some.inj (hp.symm.trans hp')
    obtain ⟨x, hx⟩ := exists_value hserves hchunk hp
    refine ⟨f, x, hf, hx, ?_⟩
    rw [valueOf_matched hx]
    by_cases hu : unitAt policy.units p = unitAt body.units i
    · rw [if_pos hu]
      have hid : f = id := by
        rw [hu] at hf
        simpa [getUnitConversion, eq_comm] using hf
      rw [hid]
      rfl
    · rw [if_neg hu, if_pos ((hunits hi).resolve_left hu), hf]
      rfl
  have hrow : ∀ chunk ∈ List.range (chunksOf chunkSize).toNat, ∃ row,
      bodyRow lower values (mappingOf policy body allowPartial joints) chunk = some row := by
    intro chunk hchunk
    have hws : ∃ ws, (joints.filter (·.policyIndex.isSome)).mapM (fun j =>
        (valueOf lower values (mappingOf policy body allowPartial joints)
          (chunk * policy.names.length) j).map fun v => (j.bodyIndex, v)) = some ws := by
      refine exists_mapM.mpr fun j hj => ?_
      obtain ⟨name, -, i, p, hi, hp, rfl⟩ := (mem_matched hjoints hc).mp hj
      obtain ⟨f, x, -, -, hv⟩ := hvalue chunk (mem_range.mp hchunk) i name p hi hp
      exact ⟨_, map_eq_some_iff.mpr ⟨_, hv, rfl⟩⟩
    obtain ⟨ws, hws⟩ := hws
    exact ⟨_, bind_eq_some_iff.mpr ⟨ws, hws, rfl⟩⟩
  obtain ⟨rows, hrows⟩ := exists_mapM.mpr hrow
  have hlength : ∀ row ∈ rows, row.length = body.jointNames.length := by
    intro row hrow
    obtain ⟨chunk, -, hrow⟩ := (mem_mapM hrows).mp hrow
    exact length_row hrow
  refine ⟨_, by rw [mapped_of_serves hjoints hserves, hrows]; rfl, fun _ => ⟨rfl, ?_, ?_⟩⟩
  · rw [length_flatten, map_congr_left hlength, map_const', length_mapM hrows,
      length_range, sum_replicate_nat]
  · intro chunk hchunk i name hname
    have hi : i < body.jointNames.length := (List.getElem?_eq_some_iff.mp hname).1
    obtain ⟨row, hrow⟩ := hrow chunk (mem_range.mpr hchunk)
    have hat : rows.flatten[chunk * body.jointNames.length + i]? = row[i]? := by
      rw [getElem?_flatten hlength hi, getElem?_mapM hrows, List.getElem?_range hchunk]
      simp [hrow]
    obtain ⟨p, f, hp, hf, -, hzero⟩ := h i name hname
    by_cases hindex : nameToIndex body.jointNames name = some i
    · obtain ⟨f', x, hf', hx, hv⟩ := hvalue chunk hchunk i name p hindex hp
      obtain rfl := Option.some.inj (hf.symm.trans hf')
      obtain ⟨v, hv', hrowat⟩ := (row_at hjoints hc hrow hname).2 p hindex hp
      obtain rfl := Option.some.inj (hv.symm.trans hv')
      exact ⟨_, hat.trans hrowat, p, f, c, x, hp, hf, hc, hx, rfl⟩
    · obtain ⟨x, hx⟩ := exists_value hserves hchunk hp
      exact ⟨0, hat.trans ((row_at hjoints hc hrow hname).1 hindex), p, f, c, x, hp, hf, hc, hx,
        (hzero hindex chunk hchunk x hx).symm⟩

/-- The mapping commands what it should if and only if its metadata can be read, and every position
of a mapping that serves is written as it should be. -/
theorem mapping_laws (conv : Conversions M) (lower : PyStr → PyStr) (policy : ActionSpace M)
    (body : BodyActionSpace) (allowPartial : Bool) (values : List ℚ) (chunkSize : Option Int) :
    Meets conv lower policy body allowPartial values chunkSize ↔
      Sound conv lower policy body allowPartial values chunkSize := by
  refine ⟨sound_of_meets, fun h => ?_⟩
  by_cases henters : Enters policy body
  · obtain ⟨joints, hjoints⟩ := exists_joints lower (h.metadata henters)
    have hgen : generateActionMapping conv lower policy body allowPartial =
        some (mappingOf policy body allowPartial joints) := by
      rw [generate_of_enters henters, hjoints, Option.map_some]
    by_cases hfree : (mappingOf policy body allowPartial joints).isBlocked = false
    · obtain ⟨hmatched, hallowed, hunits⟩ := (classify_blocked allowPartial hjoints).mp hfree
      by_cases hlength : (values.length : Int) = policy.names.length * chunksOf chunkSize
      · have hserves : Serves lower policy body allowPartial values chunkSize :=
          ⟨henters, hmatched, hallowed, hunits, hlength⟩
        obtain ⟨c, hc⟩ := h.metadata henters hmatched
        exact meets_of_serves hserves hc (h.position hserves c hc)
      · have hr : ∃ r, mapActionToBody lower values (mappingOf policy body allowPartial joints)
            chunkSize = some r ∧ r.blocked = true := by
          rw [mapActionToBody, if_neg (by simp [hfree])]
          exact ⟨_, if_pos hlength, rfl⟩
        obtain ⟨r, hr, hblocked⟩ := hr
        exact ⟨r, by rw [mapped, hgen, Option.bind_some, hr], fun hno => by simp [hblocked] at hno⟩
    · exact meets_of_blocked hgen (by simpa using hfree)
  · obtain ⟨m, hm, hblocked⟩ := generate_of_not_enters conv lower allowPartial henters
    exact meets_of_blocked hm hblocked

/-! ## A force taken for an angle -/

/-- A policy whose first action is a force and whose second the body does not have. -/
def forcePolicy : ActionSpace ℚ :=
  ⟨"joint_position", ["j1", "grip"], ["N", "rad"], none, none, none⟩

def oneJoint : BodyActionSpace := ⟨"joint_position", ["j1"], ["rad"], ""⟩

def rationals : Conversions ℚ := ⟨some, fun x => some x.num⟩

/-- Where a partial mapping is allowed, five newtons command five radians. -/
theorem force_commanded :
    (mapped rationals PyStr.lower forcePolicy oneJoint true [5, 1] none).map
        (fun r => (r.blocked, r.bodyActionValues)) = some (false, [5]) ∧
      getUnitConversion PyStr.lower "N" "rad" = none ∧
      ¬ Meets rationals PyStr.lower forcePolicy oneJoint true [5, 1] none := by
  have hunit : getUnitConversion PyStr.lower "N" "rad" = none := by
    have hlookup : (getUnitConversion PyStr.lower "N" "rad").isSome = false := by decide +kernel
    simpa using hlookup
  refine ⟨by decide +kernel, hunit, fun h => ?_⟩
  have hserves : Serves PyStr.lower forcePolicy oneJoint true [5, 1] none := by
    refine ⟨⟨by decide, by decide, by decide, rfl⟩, ⟨"j1", by decide, by decide⟩, fun _ => rfl,
      fun hno => ?_, rfl⟩
    exact absurd (Or.inr ⟨"grip", by decide, by decide⟩) hno
  obtain ⟨p, f, hp, hf, -⟩ := (sound_of_meets h).position hserves (1, 0, 1) rfl 0 "j1" rfl
  obtain rfl : p = 0 := by
    have hindex : nameToIndex forcePolicy.names "j1" = some 0 := by decide
    exact Option.some.inj (hp.symm.trans hindex)
  exact absurd (hf.symm.trans hunit) (by simp)

end Rosclaw.ActionMapping
