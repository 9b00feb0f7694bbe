/-
A call under an advertised name runs the tool that was advertised, as long as the ids are plain.

The catalog refuses an id with `__` when a tool is registered, but not when it is replaced or
comes as a capability; and an underscore before a `.` makes three underscores, of which the
first two are read back.

* `Plain` — the ids that are read back;
* `canonicalName_wireName` — exactly these are;
* `apply_ok` — what a call can do to the descriptors;
* `accepted_ok` — what a sequence of them leaves;
* `faithful_iff` — the condition on the ids;
* `first_of_two_never_runs` — two tools that `register` takes, under one name.
-/
import Rosclaw.Agentd.ToolCatalog

namespace Rosclaw.ToolCatalog

/-! ### The two translations -/

/-- No underscore of the id is followed by another one, or by a `.`. -/
def Plain (toolId : PyStr) : Prop := toolId.contains "__" = false ∧ toolId.contains "_." = false

instance (toolId : PyStr) : Decidable (Plain toolId) := inferInstanceAs (Decidable (_ ∧ _))

def wireCodes (cs : List Nat) : List Nat := (wireName ⟨cs⟩).codes

def canonicalCodes (cs : List Nat) : List Nat := (canonicalName ⟨cs⟩).codes

variable {c : Nat} {toolId toolId' : PyStr} (cs : List Nat)

theorem wireCodes_dot : wireCodes (46 :: cs) = 95 :: 95 :: wireCodes cs := rfl

theorem wireCodes_cons (hc : c ≠ 46) (cs : List Nat) : wireCodes (c :: cs) = c :: wireCodes cs := by
  have hdot : (".": PyStr).codes.isPrefixOf (c :: cs) = false := by
    rw [show (".": PyStr).codes = [46] from rfl]
    simp [List.isPrefixOf, hc.symm]
  change PyStr.replaceCodes _ _ 0 (c :: cs) = _
  rw [PyStr.replaceCodes, hdot]
  rfl

theorem canonicalCodes_digraph : canonicalCodes (95 :: 95 :: cs) = 46 :: canonicalCodes cs := rfl

theorem canonicalCodes_cons {cs : List Nat} (h : ¬(c = 95 ∧ cs.head? = some 95)) :
    canonicalCodes (c :: cs) = c :: canonicalCodes cs := by
  have hpair : ("__": PyStr).codes.isPrefixOf (c :: cs) = false := by
    rw [show ("__": PyStr).codes = [95, 95] from rfl]
    cases cs with
    | nil => simp [List.isPrefixOf]
    | cons c' cs =>
      rw [List.head?_cons, Option.some.injEq] at h
      simp only [List.isPrefixOf, Bool.and_true, Bool.and_eq_false_iff, beq_eq_false_iff_ne]
      omega
  change PyStr.replaceCodes _ _ 0 (c :: cs) = _
  rw [PyStr.replaceCodes, hpair]
  rfl

/-- A wire name begins with an underscore where the id begins with one, or with a `.`. -/
theorem head_wireCodes :
    (wireCodes cs).head? = some 95 ↔ cs.head? = some 95 ∨ cs.head? = some 46 := by
  cases cs with
  | nil => simp [wireCodes, wireName, PyStr.replace, PyStr.replaceCodes]
  | cons c cs =>
    by_cases hc : c = 46
    · subst hc
      simp [wireCodes_dot]
    · simp [wireCodes_cons hc, hc]

theorem plain_cons {cs : List Nat} : Plain ⟨c :: cs⟩
      ↔ ¬(c = 95 ∧ (cs.head? = some 95 ∨ cs.head? = some 46)) ∧ Plain ⟨cs⟩ := by
  have hpair : ("__": PyStr).codes = [95, 95] := rfl
  have hdot : ("_.": PyStr).codes = [95, 46] := rfl
  simp only [Plain, PyStr.contains_cons, Bool.or_eq_false_iff, hpair, hdot]
  cases cs with
  | nil => simp [List.isPrefixOf]
  | cons c' cs =>
    simp only [List.isPrefixOf, Bool.and_true, Bool.and_eq_false_iff, beq_eq_false_iff_ne,
      List.head?_cons, Option.some.injEq]
    constructor
    · rintro ⟨⟨h₁, h₁'⟩, h₂, h₂'⟩
      exact ⟨by omega, h₁', h₂'⟩
    · rintro ⟨h, h₁', h₂'⟩
      exact ⟨⟨by omega, h₁'⟩, by omega, h₂'⟩

theorem canonicalCodes_wireCodes : canonicalCodes (wireCodes cs) = cs ↔ Plain ⟨cs⟩ := by
  induction cs with
  | nil => decide
  | cons c cs ih =>
    rw [plain_cons, ← ih]
    by_cases hc : c = 46
    · subst hc
      rw [wireCodes_dot, canonicalCodes_digraph]
      simp
    · rw [wireCodes_cons hc, ← head_wireCodes]
      by_cases h : c = 95 ∧ (wireCodes cs).head? = some 95
      · -- the underscore is read with the one after it, and a `.` comes back
        obtain ⟨rfl, h⟩ := h
        obtain ⟨rest, hrest⟩ := List.head?_eq_some_iff.mp h
        rw [hrest, canonicalCodes_digraph]
        simp
      · rw [canonicalCodes_cons h]
        simp [h]

theorem canonicalName_wireName (toolId : PyStr) :
    canonicalName (wireName toolId) = toolId ↔ Plain toolId := by
  rw [← canonicalCodes_wireCodes toolId.codes]
  constructor
  · exact congrArg PyStr.codes
  · intro h
    exact congrArg PyStr.mk h

theorem wireName_inj (h : Plain toolId) (h' : Plain toolId')
    (heq : wireName toolId = wireName toolId') : toolId = toolId' := by
  rw [← (canonicalName_wireName toolId).mpr h, heq, (canonicalName_wireName toolId').mpr h']

theorem wireCodes_of_plain (h : Plain ⟨wireCodes cs⟩) : wireCodes cs = cs := by
  induction cs with
  | nil => rfl
  | cons c cs ih =>
    by_cases hc : c = 46
    · subst hc
      rw [wireCodes_dot, plain_cons] at h
      exact absurd ⟨rfl, .inl rfl⟩ h.1
    · rw [wireCodes_cons hc] at h ⊢
      rw [ih (plain_cons.mp h).2]

theorem wireName_of_plain (h : Plain (wireName toolId)) : wireName toolId = toolId :=
  congrArg PyStr.mk (wireCodes_of_plain toolId.codes h)

/-! ### Calls -/

variable {X : Type}

theorem apply_ok {op : Op X} {c c' : Catalog X} (h : op.apply c = .ok c') :
    (∃ d : ToolDescriptor, op.registers = some d.toolId
        ∧ c'.descriptors = c.descriptors.set d.toolId d)
      ∨ op.registers = none ∧ c'.descriptors = c.descriptors := by
  cases op with
  | register d executor =>
    left
    simp only [Op.apply, Catalog.register] at h
    split_ifs at h
    cases h
    exact ⟨d, rfl, rfl⟩
  | replace d executor =>
    left
    cases h
    exact ⟨d, rfl, rfl⟩
  | registerCapability cap executor =>
    left
    simp only [Op.apply, Catalog.registerCapability] at h
    split_ifs at h
    cases h
    exact ⟨toolDescriptorFromCapability cap, rfl, rfl⟩
  | quarantineTool tid reason =>
    right
    cases h
    exact ⟨rfl, rfl⟩
  | quarantineSource source reason =>
    right
    cases h
    exact ⟨rfl, rfl⟩
  | liftQuarantine tid =>
    right
    simp only [Op.apply, Catalog.liftQuarantine] at h
    split_ifs at h <;> cases h <;> exact ⟨rfl, rfl⟩
  | liftSourceQuarantine source =>
    right
    cases h
    exact ⟨rfl, rfl⟩

def Catalog.Keyed (c : Catalog X) : Prop :=
  ∀ tid d, c.descriptors.get? tid = some d → d.toolId = tid

theorem keyed_new : (Catalog.new : Catalog X).Keyed := by
  intro tid d h
  cases h

theorem keyed_apply {op : Op X} {c c' : Catalog X} (hc : c.Keyed) (h : op.apply c = .ok c') :
    c'.Keyed := by
  obtain ⟨d, -, hd⟩ | ⟨-, hd⟩ := apply_ok h
  · intro tid d' hget
    rw [hd, Dict.get?_set] at hget
    split_ifs at hget with htid
    · cases hget
      exact htid
    · exact hc tid d' hget
  · intro tid d' hget
    exact hc tid d' (hd ▸ hget)

/-- After calls that are accepted, an id has a descriptor if it had one or a call registers
it. -/
theorem accepted_ok {ops : List (Op X)} {c c' : Catalog X} (hc : c.Keyed)
    (h : accepted c ops = .ok c') :
    c'.Keyed ∧ ∀ tid, c'.descriptors.contains tid = true
      ↔ c.descriptors.contains tid = true ∨ ∃ op ∈ ops, op.registers = some tid := by
  induction ops generalizing c with
  | nil =>
    cases h
    exact ⟨hc, by simp⟩
  | cons op ops ih =>
    rw [accepted] at h
    cases hop : op.apply c with
    | error e =>
      rw [hop] at h
      cases h
    | ok c₁ =>
      rw [hop] at h
      obtain ⟨hkeyed, hids⟩ := ih (keyed_apply hc hop) h
      refine ⟨hkeyed, fun tid => ?_⟩
      rw [hids tid]
      obtain ⟨d, hreg, hd⟩ | ⟨hreg, hd⟩ := apply_ok hop
      · have hset : c₁.descriptors.contains tid = true
            ↔ d.toolId = tid ∨ c.descriptors.contains tid = true := by
          rw [hd, Dict.contains, Dict.get?_set, Dict.contains]
          split_ifs with htid <;> simp [htid]
        rw [hset]
        simp [hreg, or_assoc, or_left_comm]
      · rw [hd]
        simp [hreg]

/-! ### Names -/

/-- The names that the model is told are different, each is read back as the id it stands for,
and a call with it does what the tool with this id does. -/
structure Catalog.Faithful (c : Catalog X) : Prop where
  distinct : c.wireNames.Nodup
  back : ∀ d ∈ c.descriptors.values, canonicalName (wireName d.toolId) = d.toolId
  runs : ∀ d ∈ c.descriptors.values, c.execute (wireName d.toolId) = c.perform d

section Faithful

variable {c : Catalog X} (hc : c.Keyed)
include hc

variable {d : ToolDescriptor}

theorem get?_of_mem_values (h : d ∈ c.descriptors.values) :
    c.descriptors.get? d.toolId = some d := by
  obtain ⟨tid, htid⟩ := Dict.mem_values_iff.mp h
  rw [hc tid d htid, htid]

theorem map_toolId_values : c.descriptors.values.map ToolDescriptor.toolId = c.descriptors.keys := by
  rw [Dict.values, Dict.keys, List.map_map]
  refine List.map_congr_left fun e he => ?_
  exact hc e.1 e.2 (Dict.mem_entries_iff.mp he)

theorem nodup_wireNames (hplain : ∀ d ∈ c.descriptors.values, Plain d.toolId) :
    c.wireNames.Nodup := by
  have hids : (c.descriptors.values.map ToolDescriptor.toolId).Nodup := by
    rw [map_toolId_values hc]
    exact c.descriptors.nodup
  refine List.Nodup.map_on ?_ (hids.of_map.filter _)
  intro d hd d' hd' heq
  have hmem := List.mem_of_mem_filter hd
  have hmem' := List.mem_of_mem_filter hd'
  have htid : d.toolId = d'.toolId := wireName_inj (hplain d hmem) (hplain d' hmem') heq
  have hget := get?_of_mem_values hc hmem
  rw [htid, get?_of_mem_values hc hmem'] at hget
  exact (Option.some.inj hget).symm

theorem canonical_wireName (hplain : ∀ d ∈ c.descriptors.values, Plain d.toolId)
    (hd : d ∈ c.descriptors.values) : c.canonical (wireName d.toolId) = d.toolId := by
  rw [Catalog.canonical]
  split_ifs with hself hback
  · obtain ⟨d', hd'⟩ := Dict.contains_iff.mp hself
    have hp := hplain d' (Dict.mem_values_iff.mpr ⟨_, hd'⟩)
    rw [hc _ _ hd'] at hp
    exact wireName_of_plain hp
  · exact (canonicalName_wireName _).mpr (hplain d hd)
  · rw [(canonicalName_wireName _).mpr (hplain d hd)] at hback
    exact absurd (Dict.contains_iff.mpr ⟨d, get?_of_mem_values hc hd⟩) hback

theorem faithful_of_plain (hplain : ∀ d ∈ c.descriptors.values, Plain d.toolId) : c.Faithful where
  distinct := nodup_wireNames hc hplain
  back := fun d hd => (canonicalName_wireName _).mpr (hplain d hd)
  runs := by
    intro d hd
    rw [Catalog.execute, canonical_wireName hc hplain hd, get?_of_mem_values hc hd]

end Faithful

/-- After calls that the catalog accepts, the names it gives to the model are faithful exactly
when every id that a call registers is plain. -/
theorem faithful_iff (ops : List (Op X)) {c : Catalog X} (h : accepted .new ops = .ok c) :
    c.Faithful ↔ ∀ op ∈ ops, ∀ tid, op.registers = some tid → Plain tid := by
  obtain ⟨hkeyed, hids⟩ := accepted_ok keyed_new h
  constructor
  · intro hfaithful op hop tid hreg
    obtain ⟨d, hd⟩ := Dict.contains_iff.mp ((hids tid).mpr (.inr ⟨op, hop, hreg⟩))
    have hback := hfaithful.back d (Dict.mem_values_iff.mpr ⟨tid, hd⟩)
    rw [canonicalName_wireName, hkeyed tid d hd] at hback
    exact hback
  · intro hplain
    refine faithful_of_plain hkeyed fun d hd => ?_
    have hmem : c.descriptors.contains d.toolId = true :=
      Dict.contains_iff.mpr ⟨d, get?_of_mem_values hkeyed hd⟩
    obtain hnew | ⟨op, hop, hreg⟩ := (hids d.toolId).mp hmem
    · cases hnew
    · exact hplain op hop d.toolId hreg

theorem twoSeconds_pos : (0 : Int) < 2000 := by decide

def observing (toolId : PyStr) (h : toolId.isEmpty = false) : ToolDescriptor where
  toolId := toolId
  source := "mcp:limo"
  executionClass := .observe
  sideEffectClass := .none
  effectDomain := ""
  evidenceClass := .measured
  timeoutMs := 2000
  cooperativeCancel := false
  modelCallable := true
  requiresExactActionGrant := false
  named := h
  sourced := by decide
  timed := twoSeconds_pos
  physical := by
    intro h
    cases h
  granted := by
    intro h
    cases h
  observing := by
    intro h
    exact absurd rfl h

/-- The registrations of a tool with an underscore at the end of a part of its id, and of a
tool with one at the beginning of a part. -/
def twoTools : List (Op Nat) :=
  [.register (observing "limo_.state" (by decide)) (some 1),
    .register (observing "limo._state" (by decide)) (some 2)]

/-- The catalog accepts both, tells the model one name for them, and runs the second tool when
the first one is called. -/
theorem first_of_two_never_runs :
    ∃ c, accepted .new twoTools = .ok c
      ∧ wireName "limo_.state" = wireName "limo._state"
      ∧ (∃ job, c.execute (wireName "limo_.state") = .ok job ∧ job.toolId = "limo._state"
          ∧ job.executor = 2)
      ∧ ¬c.Faithful := by
  refine ⟨_, rfl, by decide, ⟨_, rfl, by decide, rfl⟩, ?_⟩
  intro hfaithful
  exact absurd hfaithful.distinct (by decide)

def plainTools : List (Op Nat) :=
  [.register (observing "limo.state" (by decide)) (some 1),
    .replace (observing "limo.audio_state" (by decide)) (some 2)]

/-- Registered under ids without such an underscore, both tools are called by their names. -/
theorem faithful_two_parts : ∃ c, accepted .new plainTools = .ok c ∧ c.Faithful := by
  refine ⟨_, rfl, (faithful_iff plainTools rfl).mpr ?_⟩
  intro op hop tid hreg
  rw [plainTools, List.mem_cons, List.mem_singleton] at hop
  rcases hop with rfl | rfl <;> cases hreg <;> decide

end Rosclaw.ToolCatalog
