/-
What the check of a task graph accepts, and which patches go through.

* `Sweep` — the state of the topological check: what is done, what is queued, and how many
  dependencies of every task are open; `Sweep.step`, `Sweep.run` — it is kept by the rounds;
* `validateDag_eq_ok` — the check accepts the acyclic graphs that name no dependency twice;
* `applyPatch_eq_ok_iff` — the patches that the store takes on the current revision;
* `accepts_dags` — when that is all acyclic graphs, and `refused_diamond` — one that is not.
-/
import Rosclaw.Lib.Acyclic
import Rosclaw.Agentd.GraphRevisions

namespace Rosclaw.MissionStore

open List Script

variable {nodes : List TaskNode} {done queue : List PyStr} {indegree : PyStr → Int}

def DependsOn (nodes : List TaskNode) (dep tid : PyStr) : Prop :=
  ∃ n ∈ nodes, n.taskId = tid ∧ dep ∈ n.dependencies

/-- The ids are unique, every dependency is a task, and no task depends on itself. -/
structure TaskGraph.IsDag (g : TaskGraph) : Prop where
  unique : (g.nodes.map TaskNode.taskId).Nodup
  known : ∀ n ∈ g.nodes, ∀ dep ∈ n.dependencies, dep ∈ g.nodes.map TaskNode.taskId
  acyclic : Acyclic (DependsOn g.nodes)

def TaskGraph.NamesOnce (g : TaskGraph) : Prop := ∀ n ∈ g.nodes, n.dependencies.Nodup

/-! ### The ids and the dependencies -/

variable {actorId current dep k key tid : PyStr} {dependencies ids ids' : List PyStr}
  {g g₁ g₂ : TaskGraph} {n n' : TaskNode}

theorem collectIds_eq_ok (hids : ids.Nodup) : collectIds ids nodes = .ok ids' ↔
      (ids ++ nodes.map TaskNode.taskId).Nodup ∧ ids' = ids ++ nodes.map TaskNode.taskId := by
  constructor
  · intro h
    refine ⟨nodup_of_collectIds h hids, ?_⟩
    induction nodes generalizing ids with
    | nil =>
      rw [map_nil, append_nil]
      exact (Except.ok.inj h).symm
    | cons n ns ih =>
      rw [collectIds] at h
      split at h
      · cases h
      · next hnew =>
        have hnodup : (ids ++ [n.taskId]).Nodup := by simpa using hids.concat hnew
        rw [ih hnodup h, map_cons, append_assoc, singleton_append]
  · rintro ⟨h, rfl⟩
    induction nodes generalizing ids with
    | nil => rw [collectIds, map_nil, append_nil]
    | cons n ns ih =>
      have hsplit : ids ++ (n :: ns).map TaskNode.taskId
          = (ids ++ [n.taskId]) ++ ns.map TaskNode.taskId := by
        rw [map_cons, append_assoc, singleton_append]
      rw [hsplit] at h ⊢
      have hnodup : (ids ++ [n.taskId]).Nodup := (nodup_append.mp h).1
      have hnew : n.taskId ∉ ids := by
        intro hmem
        exact (nodup_append.mp hnodup).2.2 _ hmem _ (mem_singleton_self _) rfl
      rw [collectIds, if_neg hnew]
      exact ih hnodup h

theorem dangling_eq_none :
    dangling ids nodes = none ↔ ∀ n ∈ nodes, ∀ dep ∈ n.dependencies, dep ∈ ids := by
  simp [dangling, List.findSome?_eq_none_iff, Option.map_eq_none_iff, List.find?_eq_none]

theorem node_eq_of_taskId (hids : (nodes.map TaskNode.taskId).Nodup) (hn : n ∈ nodes)
    (hn' : n' ∈ nodes) (h : n.taskId = n'.taskId) : n = n' := inj_on_of_nodup_map hids hn hn' h

theorem dependsOn_iff (hids : (nodes.map TaskNode.taskId).Nodup) (hn : n ∈ nodes) :
    DependsOn nodes dep n.taskId ↔ dep ∈ n.dependencies := by
  constructor
  · rintro ⟨n', hn', heq, hdep⟩
    rwa [node_eq_of_taskId hids hn' hn heq] at hdep
  · intro hdep
    exact ⟨n, hn, rfl, hdep⟩

theorem dependsOn_cons :
    DependsOn (n :: nodes) dep tid ↔ n.taskId = tid ∧ dep ∈ n.dependencies ∨ DependsOn nodes dep tid := by
  simp [DependsOn]

/-! ### One round of the check -/

theorem release_cons (current : PyStr) (n : TaskNode) (nodes : List TaskNode)
    (indegree : PyStr → Int) (queue : List PyStr) :
    release current (n :: nodes) indegree queue = if current ∈ n.dependencies then
        release current nodes (lower indegree n.taskId)
          (if indegree n.taskId - 1 = 0 then queue ++ [n.taskId] else queue)
      else release current nodes indegree queue := by
  rw [release, foldl_cons]
  split
  · rfl
  · rfl

/-- A round takes one edge from every task that depends on the current one, however often it
names it, and queues those that have none left. -/
theorem release_eq (hids : (nodes.map TaskNode.taskId).Nodup) (current : PyStr)
    (indegree : PyStr → Int) (queue : List PyStr) :
    (∀ k, DependsOn nodes current k → (release current nodes indegree queue).1 k = indegree k - 1) ∧
    (∀ k, ¬ DependsOn nodes current k → (release current nodes indegree queue).1 k = indegree k) ∧
    ∃ added, (release current nodes indegree queue).2 = queue ++ added ∧ added.Nodup ∧
      ∀ k, k ∈ added ↔ DependsOn nodes current k ∧ indegree k - 1 = 0 := by
  induction nodes generalizing indegree queue with
  | nil =>
    refine ⟨?_, fun k _ => rfl, [], (append_nil queue).symm, nodup_nil, ?_⟩
    · rintro k ⟨n, hn, -⟩
      cases hn
    · intro k
      constructor
      · intro hk
        cases hk
      · rintro ⟨⟨n, hn, -⟩, -⟩
        cases hn
  | cons n ns ih =>
    rw [map_cons, nodup_cons] at hids
    have hnot : ∀ dep, ¬ DependsOn ns dep n.taskId := by
      rintro dep ⟨n', hn', heq, -⟩
      exact hids.1 (mem_map.mpr ⟨n', hn', heq⟩)
    rw [release_cons]
    by_cases hdep : current ∈ n.dependencies
    · rw [if_pos hdep]
      obtain ⟨hyes, hno, added, hqueue, hnodup, hadded⟩ := ih hids.2 (lower indegree n.taskId)
        (if indegree n.taskId - 1 = 0 then queue ++ [n.taskId] else queue)
      have hself : lower indegree n.taskId n.taskId = indegree n.taskId - 1 := if_pos rfl
      have hother : ∀ k, k ≠ n.taskId → lower indegree n.taskId k = indegree k := fun k hk => if_neg hk
      have hnew : n.taskId ∉ added := fun hmem => hnot current ((hadded _).mp hmem).1
      refine ⟨?_, ?_, ?_⟩
      · intro k hk
        rcases eq_or_ne k n.taskId with rfl | hne
        · rw [hno _ (hnot current), hself]
        · rcases dependsOn_cons.mp hk with ⟨heq, -⟩ | hk
          · exact absurd heq.symm hne
          · rw [hyes k hk, hother k hne]
      · intro k hk
        have hk' := not_or.mp (mt dependsOn_cons.mpr hk)
        have hne : k ≠ n.taskId := fun heq => hk'.1 ⟨heq.symm, hdep⟩
        rw [hno k hk'.2, hother k hne]
      · have hmem : ∀ k, k ≠ n.taskId →
            (k ∈ added ↔ DependsOn (n :: ns) current k ∧ indegree k - 1 = 0) := by
          intro k hne
          rw [hadded k, hother k hne, dependsOn_cons, or_iff_right fun h => hne h.1.symm]
        have hhead : DependsOn (n :: ns) current n.taskId := dependsOn_cons.mpr (.inl ⟨rfl, hdep⟩)
        by_cases hzero : indegree n.taskId - 1 = 0
        · refine ⟨n.taskId :: added, ?_, nodup_cons.mpr ⟨hnew, hnodup⟩, ?_⟩
          · rw [hqueue, if_pos hzero, append_assoc, singleton_append]
          · intro k
            rw [mem_cons]
            rcases eq_or_ne k n.taskId with rfl | hne
            · exact iff_of_true (.inl rfl) ⟨hhead, hzero⟩
            · rw [or_iff_right hne, hmem k hne]
        · refine ⟨added, ?_, hnodup, ?_⟩
          · rw [hqueue, if_neg hzero]
          · intro k
            rcases eq_or_ne k n.taskId with rfl | hne
            · exact iff_of_false hnew fun h => hzero h.2
            · exact hmem k hne
    · rw [if_neg hdep]
      have hsame : ∀ k, DependsOn (n :: ns) current k ↔ DependsOn ns current k := by
        intro k
        rw [dependsOn_cons, or_iff_right fun h => hdep h.2]
      simp only [hsame]
      exact ih hids.2 indegree queue

/-! ### The rounds -/

/-- Of a list of tasks none of which is there twice, no more are dependencies than there are
dependencies; as many are where each dependency is named once and is in the list. -/
theorem length_filter_le (hdone : done.Nodup) (deps : List PyStr) :
    (done.filter (· ∈ deps)).length ≤ deps.length := by
  have hsub : done.filter (· ∈ deps) ⊆ deps := by
    intro k hk
    simpa using (mem_filter.mp hk).2
  exact (subperm_of_subset (hdone.filter _) hsub).length_le

theorem length_filter_eq (hdone : done.Nodup) (deps : List PyStr) :
    (done.filter (· ∈ deps)).length = deps.length ↔ deps.Nodup ∧ ∀ dep ∈ deps, dep ∈ done := by
  have hsub : done.filter (· ∈ deps) ⊆ deps := by
    intro k hk
    simpa using (mem_filter.mp hk).2
  constructor
  · intro hlen
    have hperm : (done.filter (· ∈ deps)).Perm deps :=
      (subperm_of_subset (hdone.filter _) hsub).perm_of_length_le hlen.ge
    refine ⟨hperm.nodup_iff.mp (hdone.filter _), ?_⟩
    intro dep hdep
    exact (mem_filter.mp (hperm.mem_iff.mpr hdep)).1
  · rintro ⟨hdeps, hall⟩
    have hback : deps ⊆ done.filter (· ∈ deps) := by
      intro dep hdep
      exact mem_filter.mpr ⟨hall dep hdep, by simpa using hdep⟩
    have hle := (subperm_of_subset hdeps hback).length_le
    have hle' := length_filter_le hdone deps
    omega

/-- The state of the check: no task is done or queued twice, a task counts its dependencies
less those that are done, the tasks done or queued are those that have none left, and they
are done in an order. -/
structure Sweep (nodes : List TaskNode) (done queue : List PyStr) (indegree : PyStr → Int) : Prop where
  nodup : (done ++ queue).Nodup
  counted : ∀ n ∈ nodes,
    indegree n.taskId = n.dependencies.length - (done.filter (· ∈ n.dependencies)).length
  ready : ∀ k, k ∈ done ++ queue ↔ ∃ n ∈ nodes, n.taskId = k ∧ indegree k = 0
  sorted : Acyclic.Sorted (DependsOn nodes) done

theorem Sweep.settled (h : Sweep nodes done queue indegree) (hn : n ∈ nodes) :
    indegree n.taskId = 0 ↔ n.dependencies.Nodup ∧ ∀ dep ∈ n.dependencies, dep ∈ done := by
  rw [← length_filter_eq (nodup_append.mp h.nodup).1, h.counted n hn]
  omega

theorem Sweep.done_of_ready (h : Sweep nodes done queue indegree) (hk : k ∈ done ++ queue)
    (hdep : DependsOn nodes dep k) : dep ∈ done := by
  obtain ⟨-, -, -, hzero⟩ := (h.ready k).mp hk
  obtain ⟨n, hn, rfl, hmem⟩ := hdep
  exact ((h.settled hn).mp hzero).2 dep hmem

theorem sweep_start (hids : (nodes.map TaskNode.taskId).Nodup) :
    Sweep nodes [] (roots nodes) (indegrees nodes) where
  nodup := by
    rw [nil_append, roots]
    exact hids.sublist (filter_sublist.map _)
  counted := by
    intro n hn
    rw [indegrees_of_mem hids hn, filter_nil, length_nil]
    omega
  ready := by
    intro k
    rw [nil_append, roots, mem_map]
    constructor
    · rintro ⟨n, hn, rfl⟩
      obtain ⟨hmem, hzero⟩ := mem_filter.mp hn
      refine ⟨n, hmem, rfl, ?_⟩
      rw [indegrees_of_mem hids hmem, of_decide_eq_true hzero]
      rfl
    · rintro ⟨n, hn, rfl, hzero⟩
      rw [indegrees_of_mem hids hn] at hzero
      exact ⟨n, mem_filter.mpr ⟨hn, decide_eq_true (by omega)⟩, rfl⟩
  sorted := Acyclic.sorted_nil

theorem Sweep.step (hids : (nodes.map TaskNode.taskId).Nodup)
    (h : Sweep nodes done (queue ++ [current]) indegree) :
    Sweep nodes (done ++ [current]) (release current nodes indegree queue).2
      (release current nodes indegree queue).1 := by
  obtain ⟨hyes, hno, added, hqueue, hadded, hmem⟩ := release_eq hids current indegree queue
  have hcurrent : current ∈ done ++ (queue ++ [current]) := by simp
  have hopen : current ∉ done := by
    intro hdone
    exact (nodup_append.mp h.nodup).2.2 _ hdone _ (by simp) rfl
  -- a task that depends on the current one was neither done nor queued
  have hlate : ∀ k, DependsOn nodes current k → k ∉ done ++ (queue ++ [current]) :=
    fun k hk hin => hopen (h.done_of_ready hin hk)
  rw [hqueue]
  refine ⟨?_, ?_, ?_, ?_⟩
  · have hall : ((done ++ (queue ++ [current])) ++ added).Nodup := by
      refine nodup_append.mpr ⟨h.nodup, hadded, ?_⟩
      intro k hk k' hk' heq
      subst heq
      exact hlate k ((hmem k).mp hk').1 hk
    refine (List.Perm.nodup_iff ?_).mp hall
    rw [append_assoc, append_assoc, append_assoc]
    exact List.Perm.append_left done ((perm_append_comm_assoc queue [current] added))
  · intro n hn
    have hcount := h.counted n hn
    rw [filter_append, length_append]
    by_cases hdep : current ∈ n.dependencies
    · rw [hyes _ ((dependsOn_iff hids hn).mpr hdep), hcount,
        filter_cons_of_pos (by simpa using hdep), filter_nil, length_singleton]
      omega
    · rw [hno _ (mt (dependsOn_iff hids hn).mp hdep), hcount,
        filter_cons_of_neg (by simpa using hdep), filter_nil, length_nil]
      omega
  · intro k
    have hsplit : k ∈ (done ++ [current]) ++ (queue ++ added) ↔
        k ∈ done ++ (queue ++ [current]) ∨ k ∈ added := by
      simp only [mem_append]
      tauto
    rw [hsplit, hmem k]
    by_cases hdep : DependsOn nodes current k
    · rw [hyes k hdep, or_iff_right (hlate k hdep)]
      constructor
      · rintro ⟨⟨n, hn, heq, -⟩, hzero⟩
        exact ⟨n, hn, heq, hzero⟩
      · rintro ⟨-, -, -, hzero⟩
        exact ⟨hdep, hzero⟩
    · rw [hno k hdep, or_iff_left fun hk => hdep hk.1]
      exact h.ready k
  · exact h.sorted.snoc fun dep hdep => h.done_of_ready hcurrent hdep

theorem Sweep.run (h : Sweep nodes done queue indegree) (fuel : Nat)
    (hids : (nodes.map TaskNode.taskId).Nodup) :
    ∃ done' indegree', Sweep nodes done' (kahn nodes fuel indegree queue done.length).1 indegree' ∧
      (kahn nodes fuel indegree queue done.length).2 = done'.length := by
  induction fuel generalizing done queue indegree with
  | zero => exact ⟨done, indegree, h, rfl⟩
  | succ fuel ih =>
    rcases eq_nil_or_concat queue with rfl | ⟨queue, current, rfl⟩
    · exact ⟨done, indegree, h, rfl⟩
    · rw [concat_eq_append] at h ⊢
      obtain ⟨done', indegree', hend, hlen⟩ := ih (h.step hids)
      have hround : kahn nodes (fuel + 1) indegree (queue ++ [current]) done.length =
          kahn nodes fuel (release current nodes indegree queue).1
            (release current nodes indegree queue).2 (done ++ [current]).length := by
        rw [kahn, List.getLast?_concat, dropLast_concat, length_append, length_singleton]
      rw [hround]
      exact ⟨done', indegree', hend, hlen⟩

/-! ### What is accepted -/

/-- When nothing is queued any more, all tasks are done exactly when the graph has no cycle and
no task names a dependency twice. -/
theorem Sweep.all_done_iff (hids : (nodes.map TaskNode.taskId).Nodup)
    (hknown : ∀ n ∈ nodes, ∀ dep ∈ n.dependencies, dep ∈ nodes.map TaskNode.taskId)
    (h : Sweep nodes done [] indegree) :
    done.length = nodes.length ↔ Acyclic (DependsOn nodes) ∧ ∀ n ∈ nodes, n.dependencies.Nodup := by
  have hready : ∀ k, k ∈ done ↔ ∃ n ∈ nodes, n.taskId = k ∧ indegree k = 0 := by
    intro k
    rw [← h.ready k, append_nil]
  have hdone : done.Nodup := (nodup_append.mp h.nodup).1
  have hsub : done ⊆ nodes.map TaskNode.taskId := by
    intro k hk
    obtain ⟨n, hn, heq, -⟩ := (hready k).mp hk
    exact mem_map.mpr ⟨n, hn, heq⟩
  have hsubperm := subperm_of_subset hdone hsub
  constructor
  · intro hlen
    have hperm : done.Perm (nodes.map TaskNode.taskId) :=
      hsubperm.perm_of_length_le (by rw [length_map, hlen])
    have hall : ∀ n ∈ nodes, n.taskId ∈ done :=
      fun n hn => hperm.mem_iff.mpr (mem_map.mpr ⟨n, hn, rfl⟩)
    refine ⟨Acyclic.of_sorted h.sorted ?_, ?_⟩
    · rintro p k ⟨n, hn, rfl, -⟩
      exact hall n hn
    · intro n hn
      obtain ⟨-, -, -, hzero⟩ := (hready _).mp (hall n hn)
      exact ((h.settled hn).mp hzero).1
  · rintro ⟨hacyclic, hdeps⟩
    have hall : nodes.map TaskNode.taskId ⊆ done := by
      intro k hk
      by_contra hnot
      have hclosed : ∀ p a, a ∈ nodes.map TaskNode.taskId → DependsOn nodes p a →
          p ∈ nodes.map TaskNode.taskId := by
        rintro p a - ⟨n, hn, -, hdep⟩
        exact hknown n hn p hdep
      obtain ⟨w, hw, hopen, hbefore⟩ := hacyclic.exists_ready hclosed hk hnot
      obtain ⟨n, hn, rfl⟩ := mem_map.mp hw
      refine hopen ((hready _).mpr ⟨n, hn, rfl, (h.settled hn).mpr ⟨hdeps n hn, ?_⟩⟩)
      intro dep hdep
      exact hbefore dep ⟨n, hn, rfl, hdep⟩
    have hle := (subperm_of_subset hids hall).length_le
    have hle' := hsubperm.length_le
    rw [length_map] at hle hle'
    omega

/-- **What `validate_dag` accepts**: the acyclic graphs no task of which names a dependency
twice. -/
theorem validateDag_eq_ok (g : TaskGraph) : g.validateDag = .ok () ↔ g.IsDag ∧ g.NamesOnce := by
  rw [TaskGraph.validateDag]
  rcases hids : collectIds [] g.nodes with e | ids
  · refine iff_of_false (by simp) ?_
    rintro ⟨hdag, -⟩
    have hok := (collectIds_eq_ok nodup_nil).mpr ⟨hdag.unique, rfl⟩
    rw [hids] at hok
    cases hok
  · obtain ⟨hnodup, rfl⟩ := (collectIds_eq_ok nodup_nil).mp hids
    rw [nil_append] at hnodup ⊢
    rcases hdangling : dangling (g.nodes.map TaskNode.taskId) g.nodes with _ | ⟨tid, dep⟩
    · have hknown := dangling_eq_none.mp hdangling
      obtain ⟨done, indegree, hend, hlen⟩ := (sweep_start hnodup).run g.nodes.length hnodup
      rw [length_nil] at hend hlen
      rw [validateDag_rounds hnodup] at hend
      have hiff := hend.all_done_iff hnodup hknown
      simp only [hdangling, hlen]
      constructor
      · intro hok
        have hcount : done.length = g.nodes.length := by
          by_contra hne
          simp [hne] at hok
        exact ⟨⟨hnodup, hknown, (hiff.mp hcount).1⟩, (hiff.mp hcount).2⟩
      · rintro ⟨hdag, hdeps⟩
        rw [if_neg (not_not_intro (hiff.mpr ⟨hdag.acyclic, hdeps⟩))]
    · refine iff_of_false (by simp [hdangling]) ?_
      rintro ⟨hdag, -⟩
      have hnone := dangling_eq_none.mpr hdag.known
      rw [hdangling] at hnone
      cases hnone

/-! ### Patches -/

/-- The graph of a mission whose row is `r`. -/
def MissionTables.graphOf (db : MissionTables) (r : MissionRow) (m : PyStr) : TaskGraph :=
  ⟨m, r.taskGraphRevision, db.nodesOf m⟩

/-- What the operations of a patch, applied in order, make of a graph. -/
def TaskGraphPatch.Makes (patch : TaskGraphPatch) (g g' : TaskGraph) : Prop :=
  ∃ nodes, applyOperations patch.operations (nodeDict g.nodes) = .ok nodes ∧
    g' = ⟨patch.missionId, g.revision + 1, nodes.values⟩

/-- The operations are applicable and the graph they make is acyclic. -/
def TaskGraphPatch.MakesDag (patch : TaskGraphPatch) (g : TaskGraph) : Prop :=
  ∃ g', patch.Makes g g' ∧ g'.IsDag

/-- No event of the mission is filed under the id of the patch yet. -/
def TaskGraphPatch.Fresh (patch : TaskGraphPatch) (db : MissionTables) : Prop :=
  ∀ e ∈ db.events, e.missionId = patch.missionId → e.idempotencyKey ≠ some patch.patchId

variable {db : MissionTables} {c c' : Conn MissionTables} {patch : TaskGraphPatch} {r : MissionRow}

theorem fresh_of_appendEvent {e : EventRow} {u : Unit} (hkey : e.idempotencyKey = some key)
    (h : appendEvent e c = (.ok u, c')) :
    ∀ e' ∈ c.store.events, e'.missionId = e.missionId → e'.idempotencyKey ≠ some key := by
  obtain ⟨seq, c₁, hseq, hins⟩ := bind_eq_ok.mp h
  have hstore := (select_eq_ok hseq).2
  have hins := execute_eq_ok hins
  rw [MissionTables.insertEvent, hstore] at hins
  intro e' he' hm hsame
  split at hins
  · cases hins
  · rw [if_pos] at hins
    · cases hins
    · refine ⟨by rw [hkey]; rfl, any_eq_true.mpr ⟨e', he', ?_⟩⟩
      rw [decide_eq_true_eq]
      exact ⟨hm, hsame.trans hkey.symm⟩

theorem fresh_of_commitPatch {rev : Int} (h : commitPatch patch actorId c = (.ok rev, c')) :
    patch.Fresh c.store := by
  obtain ⟨row, c₁, hrow, h⟩ := bind_eq_ok.mp h
  obtain ⟨rfl, h₁⟩ := select_eq_ok hrow
  rcases hr : c.store.missions.get? patch.missionId with _ | r
  · rw [hr] at h
    exact absurd h raise_ne_ok
  · rw [hr] at h
    by_cases hbase : patch.baseRevision = r.taskGraphRevision
    · simp only [hbase, ne_eq, not_true_eq_false, if_false] at h
      obtain ⟨rows, c₂, hrows, h⟩ := bind_eq_ok.mp h
      obtain ⟨nodes, c₃, hops, h⟩ := bind_eq_ok.mp h
      obtain ⟨-, rfl⟩ := ofExcept_eq_ok.mp hops
      obtain ⟨u₄, c₄, hvalid, h⟩ := bind_eq_ok.mp h
      obtain ⟨-, rfl⟩ := ofExcept_eq_ok.mp hvalid
      obtain ⟨u₅, c₅, hdel, h⟩ := bind_eq_ok.mp h
      obtain ⟨u₆, c₆, hdel', h⟩ := bind_eq_ok.mp h
      obtain ⟨u₇, c₇, hins, h⟩ := bind_eq_ok.mp h
      obtain ⟨u₈, c₈, hupd, h⟩ := bind_eq_ok.mp h
      obtain ⟨u₉, c₉, hevent, -⟩ := bind_eq_ok.mp h
      have hkey : (patch.event actorId (r.taskGraphRevision + 1)).idempotencyKey
          = some patch.patchId := rfl
      have hfresh := fresh_of_appendEvent hkey hevent
      -- none of the statements before it touches the events
      have h₂ := (select_eq_ok hrows).2
      have hdel := execute_eq_ok hdel
      have hdel' := execute_eq_ok hdel'
      have hupd := execute_eq_ok hupd
      have h₅ := (Except.ok.inj hdel).symm
      have h₆ := (Except.ok.inj hdel').symm
      have h₇ := (insertNodes_eq_ok hins).2.1
      have h₈ := (Except.ok.inj hupd).symm
      have hevents : c₈.store.events = c.store.events := by
        rw [h₈]
        show c₇.store.events = _
        rw [h₇, h₆, h₅, h₂, h₁]
      rw [hevents] at hfresh
      exact hfresh
    · simp only [hbase, ne_eq, not_false_eq_true, if_true] at h
      exact absurd h raise_ne_ok

/-- **What `apply_patch` accepts** on the revision that the patch names. -/
theorem applyPatch_eq_ok_iff (actorId : PyStr) (hrow : db.missions.get? patch.missionId = some r)
    (hbase : patch.baseRevision = r.taskGraphRevision) :
    Call.result ⟨.applyPatch patch actorId, none⟩ db = .ok () ↔
      (∃ g, patch.Makes (db.graphOf r patch.missionId) g ∧ g.IsDag ∧ g.NamesOnce) ∧
        patch.Fresh db := by
  constructor
  · intro h
    rcases hrun : perform (.applyPatch patch actorId) ⟨db, none⟩ with ⟨x, c₁⟩
    rw [Call.result, hrun] at h
    obtain rfl : x = .ok () := h
    obtain ⟨rev, c₂, happly, -⟩ := bind_eq_ok.mp hrun
    obtain ⟨c₃, c₄, h₃, hcommit, -⟩ := immediate_eq_ok happly
    have hfresh := fresh_of_commitPatch hcommit
    obtain ⟨r', nodes, hrow', -, rfl, hnodes, hdag, -⟩ := commitPatch_eq_ok hcommit
    rw [h₃] at hrow' hnodes hfresh
    obtain rfl : r = r' := Option.some.inj (hrow.symm.trans hrow')
    obtain ⟨hdag, honce⟩ := (validateDag_eq_ok _).mp hdag
    exact ⟨⟨_, ⟨nodes, hnodes, rfl⟩, hdag, honce⟩, hfresh⟩
  · rintro ⟨⟨g, ⟨nodes, hnodes, rfl⟩, hdag, honce⟩, hfresh⟩
    have hfits : patch.Fits (db.graphOf r patch.missionId) :=
      ⟨nodes, hnodes, (validateDag_eq_ok _).mpr ⟨hdag, honce⟩, honce⟩
    obtain ⟨db', hcommit⟩ := commitPatch_of_unfailing actorId hrow hbase hfits hfresh
    exact accepted_of_commit hcommit

theorem TaskGraphPatch.Makes.unique (h₁ : patch.Makes g g₁) (h₂ : patch.Makes g g₂) : g₁ = g₂ := by
  obtain ⟨nodes, hnodes, rfl⟩ := h₁
  obtain ⟨nodes', hnodes', rfl⟩ := h₂
  rw [hnodes] at hnodes'
  rw [Except.ok.inj hnodes']

/-- **When the check and the store accept all acyclic graphs**: the check where none of them
names a dependency of a task twice; `apply_patch`, on the current revision, where the graph it
makes does not either, and the id of the patch is new. -/
theorem accepts_dags (actorId : PyStr) (hrow : db.missions.get? patch.missionId = some r)
    (hbase : patch.baseRevision = r.taskGraphRevision) :
    (∀ g : TaskGraph, (g.validateDag = .ok () ↔ g.IsDag) ↔ (g.IsDag → g.NamesOnce)) ∧
    ((Call.result ⟨.applyPatch patch actorId, none⟩ db = .ok () ↔
        patch.MakesDag (db.graphOf r patch.missionId)) ↔
      (∀ g, patch.Makes (db.graphOf r patch.missionId) g → g.IsDag →
        g.NamesOnce ∧ patch.Fresh db)) := by
  constructor
  · intro g
    rw [validateDag_eq_ok]
    constructor
    · intro h hdag
      exact (h.mpr hdag).2
    · intro h
      exact ⟨fun hok => hok.1, fun hdag => ⟨hdag, h hdag⟩⟩
  · rw [applyPatch_eq_ok_iff actorId hrow hbase]
    constructor
    · intro h g hmakes hdag
      obtain ⟨⟨g', hmakes', -, honce⟩, hfresh⟩ := h.mpr ⟨g, hmakes, hdag⟩
      rw [hmakes.unique hmakes']
      exact ⟨honce, hfresh⟩
    · intro h
      constructor
      · rintro ⟨⟨g, hmakes, hdag, -⟩, -⟩
        exact ⟨g, hmakes, hdag⟩
      · rintro ⟨g, hmakes, hdag⟩
        exact ⟨⟨g, hmakes, hdag, (h g hmakes hdag).1⟩, (h g hmakes hdag).2⟩

def secondTask (dependencies : List PyStr) : TaskNode := ⟨"u", .reason, dependencies, .pending, .dict []⟩

def secondPatch (dependencies : List PyStr) : TaskGraphPatch :=
  ⟨"p2", "m", 1, [⟨.addNode, some (secondTask dependencies), none, none⟩], "planner", 0⟩

def secondGraph (dependencies : List PyStr) : TaskGraph :=
  ⟨"m", 2, [firstTask, secondTask dependencies]⟩

theorem isDag_secondGraph (h : ∀ dep ∈ dependencies, dep = "t") :
    (secondGraph dependencies).IsDag := by
  have hedge : ∀ p k, DependsOn [firstTask, secondTask dependencies] p k → k = "u" ∧ p = "t" := by
    rintro p k ⟨n, hn, rfl, hdep⟩
    rcases mem_pair.mp hn with rfl | rfl
    · cases hdep
    · exact ⟨rfl, h p hdep⟩
  have hsorted : Acyclic.Sorted (DependsOn [firstTask, secondTask dependencies]) ["t", "u"] := by
    refine (Acyclic.sorted_nil.snoc (b := ("t" : PyStr)) ?_).snoc (b := ("u" : PyStr)) ?_
    · intro p hp
      exact absurd (hedge p _ hp).1 (by decide)
    · intro p hp
      exact mem_singleton.mpr (hedge p _ hp).2
  refine ⟨?_, ?_, Acyclic.of_sorted hsorted ?_⟩
  · show [firstTask.taskId, "u"].Nodup
    decide
  · intro n hn dep hdep
    have hedge' := hedge dep n.taskId ⟨n, hn, rfl, hdep⟩
    rw [hedge'.2]
    exact mem_cons_self
  · intro p k hp
    rw [(hedge p k hp).1]
    exact mem_cons_of_mem _ mem_cons_self

/-- A dependency that is named once. -/
theorem accepts_dags_second :
    Call.result ⟨.applyPatch (secondPatch ["t"]) "planner", none⟩ firstGraph = .ok () ↔
      (secondPatch ["t"]).MakesDag ⟨"m", 1, firstGraph.nodesOf "m"⟩ := by
  obtain ⟨r, hr, hrev⟩ : ∃ r, firstGraph.missions.get? "m" = some r ∧ (1 : Int) = r.taskGraphRevision :=
    ⟨_, rfl, rfl⟩
  have hbase : (secondPatch ["t"]).baseRevision = r.taskGraphRevision := hrev
  have h := (accepts_dags "planner" hr hbase).2
  rw [MissionTables.graphOf, ← hrev] at h
  refine h.mpr ?_
  rintro g ⟨nodes, hnodes, rfl⟩ -
  obtain rfl : _ = nodes := Except.ok.inj hnodes
  refine ⟨?_, ?_⟩
  · intro n hn
    rcases List.mem_pair.mp (show n ∈ [firstTask, secondTask ["t"]] from hn) with rfl | rfl
    · exact List.nodup_nil
    · exact List.nodup_singleton _
  · unfold TaskGraphPatch.Fresh
    decide

/-- A dependency that is named twice is taken for a cycle. -/
theorem repeated_refused : ∃ g : TaskGraph, g.IsDag ∧
    g.validateDag = .error (.validationError "task graph contains a dependency cycle") ∧
    missionStore.Reachable firstGraph ∧
    (secondPatch ["t", "t"]).Makes ⟨"m", 1, firstGraph.nodesOf "m"⟩ g ∧
    Call.result ⟨.applyPatch (secondPatch ["t", "t"]) "planner", none⟩ firstGraph
      = .error (.validationError "task graph contains a dependency cycle") := by
  refine ⟨secondGraph ["t", "t"], isDag_secondGraph ?_, ?_, reachable_firstGraph, ⟨_, rfl, rfl⟩, ?_⟩
  · intro dep hdep
    rcases List.mem_pair.mp hdep with rfl | rfl
    · rfl
    · rfl
  · decide
  · decide

end Rosclaw.MissionStore
