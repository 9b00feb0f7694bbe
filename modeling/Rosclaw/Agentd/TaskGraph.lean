/-
Task graphs of a mission, their patches, and the check that they are acyclic.

* `validateDag_congr` — the check looks at the ids and the dependencies only.
-/
import Rosclaw.Lib.Dict
import Rosclaw.Lib.PyVal

namespace Rosclaw.MissionStore

open List

inductive TaskKind
  | perceive | reason | createArtifact | validate | requestAction | coordinate | wait
deriving DecidableEq, Repr

inductive TaskStatus
  | pending | ready | running | blocked | needsRebinding | succeeded | failed | cancelled
deriving DecidableEq, Repr

/-- `TaskNodeV1`; what the store only copies is `body`. -/
structure TaskNode where
  taskId : PyStr
  kind : TaskKind
  dependencies : List PyStr
  status : TaskStatus
  body : PyVal

structure TaskGraph where
  missionId : PyStr
  revision : Int
  nodes : List TaskNode

inductive PatchOp
  | addNode | removeNode | updateNode | setStatus
deriving DecidableEq, Repr

structure PatchOperation where
  op : PatchOp
  node : Option TaskNode
  taskId : Option PyStr
  status : Option TaskStatus

structure TaskGraphPatch where
  patchId : PyStr
  missionId : PyStr
  baseRevision : Int
  operations : List PatchOperation
  proposedBy : PyStr
  contextRevision : Int

/-- The exceptions of the store; all but the first are validation errors. -/
inductive StoreError
  | sqliteError
  | validationError (message : PyStr)
  | transitionError (message : PyStr)
  | revisionConflictError (message : PyStr)
  | budgetExceededError (message : PyStr)
deriving DecidableEq, Repr

/-! ### The check of a graph -/

def collectIds : List PyStr → List TaskNode → Except StoreError (List PyStr)
  | ids, [] => .ok ids
  | ids, n :: ns =>
      if n.taskId ∈ ids then .error (.validationError ("duplicate task_id " ++ n.taskId.quoted))
      else collectIds (ids ++ [n.taskId]) ns

def dangling (ids : List PyStr) (nodes : List TaskNode) : Option (PyStr × PyStr) :=
  nodes.findSome? fun n => (n.dependencies.find? (· ∉ ids)).map fun dep => (n.taskId, dep)

/-- Take one edge away from every node that depends on `current`; the nodes that have none
left go to the queue. -/
def release (current : PyStr) (nodes : List TaskNode) (indegree : PyStr → Int) (queue : List PyStr) :
    (PyStr → Int) × List PyStr :=
  nodes.foldl (fun acc n =>
    if current ∈ n.dependencies then
      let d := acc.1 n.taskId - 1
      (fun k => if k = n.taskId then d else acc.1 k, if d = 0 then acc.2 ++ [n.taskId] else acc.2)
    else acc) (indegree, queue)

/-- The rounds of the topological check: the queue that is left and how many were seen. -/
def kahn (nodes : List TaskNode) : Nat → (PyStr → Int) → List PyStr → Nat → List PyStr × Nat
  | 0, _, queue, seen => (queue, seen)
  | fuel + 1, indegree, queue, seen =>
      match queue.getLast? with
      | none => (queue, seen)
      | some current =>
        let (indegree', queue') := release current nodes indegree queue.dropLast
        kahn nodes fuel indegree' queue' (seen + 1)

/-- `indegree` before the first round. -/
def indegrees (nodes : List TaskNode) (k : PyStr) : Int :=
  ((nodes.filter (·.taskId = k)).map fun n => (n.dependencies.length : Int)).sum

def roots (nodes : List TaskNode) : List PyStr :=
  (nodes.filter fun n => n.dependencies.length = 0).map TaskNode.taskId

namespace TaskGraph

def validateDag (g : TaskGraph) : Except StoreError Unit :=
  match collectIds [] g.nodes with
  | .error e => .error e
  | .ok ids =>
    match dangling ids g.nodes with
    | some (tid, dep) =>
        .error (.validationError ("task " ++ tid.quoted ++ " depends on unknown task " ++ dep.quoted))
    | none =>
      if (kahn g.nodes g.nodes.length (indegrees g.nodes) (roots g.nodes) 0).2 ≠ g.nodes.length then
        .error (.validationError "task graph contains a dependency cycle")
      else .ok ()

end TaskGraph

section Congr
variable {f : TaskNode → TaskNode} (hid : ∀ n, (f n).taskId = n.taskId)
  (hdep : ∀ n, (f n).dependencies = n.dependencies)
include hid

theorem collectIds_map (nodes : List TaskNode) (ids : List PyStr) :
    collectIds ids (nodes.map f) = collectIds ids nodes := by
  induction nodes generalizing ids with
  | nil => rfl
  | cons n ns ih => rw [map_cons, collectIds, collectIds, hid, ih]

include hdep

theorem dangling_map (ids : List PyStr) (nodes : List TaskNode) :
    dangling ids (nodes.map f) = dangling ids nodes := by
  induction nodes with
  | nil => rfl
  | cons n ns ih =>
    simp only [dangling, map_cons, List.findSome?_cons, hid, hdep] at ih ⊢
    rw [ih]

theorem release_map (current : PyStr) (nodes : List TaskNode) (indegree : PyStr → Int)
    (queue : List PyStr) :
    release current (nodes.map f) indegree queue = release current nodes indegree queue := by
  rw [release, release, foldl_map]
  simp only [hid, hdep]

theorem kahn_map (nodes : List TaskNode) (fuel : Nat) (indegree : PyStr → Int)
    (queue : List PyStr) (seen : Nat) :
    kahn (nodes.map f) fuel indegree queue seen = kahn nodes fuel indegree queue seen := by
  induction fuel generalizing indegree queue seen with
  | zero => rfl
  | succ fuel ih =>
    rw [kahn, kahn]
    split
    · rfl
    · simp only [release_map hid hdep, ih]

theorem indegrees_map (nodes : List TaskNode) : indegrees (nodes.map f) = indegrees nodes := by
  funext k
  simp only [indegrees, filter_map, map_map, Function.comp_def, hid, hdep]

theorem roots_map (nodes : List TaskNode) : roots (nodes.map f) = roots nodes := by
  simp only [roots, filter_map, map_map, Function.comp_def, hid, hdep]

theorem validateDag_map (m : PyStr) (r r' : Int) (nodes : List TaskNode) :
    (TaskGraph.mk m r (nodes.map f)).validateDag = (TaskGraph.mk m r' nodes).validateDag := by
  simp only [TaskGraph.validateDag, collectIds_map hid, dangling_map hid hdep, kahn_map hid hdep,
    indegrees_map hid hdep, roots_map hid hdep, length_map]

end Congr

/-! ### The rounds of the check -/

def waiting (nodes : List TaskNode) (indegree : PyStr → Int) : Nat :=
  nodes.countP fun n => 0 < indegree n.taskId

/-- The counts after one edge to `tid` is gone. -/
def lower (indegree : PyStr → Int) (tid : PyStr) : PyStr → Int :=
  fun k => if k = tid then indegree tid - 1 else indegree k

theorem lower_le (indegree : PyStr → Int) (tid k : PyStr) : lower indegree tid k ≤ indegree k := by
  unfold lower
  split
  · next h =>
    rw [h]
    omega
  · exact le_refl _

theorem waiting_lower_le (nodes : List TaskNode) (indegree : PyStr → Int) (tid : PyStr) :
    waiting nodes (lower indegree tid) ≤ waiting nodes indegree := by
  refine countP_mono_left ?_
  intro n _ hn
  have hle := lower_le indegree tid n.taskId
  rw [decide_eq_true_eq] at hn ⊢
  omega

variable {nodes : List TaskNode}

variable {fuel seen : Nat} {indegree : PyStr → Int} {n : TaskNode}

theorem waiting_lower_lt (hn : n ∈ nodes) (hd : indegree n.taskId - 1 = 0) :
    waiting nodes (lower indegree n.taskId) < waiting nodes indegree := by
  have hself : lower indegree n.taskId n.taskId = 0 := by
    rw [lower, if_pos rfl, hd]
  induction nodes with
  | nil => cases hn
  | cons n' ns ih =>
    have hle := waiting_lower_le ns indegree n.taskId
    have hle' := lower_le indegree n.taskId n'.taskId
    unfold waiting at ih hle ⊢
    rw [countP_cons, countP_cons]
    simp only [decide_eq_true_eq]
    rcases mem_cons.mp hn with rfl | hmem
    · have hpos : 0 < indegree n.taskId := by omega
      rw [hself, if_neg (by omega), if_pos hpos]
      omega
    · have hlt := ih hmem
      split <;> split <;> omega

theorem release_le {nodes ns : List TaskNode} (hsub : ∀ n ∈ ns, n ∈ nodes) (current : PyStr)
    (indegree : PyStr → Int) (queue : List PyStr) :
    (release current ns indegree queue).2.length + waiting nodes (release current ns indegree queue).1
      ≤ queue.length + waiting nodes indegree := by
  induction ns generalizing indegree queue with
  | nil => exact le_refl _
  | cons n ns ih =>
    have hrest : ∀ n' ∈ ns, n' ∈ nodes := fun n' h' => hsub n' (mem_cons_of_mem _ h')
    by_cases hdep : current ∈ n.dependencies
    · have hstep : release current (n :: ns) indegree queue
          = release current ns (lower indegree n.taskId)
              (if indegree n.taskId - 1 = 0 then queue ++ [n.taskId] else queue) := by
        rw [release, foldl_cons, if_pos hdep]
        rfl
      rw [hstep]
      refine (ih hrest _ _).trans ?_
      by_cases hd : indegree n.taskId - 1 = 0
      · have hlt := waiting_lower_lt (hsub n mem_cons_self) hd
        rw [if_pos hd, length_append, length_singleton]
        omega
      · have hle := waiting_lower_le nodes indegree n.taskId
        rw [if_neg hd]
        omega
    · have hstep : release current (n :: ns) indegree queue = release current ns indegree queue := by
        rw [release, foldl_cons, if_neg hdep]
        rfl
      rw [hstep]
      exact ih hrest _ _

/-- **Enough rounds.**  As many rounds as there are nodes in the queue or waiting empty
the queue. -/
theorem kahn_queue_nil {queue : List PyStr} (h : queue.length + waiting nodes indegree ≤ fuel) :
    (kahn nodes fuel indegree queue seen).1 = [] := by
  induction fuel generalizing indegree queue seen with
  | zero =>
    have hlen : queue.length = 0 := by omega
    exact length_eq_zero_iff.mp hlen
  | succ fuel ih =>
    rw [kahn]
    rcases hlast : queue.getLast? with _ | current
    · exact List.getLast?_eq_none_iff.mp hlast
    · have hne : queue ≠ [] := by
        rintro rfl
        cases hlast
      have hpos : 0 < queue.length := length_pos_iff.mpr hne
      have hle := release_le (fun (n : TaskNode) (hn : n ∈ nodes) => hn) current indegree queue.dropLast
      rw [length_dropLast] at hle
      have hrest : (release current nodes indegree queue.dropLast).2.length
          + waiting nodes (release current nodes indegree queue.dropLast).1 ≤ fuel := by omega
      exact ih hrest

theorem filter_taskId (hnodup : (nodes.map TaskNode.taskId).Nodup) (hn : n ∈ nodes) :
    nodes.filter (fun n' => n'.taskId = n.taskId) = [n] := by
  induction nodes with
  | nil => cases hn
  | cons n' ns ih =>
    rw [map_cons, nodup_cons] at hnodup
    rcases mem_cons.mp hn with rfl | hmem
    · have hrest : ns.filter (fun n' => n'.taskId = n.taskId) = [] := by
        rw [filter_eq_nil_iff]
        intro n' hn' heq
        exact hnodup.1 (mem_map.mpr ⟨n', hn', of_decide_eq_true heq⟩)
      rw [filter_cons_of_pos (by simp), hrest]
    · have hne : n'.taskId ≠ n.taskId := by
        intro heq
        exact hnodup.1 (mem_map.mpr ⟨n, hmem, heq.symm⟩)
      rw [filter_cons_of_neg (by simpa using hne), ih hnodup.2 hmem]

theorem indegrees_of_mem (hnodup : (nodes.map TaskNode.taskId).Nodup) (hn : n ∈ nodes) :
    indegrees nodes n.taskId = n.dependencies.length := by
  rw [indegrees, filter_taskId hnodup hn]
  simp

/-- The rounds that `validateDag` grants are enough: the check ends with an empty queue. -/
theorem validateDag_rounds (hnodup : (nodes.map TaskNode.taskId).Nodup) :
    (kahn nodes nodes.length (indegrees nodes) (roots nodes) 0).1 = [] := by
  refine kahn_queue_nil ?_
  have hwait : waiting nodes (indegrees nodes) = nodes.countP fun n => ¬ n.dependencies.length = 0 := by
    refine countP_congr ?_
    intro n hn
    rw [indegrees_of_mem hnodup hn, decide_eq_true_eq, decide_eq_true_eq]
    omega
  have hroots : (roots nodes).length = nodes.countP fun n => n.dependencies.length = 0 := by
    rw [roots, length_map, countP_eq_length_filter]
  have htotal : nodes.length = (nodes.countP fun n => n.dependencies.length = 0)
      + nodes.countP fun n => ¬ n.dependencies.length = 0 := by
    rw [length_eq_countP_add_countP fun n : TaskNode => n.dependencies.length = 0]
    simp
  omega

/-! ### Patches -/

def unknownTask (tid : Option PyStr) : StoreError :=
  .validationError ("unknown task " ++ (tid.elim ("None" : PyStr) PyStr.quoted))

def applyOperation (nodes : Dict PyStr TaskNode) (op : PatchOperation) :
    Except StoreError (Dict PyStr TaskNode) :=
  match op.op with
  | .addNode =>
    match op.node with
    | none => .error (.validationError "add_node requires node")
    | some n =>
      if nodes.contains n.taskId then
        .error (.validationError ("task " ++ n.taskId.quoted ++ " already exists"))
      else .ok (nodes.set n.taskId n)
  | .removeNode =>
    match op.taskId with
    | none => .error (unknownTask none)
    | some tid =>
      if tid.codes = [] || !nodes.contains tid then .error (unknownTask (some tid))
      else .ok (nodes.erase tid)
  | .updateNode =>
    match op.node with
    | none => .error (unknownTask none)
    | some n =>
      if !nodes.contains n.taskId then .error (unknownTask (some n.taskId))
      else .ok (nodes.set n.taskId n)
  | .setStatus =>
    match op.taskId, op.status with
    | some tid, some st =>
      match nodes.get? tid with
      | none => .error (.validationError "set_status requires task_id and status")
      | some n =>
        if tid.codes = [] then .error (.validationError "set_status requires task_id and status")
        else .ok (nodes.set tid { n with status := st })
    | _, _ => .error (.validationError "set_status requires task_id and status")

def applyOperations : List PatchOperation → Dict PyStr TaskNode → Except StoreError (Dict PyStr TaskNode)
  | [], nodes => .ok nodes
  | op :: ops, nodes =>
    match applyOperation nodes op with
    | .error e => .error e
    | .ok nodes' => applyOperations ops nodes'

end Rosclaw.MissionStore
