/-
What the operations of the mission store do, and the journal and the rows agreeing.

* `Effect` — everything that an operation that answers can have done to the tables;
* `perform_ok` — an operation that answers had one of these effects;
* `perform_error` — one that raises had none, unless it is a transition whose row could
  not be read again after the commit;
* `Consistent` — the journal of every mission is numbered from one, its transitions are
  legal and lead to the stored state, and the task graph is acyclic;
* `consistent_of_reachable` — that is so after any sequence of operations.
-/
import Rosclaw.Agentd.MissionStore
import Rosclaw.Lib.Log
import Mathlib.Data.List.Nodup

namespace Rosclaw.MissionStore

open List Option Script

variable {op : Op} {db db' : MissionTables} {c c' : Conn MissionTables}

variable {actorId m' : PyStr} {affected seq : Nat}
  {f : MissionTables → Except StoreError MissionTables} {n : TaskNode} {patch : TaskGraphPatch}
  {s s' : MissionState} {α : Type}

theorem select_eq_ok {f : MissionTables → α} {a : α} (h : select f c = (.ok a, c')) :
    f c.store = a ∧ c'.store = c.store := query_eq_ok h

variable {u : Unit}

theorem execute_eq_ok (h : execute f c = (.ok u, c')) : f c.store = .ok c'.store := update_eq_ok h

theorem spent_select {f : MissionTables → α} {a : α} (h : select f c = (.ok a, c')) :
    Script.Spent 1 c c' := by
  unfold select Script.query at h
  exact spent_statement h

theorem spent_execute (h : execute f c = (.ok u, c')) : Script.Spent 1 c c' := by
  unfold execute Script.update at h
  exact spent_statement h

/-! ### Appending to the journal -/

def MissionTables.journalled (db : MissionTables) (e : EventRow) : MissionTables :=
  { db with events := db.events ++ [{ e with seq := db.nextSeq e.missionId }] }

variable {e : EventRow}

theorem appendEvent_eq_ok (h : appendEvent e c = (.ok u, c')) :
    c'.store = c.store.journalled e := by
  obtain ⟨seq, c₁, hseq, hins⟩ := bind_eq_ok.mp h
  obtain ⟨rfl, hstore⟩ := select_eq_ok hseq
  have hins := execute_eq_ok hins
  rw [hstore, MissionTables.insertEvent] at hins
  split at hins
  · cases hins
  · split at hins
    · cases hins
    · exact (Except.ok.inj hins).symm

/-! ### Rows of nodes -/

def MissionTables.Keyed (db : MissionTables) : Prop :=
  ∀ k row, (k, row) ∈ db.nodes.entries → row.node.taskId = k.2

variable {rev : Int}

theorem insertEdges_eq_ok {m tid : PyStr} {deps : List PyStr}
    (h : insertEdges m tid rev deps c = (.ok u, c')) :
    c'.store.missions = c.store.missions ∧ c'.store.nodes = c.store.nodes ∧
      c'.store.events = c.store.events := by
  induction deps generalizing c with
  | nil =>
    obtain ⟨-, rfl⟩ := pure_eq_ok.mp h
    exact ⟨rfl, rfl, rfl⟩
  | cons dep deps ih =>
    obtain ⟨u₁, c₁, hins, hrest⟩ := bind_eq_ok.mp h
    have hins := execute_eq_ok hins
    obtain ⟨hm, hn, he⟩ := ih hrest
    unfold MissionTables.insertEdge at hins
    split at hins
    · cases hins
    · have hstore := (Except.ok.inj hins).symm
      rw [hm, hn, he, hstore]
      exact ⟨rfl, rfl, rfl⟩

def nodeRows (m : PyStr) (rev : Int) (ns : List TaskNode) : List ((PyStr × PyStr) × NodeRow) :=
  ns.map fun n => ((m, n.taskId), ⟨rev, n⟩)

variable {m : PyStr} {ns : List TaskNode}

theorem insertNodes_eq_ok (h : insertNodes m rev ns c = (.ok u, c')) :
    c'.store.missions = c.store.missions ∧ c'.store.events = c.store.events ∧
      c'.store.nodes.entries = c.store.nodes.entries ++ nodeRows m rev ns := by
  induction ns generalizing c with
  | nil =>
    obtain ⟨-, rfl⟩ := pure_eq_ok.mp h
    exact ⟨rfl, rfl, by simp [nodeRows]⟩
  | cons n ns ih =>
    obtain ⟨u₁, c₁, hins, hrest⟩ := bind_eq_ok.mp h
    obtain ⟨u₂, c₂, hedges, hrest⟩ := bind_eq_ok.mp hrest
    have hins := execute_eq_ok hins
    obtain ⟨hm₂, hn₂, he₂⟩ := insertEdges_eq_ok hedges
    obtain ⟨hm, he, hn⟩ := ih hrest
    unfold MissionTables.insertNode at hins
    split at hins
    · cases hins
    · next habsent =>
      have hstore := (Except.ok.inj hins).symm
      have hnone : c.store.nodes.get? (m, n.taskId) = none := by
        rw [Dict.contains, Bool.not_eq_true, isSome_eq_false_iff, isNone_iff_eq_none] at habsent
        exact habsent
      rw [hm, he, hn, hm₂, he₂, hn₂, hstore]
      refine ⟨rfl, rfl, ?_⟩
      rw [Dict.entries_set_of_none hnone, append_assoc]
      rfl

variable {es : List ((PyStr × PyStr) × NodeRow)}

theorem nodesOf_of_entries {m : PyStr}
    (hentries : db'.nodes.entries = (es.filter fun e => e.1.1 ≠ m) ++ nodeRows m rev ns) :
    db'.nodesOf m' = if m' = m then ns else (es.filter fun e => e.1.1 = m').map fun e => e.2.node := by
  rw [MissionTables.nodesOf, hentries, List.filter_append, List.map_append, List.filter_filter]
  by_cases h : m' = m
  · subst h
    have hold : es.filter (fun e => decide (e.1.1 = m') && decide (e.1.1 ≠ m')) = [] := by
      rw [List.filter_eq_nil_iff]
      intro e _
      simp
    have hnew : (nodeRows m' rev ns).filter (fun e => decide (e.1.1 = m')) = nodeRows m' rev ns := by
      rw [List.filter_eq_self]
      intro e he
      obtain ⟨n, -, rfl⟩ := List.mem_map.mp he
      simp
    rw [if_pos rfl, hold, hnew]
    simp [nodeRows, Function.comp_def]
  · have hold : es.filter (fun e => decide (e.1.1 = m') && decide (e.1.1 ≠ m))
        = es.filter fun e => decide (e.1.1 = m') := by
      refine List.filter_congr ?_
      intro e _
      by_cases he : e.1.1 = m'
      · simp [he, h]
      · simp [he]
    have hnew : (nodeRows m rev ns).filter (fun e => decide (e.1.1 = m')) = [] := by
      rw [List.filter_eq_nil_iff]
      intro e he
      obtain ⟨n, -, rfl⟩ := List.mem_map.mp he
      simp only [decide_eq_true_eq]
      exact fun heq => h heq.symm
    rw [if_neg h, hold, hnew]
    simp

/-! ### Rebinding the nodes -/

def NodeRow.rebound (row : NodeRow) : NodeRow := { row with node := row.node.rebound }

theorem TaskNode.rebound_of_not (h : n.needsRebinding = false) : n.rebound = n := by
  rw [TaskNode.rebound, h]
  rfl

@[simp] theorem TaskNode.rebound_taskId (n : TaskNode) : n.rebound.taskId = n.taskId := by
  unfold TaskNode.rebound
  split <;> rfl

@[simp] theorem TaskNode.rebound_dependencies (n : TaskNode) :
    n.rebound.dependencies = n.dependencies := by
  unfold TaskNode.rebound
  split <;> rfl

/-- The rows of a mission when the tasks `ns` still wait to be rebound. -/
def rebindRows (m : PyStr) (ns : List TaskNode) (es : List ((PyStr × PyStr) × NodeRow)) :
    List ((PyStr × PyStr) × NodeRow) :=
  es.map fun e =>
    (e.1, if e.1.1 = m ∧ e.1.2 ∉ ns.map TaskNode.taskId then e.2.rebound else e.2)

theorem rebindRows_cons (hn : n.taskId ∉ ns.map TaskNode.taskId)
    (hrow : ∀ row, ((m, n.taskId), row) ∈ es → row.node = n) :
    rebindRows m ns es = (rebindRows m (n :: ns) es).map fun e =>
      (e.1, if e.1 = (m, n.taskId) then { e.2 with node := n.rebound } else e.2) := by
  rw [rebindRows, rebindRows, List.map_map]
  refine List.map_congr_left ?_
  rintro ⟨⟨m', tid⟩, row⟩ he
  by_cases hkey : (m', tid) = (m, n.taskId)
  · obtain ⟨rfl, rfl⟩ := Prod.mk.inj hkey
    have hnode := hrow row he
    simp [hn, NodeRow.rebound, hnode]
  · have hne : ¬ (m' = m ∧ tid = n.taskId) := fun h => hkey (by rw [h.1, h.2])
    by_cases hm : m' = m
    · have htid : tid ≠ n.taskId := fun h => hne ⟨hm, h⟩
      simp [hm, htid]
    · simp [hm]

theorem rebindNodes_eq_ok (hnodup : (ns.map TaskNode.taskId).Nodup)
    (hrows : ∀ n ∈ ns, ∀ row, ((m, n.taskId), row) ∈ es → row.node = n)
    (hes : c.store.nodes.entries = rebindRows m ns es)
    (h : rebindNodes m ns c = (.ok u, c')) :
    c'.store.missions = c.store.missions ∧ c'.store.events = c.store.events ∧
      c'.store.nodes.entries = rebindRows m [] es := by
  induction ns generalizing c with
  | nil =>
    obtain ⟨-, rfl⟩ := pure_eq_ok.mp h
    exact ⟨rfl, rfl, hes⟩
  | cons n ns ih =>
    rw [map_cons, nodup_cons] at hnodup
    have hrest : ∀ n' ∈ ns, ∀ row, ((m, n'.taskId), row) ∈ es → row.node = n' :=
      fun n' hn' => hrows n' (mem_cons_of_mem _ hn')
    have hone := rebindRows_cons hnodup.1 (hrows n mem_cons_self)
    rw [rebindNodes] at h
    split at h
    · next hneeds =>
      obtain ⟨u₁, c₁, hupd, hgo⟩ := bind_eq_ok.mp h
      have hupd := execute_eq_ok hupd
      have hstore := (Except.ok.inj hupd).symm
      have hes₁ : c₁.store.nodes.entries = rebindRows m ns es := by
        rw [hone, ← hes, hstore]
        rfl
      obtain ⟨hm, he, hn⟩ := ih hnodup.2 hrest hes₁ hgo
      rw [hm, he, hn, hstore]
      exact ⟨rfl, rfl, rfl⟩
    · next hneeds =>
      have hsame : rebindRows m ns es = rebindRows m (n :: ns) es := by
        rw [hone]
        refine (map_congr_left ?_).trans (map_id _)
        rintro ⟨k, row⟩ he
        by_cases hk : k = (m, n.taskId)
        · obtain ⟨⟨k', row'⟩, he', heq⟩ := mem_map.mp he
          obtain ⟨rfl, hval⟩ := Prod.mk.inj heq
          simp only at hk hval
          subst hk
          have hnode := hrows n mem_cons_self row' he'
          have hfix : n.rebound = n := TaskNode.rebound_of_not (by simpa using hneeds)
          have hrow : row.node = n := by
            rw [← hval]
            simp [hnode]
          obtain ⟨rev, nd⟩ := row
          obtain rfl : nd = n := hrow
          simp [hfix]
        · simp [hk]
      exact ih hnodup.2 hrest (hes.trans hsame.symm) h

/-! ### Transactions -/

def MissionTables.withMission (db : MissionTables) (m : PyStr) (f : MissionRow → MissionRow) :
    MissionTables :=
  { db with missions := db.missions.mapVals fun k r => if k = m then f r else r }

theorem get?_withMission (db : MissionTables) (m m' : PyStr) (f : MissionRow → MissionRow) :
    (db.withMission m f).missions.get? m'
      = (db.missions.get? m').map fun r => if m' = m then f r else r := by
  rw [MissionTables.withMission, Dict.get?_mapVals]

theorem immediate_eq_ok {x : Run α} {a : α} (h : immediate x c = (.ok a, c')) :
    ∃ c₁ c₂, c₁.store = c.store ∧ x c₁ = (.ok a, c₂) ∧ c'.store = c₂.store := transaction_eq_ok h

theorem insertMission_eq_ok {m : PyStr} {a : NewMission} (h : insertMission m a c = (.ok m', c')) :
    c.store.missions.get? m = none ∧
      c'.store = { c.store with missions := c.store.missions.set m a.row }.journalled (a.event m) := by
  obtain ⟨u₁, c₁, hins, h⟩ := bind_eq_ok.mp h
  obtain ⟨u₂, c₂, hevent, h⟩ := bind_eq_ok.mp h
  obtain ⟨-, rfl⟩ := pure_eq_ok.mp h
  have hins := execute_eq_ok hins
  split at hins
  · cases hins
  · next habsent =>
    rw [Dict.contains, Bool.not_eq_true, isSome_eq_false_iff, isNone_iff_eq_none] at habsent
    have hstore := (Except.ok.inj hins).symm
    refine ⟨habsent, ?_⟩
    rw [appendEvent_eq_ok hevent, hstore]

variable {a : Transition}

theorem journalTransition_eq_ok (h : journalTransition a c = (.ok u, c')) :
    ∃ r : MissionRow, c.store.missions.get? a.missionId = some r ∧
      a.toState ∈ missionTransitions r.state ∧
      c'.store = (c.store.withMission a.missionId fun r' =>
        { r' with state := a.toState }).journalled (a.event r.state) := by
  obtain ⟨row, c₁, hrow, h⟩ := bind_eq_ok.mp h
  obtain ⟨rfl, hstore⟩ := select_eq_ok hrow
  rcases hr : c.store.missions.get? a.missionId with _ | r
  · rw [hr] at h
    exact absurd h raise_ne_ok
  · rw [hr] at h
    by_cases hlegal : a.toState ∈ missionTransitions r.state
    · simp only [hlegal, not_true_eq_false, if_false] at h
      obtain ⟨u₁, c₂, hupd, h⟩ := bind_eq_ok.mp h
      have hupd := execute_eq_ok hupd
      have hstore₂ := (Except.ok.inj hupd).symm
      refine ⟨r, rfl, hlegal, ?_⟩
      rw [appendEvent_eq_ok h, hstore₂, hstore]
      rfl
    · simp only [hlegal, not_false_eq_true, if_true] at h
      exact absurd h raise_ne_ok

theorem commitPatch_eq_ok (h : commitPatch patch actorId c = (.ok rev, c')) :
    ∃ (r : MissionRow) (nodes : Dict PyStr TaskNode),
      c.store.missions.get? patch.missionId = some r ∧ patch.baseRevision = r.taskGraphRevision ∧
      rev = r.taskGraphRevision + 1 ∧
      applyOperations patch.operations (nodeDict (c.store.nodesOf patch.missionId)) = .ok nodes ∧
      (TaskGraph.mk patch.missionId rev nodes.values).validateDag = .ok () ∧
      c'.store.missions = (c.store.withMission patch.missionId fun r' =>
        { r' with taskGraphRevision := rev }).missions ∧
      c'.store.events = (c.store.journalled (patch.event actorId rev)).events ∧
      c'.store.nodes.entries = (c.store.nodes.entries.filter fun e => e.1.1 ≠ patch.missionId) ++
        nodeRows patch.missionId rev nodes.values := by
  obtain ⟨row, c₁, hrow, h⟩ := bind_eq_ok.mp h
  obtain ⟨rfl, hstore⟩ := select_eq_ok hrow
  rcases hr : c.store.missions.get? patch.missionId with _ | r
  · rw [hr] at h
    exact absurd h raise_ne_ok
  · rw [hr] at h
    by_cases hbase : patch.baseRevision = r.taskGraphRevision
    · simp only [hbase, ne_eq, not_true_eq_false, if_false] at h
      obtain ⟨rows, c₂, hrows, h⟩ := bind_eq_ok.mp h
      obtain ⟨rfl, hstore₂⟩ := select_eq_ok hrows
      obtain ⟨nodes, c₃, hops, h⟩ := bind_eq_ok.mp h
      obtain ⟨hnodes, rfl⟩ := ofExcept_eq_ok.mp hops
      obtain ⟨u₄, c₄, hvalid, h⟩ := bind_eq_ok.mp h
      obtain ⟨hdag, rfl⟩ := ofExcept_eq_ok.mp hvalid
      obtain ⟨u₅, c₅, hdel, h⟩ := bind_eq_ok.mp h
      obtain ⟨u₆, c₆, hdel', h⟩ := bind_eq_ok.mp h
      obtain ⟨u₇, c₇, hins, h⟩ := bind_eq_ok.mp h
      obtain ⟨u₈, c₈, hupd, h⟩ := bind_eq_ok.mp h
      obtain ⟨u₉, c₉, hevent, h⟩ := bind_eq_ok.mp h
      obtain ⟨rfl, rfl⟩ := pure_eq_ok.mp h
      have hdel := execute_eq_ok hdel
      have hdel' := execute_eq_ok hdel'
      have hupd := execute_eq_ok hupd
      have hs₅ := (Except.ok.inj hdel).symm
      have hs₆ := (Except.ok.inj hdel').symm
      have hs₈ := (Except.ok.inj hupd).symm
      have hs₉ := appendEvent_eq_ok hevent
      obtain ⟨hm₇, he₇, hn₇⟩ := insertNodes_eq_ok hins
      rw [hstore] at hnodes hstore₂
      refine ⟨r, nodes, rfl, hbase, rfl, hnodes, hdag, ?_, ?_, ?_⟩
      · rw [hs₉, hs₈]
        simp only [MissionTables.journalled, hm₇, hs₆, hs₅, hstore₂]
        rfl
      · rw [hs₉, hs₈]
        simp only [MissionTables.journalled, MissionTables.nextSeq, he₇, hs₆, hs₅, hstore₂]
      · rw [hs₉, hs₈]
        simp only [MissionTables.journalled, hn₇, hs₆, hs₅, hstore₂]
        rfl
    · simp only [hbase, ne_eq, not_false_eq_true, if_true] at h
      exact absurd h raise_ne_ok

/-! ### The nodes of a mission -/

theorem mem_nodesOf :
    n ∈ db.nodesOf m ↔ ∃ tid row, ((m, tid), row) ∈ db.nodes.entries ∧ row.node = n := by
  simp only [MissionTables.nodesOf, List.mem_map, List.mem_filter, decide_eq_true_eq]
  constructor
  · rintro ⟨⟨⟨m', tid⟩, row⟩, ⟨hmem, hm⟩, hn⟩
    obtain rfl : m' = m := hm
    exact ⟨tid, row, hmem, hn⟩
  · rintro ⟨tid, row, hmem, hn⟩
    exact ⟨((m, tid), row), ⟨hmem, rfl⟩, hn⟩

theorem node_eq_of_mem (hkeyed : db.Keyed) (hn : n ∈ db.nodesOf m) {row : NodeRow}
    (hrow : ((m, n.taskId), row) ∈ db.nodes.entries) : row.node = n := by
  obtain ⟨tid, row', hmem, hnode⟩ := mem_nodesOf.mp hn
  have htid : n.taskId = tid := by
    rw [← hnode]
    exact hkeyed _ _ hmem
  rw [← htid] at hmem
  have hsame : some row = some row' := by
    rw [← Dict.mem_entries_iff.mp hrow, ← Dict.mem_entries_iff.mp hmem]
  rw [Option.some.inj hsame, hnode]

theorem nodup_nodesOf (hkeyed : db.Keyed) (m : PyStr) :
    ((db.nodesOf m).map TaskNode.taskId).Nodup := by
  have hkeys : (db.nodesOf m).map TaskNode.taskId
      = (db.nodes.entries.filter fun e => e.1.1 = m).map fun e => e.1.2 := by
    rw [MissionTables.nodesOf, List.map_map]
    refine List.map_congr_left ?_
    intro e he
    exact hkeyed e.1 e.2 (List.mem_of_mem_filter he)
  rw [hkeys]
  have hnodup : ((db.nodes.entries.filter fun e => e.1.1 = m).map Prod.fst).Nodup :=
    db.nodes.nodup.sublist (List.filter_sublist.map _)
  have hpair : (db.nodes.entries.filter fun e => e.1.1 = m).map (fun e => e.1.2)
      = ((db.nodes.entries.filter fun e => e.1.1 = m).map Prod.fst).map Prod.snd := by
    rw [List.map_map]
    rfl
  rw [hpair]
  refine hnodup.map_on ?_
  intro k hk k' hk' heq
  obtain ⟨e, he, rfl⟩ := List.mem_map.mp hk
  obtain ⟨e', he', rfl⟩ := List.mem_map.mp hk'
  have h₁ : e.1.1 = m := by simpa using (List.mem_filter.mp he).2
  have h₂ : e'.1.1 = m := by simpa using (List.mem_filter.mp he').2
  exact Prod.ext (h₁.trans h₂.symm) heq

theorem rebindRows_nodesOf (hkeyed : db.Keyed) (m : PyStr) :
    rebindRows m (db.nodesOf m) db.nodes.entries = db.nodes.entries := by
  refine (map_congr_left ?_).trans (map_id _)
  rintro ⟨⟨m', tid⟩, row⟩ he
  by_cases hm : m' = m
  · subst hm
    have hmem : tid ∈ (db.nodesOf m').map TaskNode.taskId :=
      mem_map.mpr ⟨row.node, mem_nodesOf.mpr ⟨tid, row, he, rfl⟩, hkeyed _ _ he⟩
    simp [hmem]
  · simp [hm]

theorem nodesOf_rebindRows (h : db'.nodes.entries = rebindRows m [] db.nodes.entries) (m' : PyStr) :
    db'.nodesOf m' = if m' = m then (db.nodesOf m).map TaskNode.rebound else db.nodesOf m' := by
  rw [MissionTables.nodesOf, h, rebindRows, List.filter_map, List.map_map]
  by_cases hm : m' = m
  · subst hm
    rw [if_pos rfl, MissionTables.nodesOf, List.map_map]
    refine List.map_congr_left ?_
    intro e he
    have hkey : e.1.1 = m' := by simpa using (List.mem_filter.mp he).2
    simp [hkey, NodeRow.rebound]
  · rw [if_neg hm, MissionTables.nodesOf]
    refine List.map_congr_left ?_
    intro e he
    have hkey : e.1.1 = m' := by simpa using (List.mem_filter.mp he).2
    simp [hkey, hm]

theorem keyed_rebindRows (hkeyed : db.Keyed)
    (h : db'.nodes.entries = rebindRows m [] db.nodes.entries) : db'.Keyed := by
  intro k row hmem
  rw [h, rebindRows] at hmem
  obtain ⟨e, he, heq⟩ := mem_map.mp hmem
  obtain ⟨rfl, rfl⟩ := Prod.mk.inj heq
  have hold := hkeyed e.1 e.2 he
  split
  · rw [NodeRow.rebound, TaskNode.rebound_taskId, hold]
  · exact hold

theorem keyed_patched (hkeyed : db.Keyed)
    (h : db'.nodes.entries = (db.nodes.entries.filter fun e => e.1.1 ≠ m) ++ nodeRows m rev ns) :
    db'.Keyed := by
  intro k row hmem
  rw [h, mem_append] at hmem
  rcases hmem with hmem | hmem
  · exact hkeyed _ _ (mem_of_mem_filter hmem)
  · obtain ⟨n, -, heq⟩ := mem_map.mp hmem
    obtain ⟨rfl, rfl⟩ := Prod.mk.inj heq
    rfl

theorem commitRebind_eq_ok (hkeyed : c.store.Keyed) {m hash : PyStr}
    (h : commitRebind m hash actorId c = (.ok affected, c')) :
    ∃ r : MissionRow, c.store.missions.get? m = some r ∧
      affected = (c.store.nodesOf m).countP TaskNode.needsRebinding ∧
      c'.store.missions = (c.store.withMission m fun r' =>
        { r' with effectiveBodyHash := hash }).missions ∧
      c'.store.events
        = (c.store.journalled (reboundEvent m r.effectiveBodyHash hash actorId affected)).events ∧
      c'.store.nodes.entries = rebindRows m [] c.store.nodes.entries := by
  obtain ⟨row, c₁, hrow, h⟩ := bind_eq_ok.mp h
  obtain ⟨rfl, hstore⟩ := select_eq_ok hrow
  rcases hr : c.store.missions.get? m with _ | r
  · rw [hr] at h
    exact absurd h raise_ne_ok
  · rw [hr] at h
    obtain ⟨u₂, c₂, hupd, h⟩ := bind_eq_ok.mp h
    obtain ⟨nodes, c₃, hnodes, h⟩ := bind_eq_ok.mp h
    obtain ⟨hread, hs₃⟩ := select_eq_ok hnodes
    obtain ⟨u₄, c₄, hrebind, h⟩ := bind_eq_ok.mp h
    obtain ⟨u₅, c₅, hevent, h⟩ := bind_eq_ok.mp h
    obtain ⟨haff, rfl⟩ := pure_eq_ok.mp h
    have hupd := execute_eq_ok hupd
    have hs₂ := (Except.ok.inj hupd).symm
    have hs₅ := appendEvent_eq_ok hevent
    have hns : nodes = c.store.nodesOf m := by
      rw [← hread, hs₂, hstore]
      rfl
    have hes : c₃.store.nodes.entries = rebindRows m nodes c.store.nodes.entries := by
      rw [hns, rebindRows_nodesOf hkeyed, hs₃, hs₂, hstore]
    have hnodup : (nodes.map TaskNode.taskId).Nodup := by
      rw [hns]
      exact nodup_nodesOf hkeyed m
    have hrows : ∀ n ∈ nodes, ∀ row, ((m, n.taskId), row) ∈ c.store.nodes.entries → row.node = n := by
      intro n hn row hmem
      rw [hns] at hn
      exact node_eq_of_mem hkeyed hn hmem
    obtain ⟨hm₄, he₄, hn₄⟩ := rebindNodes_eq_ok hnodup hrows hes hrebind
    refine ⟨r, rfl, ?_, ?_, ?_, ?_⟩
    · rw [← haff, hns]
    · rw [hs₅]
      simp only [MissionTables.journalled, hm₄, hs₃, hs₂, hstore]
      rfl
    · rw [hs₅]
      simp only [MissionTables.journalled, MissionTables.nextSeq, he₄, hs₃, hs₂, hstore, haff]
    · rw [hs₅]
      exact hn₄

/-! ### What an operation does -/

/-- A change of a row that the journal and the task graph do not see. -/
def Aside (f : MissionRow → MissionRow) : Prop :=
  ∀ r, (f r).state = r.state ∧ (f r).taskGraphRevision = r.taskGraphRevision ∧
    checkRealMode (f r) = checkRealMode r

/-- Everything that an operation that answers can have done. -/
inductive Effect (op : Op) (db db' : MissionTables) : Prop
  | same (h : db' = db)
  | created {m : PyStr} {a : NewMission} (habsent : db.missions.get? m = none)
      (hreal : checkRealMode a.row = .ok ())
      (h : db' = { db with missions := db.missions.set m a.row }.journalled (a.event m))
  | moved {a : Transition} {r : MissionRow} (hrow : db.missions.get? a.missionId = some r)
      (hlegal : a.toState ∈ missionTransitions r.state)
      (h : db' = (db.withMission a.missionId fun r' =>
        { r' with state := a.toState }).journalled (a.event r.state))
  | patched {patch : TaskGraphPatch} {actorId : PyStr} {r : MissionRow} {ns : List TaskNode}
      (hrow : db.missions.get? patch.missionId = some r)
      (hdag : (TaskGraph.mk patch.missionId (r.taskGraphRevision + 1) ns).validateDag = .ok ())
      (hmissions : db'.missions = (db.withMission patch.missionId fun r' =>
        { r' with taskGraphRevision := r.taskGraphRevision + 1 }).missions)
      (hevents : db'.events
        = (db.journalled (patch.event actorId (r.taskGraphRevision + 1))).events)
      (hnodes : ∀ m, db'.nodesOf m = if m = patch.missionId then ns else db.nodesOf m)
      (hkeyed : db'.Keyed)
  | rebound {m hash hash' actorId : PyStr} {affected : Nat} (hop : op = .rebindBody m hash' actorId)
      (hmissions : db'.missions = (db.withMission m fun r' =>
        { r' with effectiveBodyHash := hash' }).missions)
      (hevents : db'.events = (db.journalled (reboundEvent m hash hash' actorId affected)).events)
      (hnodes : ∀ m', db'.nodesOf m'
        = if m' = m then (db.nodesOf m).map TaskNode.rebound else db.nodesOf m')
      (hkeyed : db'.Keyed)
  | counted {m : PyStr} {f : MissionRow → MissionRow} (haside : Aside f) (h : db' = db.withMission m f)
  | said {m actorId : PyStr} {messages : List PyVal}
      (h : db' = db.journalled (conversationEvent m actorId messages))

theorem reads_getMission (m : PyStr) : Script.Reads (getMission m) := by
  refine reads_bind (reads_query _ _) ?_
  rintro (_ | r)
  · exact reads_pure _
  · exact reads_bind (reads_ofExcept _) fun _ => reads_pure _

theorem reads_theMission (m : PyStr) : Script.Reads (theMission m) := by
  refine reads_bind (reads_getMission m) ?_
  rintro (_ | r)
  · exact reads_raise _
  · exact reads_pure _

theorem reads_priorEvent (m : PyStr) (key : Option PyStr) : Script.Reads (priorEvent m key) := by
  rcases key with _ | key
  · exact reads_pure _
  · exact reads_query _ _

theorem applyPatch_eq_ok (hkeyed : c.store.Keyed) (h : applyPatch patch actorId c = (.ok rev, c')) :
    Effect op c.store c'.store := by
  obtain ⟨c₁, c₂, h₁, hcommit, h₂⟩ := immediate_eq_ok h
  obtain ⟨r, nodes, hrow, -, rfl, -, hdag, hm, he, hn⟩ := commitPatch_eq_ok hcommit
  rw [h₁] at hrow hm he hn
  rw [← h₂] at hm he hn
  refine .patched hrow hdag hm he (fun m => ?_) (keyed_patched hkeyed hn)
  rw [nodesOf_of_entries hn]
  rfl

theorem rebindBody_eq_ok (hkeyed : c.store.Keyed) {m hash : PyStr}
    (h : rebindBody m hash actorId c = (.ok affected, c')) :
    Effect (.rebindBody m hash actorId) c.store c'.store := by
  obtain ⟨c₁, c₂, h₁, hcommit, h₂⟩ := immediate_eq_ok h
  rw [← h₁] at hkeyed
  obtain ⟨r, -, -, hm, he, hn⟩ := commitRebind_eq_ok hkeyed hcommit
  rw [h₁] at hm he hn hkeyed
  rw [← h₂] at hm he hn
  exact .rebound rfl hm he (nodesOf_rebindRows hn) (keyed_rebindRows hkeyed hn)

theorem bumpContextRevision_eq_ok
    (h : bumpContextRevision m c = (.ok rev, c')) : Effect op c.store c'.store := by
  obtain ⟨c₁, c₂, h₁, hcommit, h₂⟩ := immediate_eq_ok h
  obtain ⟨row, c₃, hrow, h⟩ := bind_eq_ok.mp hcommit
  obtain ⟨rfl, h₃⟩ := select_eq_ok hrow
  rcases hr : c₁.store.missions.get? m with _ | r
  · rw [hr] at h
    exact absurd h raise_ne_ok
  · rw [hr] at h
    obtain ⟨u, c₄, hupd, h⟩ := bind_eq_ok.mp h
    obtain ⟨-, rfl⟩ := pure_eq_ok.mp h
    have hupd := execute_eq_ok hupd
    have h₄ := (Except.ok.inj hupd).symm
    refine .counted (m := m) (f := fun r' => { r' with contextRevision := r.contextRevision + 1 })
      (fun r' => ⟨rfl, rfl, rfl⟩) ?_
    rw [h₂, h₄, h₃, h₁]
    rfl

theorem addBudgetUsage_eq_ok {usage : List (PyStr × Int)} {counters : Dict BudgetField Int}
    (h : addBudgetUsage m usage c = (.ok counters, c')) : Effect op c.store c'.store := by
  obtain ⟨c₁, c₂, h₁, hcommit, h₂⟩ := immediate_eq_ok h
  obtain ⟨row, c₃, hrow, h⟩ := bind_eq_ok.mp hcommit
  obtain ⟨rfl, h₃⟩ := select_eq_ok hrow
  rcases hr : c₁.store.missions.get? m with _ | r
  · rw [hr] at h
    exact absurd h raise_ne_ok
  · rw [hr] at h
    obtain ⟨counters', c₄, hcounters, h⟩ := bind_eq_ok.mp h
    obtain ⟨-, rfl⟩ := ofExcept_eq_ok.mp hcounters
    obtain ⟨u, c₅, hupd, h⟩ := bind_eq_ok.mp h
    obtain ⟨-, rfl⟩ := pure_eq_ok.mp h
    have hupd := execute_eq_ok hupd
    have h₅ := (Except.ok.inj hupd).symm
    refine .counted (m := m) (f := fun r' => { r' with budgetUsage := counters' })
      (fun r' => ⟨rfl, rfl, rfl⟩) ?_
    rw [h₂, h₅, h₃, h₁]
    rfl

theorem appendConversation_eq_ok {m : PyStr} {messages : List (List (PyStr × PyVal))}
    (h : appendConversation m messages actorId c = (.ok u, c')) : Effect op c.store c'.store := by
  obtain ⟨events, c₁, hevents, h⟩ := bind_eq_ok.mp h
  obtain ⟨rfl, h₁⟩ := select_eq_ok hevents
  obtain ⟨seq, c₂, hseq, h⟩ := bind_eq_ok.mp h
  obtain ⟨-, rfl⟩ := ofExcept_eq_ok.mp hseq
  obtain ⟨c₃, c₄, h₃, hevent, h₄⟩ := immediate_eq_ok h
  have hstore : c'.store
      = c.store.journalled (conversationEvent m actorId (stampAll m seq messages)) := by
    rw [h₄, appendEvent_eq_ok hevent, h₃, h₁]
  exact .said hstore

theorem reads_earlierMission (key : Option PyStr) : Script.Reads (earlierMission key) := by
  rcases key with _ | key
  · exact reads_pure _
  · refine reads_bind (reads_query _ _) ?_
    rintro (_ | e)
    · exact reads_pure _
    · exact reads_bind (reads_getMission _) fun _ => reads_pure _

theorem createMission_eq_ok {m : PyStr} {a : NewMission} (h : createMission m a c = (.ok m', c')) :
    Effect op c.store c'.store := by
  obtain ⟨earlier, c₁, hearlier, h⟩ := bind_eq_ok.mp h
  have h₁ := (reads_earlierMission _).of_eq hearlier
  rcases earlier with _ | found
  · obtain ⟨u, c₂, hcheck, h⟩ := bind_eq_ok.mp h
    obtain ⟨hreal, rfl⟩ := ofExcept_eq_ok.mp hcheck
    obtain ⟨c₃, c₄, h₃, hins, h₄⟩ := immediate_eq_ok h
    obtain ⟨habsent, hstore⟩ := insertMission_eq_ok hins
    rw [h₃, h₁] at habsent hstore
    exact .created habsent hreal (h₄.trans hstore)
  · obtain ⟨-, rfl⟩ := pure_eq_ok.mp h
    exact .same h₁

variable {r : MissionRow}

theorem theMission_eq_ok
    (h : theMission m c = (.ok r, c')) : c.store.missions.get? m = some r ∧ c'.store = c.store := by
  obtain ⟨found, c₁, hget, h⟩ := bind_eq_ok.mp h
  obtain ⟨row, c₂, hrow, hget⟩ := bind_eq_ok.mp hget
  obtain ⟨rfl, h₂⟩ := select_eq_ok hrow
  rcases hr : c.store.missions.get? m with _ | r'
  · rw [hr] at hget
    obtain ⟨rfl, rfl⟩ := pure_eq_ok.mp hget
    exact absurd h raise_ne_ok
  · rw [hr] at hget
    obtain ⟨u, c₃, hcheck, hget⟩ := bind_eq_ok.mp hget
    obtain ⟨-, rfl⟩ := ofExcept_eq_ok.mp hcheck
    obtain ⟨rfl, rfl⟩ := pure_eq_ok.mp hget
    obtain ⟨rfl, rfl⟩ := pure_eq_ok.mp h
    exact ⟨rfl, h₂⟩

theorem transition_eq {r : Except StoreError MissionRow} (h : transition a c = (r, c')) :
    c'.store = c.store ∨ ∃ u c₁ c₂, c₁.store = c.store ∧
      Script.Spent (if a.idempotencyKey.isSome then 1 else 0) c c₁ ∧
      immediate (journalTransition a) c₁ = (.ok u, c₂) ∧ theMission a.missionId c₂ = (r, c') := by
  rcases bind_eq h with ⟨e, hprior, -⟩ | ⟨prior, c₁, hprior, h⟩
  · exact .inl ((reads_priorEvent _ _).of_eq hprior)
  · have h₁ := (reads_priorEvent _ _).of_eq hprior
    rcases prior with _ | e
    · rcases bind_eq h with ⟨e, hbody, -⟩ | ⟨u, c₂, hbody, h⟩
      · exact .inl ((transaction_eq_error hbody).trans h₁)
      · refine .inr ⟨u, c₁, c₂, h₁, ?_, hbody, h⟩
        rcases hkey : a.idempotencyKey with _ | key
        · rw [hkey] at hprior
          obtain ⟨-, rfl⟩ := pure_eq_ok.mp hprior
          exact Script.Spent.refl c
        · rw [hkey] at hprior
          exact spent_select hprior
    · exact .inl (((reads_theMission _).of_eq h).trans h₁)

def Transition.Applied (a : Transition) (db db' : MissionTables) : Prop :=
  ∃ r : MissionRow, db.missions.get? a.missionId = some r ∧
    a.toState ∈ missionTransitions r.state ∧
    db' = (db.withMission a.missionId fun r' =>
      { r' with state := a.toState }).journalled (a.event r.state)

theorem Transition.Applied.effect (h : a.Applied db db') (op : Op) : Effect op db db' := by
  obtain ⟨r, hrow, hlegal, hstore⟩ := h
  exact .moved hrow hlegal hstore

theorem committed_transition
    (h : immediate (journalTransition a) c = (.ok u, c')) : a.Applied c.store c'.store := by
  obtain ⟨c₁, c₂, h₁, hbody, h₂⟩ := immediate_eq_ok h
  obtain ⟨r, hrow, hlegal, hstore⟩ := journalTransition_eq_ok hbody
  rw [h₁] at hrow hstore
  exact ⟨r, hrow, hlegal, h₂.trans hstore⟩

/-- **An operation that answers** did one of these things. -/
theorem perform_ok (hkeyed : c.store.Keyed) {op : Op} (h : perform op c = (.ok (), c')) :
    Effect op c.store c'.store := by
  cases op with
  | createMission newId a =>
    obtain ⟨m, c₁, hrun, h⟩ := bind_eq_ok.mp h
    obtain ⟨-, rfl⟩ := pure_eq_ok.mp h
    exact createMission_eq_ok hrun
  | transition a =>
    obtain ⟨r, c₁, hrun, h⟩ := bind_eq_ok.mp h
    obtain ⟨-, rfl⟩ := pure_eq_ok.mp h
    rcases transition_eq hrun with hsame | ⟨u, c₂, c₃, h₂, -, hbody, hread⟩
    · exact .same hsame
    · have hstore := (reads_theMission _).of_eq hread
      rw [hstore, ← h₂]
      exact (committed_transition hbody).effect _
  | applyPatch patch actorId =>
    obtain ⟨rev, c₁, hrun, h⟩ := bind_eq_ok.mp h
    obtain ⟨-, rfl⟩ := pure_eq_ok.mp h
    exact applyPatch_eq_ok hkeyed hrun
  | rebindBody m hash actorId =>
    obtain ⟨affected, c₁, hrun, h⟩ := bind_eq_ok.mp h
    obtain ⟨-, rfl⟩ := pure_eq_ok.mp h
    exact rebindBody_eq_ok hkeyed hrun
  | bumpContextRevision m =>
    obtain ⟨rev, c₁, hrun, h⟩ := bind_eq_ok.mp h
    obtain ⟨-, rfl⟩ := pure_eq_ok.mp h
    exact bumpContextRevision_eq_ok hrun
  | addBudgetUsage m usage =>
    obtain ⟨counters, c₁, hrun, h⟩ := bind_eq_ok.mp h
    obtain ⟨-, rfl⟩ := pure_eq_ok.mp h
    exact addBudgetUsage_eq_ok hrun
  | appendConversation m messages actorId => exact appendConversation_eq_ok h

/-- The statement with which a transition reads its row again after the commit. -/
def Op.readAfterCommit : Op → Option Nat
  | .transition a => some ((if a.idempotencyKey.isSome then 1 else 0) + 6)
  | _ => none

def MissionTables.RealChecked (db : MissionTables) : Prop :=
  ∀ m r, db.missions.get? m = some r → checkRealMode r = .ok ()

theorem theMission_eq_error {e : StoreError}
    (hrow : c.store.missions.get? m = some r) (hreal : checkRealMode r = .ok ())
    (h : theMission m c = (.error e, c')) : c.fuse = some 0 := by
  rcases bind_eq h with ⟨e', hget, -⟩ | ⟨found, c₁, hget, h⟩
  · rcases bind_eq hget with ⟨e'', hread, -⟩ | ⟨row, c₂, hread, hget⟩
    · exact query_eq_error hread
    · obtain ⟨rfl, -⟩ := select_eq_ok hread
      rw [hrow] at hget
      rcases bind_eq hget with ⟨e'', hcheck, -⟩ | ⟨u, c₃, -, hget⟩
      · rw [hreal] at hcheck
        exact absurd hcheck pure_ne_error
      · exact absurd hget pure_ne_error
  · obtain ⟨row, c₂, hread, hget⟩ := bind_eq_ok.mp hget
    obtain ⟨rfl, -⟩ := select_eq_ok hread
    rw [hrow] at hget
    obtain ⟨u, c₃, -, hget⟩ := bind_eq_ok.mp hget
    obtain ⟨rfl, -⟩ := pure_eq_ok.mp hget
    exact absurd h pure_ne_error

theorem spent_journalTransition
    (h : journalTransition a c = (.ok u, c')) : Script.Spent 4 c c' := by
  obtain ⟨row, c₁, hrow, h⟩ := bind_eq_ok.mp h
  obtain ⟨rfl, -⟩ := select_eq_ok hrow
  rcases hr : c.store.missions.get? a.missionId with _ | r
  · rw [hr] at h
    exact absurd h raise_ne_ok
  · rw [hr] at h
    by_cases hlegal : a.toState ∈ missionTransitions r.state
    · simp only [hlegal, not_true_eq_false, if_false] at h
      obtain ⟨u₁, c₂, hupd, h⟩ := bind_eq_ok.mp h
      obtain ⟨seq, c₃, hseq, hins⟩ := bind_eq_ok.mp h
      exact (((spent_select hrow).trans (spent_execute hupd)).trans (spent_select hseq)).trans
        (spent_execute hins)
    · simp only [hlegal, not_false_eq_true, if_true] at h
      exact absurd h raise_ne_ok

/-- **An operation that raises** leaves the tables, but for a transition whose row cannot
be read again after the commit. -/
theorem perform_error (hreal : c.store.RealChecked) {op : Op} {e : StoreError}
    (h : perform op c = (.error e, c')) :
    c'.store = c.store ∨ ∃ a n, op = .transition a ∧ op.readAfterCommit = some n ∧
      c.fuse = some n ∧ a.Applied c.store c'.store := by
  cases op with
  | createMission newId a =>
    rcases bind_eq h with ⟨e', hrun, -⟩ | ⟨m, c₁, -, h⟩
    · left
      rcases bind_eq hrun with ⟨e'', hearlier, -⟩ | ⟨earlier, c₁, hearlier, hrun⟩
      · exact (reads_earlierMission _).of_eq hearlier
      · have h₁ := (reads_earlierMission _).of_eq hearlier
        rcases earlier with _ | found
        · rcases bind_eq hrun with ⟨e'', hcheck, -⟩ | ⟨u, c₂, hcheck, hrun⟩
          · exact ((reads_ofExcept _).of_eq hcheck).trans h₁
          · have h₂ := (reads_ofExcept _).of_eq hcheck
            exact (transaction_eq_error hrun).trans (h₂.trans h₁)
        · exact absurd hrun pure_ne_error
    · exact absurd h pure_ne_error
  | transition a =>
    rcases bind_eq h with ⟨e', hrun, -⟩ | ⟨r, c₁, -, h⟩
    · rcases transition_eq hrun with hsame | ⟨u, c₁, c₂, h₁, hspent, hbody, hread⟩
      · exact .inl hsame
      · have hstore := (reads_theMission _).of_eq hread
        obtain ⟨c₃, c₄, h₃, hjournal, h₄⟩ := immediate_eq_ok hbody
        obtain ⟨r, hrow, -, hafter⟩ := journalTransition_eq_ok hjournal
        rw [h₃, h₁] at hrow
        have hnow : c₂.store.missions.get? a.missionId = some { r with state := a.toState } := by
          rw [h₄, hafter, h₃, h₁]
          show ((c.store.withMission a.missionId _).missions.get? a.missionId) = _
          rw [get?_withMission, hrow]
          simp
        have hold := hreal a.missionId r hrow
        have hcheck : checkRealMode { r with state := a.toState } = .ok () := hold
        have hfuse : c₂.fuse = some 0 := theMission_eq_error hnow hcheck hread
        have htotal := hspent.trans (spent_transaction
          (fun c₅ c₆ _ hrun => spent_journalTransition hrun) hbody)
        refine .inr ⟨a, _, rfl, rfl, ?_, ?_⟩
        · rw [htotal, hfuse]
          simp [Nat.add_comm]
        · rw [hstore, ← h₁]
          exact committed_transition hbody
    · exact absurd h pure_ne_error
  | applyPatch patch actorId =>
    rcases bind_eq h with ⟨e', hrun, -⟩ | ⟨r, c₁, -, h⟩
    · exact .inl (transaction_eq_error hrun)
    · exact absurd h pure_ne_error
  | rebindBody m hash actorId =>
    rcases bind_eq h with ⟨e', hrun, -⟩ | ⟨r, c₁, -, h⟩
    · exact .inl (transaction_eq_error hrun)
    · exact absurd h pure_ne_error
  | bumpContextRevision m =>
    rcases bind_eq h with ⟨e', hrun, -⟩ | ⟨r, c₁, -, h⟩
    · exact .inl (transaction_eq_error hrun)
    · exact absurd h pure_ne_error
  | addBudgetUsage m usage =>
    rcases bind_eq h with ⟨e', hrun, -⟩ | ⟨r, c₁, -, h⟩
    · exact .inl (transaction_eq_error hrun)
    · exact absurd h pure_ne_error
  | appendConversation m messages actorId =>
    left
    rcases bind_eq h with ⟨e', hread, -⟩ | ⟨events, c₁, hread, h⟩
    · exact (reads_query _ _).of_eq hread
    · have h₁ := (reads_query _ _).of_eq hread
      rcases bind_eq h with ⟨e', hseq, -⟩ | ⟨seq, c₂, hseq, h⟩
      · exact ((reads_ofExcept _).of_eq hseq).trans h₁
      · have h₂ := (reads_ofExcept _).of_eq hseq
        exact (transaction_eq_error h).trans (h₂.trans h₁)

/-! ### The journal of a mission -/

/-- The events of a mission in the order in which they were written. -/
def MissionTables.rowsOf (db : MissionTables) (m : PyStr) : List EventRow :=
  db.events.filter (·.missionId = m)

def MissionTables.Numbered (db : MissionTables) : Prop :=
  ∀ m, (db.rowsOf m).map EventRow.seq = List.range' 1 (db.rowsOf m).length

def MissionTables.stateOf (db : MissionTables) (m : PyStr) : MissionState :=
  ((db.missions.get? m).map MissionRow.state).getD .idle

structure MissionTables.Consistent (db : MissionTables) : Prop where
  keyed : db.Keyed
  real : db.RealChecked
  numbered : db.Numbered
  replayed : ∀ m, replay .idle (db.rowsOf m) = .ok (db.stateOf m)
  begun : ∀ m r, db.missions.get? m = some r → db.rowsOf m ≠ []
  acyclic : ∀ m rev, (TaskGraph.mk m rev (db.nodesOf m)).validateDag = .ok ()

theorem nextSeq_eq (hnum : db.Numbered) (m : PyStr) : db.nextSeq m = (db.rowsOf m).length + 1 := by
  have hseqs : (db.events.filter (·.missionId = m)).map EventRow.seq
      = List.range' 1 (db.rowsOf m).length := hnum m
  rw [MissionTables.nextSeq, hseqs, Log.foldr_max_range']

theorem eventsOf_eq (hnum : db.Numbered) (m : PyStr) : db.eventsOf m = db.rowsOf m := by
  refine List.Pairwise.insertionSort_eq ?_
  have hsorted : ((db.rowsOf m).map EventRow.seq).Pairwise (· ≤ ·) := by
    rw [hnum m]
    exact (pairwise_lt_range' (s := 1) (n := (db.rowsOf m).length)).imp Nat.le_of_lt
  exact pairwise_map.mp hsorted

theorem rowsOf_journalled (h : db'.events = (db.journalled e).events) (m : PyStr) :
    db'.rowsOf m = if m = e.missionId then db.rowsOf m ++ [{ e with seq := db.nextSeq m }]
      else db.rowsOf m := by
  rw [MissionTables.rowsOf, h, MissionTables.journalled, filter_append]
  by_cases hm : m = e.missionId
  · subst hm
    simp [MissionTables.rowsOf]
  · have hne : ¬ e.missionId = m := fun heq => hm heq.symm
    simp [MissionTables.rowsOf, hm, hne]

theorem numbered_journalled (hnum : db.Numbered)
    (h : db'.events = (db.journalled e).events) : db'.Numbered := by
  intro m
  rw [rowsOf_journalled h]
  split
  · rw [map_append, hnum m, length_append, length_singleton, List.range'_concat,
      map_singleton, nextSeq_eq hnum, Nat.one_mul, Nat.add_comm 1]
  · exact hnum m

theorem rowsOf_ne_nil (h : db'.events = (db.journalled e).events)
    (hm : m = e.missionId ∨ db.rowsOf m ≠ []) : db'.rowsOf m ≠ [] := by
  rw [rowsOf_journalled h]
  split
  · simp
  · next hne => exact hm.resolve_left hne

theorem replay_append {es : List EventRow} (h : replay s es = .ok s') (es' : List EventRow) :
    replay s (es ++ es') = replay s' es' := by
  induction es generalizing s with
  | nil => rw [← Except.ok.inj h, nil_append]
  | cons e es ih =>
    rw [cons_append]
    rw [replay] at h ⊢
    split at h
    · next htype =>
      rw [if_pos htype]
      split at h
      · next fromS toS hfrom hto =>
        split at h
        · cases h
        · next hsame =>
          split at h
          · cases h
          · next hlegal =>
            rw [if_neg hsame, if_neg hlegal]
            exact ih h
      · cases h
    · next htype =>
      rw [if_neg htype]
      exact ih h

theorem replay_aside (htype : e.eventType ≠ .missionTransition) (s : MissionState) :
    replay s [e] = .ok s := by
  rw [replay, if_neg htype]
  rfl

theorem replay_transition (hlegal : a.toState ∈ missionTransitions s) :
    replay s [{ a.event s with seq := seq }] = .ok a.toState := by
  simp [replay, Transition.event, hlegal]

theorem replayed_journalled (h : db'.events = (db.journalled e).events)
    (htype : e.eventType ≠ .missionTransition) (hs : replay .idle (db.rowsOf m) = .ok s) :
    replay .idle (db'.rowsOf m) = .ok s := by
  rw [rowsOf_journalled h]
  split
  · rw [replay_append hs]
    exact replay_aside htype s
  · exact hs

/-! ### The invariant -/

theorem stateOf_withMission (m m' : PyStr) (f : MissionRow → MissionRow) :
    (db.withMission m f).stateOf m'
      = ((db.missions.get? m').map fun r => (if m' = m then f r else r).state).getD .idle := by
  rw [MissionTables.stateOf, get?_withMission, Option.map_map]
  rfl

theorem stateOf_congr (h : db'.missions = db.missions) (m : PyStr) : db'.stateOf m = db.stateOf m := by
  rw [MissionTables.stateOf, h]
  rfl

theorem stateOf_aside {f : MissionRow → MissionRow}
    (h : db'.missions = (db.withMission m f).missions) (hf : ∀ r, (f r).state = r.state) (m' : PyStr) : db'.stateOf m' = db.stateOf m' := by
  rw [stateOf_congr h, stateOf_withMission, MissionTables.stateOf]
  congr 1
  refine map_congr ?_
  intro r _
  split
  · exact hf r
  · rfl

theorem real_withMission {f : MissionRow → MissionRow}
    (h : db'.missions = (db.withMission m f).missions)
    (hf : ∀ r, checkRealMode (f r) = checkRealMode r) (hreal : db.RealChecked) : db'.RealChecked := by
  intro m' r hr
  rw [h, get?_withMission] at hr
  obtain ⟨r', hr', rfl⟩ := map_eq_some_iff.mp hr
  split
  · rw [hf]
    exact hreal m' r' hr'
  · exact hreal m' r' hr'

theorem exists_of_withMission {m : PyStr} {f : MissionRow → MissionRow}
    (h : db'.missions = (db.withMission m f).missions) (hr : db'.missions.get? m' = some r) :
    ∃ r', db.missions.get? m' = some r' := by
  rw [h, get?_withMission] at hr
  obtain ⟨r', hr', -⟩ := map_eq_some_iff.mp hr
  exact ⟨r', hr'⟩

theorem nodesOf_congr (h : db'.nodes = db.nodes) (m : PyStr) : db'.nodesOf m = db.nodesOf m := by
  rw [MissionTables.nodesOf, h]
  rfl

theorem rowsOf_congr (h : db'.events = db.events) (m : PyStr) : db'.rowsOf m = db.rowsOf m := by
  rw [MissionTables.rowsOf, h]
  rfl

theorem consistent_empty : MissionTables.empty.Consistent where
  keyed := by intro k row h; cases h
  real := by intro m r h; cases h
  numbered := by intro m; rfl
  replayed := by intro m; rfl
  begun := by intro m r h; cases h
  acyclic := by intro m rev; rfl

/-- **What an operation does keeps the journal and the rows in agreement.** -/
theorem Effect.consistent (h : Effect op db db') (hdb : db.Consistent) : db'.Consistent := by
  cases h with
  | same h => rwa [h]
  | @created m a habsent hreal h =>
    have hevents : db'.events = (db.journalled (a.event m)).events := by
      rw [h]
      rfl
    have hget : ∀ m', db'.missions.get? m' = if m = m' then some a.row else db.missions.get? m' := by
      intro m'
      rw [h]
      exact Dict.get?_set db.missions m m' a.row
    refine ⟨?_, ?_, numbered_journalled hdb.numbered hevents, ?_, ?_, ?_⟩
    · rw [h]
      exact hdb.keyed
    · intro m' r hr
      rw [hget] at hr
      split at hr
      · rw [← Option.some.inj hr]
        exact hreal
      · exact hdb.real m' r hr
    · intro m'
      refine replayed_journalled hevents (by simp [NewMission.event]) ?_
      rw [hdb.replayed m', MissionTables.stateOf, MissionTables.stateOf, hget]
      by_cases hm : m = m'
      · rw [if_pos hm, ← hm, habsent]
        rfl
      · rw [if_neg hm]
    · intro m' r hr
      rw [hget] at hr
      refine rowsOf_ne_nil hevents ?_
      split at hr
      · next hm => exact .inl hm.symm
      · exact .inr (hdb.begun m' r hr)
    · intro m' rev
      have hnodes : db'.nodes = db.nodes := by
        rw [h]
        rfl
      rw [nodesOf_congr hnodes]
      exact hdb.acyclic m' rev
  | @moved a r hrow hlegal h =>
    have hmissions : db'.missions = (db.withMission a.missionId fun r' =>
        { r' with state := a.toState }).missions := by
      rw [h]
      rfl
    have hevents : db'.events = (db.journalled (a.event r.state)).events := by
      rw [h]
      rfl
    refine ⟨?_, real_withMission hmissions (fun r' => rfl) hdb.real,
      numbered_journalled hdb.numbered hevents, ?_, ?_, ?_⟩
    · rw [h]
      exact hdb.keyed
    · intro m
      have hold := hdb.replayed m
      rw [rowsOf_journalled hevents, stateOf_congr hmissions, stateOf_withMission]
      by_cases hm : m = a.missionId
      · subst hm
        have hstate : db.stateOf a.missionId = r.state := by
          rw [MissionTables.stateOf, hrow]
          rfl
        rw [hstate] at hold
        have hself : a.missionId = (a.event r.state).missionId := rfl
        rw [if_pos hself, replay_append hold, hrow, replay_transition hlegal]
        simp
      · have hne : ¬ m = (a.event r.state).missionId := hm
        rw [if_neg hne, hold, MissionTables.stateOf]
        simp [hm]
    · intro m r' hr'
      obtain ⟨r₀, hr₀⟩ := exists_of_withMission hmissions hr'
      exact rowsOf_ne_nil hevents (.inr (hdb.begun m r₀ hr₀))
    · intro m rev
      have hnodes : db'.nodes = db.nodes := by
        rw [h]
        rfl
      rw [nodesOf_congr hnodes]
      exact hdb.acyclic m rev
  | @patched patch actorId r ns hrow hdag hmissions hevents hnodes hkeyed =>
    refine ⟨hkeyed, real_withMission hmissions (fun r' => rfl) hdb.real,
      numbered_journalled hdb.numbered hevents, ?_, ?_, ?_⟩
    · intro m
      rw [stateOf_aside hmissions (fun r' => rfl)]
      exact replayed_journalled hevents (by simp [TaskGraphPatch.event]) (hdb.replayed m)
    · intro m r' hr'
      obtain ⟨r₀, hr₀⟩ := exists_of_withMission hmissions hr'
      exact rowsOf_ne_nil hevents (.inr (hdb.begun m r₀ hr₀))
    · intro m rev
      rw [hnodes]
      split
      · next hm =>
        have hsame := validateDag_map (f := id) (fun n => rfl) (fun n => rfl) patch.missionId
          rev (r.taskGraphRevision + 1) ns
        rw [List.map_id] at hsame
        rw [hm, hsame, hdag]
      · exact hdb.acyclic m rev
  | @rebound m hash hash' actorId affected hop hmissions hevents hnodes hkeyed =>
    refine ⟨hkeyed, real_withMission hmissions (fun r' => rfl) hdb.real,
      numbered_journalled hdb.numbered hevents, ?_, ?_, ?_⟩
    · intro m'
      rw [stateOf_aside hmissions (fun r' => rfl)]
      exact replayed_journalled hevents (by simp [reboundEvent]) (hdb.replayed m')
    · intro m' r' hr'
      obtain ⟨r₀, hr₀⟩ := exists_of_withMission hmissions hr'
      exact rowsOf_ne_nil hevents (.inr (hdb.begun m' r₀ hr₀))
    · intro m' rev
      rw [hnodes]
      split
      · next hm =>
        rw [hm]
        exact (validateDag_map TaskNode.rebound_taskId TaskNode.rebound_dependencies m rev rev _).trans
          (hdb.acyclic m rev)
      · exact hdb.acyclic m' rev
  | @counted m f haside h =>
    have hmissions : db'.missions = (db.withMission m f).missions := by rw [h]
    have hevents : db'.events = db.events := by
      rw [h]
      rfl
    refine ⟨?_, real_withMission hmissions (fun r => (haside r).2.2) hdb.real, ?_, ?_, ?_, ?_⟩
    · rw [h]
      exact hdb.keyed
    · intro m'
      rw [rowsOf_congr hevents]
      exact hdb.numbered m'
    · intro m'
      rw [rowsOf_congr hevents, stateOf_aside hmissions (fun r => (haside r).1)]
      exact hdb.replayed m'
    · intro m' r hr
      obtain ⟨r₀, hr₀⟩ := exists_of_withMission hmissions hr
      rw [rowsOf_congr hevents]
      exact hdb.begun m' r₀ hr₀
    · intro m' rev
      have hnodes : db'.nodes = db.nodes := by
        rw [h]
        rfl
      rw [nodesOf_congr hnodes]
      exact hdb.acyclic m' rev
  | @said m actorId messages h =>
    have hevents : db'.events
        = (db.journalled (conversationEvent m actorId messages)).events := by rw [h]
    have hmissions : db'.missions = db.missions := by
      rw [h]
      rfl
    refine ⟨?_, ?_, numbered_journalled hdb.numbered hevents, ?_, ?_, ?_⟩
    · rw [h]
      exact hdb.keyed
    · intro m' r hr
      rw [hmissions] at hr
      exact hdb.real m' r hr
    · intro m'
      rw [stateOf_congr hmissions]
      exact replayed_journalled hevents (by simp [conversationEvent]) (hdb.replayed m')
    · intro m' r hr
      rw [hmissions] at hr
      exact rowsOf_ne_nil hevents (.inr (hdb.begun m' r hr))
    · intro m' rev
      have hnodes : db'.nodes = db.nodes := by
        rw [h]
        rfl
      rw [nodesOf_congr hnodes]
      exact hdb.acyclic m' rev

theorem Call.consistent_after (l : Call) (hdb : db.Consistent) : (l.after db).Consistent := by
  rcases hrun : perform l.op ⟨db, l.fuse⟩ with ⟨r, c₁⟩
  have hafter : l.after db = c₁.store := by rw [Call.after, hrun]
  rw [hafter]
  rcases r with e | u
  · rcases perform_error hdb.real hrun with hsame | ⟨a, n, -, -, -, happlied⟩
    · have hstore : c₁.store = db := hsame
      rwa [hstore]
    · exact (happlied.effect l.op).consistent hdb
  · exact (perform_ok hdb.keyed hrun).consistent hdb

theorem consistent_of_reachable (h : missionStore.Reachable db) : db.Consistent := by
  refine h.invariant ?_ ?_
  · intro s hs
    rw [hs]
    exact consistent_empty
  · intro s l s' hs _ hstep
    rw [← Option.some.inj hstep]
    exact l.consistent_after hs

/-! ### What the store promises -/

theorem select_of_unfailing (f : MissionTables → α) (db : MissionTables) :
    select f ⟨db, none⟩ = (.ok (f db), ⟨db, none⟩) := query_of_unfailing _ f db

theorem theMission_eq (hrow : db.missions.get? m = some r)
    (hreal : checkRealMode r = .ok ()) : theMission m ⟨db, none⟩ = (.ok r, ⟨db, none⟩) := by
  have hget : getMission m ⟨db, none⟩ = (.ok (some r), ⟨db, none⟩) := by
    rw [getMission, bind_of_ok (select_of_unfailing _ db), hrow]
    show ((Script.ofExcept (checkRealMode r) >>= fun _ => pure (some r)) : Run _) _ = _
    rw [hreal]
    rfl
  rw [theMission, bind_of_ok hget]
  rfl

theorem getTaskGraph_eq (hrow : db.missions.get? m = some r) (hreal : checkRealMode r = .ok ()) :
    getTaskGraph m ⟨db, none⟩ = (.ok ⟨m, r.taskGraphRevision, db.nodesOf m⟩, ⟨db, none⟩) := by
  rw [getTaskGraph, bind_of_ok (theMission_eq hrow hreal)]
  rfl

theorem checkJournal_eq (hdb : db.Consistent)
    (hrow : db.missions.get? m = some r) : checkJournal r (db.eventsOf m) = .ok () := by
  have hevents := eventsOf_eq hdb.numbered m
  have hseqs : ¬ (db.eventsOf m).map EventRow.seq ≠ List.range' 1 (db.eventsOf m).length := by
    rw [hevents, not_not]
    exact hdb.numbered m
  have hne : db.eventsOf m ≠ [] := by
    rw [hevents]
    exact hdb.begun m r hrow
  have hstate : db.stateOf m = r.state := by
    rw [MissionTables.stateOf, hrow]
    rfl
  have hreplay : replay .idle (db.eventsOf m) = .ok r.state := by
    rw [hevents, hdb.replayed m, hstate]
  rw [checkJournal, if_neg hne, if_neg hseqs, hreplay]
  simp

theorem verifyConsistency_eq (hdb : db.Consistent) (hrow : db.missions.get? m = some r) :
    verifyConsistency m ⟨db, none⟩ = (.ok (), ⟨db, none⟩) := by
  have hreal := hdb.real m r hrow
  rw [verifyConsistency, bind_of_ok (theMission_eq hrow hreal),
    bind_of_ok (select_of_unfailing _ db), checkJournal_eq hdb hrow,
    bind_of_ok (x := Script.ofExcept (.ok ())) rfl,
    bind_of_ok (getTaskGraph_eq hrow hreal), hdb.acyclic m r.taskGraphRevision]
  rfl

/-- The state to which the journalled transitions lead from `IDLE`. -/
def foldTransitions (events : List EventRow) : MissionState :=
  events.foldl
    (fun s e => if e.eventType = .missionTransition then e.toState.getD s else s) .idle

def EventRow.Legal (e : EventRow) : Prop :=
  ∃ s s', e.fromState = some s ∧ e.toState = some s' ∧ s' ∈ missionTransitions s

theorem foldl_of_replay {es : List EventRow} (h : replay s es = .ok s') :
    es.foldl (fun s e => if e.eventType = .missionTransition then e.toState.getD s else s) s = s' := by
  induction es generalizing s with
  | nil => exact Except.ok.inj h
  | cons e es ih =>
    rw [foldl_cons]
    rw [replay] at h
    split at h
    · next htype =>
      rw [if_pos htype]
      split at h
      · next fromS toS hfrom hto =>
        rw [hto, getD_some]
        split at h
        · cases h
        · split at h
          · cases h
          · exact ih h
      · cases h
    · next htype =>
      rw [if_neg htype]
      exact ih h

theorem legal_of_replay {es : List EventRow} (h : replay s es = .ok s') (he : e ∈ es)
    (htype : e.eventType = .missionTransition) : e.Legal := by
  induction es generalizing s with
  | nil => cases he
  | cons e' es ih =>
    rw [replay] at h
    split at h
    · split at h
      · next fromS toS hfrom hto =>
        split at h
        · cases h
        · split at h
          · cases h
          · next hlegal =>
            rcases mem_cons.mp he with rfl | hrest
            · exact ⟨fromS, toS, hfrom, hto, not_not.mp hlegal⟩
            · exact ih h hrest
      · cases h
    · next hother =>
      rcases mem_cons.mp he with rfl | hrest
      · exact absurd htype hother
      · exact ih h hrest

/-- The transition of the call was carried out, but its row could not be read again: the
statement after the `COMMIT` was the one that failed. -/
def Call.CommittedUnread (l : Call) (db : MissionTables) : Prop :=
  ∃ a n, l.op = .transition a ∧ l.op.readAfterCommit = some n ∧ l.fuse = some n ∧
    a.Applied db (l.after db)

/-- **In every history** the check of every mission succeeds, its state is the fold of its
journalled transitions, these are legal, and the journal is numbered from one; an
operation that raises leaves the tables, but for a transition that is committed and then
cannot read its row. -/
theorem journal_agrees (h : missionStore.Reachable db) :
    (∀ m r, db.missions.get? m = some r →
      (verifyConsistency m ⟨db, none⟩).1 = .ok () ∧ r.state = foldTransitions (db.eventsOf m)) ∧
    (∀ m, ∀ e ∈ db.eventsOf m, e.eventType = .missionTransition → e.Legal) ∧
    (∀ m, (db.eventsOf m).map EventRow.seq = List.range' 1 (db.eventsOf m).length) ∧
    ∀ l : Call, l.result db ≠ .ok () → l.after db = db ∨ l.CommittedUnread db := by
  have hdb := consistent_of_reachable h
  refine ⟨?_, ?_, ?_, ?_⟩
  · intro m r hrow
    have hstate : db.stateOf m = r.state := by
      rw [MissionTables.stateOf, hrow]
      rfl
    have hreplay := hdb.replayed m
    rw [hstate, ← eventsOf_eq hdb.numbered] at hreplay
    refine ⟨?_, (foldl_of_replay hreplay).symm⟩
    rw [verifyConsistency_eq hdb hrow]
  · intro m e he htype
    rw [eventsOf_eq hdb.numbered] at he
    exact legal_of_replay (hdb.replayed m) he htype
  · intro m
    rw [eventsOf_eq hdb.numbered]
    exact hdb.numbered m
  · intro l hraises
    rcases hrun : perform l.op ⟨db, l.fuse⟩ with ⟨r, c₁⟩
    have hafter : l.after db = c₁.store := by rw [Call.after, hrun]
    rw [Call.CommittedUnread, hafter]
    rcases r with e | u
    · exact perform_error hdb.real hrun
    · refine absurd ?_ hraises
      rw [Call.result, hrun]

def firstMission : Call :=
  ⟨.createMission "m" ⟨"owner", .dict [], "body", "hash", .simulation, {}, ⟨none, []⟩, "actor",
    none, none⟩, none⟩

def firstTransition : Transition := ⟨"m", .understand, "request", "actor", none, none⟩

/-- The store with that mission in it, after its first transition. -/
def understood : MissionTables :=
  Call.after ⟨.transition firstTransition, none⟩ (firstMission.after MissionTables.empty)

/-- The transition is journalled; made a second time it is refused and leaves the tables. -/
theorem journal_agrees_understood :
    (verifyConsistency "m" ⟨understood, none⟩).1 = .ok () ∧
      (understood.eventsOf "m").map EventRow.seq = [1, 2] ∧
      Call.after ⟨.transition firstTransition, none⟩ understood = understood := by
  have hcreated : missionStore.Reachable (firstMission.after MissionTables.empty) :=
    .step (.init rfl) trivial (l := firstMission) rfl
  have hreach : missionStore.Reachable understood :=
    .step hcreated trivial (l := ⟨.transition firstTransition, none⟩) rfl
  have h := journal_agrees hreach
  have hraises : Call.result ⟨.transition firstTransition, none⟩ understood ≠ .ok () := by
    simp [Call.result]
    decide
  -- nothing failed in the database, so the transition was not committed
  refine ⟨(h.1 "m" _ rfl).1, (h.2.2.1 "m").trans (by decide), ?_⟩
  refine (h.2.2.2 _ hraises).resolve_right ?_
  rintro ⟨_, _, _, _, hfuse, _⟩
  cases hfuse

/-- The transition is committed, and then raises. -/
theorem transition_applied_and_raised :
    ∃ db, missionStore.Reachable db ∧
      Call.result ⟨.transition firstTransition, some 6⟩ db ≠ .ok () ∧
      Call.after ⟨.transition firstTransition, some 6⟩ db ≠ db := by
  refine ⟨firstMission.after MissionTables.empty,
    .step (.init rfl) trivial (l := firstMission) rfl, ?_, ?_⟩
  · simp [Call.result]
    decide
  · intro heq
    have hlen := congrArg (fun t => t.events.length) heq
    revert hlen
    decide

end Rosclaw.MissionStore
