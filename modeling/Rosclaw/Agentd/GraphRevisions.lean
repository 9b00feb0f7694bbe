/-
The revision of a task graph identifies the graph, as long as no task is rebound.

`apply_patch` compares revisions; `rebind_body` rewrites nodes without a new revision.

* `Call.RebindsNothing` — the calls that do not get to rewrite a node beside the revision;
* `Later` — the revision went up or the nodes are the same, `later_of_path` — so it is
  between any two states of such a run;
* `applyPatch_accepts` — the patches that go through on the stored graph;
* `revision_identifies_graph` — equal revisions are equal graphs, and a patch is accepted
  exactly on the graph it was made for;
* `rebound_overwritten` — how a patch takes back a rebinding that it has not seen.
-/
import Rosclaw.Agentd.MissionFrame

namespace Rosclaw.MissionStore

open List Script

variable {op : Op} {db db' db'' : MissionTables} {c c' : Conn MissionTables} {m : PyStr}

/-! ### Calls that rebind nothing -/

/-- How many tasks of a mission a new body sends back to be rebound. -/
def MissionTables.toRebind (db : MissionTables) (m : PyStr) : Nat :=
  (db.nodesOf m).countP TaskNode.needsRebinding

/-- The call is no `rebind_body` of the mission, or none of its tasks is to be rebound, or
the database fails before the commit. -/
def Call.RebindsNothing (m : PyStr) (db : MissionTables) (l : Call) : Prop :=
  ∀ hash actorId, l.op = .rebindBody m hash actorId →
    db.toRebind m = 0 ∨ ∃ n, l.fuse = some n ∧ n < db.toRebind m + 7

variable {ns : List TaskNode}

theorem spent_rebindNodes {u : Unit} (h : rebindNodes m ns c = (.ok u, c')) :
    Script.Spent (ns.countP TaskNode.needsRebinding) c c' := by
  induction ns generalizing c with
  | nil =>
    obtain ⟨-, rfl⟩ := pure_eq_ok.mp h
    exact Script.Spent.refl c
  | cons n ns ih =>
    rw [rebindNodes] at h
    split at h
    · next hneeds =>
      obtain ⟨u₁, c₁, hupd, hgo⟩ := bind_eq_ok.mp h
      rw [countP_cons_of_pos hneeds]
      exact (spent_execute hupd).trans (ih hgo)
    · next hneeds =>
      rw [countP_cons_of_neg hneeds]
      exact ih h

variable {actorId hash m' tid : PyStr} {affected n : Nat} {deps ids ids' : List PyStr}
  {fuse : Option Nat} {g : TaskGraph} {r : MissionRow} (rev : Int)

theorem spent_commitRebind (h : commitRebind m hash actorId c = (.ok affected, c')) :
    Script.Spent (c.store.toRebind m + 5) c c' := by
  obtain ⟨row, c₁, hrow, h⟩ := bind_eq_ok.mp h
  obtain ⟨rfl, h₁⟩ := select_eq_ok hrow
  rcases hr : c.store.missions.get? m with _ | r
  · rw [hr] at h
    exact absurd h raise_ne_ok
  · rw [hr] at h
    obtain ⟨u₂, c₂, hupd, h⟩ := bind_eq_ok.mp h
    obtain ⟨nodes, c₃, hnodes, h⟩ := bind_eq_ok.mp h
    obtain ⟨u₄, c₄, hrebind, h⟩ := bind_eq_ok.mp h
    obtain ⟨u₅, c₅, hevent, h⟩ := bind_eq_ok.mp h
    obtain ⟨-, rfl⟩ := pure_eq_ok.mp h
    have hstore := execute_eq_ok hupd
    have h₂ := (Except.ok.inj hstore).symm
    have hns : nodes = c.store.nodesOf m := by
      rw [← (select_eq_ok hnodes).1, h₂, h₁]
      rfl
    have hspent := ((((spent_select hrow).trans (spent_execute hupd)).trans
      (spent_select hnodes)).trans (spent_rebindNodes hrebind)).trans (spent_appendEvent hevent)
    rw [hns] at hspent
    have hcount : 2 + ((c.store.nodesOf m).countP TaskNode.needsRebinding + (1 + (1 + 1)))
        = c.store.toRebind m + 5 := by
      rw [MissionTables.toRebind]
      omega
    rwa [hcount] at hspent

theorem rebindBody_unfailing (h : rebindBody m hash actorId c = (.ok affected, c'))
    (hfuse : c.fuse = some n) : c.store.toRebind m + 7 ≤ n := by
  have hspent : Script.Spent (c.store.toRebind m + 5 + 2) c c' := by
    refine spent_transaction ?_ h
    intro c₁ c₂ h₁ hrun
    have hbody := spent_commitRebind hrun
    rwa [h₁] at hbody
  rw [Script.Spent, hfuse] at hspent
  obtain ⟨k, -, hk⟩ := Option.map_eq_some_iff.mp hspent.symm
  omega

/-! ### Between two states of a run -/

/-- The mission is still there, and its revision went up or its nodes are the same. -/
def Later (m : PyStr) (db db' : MissionTables) : Prop :=
  ∀ r, db.missions.get? m = some r → ∃ r', db'.missions.get? m = some r' ∧
    (r.taskGraphRevision < r'.taskGraphRevision ∨
      r.taskGraphRevision = r'.taskGraphRevision ∧ db'.nodesOf m = db.nodesOf m)

theorem Later.refl (m : PyStr) (db : MissionTables) : Later m db db :=
  fun r hr => ⟨r, hr, .inr ⟨rfl, rfl⟩⟩

theorem Later.trans (h : Later m db db') (h' : Later m db' db'') : Later m db db'' := by
  intro r hr
  obtain ⟨r', hr', hle⟩ := h r hr
  obtain ⟨r'', hr'', hle'⟩ := h' r' hr'
  refine ⟨r'', hr'', ?_⟩
  rcases hle with hlt | ⟨heq, hnodes⟩
  · left
    rcases hle' with hlt' | ⟨heq', -⟩ <;> omega
  · rcases hle' with hlt' | ⟨heq', hnodes'⟩
    · left
      omega
    · exact .inr ⟨heq.trans heq', hnodes'.trans hnodes⟩

theorem later_of_withMission {f : MissionRow → MissionRow}
    (h : db'.missions = (db.withMission m' f).missions)
    (hf : ∀ r, (f r).taskGraphRevision = r.taskGraphRevision)
    (hnodes : db'.nodesOf m = db.nodesOf m) : Later m db db' := by
  intro r hr
  refine ⟨if m = m' then f r else r, ?_, .inr ⟨?_, hnodes⟩⟩
  · rw [h, get?_withMission, hr]
    rfl
  · split
    · exact (hf r).symm
    · rfl

theorem map_rebound_of_none (h : ns.countP TaskNode.needsRebinding = 0) :
    ns.map TaskNode.rebound = ns := by
  refine (map_congr_left ?_).trans (map_id ns)
  intro n hn
  have hnot := countP_eq_zero.mp h n hn
  exact TaskNode.rebound_of_not (by simpa using hnot)

theorem Effect.later (h : Effect op db db')
    (hop : ∀ hash actorId, op = .rebindBody m hash actorId → db.toRebind m = 0) :
    Later m db db' := by
  cases h with
  | same h =>
    rw [h]
    exact Later.refl m db
  | @created m' a habsent hreal h =>
    intro r hr
    have hne : m' ≠ m := by
      rintro rfl
      rw [habsent] at hr
      cases hr
    refine ⟨r, ?_, .inr ⟨rfl, nodesOf_congr (by rw [h]; rfl) m⟩⟩
    rw [h]
    exact (Dict.get?_set_of_ne db.missions a.row hne).trans hr
  | @moved a r hrow hlegal h =>
    have hmissions : db'.missions = (db.withMission a.missionId fun r' =>
        { r' with state := a.toState }).missions := by
      rw [h]
      rfl
    exact later_of_withMission hmissions (fun r' => rfl) (nodesOf_congr (by rw [h]; rfl) m)
  | @patched patch actorId r ns hrow hdag hmissions hevents hnodes hkeyed =>
    by_cases hm : m = patch.missionId
    · subst hm
      intro r' hr'
      rw [hrow] at hr'
      obtain rfl : r = r' := Option.some.inj hr'
      refine ⟨{ r with taskGraphRevision := r.taskGraphRevision + 1 }, ?_, .inl (by simp)⟩
      rw [hmissions, get?_withMission, hrow]
      simp
    · intro r' hr'
      refine ⟨r', ?_, .inr ⟨rfl, ?_⟩⟩
      · rw [hmissions, get?_withMission, hr']
        simp [hm]
      · rw [hnodes, if_neg hm]
  | @rebound m' hash hash' actorId affected hop' hmissions hevents hnodes hkeyed =>
    refine later_of_withMission hmissions (fun r' => rfl) ?_
    rw [hnodes]
    split
    · next hm =>
      subst hm
      exact map_rebound_of_none (hop hash' actorId hop')
    · rfl
  | @counted m' f haside h =>
    have hmissions : db'.missions = (db.withMission m' f).missions := by rw [h]
    exact later_of_withMission hmissions (fun r => (haside r).2.1) (nodesOf_congr (by rw [h]; rfl) m)
  | said h =>
    intro r hr
    refine ⟨r, ?_, .inr ⟨rfl, nodesOf_congr (by rw [h]; rfl) m⟩⟩
    rw [h]
    exact hr

theorem Call.later (l : Call) (hdb : db.Consistent) (hl : l.RebindsNothing m db) :
    Later m db (l.after db) := by
  rcases hrun : perform l.op ⟨db, l.fuse⟩ with ⟨r, c₁⟩
  have hafter : l.after db = c₁.store := by rw [Call.after, hrun]
  rw [hafter]
  rcases r with e | u
  · rcases perform_error hdb.real hrun with hsame | ⟨a, n, hop, -, -, happlied⟩
    · rw [show c₁.store = db from hsame]
      exact Later.refl m db
    · refine (happlied.effect l.op).later ?_
      intro hash actorId hrebind
      rw [hop] at hrebind
      cases hrebind
  · refine (perform_ok hdb.keyed hrun).later ?_
    intro hash actorId hop
    rcases hl hash actorId hop with hzero | ⟨n, hfuse, hlt⟩
    · exact hzero
    · rw [hop] at hrun
      obtain ⟨affected, c₂, hrebind, -⟩ := bind_eq_ok.mp hrun
      have hle := rebindBody_unfailing hrebind hfuse
      have hlt' : n < db.toRebind m + 7 := hlt
      exact absurd hle (Nat.not_le.mpr hlt')

/-- **Between two states of a run** in which no task of the mission is rebound. -/
theorem later_of_path (h : missionStore.Reachable db)
    (hpath : missionStore.PathUnder (fun s l => l.RebindsNothing m s) db db') : Later m db db' := by
  refine hpath.invariant_of (P := Later m db) (Q := MissionTables.Consistent) (D := fun _ _ => True)
    (fun _ _ _ => trivial) h (fun s hs => consistent_of_reachable hs) ?_ (Later.refl m db)
  intro s l s' hs hlater hl hstep
  rw [← Option.some.inj hstep]
  exact hlater.trans (l.later hs hl)

/-! ### Patches that go through -/

/-- The operations of the patch make an acyclic graph of the nodes, and no task of it names
a dependency twice. -/
def TaskGraphPatch.Fits (patch : TaskGraphPatch) (g : TaskGraph) : Prop :=
  ∃ nodes : Dict PyStr TaskNode, applyOperations patch.operations (nodeDict g.nodes) = .ok nodes ∧
    (TaskGraph.mk patch.missionId (g.revision + 1) nodes.values).validateDag = .ok () ∧
    ∀ n ∈ nodes.values, n.dependencies.Nodup

theorem insertEdges_of_unfailing (hdeps : deps.Nodup)
    (hfree : ∀ dep ∈ deps, db.edges.get? (m, dep, tid) = none) :
    ∃ db', insertEdges m tid rev deps ⟨db, none⟩ = (.ok (), ⟨db', none⟩) ∧
      ∀ k : PyStr × PyStr × PyStr, k.2.2 ≠ tid → db'.edges.get? k = db.edges.get? k := by
  induction deps generalizing db with
  | nil => exact ⟨db, rfl, fun k _ => rfl⟩
  | cons dep deps ih =>
    rw [nodup_cons] at hdeps
    have hnone := hfree dep mem_cons_self
    have hins : db.insertEdge m dep tid rev
        = .ok { db with edges := db.edges.set (m, dep, tid) rev } := by
      simp [MissionTables.insertEdge, Dict.contains, hnone]
    let db₁ : MissionTables := { db with edges := db.edges.set (m, dep, tid) rev }
    have hfree₁ : ∀ dep' ∈ deps, db₁.edges.get? (m, dep', tid) = none := by
      intro dep' hdep'
      have hne : (m, dep, tid) ≠ (m, dep', tid) := by
        intro heq
        have hsame : dep = dep' := congrArg (fun k => k.2.1) heq
        exact hdeps.1 (hsame ▸ hdep')
      rw [Dict.get?_set_of_ne _ _ hne]
      exact hfree dep' (mem_cons_of_mem _ hdep')
    obtain ⟨db', hrun, hframe⟩ := ih hdeps.2 hfree₁
    refine ⟨db', ?_, ?_⟩
    · rw [insertEdges, bind_of_ok (execute_of_unfailing hins)]
      exact hrun
    · intro k hk
      rw [hframe k hk]
      refine Dict.get?_set_of_ne _ _ ?_
      rintro rfl
      exact hk rfl

theorem insertNodes_of_unfailing (hids : (ns.map TaskNode.taskId).Nodup)
    (hdeps : ∀ n ∈ ns, n.dependencies.Nodup) (hnodes : ∀ n ∈ ns, db.nodes.get? (m, n.taskId) = none)
    (hedges : ∀ n ∈ ns, ∀ dep, db.edges.get? (m, dep, n.taskId) = none) :
    ∃ db', insertNodes m rev ns ⟨db, none⟩ = (.ok (), ⟨db', none⟩) := by
  induction ns generalizing db with
  | nil => exact ⟨db, rfl⟩
  | cons n ns ih =>
    rw [map_cons, nodup_cons] at hids
    have hother : ∀ n' ∈ ns, n'.taskId ≠ n.taskId := by
      intro n' hn' heq
      exact hids.1 (mem_map.mpr ⟨n', hn', heq⟩)
    have hins : db.insertNode m rev n
        = .ok { db with nodes := db.nodes.set (m, n.taskId) ⟨rev, n⟩ } := by
      simp [MissionTables.insertNode, Dict.contains, hnodes n mem_cons_self]
    let db₀ : MissionTables := { db with nodes := db.nodes.set (m, n.taskId) ⟨rev, n⟩ }
    have hfree : ∀ dep ∈ n.dependencies, db₀.edges.get? (m, dep, n.taskId) = none :=
      fun dep _ => hedges n mem_cons_self dep
    obtain ⟨db₁, hrun₁, hframe⟩ := insertEdges_of_unfailing rev (hdeps n mem_cons_self) hfree
    have hkept := insertEdges_eq_ok hrun₁
    have hnodes₁ : ∀ n' ∈ ns, db₁.nodes.get? (m, n'.taskId) = none := by
      intro n' hn'
      have hne : (m, n.taskId) ≠ (m, n'.taskId) :=
        fun heq => hother n' hn' (congrArg Prod.snd heq).symm
      rw [hkept.2.1]
      exact (Dict.get?_set_of_ne _ _ hne).trans (hnodes n' (mem_cons_of_mem _ hn'))
    have hedges₁ : ∀ n' ∈ ns, ∀ dep, db₁.edges.get? (m, dep, n'.taskId) = none := by
      intro n' hn' dep
      rw [hframe _ (hother n' hn')]
      exact hedges n' (mem_cons_of_mem _ hn') dep
    obtain ⟨db', hrun⟩ := ih hids.2 (fun n' hn' => hdeps n' (mem_cons_of_mem _ hn')) hnodes₁ hedges₁
    refine ⟨db', ?_⟩
    rw [insertNodes, bind_of_ok (execute_of_unfailing hins), bind_of_ok hrun₁]
    exact hrun

theorem nodup_of_collectIds (h : collectIds ids ns = .ok ids') (hids : ids.Nodup) :
    (ids ++ ns.map TaskNode.taskId).Nodup := by
  induction ns generalizing ids with
  | nil => simpa using hids
  | cons n ns ih =>
    rw [collectIds] at h
    split at h
    · cases h
    · next hnew =>
      have hnodup : (ids ++ [n.taskId]).Nodup :=
        nodup_append.mpr ⟨hids, nodup_singleton _, by simpa using fun a ha => ne_of_mem_of_not_mem ha hnew⟩
      have hrest := ih h hnodup
      rwa [append_assoc] at hrest

theorem nodup_of_validateDag (h : g.validateDag = .ok ()) :
    (g.nodes.map TaskNode.taskId).Nodup := by
  unfold TaskGraph.validateDag at h
  split at h
  · cases h
  · next ids hids => exact nodup_of_collectIds hids nodup_nil

variable {patch : TaskGraphPatch}

theorem commitPatch_of_unfailing (actorId : PyStr)
    (hrow : db.missions.get? patch.missionId = some r)
    (hbase : patch.baseRevision = r.taskGraphRevision)
    (hfits : patch.Fits ⟨patch.missionId, r.taskGraphRevision, db.nodesOf patch.missionId⟩)
    (hkey : ∀ e ∈ db.events, e.missionId = patch.missionId → e.idempotencyKey ≠ some patch.patchId) :
    ∃ db', commitPatch patch actorId ⟨db, none⟩ = (.ok (r.taskGraphRevision + 1), ⟨db', none⟩) := by
  obtain ⟨nodes, hnodes, hdag, hdeps⟩ := hfits
  let db₁ : MissionTables := { db with nodes := db.nodes.filter fun k _ => k.1 ≠ patch.missionId }
  let db₂ : MissionTables := { db₁ with edges := db₁.edges.filter fun k _ => k.1 ≠ patch.missionId }
  have hnodes₂ : ∀ n ∈ nodes.values, db₂.nodes.get? (patch.missionId, n.taskId) = none := by
    intro n _
    refine Option.eq_none_iff_forall_not_mem.mpr ?_
    intro row hrow
    obtain ⟨-, hne⟩ := Dict.get?_filter.mp (Option.mem_def.mp hrow)
    simp at hne
  have hedges₂ : ∀ n ∈ nodes.values, ∀ dep, db₂.edges.get? (patch.missionId, dep, n.taskId) = none := by
    intro n _ dep
    refine Option.eq_none_iff_forall_not_mem.mpr ?_
    intro rev hrev
    obtain ⟨-, hne⟩ := Dict.get?_filter.mp (Option.mem_def.mp hrev)
    simp at hne
  obtain ⟨db₃, hins⟩ := insertNodes_of_unfailing (r.taskGraphRevision + 1) (nodup_of_validateDag hdag)
    hdeps hnodes₂ hedges₂
  have hevents : db₃.events = db.events := (insertNodes_eq_ok hins).2.1
  let db₄ : MissionTables := { db₃ with
    missions := db₃.missions.mapVals fun k r' =>
      if k = patch.missionId then { r' with taskGraphRevision := r.taskGraphRevision + 1 } else r' }
  have hevent : appendEvent (patch.event actorId (r.taskGraphRevision + 1)) ⟨db₄, none⟩ = _ :=
    appendEvent_of_unfailing (by
      intro _ e he
      have he' : e ∈ db.events := hevents ▸ he
      exact hkey e he')
  refine ⟨db₄.journalled (patch.event actorId (r.taskGraphRevision + 1)), ?_⟩
  rw [commitPatch, bind_of_ok (select_of_unfailing _ db), hrow]
  simp only [hbase, ne_eq, not_true_eq_false, if_false]
  rw [bind_of_ok (select_of_unfailing _ db), hnodes, bind_of_ok (x := Script.ofExcept (.ok nodes)) rfl]
  simp only [hdag]
  rw [bind_of_ok (x := Script.ofExcept (.ok ())) rfl,
    bind_of_ok (written _ db), bind_of_ok (written _ _)]
  refine (bind_of_ok hins).trans ?_
  rw [bind_of_ok (written _ db₃)]
  exact bind_of_ok hevent

theorem commitPatch_conflict (actorId : PyStr) (hrow : db.missions.get? patch.missionId = some r)
    (hbase : patch.baseRevision ≠ r.taskGraphRevision) :
    ∃ message, commitPatch patch actorId ⟨db, none⟩
      = (.error (.revisionConflictError message), ⟨db, none⟩) := by
  refine ⟨"patch base_revision " ++ PyStr.ofString (toString patch.baseRevision) ++ " != current " ++
    PyStr.ofString (toString r.taskGraphRevision), ?_⟩
  rw [commitPatch, bind_of_ok (select_of_unfailing _ db), hrow]
  simp only [hbase, ne_eq, not_false_eq_true, if_true]
  rfl

/-! ### Reading, and patching what was read -/

theorem getTaskGraph_eq_ok (h : getTaskGraph m c = (.ok g, c')) :
    ∃ r, c.store.missions.get? m = some r ∧ g = ⟨m, r.taskGraphRevision, c.store.nodesOf m⟩ := by
  obtain ⟨r, c₁, hrow, h⟩ := bind_eq_ok.mp h
  obtain ⟨hr, h₁⟩ := theMission_eq_ok hrow
  obtain ⟨nodes, c₂, hnodes, h⟩ := bind_eq_ok.mp h
  obtain ⟨rfl, -⟩ := select_eq_ok hnodes
  obtain ⟨rfl, -⟩ := pure_eq_ok.mp h
  exact ⟨r, hr, by rw [h₁]⟩

theorem read_eq (h : (getTaskGraph m ⟨db, fuse⟩).1 = .ok g) :
    ∃ r, db.missions.get? m = some r ∧ g = ⟨m, r.taskGraphRevision, db.nodesOf m⟩ := by
  rcases hrun : getTaskGraph m ⟨db, fuse⟩ with ⟨x, c₁⟩
  rw [hrun] at h
  obtain rfl : x = .ok g := h
  exact getTaskGraph_eq_ok hrun

theorem base_of_accepted (h : Call.result ⟨.applyPatch patch actorId, fuse⟩ db = .ok ()) :
    ∃ r, db.missions.get? patch.missionId = some r ∧ patch.baseRevision = r.taskGraphRevision := by
  rcases hrun : perform (.applyPatch patch actorId) ⟨db, fuse⟩ with ⟨x, c₁⟩
  rw [Call.result, hrun] at h
  obtain rfl : x = .ok () := h
  obtain ⟨rev, c₂, happly, -⟩ := bind_eq_ok.mp hrun
  obtain ⟨c₃, c₄, h₃, hcommit, -⟩ := immediate_eq_ok happly
  obtain ⟨r, nodes, hrow, hbase, -⟩ := commitPatch_eq_ok hcommit
  rw [h₃] at hrow
  exact ⟨r, hrow, hbase⟩

theorem accepted_of_commit {rev : Int}
    (h : commitPatch patch actorId ⟨db, none⟩ = (.ok rev, ⟨db', none⟩)) :
    Call.result ⟨.applyPatch patch actorId, none⟩ db = .ok () := by
  have happly : applyPatch patch actorId ⟨db, none⟩ = (.ok rev, ⟨db', none⟩) :=
    transaction_of_unfailing _ h
  rw [Call.result, perform, bind_of_ok happly]
  rfl

theorem refused_of_conflict {e : StoreError}
    (h : commitPatch patch actorId ⟨db, none⟩ = (.error e, ⟨db, none⟩)) :
    Call.result ⟨.applyPatch patch actorId, none⟩ db = .error e := by
  have happly : (applyPatch patch actorId ⟨db, none⟩).1 = .error e := transaction_of_error _ h
  rcases hrun : applyPatch patch actorId ⟨db, none⟩ with ⟨x, c₁⟩
  rw [hrun] at happly
  obtain rfl : x = .error e := happly
  show (Script.proceed _ (applyPatch patch actorId ⟨db, none⟩)).1 = _
  rw [hrun]
  rfl

/-- **The revision identifies the graph** between two states of a run in which no task of
the mission is rebound: reads of one revision are the same graph, an accepted patch finds
the graph it was made for, a patch that fits that graph is accepted exactly when it is
still stored, and any other is refused for a conflict. -/
theorem revision_identifies_graph (h : missionStore.Reachable db)
    (hpath : missionStore.PathUnder (fun s l => l.RebindsNothing m s) db db') {fuse : Option Nat}
    {g : TaskGraph} (hread : (getTaskGraph m ⟨db, fuse⟩).1 = .ok g) :
    (∀ fuse' g', (getTaskGraph m ⟨db', fuse'⟩).1 = .ok g' → g'.revision = g.revision → g' = g) ∧
    ∀ (patch : TaskGraphPatch) (actorId : PyStr), patch.missionId = m →
      patch.baseRevision = g.revision →
      (∀ fuse', Call.result ⟨.applyPatch patch actorId, fuse'⟩ db' = .ok () →
        (getTaskGraph m ⟨db', none⟩).1 = .ok g) ∧
      (patch.Fits g →
        (∀ e ∈ db'.events, e.missionId = m → e.idempotencyKey ≠ some patch.patchId) →
        (Call.result ⟨.applyPatch patch actorId, none⟩ db' = .ok () ↔
          (getTaskGraph m ⟨db', none⟩).1 = .ok g)) ∧
      ((getTaskGraph m ⟨db', none⟩).1 ≠ .ok g → ∃ message,
        Call.result ⟨.applyPatch patch actorId, none⟩ db'
          = .error (.revisionConflictError message)) := by
  obtain ⟨r, hr, rfl⟩ := read_eq hread
  obtain ⟨r', hr', hlater⟩ := later_of_path h hpath r hr
  have hdb' := consistent_of_reachable (hpath.reachable (fun _ _ _ => trivial) h)
  have hstored := getTaskGraph_eq hr' (hdb'.real m r' hr')
  -- the graph is still stored exactly when the revision is still the same
  have hsame : r'.taskGraphRevision = r.taskGraphRevision →
      TaskGraph.mk m r'.taskGraphRevision (db'.nodesOf m) = ⟨m, r.taskGraphRevision, db.nodesOf m⟩ := by
    intro heq
    rcases hlater with hlt | ⟨-, hnodes⟩
    · omega
    · rw [heq, hnodes]
  refine ⟨?_, ?_⟩
  · intro fuse' g' hread' hrev
    obtain ⟨r'', hr'', rfl⟩ := read_eq hread'
    rw [hr'] at hr''
    obtain rfl : r' = r'' := Option.some.inj hr''
    exact hsame hrev
  · rintro patch actorId rfl hbase
    have haccepted : ∀ fuse', Call.result ⟨.applyPatch patch actorId, fuse'⟩ db' = .ok () →
        (getTaskGraph patch.missionId ⟨db', none⟩).1 = .ok ⟨patch.missionId, r.taskGraphRevision, db.nodesOf patch.missionId⟩ := by
      intro fuse' hok
      obtain ⟨r'', hr'', hbase''⟩ := base_of_accepted hok
      rw [hr'] at hr''
      obtain rfl : r' = r'' := Option.some.inj hr''
      rw [hstored, hsame (hbase''.symm.trans hbase)]
    refine ⟨haccepted, ?_, ?_⟩
    · intro hfits hkey
      refine ⟨haccepted none, ?_⟩
      intro hstill
      rw [hstored] at hstill
      have hgraph := Except.ok.inj hstill
      have hrev : r'.taskGraphRevision = r.taskGraphRevision := congrArg TaskGraph.revision hgraph
      rw [← hgraph] at hfits
      obtain ⟨db₁, hcommit⟩ := commitPatch_of_unfailing actorId hr'
        (hbase.trans hrev.symm) hfits hkey
      exact accepted_of_commit hcommit
    · intro hgone
      rw [hstored] at hgone
      have hne : patch.baseRevision ≠ r'.taskGraphRevision := by
        intro heq
        refine hgone ?_
        rw [hsame (heq.symm.trans hbase)]
      obtain ⟨message, hconflict⟩ := commitPatch_conflict actorId hr' hne
      exact ⟨message, refused_of_conflict hconflict⟩

def firstTask : TaskNode := ⟨"t", .requestAction, [], .pending, .dict []⟩

def taskPatch (op : PatchOp) (patchId : PyStr) (base : Int) : TaskGraphPatch :=
  ⟨patchId, "m", base, [⟨op, some firstTask, none, none⟩], "planner", 0⟩

def firstGraph : MissionTables :=
  Call.after ⟨.applyPatch (taskPatch .addNode "p1" 0) "planner", none⟩
    (firstMission.after MissionTables.empty)

theorem reachable_firstGraph : missionStore.Reachable firstGraph :=
  .step (.step (.init rfl) trivial (l := firstMission) rfl) trivial
    (l := ⟨.applyPatch (taskPatch .addNode "p1" 0) "planner", none⟩) rfl

/-- A patch of that graph, after the context has moved on. -/
theorem revision_identifies_graph_firstGraph :
    (getTaskGraph "m" ⟨Call.after ⟨.bumpContextRevision "m", none⟩ firstGraph, none⟩).1
      = .ok ⟨"m", 1, firstGraph.nodesOf "m"⟩ := by
  have hread : (getTaskGraph "m" ⟨firstGraph, none⟩).1 = .ok ⟨"m", 1, firstGraph.nodesOf "m"⟩ := rfl
  have h := revision_identifies_graph (m := "m") reachable_firstGraph
    (.step .refl (by intro hash actorId hop; cases hop)
      (l := ⟨.bumpContextRevision "m", none⟩) rfl) hread
  refine (h.2 (taskPatch .updateNode "p2" 1) "planner" rfl rfl).1 none ?_
  decide

def reboundGraph : MissionTables := Call.after ⟨.rebindBody "m" "hash'" "operator", none⟩ firstGraph

/-- A patch that was made before the rebinding, and takes it back. -/
theorem rebound_overwritten : ∃ db db' g g', missionStore.Reachable db ∧
    missionStore.PathUnder (fun _ _ => True) db db' ∧
    (getTaskGraph "m" ⟨db, none⟩).1 = .ok g ∧ (getTaskGraph "m" ⟨db', none⟩).1 = .ok g' ∧
    g'.revision = g.revision ∧ g.nodes.map TaskNode.status = [.pending] ∧
    g'.nodes.map TaskNode.status = [.needsRebinding] ∧
    ∃ patch : TaskGraphPatch, patch.missionId = "m" ∧ patch.baseRevision = g.revision ∧
      Call.result ⟨.applyPatch patch "planner", none⟩ db' = .ok () ∧
      ((Call.after ⟨.applyPatch patch "planner", none⟩ db').nodesOf "m").map TaskNode.status
        = [.pending] := by
  refine ⟨firstGraph, reboundGraph, ⟨"m", 1, firstGraph.nodesOf "m"⟩,
    ⟨"m", 1, reboundGraph.nodesOf "m"⟩, reachable_firstGraph,
    .step .refl trivial (l := ⟨.rebindBody "m" "hash'" "operator", none⟩) rfl, rfl, rfl, rfl,
    ?_, ?_, taskPatch .updateNode "p2" 1, rfl, rfl, ?_, ?_⟩
  · decide
  · decide
  · decide
  · decide

end Rosclaw.MissionStore
