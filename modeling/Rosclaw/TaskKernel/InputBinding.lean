/-
The input transactions of the task kernel: `persist_input`, `bind_message` and
`ensure_task_for_effect`, on a connection that commits every statement by itself.

* `Coherent` — how the rows of inputs, tasks, revisions and bindings fit together;
* `create_of_admitted`, `revise_of_spec`, `reopen_of_spec`, `bindMessage_replay`,
  `bindMessage_new` — what each branch executes and how it ends, on such tables.
-/
import Mathlib.Data.List.MinMax
import Rosclaw.TaskKernel.Tables

namespace Rosclaw.TaskKernel

open Txn PyStr

/-! ### The specification of a revision -/

def sceneVideoMarkers : List PyStr := ["视频", "video", "mp4", "录像"]

def previewMarkers : List PyStr := ["gif", "动图"]

def anyMarker (text : PyStr) (markers : List PyStr) : Bool :=
  markers.any fun m => text.lower.contains m || text.contains m

def compileDeliverables (goalText : PyStr) : List Deliverable :=
  (if anyMarker goalText sceneVideoMarkers then [⟨"scene_video", "video/mp4", true⟩] else []) ++
    if anyMarker goalText previewMarkers then [⟨"preview_animation", "image/gif", true⟩] else []

/-- `compile_task_spec`: the models refuse a goal without text, and any text that has
no UTF-8 form. -/
def compileTaskSpec (goalText bodyId mode language : PyStr) : Except KernelError TaskSpec :=
  if goalText.isEmpty || !([goalText, bodyId, mode, language].all PyStr.encodable) then
    .error .validationError
  else .ok ⟨compileDeliverables goalText⟩

/-- `locale if locale != "auto" else ""`. -/
def languageOf (locale : PyStr) : PyStr := if locale = "auto" then "" else locale

/-! ### Calls and what they answer -/

/-- The arguments of `persist_input`, and the clock. -/
structure PersistCall where
  missionId : PyStr
  sessionRef : PyStr
  messageId : PyStr
  text : PyStr
  forceNew : Bool := false
  now : Int

/-- `new_id`; the second argument is what `uuid.uuid4().hex[:24]` gives. -/
def newId (stem uuid : PyStr) : PyStr := stem ++ "_" ++ uuid

structure Outside where
  now : Int
  /-- of `new_id("task")` -/
  taskUuid : PyStr
  /-- the directory of `workspace_root`, or the one in the home of the kernel -/
  workspace : PyStr
  /-- the directories of the task and of its run can be made -/
  folders : Bool := true
  /-- `manifest.json` can be written -/
  manifest : Bool := true

def Outside.taskId (o : Outside) : PyStr := newId "task" o.taskUuid

/-- The arguments of `bind_message`. -/
structure BindCall where
  missionId : PyStr
  sessionRef : PyStr
  backendNativeId : PyStr
  messageId : PyStr
  text : PyStr
  cwd : PyStr
  mode : PyStr := "SIMULATION"
  bodyId : PyStr := ""
  locale : PyStr := "auto"
  forceNew : Bool := false
  outside : Outside

/-- The arguments of `ensure_task_for_effect`. -/
structure EnsureCall where
  missionId : PyStr
  sessionRef : PyStr
  backendNativeId : PyStr
  cwd : PyStr
  mode : PyStr := "SIMULATION"
  bodyId : PyStr := ""
  explicitGoal : PyStr := ""
  /-- of `f"goal_{new_id('msg')}"` -/
  messageUuid : PyStr
  outside : Outside

/-- What `bind_message` and `ensure_task_for_effect` answer. -/
structure Bound where
  taskId : PyStr
  revision : Nat
  createdTask : Bool
  replayed : Bool
  reopened : Bool
  workspacePath : PyStr
  state : TaskState
deriving DecidableEq, Repr

/-! ### Queries -/

def newest {A : Type*} (time : A → Int) (xs : List A) : Option A :=
  letI : Preorder Int := Int.instLinearOrder.toPreorder
  xs.argmax time

theorem newest_mem {A : Type*} {time : A → Int} {xs : List A} {x : A}
    (h : newest time xs = some x) : x ∈ xs := List.argmax_mem (Option.mem_def.mpr h)

namespace Tables

def boundTo (db : Tables) (messageId : PyStr) : Option (PyStr × Nat) :=
  (db.revisions.entries.find? fun e => e.2.userMessageId = messageId).map Prod.fst

def boundHere (db : Tables) (sessionRef tid : PyStr) : Bool :=
  (db.bindings.get? (tid, sessionRef)).any fun b => b.active ∧ b.role = PyStr.ofString "primary"

def activeTask (db : Tables) (missionId sessionRef : PyStr) : Option (PyStr × Task) :=
  newest (fun e => e.2.createdAt) <|
    db.tasks.entries.filter fun e => e.2.missionId = missionId ∧ db.boundHere sessionRef e.1

/-- The newest input of the session; of two from the same time, the later row. -/
def latestInput (db : Tables) (missionId sessionRef : PyStr) : Option (PyStr × UserInput) :=
  newest (fun e => e.2.createdAt) <|
    (db.inputs.entries.filter fun e =>
      e.2.missionId = missionId ∧ e.2.sessionRef = sessionRef).reverse

def attachedTask (db : Tables) (row : Option (PyStr × UserInput)) : Option (PyStr × Task) :=
  row.bind fun r => r.2.taskId.bind fun tid =>
    if tid.isEmpty then none else (db.tasks.get? tid).map (tid, ·)

/-- The verifications that `supersede` changes. -/
def passing (db : Tables) (tid : PyStr) : Nat :=
  db.verifications.values.countP fun v => v.taskId = tid ∧ v.status = .pass

end Tables

/-! ### The operations -/

/-- `persist_input`; a new input answers `PERSISTED` also when it forces a new task. -/
def persistInput (c : PersistCall) : Kernel UserInput :=
  check c.messageId.encodable .unicodeEncodeError >>= fun _ =>
  read (fun db : Tables => db.inputs.get? c.messageId) >>= fun
  | some i => pure i
  | none =>
    let i : UserInput := ⟨c.missionId, c.sessionRef, c.text, c.forceNew, none, c.now⟩
    exec (.insertInput c.messageId i) >>= fun _ =>
    pure { i with forceNew := false }

def replay (tid : PyStr) (revision : Nat) : Kernel Bound :=
  read (fun db : Tables => db.tasks.get? tid) >>= fun
  | none => raise .assertionError
  | some t => pure ⟨tid, revision, false, true, false, t.workspacePath, t.state⟩

/-- The task is over, and not a success that the user may still reject. -/
def Task.closed (t : Task) : Bool :=
  t.state.terminal && !(t.state = .succeeded && t.userAcceptedAt.isNone)

namespace BindCall

variable (c : BindCall)

def emit (tid eventType : PyStr) (payload : List (PyStr × PyVal)) : Kernel Unit :=
  exec (.emit ⟨tid, c.sessionRef, eventType, .dict payload⟩)

/-- The row of `task_revisions`. -/
def revision (spec : TaskSpec) : Revision :=
  ⟨c.messageId, c.text, ⟨[], none⟩, false, spec, c.outside.now⟩

/-- The row of `tasks`. -/
def task : Task :=
  ⟨c.missionId, c.text, c.mode, c.bodyId, c.outside.workspace, .running, 1, c.locale,
    c.outside.now, none, none⟩

def revisedSpec (t : Task) : Except KernelError TaskSpec :=
  compileTaskSpec c.text t.bodyId (if t.mode.isEmpty then "SIMULATION" else t.mode)
    (languageOf t.locale)

def supersededPayload (count : Nat) : List (PyStr × PyVal) :=
  [("count", .int count), ("reason", .str "user_rejected")]

def revisedPayload (revision : Nat) : List (PyStr × PyVal) :=
  [("revision", .int revision), ("delta", .str (c.text.take 200))]

def reopenedPayload (revision : Nat) : List (PyStr × PyVal) :=
  c.revisedPayload revision ++ [(PyStr.ofString "reopened_from", .str "SUCCEEDED")]

/-- The branch that reopens a success which the user has not accepted. -/
def reopen (tid : PyStr) (t : Task) : Kernel Bound :=
  check c.outside.folders .osError >>= fun _ =>
  ofExcept (c.revisedSpec t) >>= fun spec =>
  exec (.insertRevision tid (t.activeRevision + 1) (c.revision spec)) >>= fun _ =>
  exec (.reopenTask tid (t.activeRevision + 1)) >>= fun _ =>
  read (fun db : Tables => db.passing tid) >>= fun count =>
  exec (.supersede tid) >>= fun _ =>
  c.emit tid "verification.superseded" (supersededPayload count) >>= fun _ =>
  c.emit tid "task.revised" (c.reopenedPayload (t.activeRevision + 1)) >>= fun _ =>
  pure ⟨tid, t.activeRevision + 1, false, false, true, t.workspacePath, .running⟩

def revise (tid : PyStr) (t : Task) : Kernel Bound :=
  check c.outside.folders .osError >>= fun _ =>
  ofExcept (c.revisedSpec t) >>= fun spec =>
  exec (.insertRevision tid (t.activeRevision + 1) (c.revision spec)) >>= fun _ =>
  exec (.reviseTask tid (t.activeRevision + 1)) >>= fun _ =>
  c.emit tid "task.revised" (c.revisedPayload (t.activeRevision + 1)) >>= fun _ =>
  pure ⟨tid, t.activeRevision + 1, false, false, false, t.workspacePath, t.state⟩

def create : Kernel Bound :=
  check c.outside.folders .osError >>= fun _ =>
  exec (.insertTask c.outside.taskId c.task) >>= fun _ =>
  ofExcept (compileTaskSpec c.text c.bodyId c.mode (languageOf c.locale)) >>= fun spec =>
  exec (.insertRevision c.outside.taskId 1 (c.revision spec)) >>= fun _ =>
  exec (.insertSession c.sessionRef c.backendNativeId c.cwd) >>= fun _ =>
  exec (.insertBinding c.outside.taskId c.sessionRef) >>= fun _ =>
  check c.outside.manifest .osError >>= fun _ =>
  c.emit c.outside.taskId "task.started" [("goal", .str (c.text.take 200))] >>= fun _ =>
  pure ⟨c.outside.taskId, 1, true, false, false, c.outside.workspace, .running⟩

/-- The statement with which `force_new` lets go of the task of the session. -/
def release (active : Option (PyStr × Task)) : List Write :=
  match active with
  | some (tid, _) => if c.forceNew then [.releaseBinding tid c.sessionRef] else []
  | none => []

def continued (active : Option (PyStr × Task)) : Option (PyStr × Task) :=
  if c.forceNew then none else active.filter fun a => !a.2.closed

def bindTo : Option (PyStr × Task) → Kernel Bound
  | some (tid, t) => if t.state = .succeeded then c.reopen tid t else c.revise tid t
  | none => c.create

end BindCall

def bindMessage (c : BindCall) : Kernel Bound :=
  check c.messageId.encodable .unicodeEncodeError >>= fun _ =>
  read (fun db : Tables => db.boundTo c.messageId) >>= fun
  | some (tid, revision) => replay tid revision
  | none =>
    check (c.missionId.encodable && c.sessionRef.encodable) .unicodeEncodeError >>= fun _ =>
    read (fun db : Tables => db.activeTask c.missionId c.sessionRef) >>= fun active =>
    execAll (c.release active) >>= fun _ =>
    c.bindTo (c.continued active)

def inputMotivationMissing : PyStr :=
  "INPUT_MOTIVATION_MISSING: 无持久化输入——effectful call 缺少动机输入，不猜目标"

namespace EnsureCall

variable (c : EnsureCall)

/-- The call of `bind_message` for the input. -/
def bind (row : Option (PyStr × UserInput)) : BindCall :=
  { missionId := c.missionId
    sessionRef := c.sessionRef
    backendNativeId := c.backendNativeId
    messageId := row.elim ("goal_" ++ newId "msg" c.messageUuid) Prod.fst
    text := if c.explicitGoal.isEmpty then row.elim "" fun r => r.2.text else c.explicitGoal
    cwd := c.cwd
    mode := c.mode
    bodyId := c.bodyId
    forceNew := row.any fun r => r.2.forceNew
    outside := c.outside }

end EnsureCall

def attach (row : Option (PyStr × UserInput)) (bound : Bound) : List Write :=
  row.elim [] fun r => [.attachInput r.1 bound.taskId]

def ensureTaskForEffect (c : EnsureCall) : Kernel Bound :=
  check (c.missionId.encodable && c.sessionRef.encodable) .unicodeEncodeError >>= fun _ =>
  read (fun db : Tables => db.latestInput c.missionId c.sessionRef) >>= fun row =>
  if row.isNone && c.explicitGoal.isEmpty then raise (.valueError inputMotivationMissing)
  else
    read (fun db : Tables => db.attachedTask row) >>= fun
    | some (tid, t) => pure ⟨tid, t.activeRevision, false, false, false, t.workspacePath, t.state⟩
    | none =>
      bindMessage (c.bind row) >>= fun bound =>
      execAll (attach row bound) >>= fun _ =>
      pure bound

/-! ### How the rows fit together -/

/-- The revisions of a task are the numbers up to its active revision. -/
def Numbered (tasks : Dict PyStr Task) (revisions : Dict (PyStr × Nat) Revision) : Prop :=
  ∀ tid n, (∃ r, revisions.get? (tid, n) = some r) ↔
    ∃ t, tasks.get? tid = some t ∧ 1 ≤ n ∧ n ≤ t.activeRevision

def Unrepeated (revisions : Dict (PyStr × Nat) Revision) : Prop :=
  ∀ k k' r r', revisions.get? k = some r → revisions.get? k' = some r' →
    r.userMessageId = r'.userMessageId → k = k'

/-- Every task has one primary binding, and nothing else has a binding. -/
structure OnePrimary (tasks : Dict PyStr Task) (bindings : Dict (PyStr × PyStr) Binding) :
    Prop where
  one : ∀ tid t, tasks.get? tid = some t →
    ∃! s, ∃ b, bindings.get? (tid, s) = some b ∧ b.role = "primary"
  task : ∀ tid s b, bindings.get? (tid, s) = some b → ∃ t, tasks.get? tid = some t

def Attached (inputs : Dict PyStr UserInput) (revisions : Dict (PyStr × Nat) Revision) : Prop :=
  ∀ m i tid, inputs.get? m = some i → i.taskId = some tid →
    ∃ n r, revisions.get? (tid, n) = some r ∧ r.userMessageId = m

/-- A task id is a text, and what later statements take from a task has a UTF-8 form. -/
def Readable (tasks : Dict PyStr Task) : Prop :=
  ∀ tid t, tasks.get? tid = some t →
    tid.isEmpty = false ∧ tid.encodable = true ∧ t.mode.encodable = true ∧ t.bodyId.encodable = true ∧
      t.locale.encodable = true

structure Coherent (db : Tables) : Prop where
  numbered : Numbered db.tasks db.revisions
  unrepeated : Unrepeated db.revisions
  primary : OnePrimary db.tasks db.bindings
  attached : Attached db.inputs db.revisions
  readable : Readable db.tasks

variable {bodyId language locale m mid mode s text tid : PyStr} {db : Tables} {k : PyStr × Nat}

theorem boundTo_eq_some (h : db.boundTo m = some k) :
    ∃ r, db.revisions.get? k = some r ∧ r.userMessageId = m := by
  obtain ⟨e, hfound, rfl⟩ := Option.map_eq_some_iff.mp h
  have hm := List.find?_some hfound
  exact ⟨e.2, Dict.mem_entries_iff.mp (List.mem_of_find?_eq_some hfound), of_decide_eq_true hm⟩

theorem boundTo_eq_none :
    db.boundTo m = none ↔ ∀ k r, db.revisions.get? k = some r → r.userMessageId ≠ m := by
  rw [Tables.boundTo, Option.map_eq_none_iff, List.find?_eq_none]
  constructor
  · intro h k r hget heq
    exact h (k, r) (Dict.mem_entries_iff.mpr hget) (decide_eq_true heq)
  · intro h e he heq
    exact h e.1 e.2 (Dict.mem_entries_iff.mp he) (of_decide_eq_true heq)

theorem Coherent.boundTo_eq (h : Coherent db) {r : Revision} (hget : db.revisions.get? k = some r) :
    db.boundTo r.userMessageId = some k := by
  cases hbound : db.boundTo r.userMessageId with
  | none => exact absurd rfl (boundTo_eq_none.mp hbound k r hget)
  | some k' =>
    obtain ⟨r', hget', hm⟩ := boundTo_eq_some hbound
    rw [h.unrepeated k' k r' r hget' hget hm]

theorem activeTask_eq_some {t : Task} (h : db.activeTask mid s = some (tid, t)) :
    db.tasks.get? tid = some t := by
  have hmem := newest_mem h
  exact Dict.mem_entries_iff.mp (List.mem_of_mem_filter hmem)

theorem latestInput_eq_some {i : UserInput} (h : db.latestInput mid s = some (m, i)) :
    db.inputs.get? m = some i := by
  have hmem := newest_mem h
  rw [List.mem_reverse] at hmem
  exact Dict.mem_entries_iff.mp (List.mem_of_mem_filter hmem)

/-! ### What the branches execute -/

def BindCall.created (c : BindCall) : List Write :=
  [.insertTask c.outside.taskId c.task,
    .insertRevision c.outside.taskId 1 (c.revision ⟨compileDeliverables c.text⟩),
    .insertSession c.sessionRef c.backendNativeId c.cwd,
    .insertBinding c.outside.taskId c.sessionRef]

/-- The texts of the call that no statement before `INSERT INTO task_session_bindings`
but these refuse are fit for them. -/
def BindCall.WellFormed (c : BindCall) : Prop :=
  c.text.isEmpty = false ∧ c.backendNativeId.encodable = true ∧ c.cwd.encodable = true

instance (c : BindCall) : Decidable c.WellFormed := inferInstanceAs (Decidable (_ ∧ _ ∧ _))

theorem languageOf_encodable (h : locale.encodable = true) :
    (languageOf locale).encodable = true := by
  rw [languageOf]
  split
  · rfl
  · exact h

theorem compileTaskSpec_eq_ok (htext : text.isEmpty = false)
    (h : [text, bodyId, mode, language].all PyStr.encodable = true) :
    compileTaskSpec text bodyId mode language = .ok ⟨compileDeliverables text⟩ := by
  rw [compileTaskSpec, htext, h]
  rfl

theorem compileTaskSpec_ok {spec : TaskSpec}
    (h : compileTaskSpec text bodyId mode language = .ok spec) : text.encodable = true := by
  rw [compileTaskSpec] at h
  split at h
  · cases h
  · next hnot =>
    simp only [List.all_cons, List.all_nil, Bool.and_true, Bool.or_eq_true, Bool.not_eq_true',
      not_or, Bool.not_eq_true, Bool.and_eq_true, Bool.not_eq_false] at hnot
    exact hnot.2.1

section Branches
variable {db : Tables} {c : BindCall}

def BindCall.event (c : BindCall) (tid eventType : PyStr) (payload : List (PyStr × PyVal)) :
    Write :=
  .emit ⟨tid, c.sessionRef, eventType, .dict payload⟩

theorem event_admitted {tid eventType : PyStr} {payload : List (PyStr × PyVal)}
    (htid : tid.encodable = true) (hs : c.sessionRef.encodable = true)
    (hpayload : (PyVal.dict payload).encodable = true) :
    Store.refuses db (c.event tid eventType payload) = none := by
  rw [refuses_eq_none]
  refine ⟨?_, rfl⟩
  show (tid.encodable && c.sessionRef.encodable && (PyVal.dict payload).encodable) = true
  rw [htid, hs, hpayload]
  rfl

variable {tid : PyStr}

variable {spec : TaskSpec} {t : Task} (n : Nat)

theorem revision_admitted {n : Nat} (hm : db.boundTo c.messageId = none)
    (hn : db.revisions.get? (tid, n) = none) (htid : tid.encodable = true)
    (hkey : c.messageId.encodable = true) (htext : c.text.encodable = true) :
    Store.refuses db (.insertRevision tid n (c.revision spec)) = none := by
  rw [refuses_eq_none]
  constructor
  · show [tid, c.messageId, c.text].all PyStr.encodable = true
    simp [htid, hkey, htext]
  · show (!db.revisions.contains (tid, n) &&
      !db.revisions.values.any fun r => decide (r.userMessageId = c.messageId)) = true
    simp only [Dict.contains, hn, Option.isSome_none, Bool.not_false, Bool.true_and,
      Bool.not_eq_true', List.any_eq_false, decide_eq_true_eq, Dict.mem_values_iff]
    rintro r ⟨k, hget⟩
    exact boundTo_eq_none.mp hm k r hget

theorem Coherent.revision_free (h : Coherent db) (hfree : db.tasks.get? tid = none)
    (n : Nat) : db.revisions.get? (tid, n) = none := by
  rw [Option.eq_none_iff_forall_not_mem]
  intro r hr
  obtain ⟨t, ht, -⟩ := (h.numbered tid n).mp ⟨r, hr⟩
  rw [hfree] at ht
  cases ht

theorem Coherent.next_free (h : Coherent db) (hget : db.tasks.get? tid = some t) :
    db.revisions.get? (tid, t.activeRevision + 1) = none := by
  rw [Option.eq_none_iff_forall_not_mem]
  intro r hr
  obtain ⟨t', ht', -, hle⟩ := (h.numbered tid _).mp ⟨r, hr⟩
  rw [hget] at ht'
  cases ht'
  omega

theorem Coherent.binding_free (h : Coherent db) (hfree : db.tasks.get? tid = none)
    (s : PyStr) : db.bindings.get? (tid, s) = none := by
  rw [Option.eq_none_iff_forall_not_mem]
  intro b hb
  obtain ⟨t, ht⟩ := h.primary.task tid s b hb
  rw [hfree] at ht
  cases ht

theorem task_admitted (h : Store.refuses db (.insertTask c.outside.taskId c.task) = none) :
    db.tasks.get? c.outside.taskId = none ∧
      [c.outside.taskId, c.missionId, c.text, c.mode, c.bodyId, c.outside.workspace,
        c.locale].all PyStr.encodable = true := by
  obtain ⟨henc, hadmitted⟩ := refuses_eq_none.mp h
  refine ⟨?_, henc⟩
  have hfree : (!(db.tasks.get? c.outside.taskId).isSome) = true := hadmitted
  simpa using hfree

/-- **A new task**, from `INSERT INTO tasks` on. -/
theorem create_of_admitted (h : Coherent db) (hm : db.boundTo c.messageId = none)
    (hkey : c.messageId.encodable = true) (hs : c.sessionRef.encodable = true)
    (hfolders : c.outside.folders = true)
    (hadmitted : Store.refuses db (.insertTask c.outside.taskId c.task) = none)
    (hwell : c.WellFormed) :
    c.create db = if c.outside.manifest then
        (c.created ++ [c.event c.outside.taskId "task.started"
            [(PyStr.ofString "goal", .str (c.text.take 200))]],
          .ok ⟨c.outside.taskId, 1, true, false, false, c.outside.workspace, .running⟩)
      else (c.created, .error .osError) := by
  obtain ⟨hfree, henc⟩ := task_admitted hadmitted
  simp only [List.all_cons, List.all_nil, Bool.and_true, Bool.and_eq_true] at henc
  obtain ⟨htid, -, htext, hmode, hbody, -, hlocale⟩ := henc
  have hspec : compileTaskSpec c.text c.bodyId c.mode (languageOf c.locale) =
      .ok ⟨compileDeliverables c.text⟩ :=
    compileTaskSpec_eq_ok hwell.1 (by simp [htext, hbody, hmode, languageOf_encodable hlocale])
  have hbinding : ∀ db' : Tables, db'.bindings = db.bindings →
      Store.refuses db' (.insertBinding c.outside.taskId c.sessionRef) = none := by
    intro db' heq
    rw [refuses_eq_none]
    constructor
    · show [c.outside.taskId, c.sessionRef].all PyStr.encodable = true
      simp [htid, hs]
    · show (!db'.bindings.contains _ && !db'.bindings.entries.any _) = true
      rw [heq]
      simp only [Dict.contains, h.binding_free hfree, Option.isSome_none, Bool.not_false,
        Bool.true_and, Bool.not_eq_true', List.any_eq_false, decide_eq_true_eq]
      rintro ⟨⟨tid, s⟩, b⟩ hb ⟨rfl, -⟩
      have hget := Dict.mem_entries_iff.mp hb
      rw [h.binding_free hfree] at hget
      cases hget
  have hrun : ∀ ws r, (check c.outside.manifest KernelError.osError >>= fun _ =>
        c.emit c.outside.taskId "task.started"
          [(PyStr.ofString "goal", .str (c.text.take 200))] >>= fun _ =>
        (pure ⟨c.outside.taskId, 1, true, false, false, c.outside.workspace, .running⟩ :
          Kernel Bound)) (after db c.created) = (ws, r) →
      c.create db = (c.created ++ ws, r) := by
    intro ws r hrest
    refine check_bind_eq hfolders (exec_bind_eq hadmitted (ofExcept_bind_eq hspec ?_))
    refine exec_bind_eq (revision_admitted hm (h.revision_free hfree 1) htid hkey htext) ?_
    refine exec_bind_eq ?_ (exec_bind_eq (hbinding _ rfl) hrest)
    rw [refuses_eq_none]
    refine ⟨?_, rfl⟩
    show [c.sessionRef, c.backendNativeId, c.cwd].all PyStr.encodable = true
    simp [hs, hwell.2.1, hwell.2.2]
  cases hmanifest : c.outside.manifest with
  | false =>
    rw [hrun [] (.error .osError) (check_bind_raise hmanifest), List.append_nil]
    rfl
  | true =>
    refine hrun _ _ (check_bind_eq hmanifest (exec_bind_eq (event_admitted htid hs ?_) rfl))
    show ((PyStr.ofString "goal").encodable && (c.text.take 200).encodable && true) = true
    rw [encodable_ofString, encodable_take 200 htext]
    rfl

theorem create_of_refused (h : c.outside.folders = true →
    ∃ e, Store.refuses db (.insertTask c.outside.taskId c.task) = some e) :
    (c.create db).1 = [] := by
  cases hfolders : c.outside.folders with
  | false => exact congrArg Prod.fst (check_bind_raise hfolders)
  | true =>
    obtain ⟨e, hrefused⟩ := h hfolders
    rw [BindCall.create, check_of_true hfolders, Txn.pure_bind, exec_bind_of_refused hrefused]

def BindCall.revised (c : BindCall) (tid : PyStr) (t : Task) (spec : TaskSpec) : List Write :=
  [.insertRevision tid (t.activeRevision + 1) (c.revision spec),
    .reviseTask tid (t.activeRevision + 1)]

def BindCall.reopened (c : BindCall) (tid : PyStr) (t : Task) (spec : TaskSpec) : List Write :=
  [.insertRevision tid (t.activeRevision + 1) (c.revision spec),
    .reopenTask tid (t.activeRevision + 1)]

theorem task_statement_admitted {w : Write} (htid : tid.encodable = true)
    (htexts : w.encodable = [tid].all PyStr.encodable) (hadmits : db.admits w = true) :
    Store.refuses db w = none := by
  rw [refuses_eq_none, htexts]
  exact ⟨by simp [htid], hadmits⟩

theorem revisedPayload_encodable (htext : c.text.encodable = true) :
    (PyVal.dict (c.revisedPayload n)).encodable = true := by
  show ((PyStr.ofString "revision").encodable && true &&
    ((PyStr.ofString "delta").encodable && (c.text.take 200).encodable && true)) = true
  rw [encodable_ofString, encodable_ofString, encodable_take 200 htext]
  rfl

theorem reopenedPayload_encodable (htext : c.text.encodable = true) :
    (PyVal.dict (c.reopenedPayload n)).encodable = true := by
  show ((PyStr.ofString "revision").encodable && true &&
    ((PyStr.ofString "delta").encodable && (c.text.take 200).encodable &&
      ((PyStr.ofString "reopened_from").encodable && (PyStr.ofString "SUCCEEDED").encodable &&
        true))) = true
  rw [encodable_ofString, encodable_ofString, encodable_take 200 htext]
  rfl

theorem revise_of_spec (h : Coherent db) (hget : db.tasks.get? tid = some t)
    (hm : db.boundTo c.messageId = none) (hkey : c.messageId.encodable = true)
    (hs : c.sessionRef.encodable = true) (hfolders : c.outside.folders = true)
    (hspec : c.revisedSpec t = .ok spec) :
    c.revise tid t db = (c.revised tid t spec ++
          [c.event tid "task.revised" (c.revisedPayload (t.activeRevision + 1))],
        .ok ⟨tid, t.activeRevision + 1, false, false, false, t.workspacePath, t.state⟩) := by
  obtain ⟨-, htid, -⟩ := h.readable tid t hget
  have htext := compileTaskSpec_ok hspec
  refine check_bind_eq hfolders (ofExcept_bind_eq hspec ?_)
  refine exec_bind_eq (revision_admitted hm (h.next_free hget) htid hkey htext) ?_
  refine exec_bind_eq (task_statement_admitted htid rfl rfl) ?_
  exact exec_bind_eq (event_admitted htid hs (revisedPayload_encodable _ htext)) rfl

theorem reopen_of_spec (h : Coherent db) (hget : db.tasks.get? tid = some t)
    (hm : db.boundTo c.messageId = none) (hkey : c.messageId.encodable = true)
    (hs : c.sessionRef.encodable = true) (hfolders : c.outside.folders = true)
    (hspec : c.revisedSpec t = .ok spec) :
    ∃ count, c.reopen tid t db = (c.reopened tid t spec ++ [.supersede tid,
            c.event tid "verification.superseded" (BindCall.supersededPayload count),
            c.event tid "task.revised" (c.reopenedPayload (t.activeRevision + 1))],
        .ok ⟨tid, t.activeRevision + 1, false, false, true, t.workspacePath, .running⟩) := by
  obtain ⟨-, htid, -⟩ := h.readable tid t hget
  have htext := compileTaskSpec_ok hspec
  refine ⟨(after db (c.reopened tid t spec)).passing tid, ?_⟩
  refine check_bind_eq hfolders (ofExcept_bind_eq hspec ?_)
  refine exec_bind_eq (revision_admitted hm (h.next_free hget) htid hkey htext) ?_
  refine exec_bind_eq (task_statement_admitted htid rfl rfl) ?_
  show ((exec (.supersede tid) : Kernel Unit) >>= _) _ = _
  refine exec_bind_eq (task_statement_admitted htid rfl rfl) ?_
  refine exec_bind_eq (event_admitted htid hs ?_) ?_
  · show ((PyStr.ofString "count").encodable && true &&
      ((PyStr.ofString "reason").encodable && (PyStr.ofString "user_rejected").encodable &&
        true)) = true
    simp only [encodable_ofString, Bool.and_true]
  · exact exec_bind_eq (event_admitted htid hs (reopenedPayload_encodable _ htext)) rfl

theorem revise_of_refused (h : c.outside.folders = true →
    ∃ e, c.revisedSpec t = .error e) : (c.revise tid t db).1 = [] ∧ (c.reopen tid t db).1 = [] := by
  cases hfolders : c.outside.folders with
  | false =>
    exact ⟨congrArg Prod.fst (check_bind_raise hfolders),
      congrArg Prod.fst (check_bind_raise hfolders)⟩
  | true =>
    obtain ⟨e, hspec⟩ := h hfolders
    constructor
    · rw [BindCall.revise, check_of_true hfolders, Txn.pure_bind, hspec, ofExcept_error, raise_bind]
    · rw [BindCall.reopen, check_of_true hfolders, Txn.pure_bind, hspec, ofExcept_error, raise_bind]

/-! ### What `bind_message` executes -/

/-- **A message that is bound** changes nothing and answers where. -/
theorem bindMessage_replay (h : Coherent db) (hkey : c.messageId.encodable = true)
    {n : Nat} (hbound : db.boundTo c.messageId = some (tid, n)) :
    ∃ t, db.tasks.get? tid = some t ∧
      bindMessage c db = ([], .ok ⟨tid, n, false, true, false, t.workspacePath, t.state⟩) := by
  obtain ⟨r, hget, -⟩ := boundTo_eq_some hbound
  obtain ⟨t, ht, -⟩ := (h.numbered tid n).mp ⟨r, hget⟩
  refine ⟨t, ht, check_bind_eq hkey ?_⟩
  rw [read_bind, hbound]
  show (read (fun db : Tables => db.tasks.get? tid) >>= _) db = _
  rw [read_bind, ht]
  rfl

theorem execAll_release (h : Coherent db) (hs : c.sessionRef.encodable = true)
    {active : Option (PyStr × Task)} (hactive : ∀ a, active = some a → db.tasks.get? a.1 = some a.2) :
    execAll (c.release active) db = (c.release active, .ok ()) := by
  cases active with
  | none => rfl
  | some a =>
    obtain ⟨tid, t⟩ := a
    obtain ⟨-, htid, -⟩ := h.readable tid t (hactive _ rfl)
    rw [BindCall.release]
    split
    · refine exec_bind_eq (refuses_eq_none.mpr ⟨?_, rfl⟩) rfl
      show [tid, c.sessionRef].all PyStr.encodable = true
      simp [htid, hs]
    · rfl

def BindCall.continues (c : BindCall) (db : Tables) : Option (PyStr × Task) :=
  c.continued (db.activeTask c.missionId c.sessionRef)

def BindCall.releases (c : BindCall) (db : Tables) : List Write :=
  c.release (db.activeTask c.missionId c.sessionRef)

/-- **A message that is new** lets go of the task of the session if it has to, and takes
its branch. -/
theorem bindMessage_new (h : Coherent db) (hkey : c.messageId.encodable = true)
    (hmission : c.missionId.encodable = true) (hs : c.sessionRef.encodable = true)
    (hm : db.boundTo c.messageId = none) :
    bindMessage c db = (c.releases db ++ (c.bindTo (c.continues db) (after db (c.releases db))).1,
        (c.bindTo (c.continues db) (after db (c.releases db))).2) := by
  refine check_bind_eq hkey ?_
  rw [read_bind, hm]
  refine check_bind_eq (by simp [hmission, hs]) ?_
  rw [read_bind]
  exact bind_of_ok (execAll_release h hs fun a ha => activeTask_eq_some ha)

end Branches

end Rosclaw.TaskKernel
