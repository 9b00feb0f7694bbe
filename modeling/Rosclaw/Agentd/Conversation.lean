/-
The conversation of a mission, and the numbers its messages are given.

`append_conversation` stamps the dictionaries of its caller in place, before the transaction; a
message keeps the numbers that it has.

* `numbered` — the conversation over any sequence of calls, `retried_twice_numbered` — a message that
  is appended again after a failure.
-/
import Rosclaw.Agentd.MissionFrame

namespace Rosclaw.MissionStore

open List Script

variable {m actorId : PyStr} {db db' : MissionTables} {c c' : Conn MissionTables}

abbrev Message := List (PyStr × PyVal)

/-- The stamping of a batch; a dictionary that is in it twice is stamped once. -/
def stampRefs (m : PyStr) : Int → List Nat → (Nat → Message) → Nat → Message
  | _, [], held => held
  | seq, ref :: refs, held =>
      stampRefs m (seq + 1) refs fun k => if k = ref then stamp m seq (held ref) else held k

/-- The store, and the messages that callers hold. -/
structure Conversation where
  db : MissionTables
  held : Nat → Message

/-- `_conversation_length`. -/
def lengthOf (m : PyStr) : Run Int := do
  let events ← select fun db => db.eventsOf m
  Script.ofExcept (conversationLength events)

/-- The transaction of `append_conversation`. -/
def writeBatch (m actorId : PyStr) (messages : List PyVal) : Run Unit :=
  immediate (appendEvent (conversationEvent m actorId messages))

/-- `append_conversation` on the dictionaries of its caller, which stay stamped when the
transaction fails. -/
def Conversation.append (m : PyStr) (refs : List Nat) (actorId : PyStr) (fuse : Option Nat)
    (s : Conversation) : Except StoreError Unit × Conversation :=
  match lengthOf m ⟨s.db, fuse⟩ with
  | (.error e, c) => (.error e, ⟨c.store, s.held⟩)
  | (.ok seq, c) =>
    let held := stampRefs m seq refs s.held
    let (r, c') := writeBatch m actorId (refs.map fun ref => .dict (held ref)) c
    (r, ⟨c'.store, held⟩)

/-- `conversation_canonical`. -/
def MissionTables.canonical (db : MissionTables) (m : PyStr) : List PyVal :=
  ((db.eventsOf m).filter (·.eventType = .conversationAppended)).flatMap fun e => messagesOf e.payload

/-- A call of the store, of an appending caller, or a caller that makes or changes a message. -/
inductive Turn
  | call (l : Call)
  | append (m : PyStr) (refs : List Nat) (actorId : PyStr) (fuse : Option Nat)
  | write (ref : Nat) (message : Message)

def Turn.after (t : Turn) (s : Conversation) : Conversation :=
  match t with
  | .call l => { s with db := l.after s.db }
  | .append m refs actorId fuse => (s.append m refs actorId fuse).2
  | .write ref message => { s with held := fun k => if k = ref then message else s.held k }

def conversations : Machine Conversation Turn where
  Init := fun s => s.db = MissionTables.empty
  step := fun s t => some (t.after s)

/-! ### Stamps -/

/-- `message[key]`, if it is there. -/
def field (key : PyStr) (message : Message) : Option PyVal :=
  (message.find? fun e => e.1 = key).map Prod.snd

/-- `message["entry_id"]`, if it is there. -/
def idOf : PyVal → Option PyVal
  | .dict kvs => field "entry_id" kvs
  | _ => none

def convId (m : PyStr) (seq : Int) : PyVal :=
  .str ("conv_" ++ m ++ "_" ++ PyStr.ofString (toString seq))

/-- `message.setdefault(key, value)`. -/
def setDefault (key : PyStr) (value : PyVal) (message : Message) : Message :=
  if message.any fun e => e.1 = key then message else PyVal.setEntry key value message

theorem stamp_eq (m : PyStr) (seq : Int) (message : Message) : stamp m seq message
      = setDefault "seq" (.int seq) (setDefault "entry_id" (convId m seq) message) := rfl

theorem field_eq_none {key : PyStr} {message : Message} :
    field key message = none ↔ message.any (fun e => e.1 = key) = false := by
  rw [field, Option.map_eq_none_iff, List.find?_eq_none, any_eq_false]

theorem field_setEntry (key key' : PyStr) (value : PyVal) (message : Message) :
    field key' (PyVal.setEntry key value message)
      = if key = key' then some value else field key' message := by
  induction message with
  | nil =>
    by_cases h : key = key'
    · simp [field, PyVal.setEntry, h]
    · simp [field, PyVal.setEntry, h]
  | cons e message ih =>
    obtain ⟨k, v⟩ := e
    rw [PyVal.setEntry]
    by_cases hk : k = key
    · subst hk
      by_cases h : k = key'
      · simp [field, h]
      · simp [field, h]
    · rw [if_neg hk]
      by_cases h : k = key'
      · subst h
        have hne : ¬ key = k := fun heq => hk heq.symm
        simp [field, hne]
      · simpa [field, h] using ih

theorem field_setDefault (key key' : PyStr) (value : PyVal) (message : Message) :
    field key' (setDefault key value message)
      = if key = key' then some ((field key message).getD value) else field key' message := by
  rw [setDefault]
  rcases hany : message.any (fun e => e.1 = key) with _ | _
  · rw [if_neg (by simp), field_setEntry, field_eq_none.mpr hany]
    rfl
  · rw [if_pos rfl]
    split
    · next h =>
      subst h
      rcases hfield : field key message with _ | v
      · rw [field_eq_none.mp hfield] at hany
        cases hany
      · rfl
    · rfl

theorem seqOf_stamp (m : PyStr) (seq : Int) (message : Message) :
    seqOf (.dict (stamp m seq message)) = some ((field "seq" message).getD (.int seq)) := by
  show field "seq" (stamp m seq message) = _
  rw [stamp_eq, field_setDefault, if_pos rfl, field_setDefault, if_neg (by decide)]

theorem idOf_stamp (m : PyStr) (seq : Int) (message : Message) :
    idOf (.dict (stamp m seq message)) = some ((field "entry_id" message).getD (convId m seq)) := by
  show field "entry_id" (stamp m seq message) = _
  rw [stamp_eq, field_setDefault, if_neg (by decide), field_setDefault, if_pos rfl]

/-! ### Batches -/

variable {n : Nat} {messages : List Message} {ms batch : List PyVal}

variable {refs : List Nat} {s : Conversation} {u : Unit}

theorem stampRefs_of_notMem {ref : Nat} (h : ref ∉ refs) (seq : Int) (held : Nat → Message) :
    stampRefs m seq refs held ref = held ref := by
  induction refs generalizing seq held with
  | nil => rfl
  | cons ref' refs ih =>
    rw [stampRefs, ih (fun hmem => h (mem_cons_of_mem _ hmem)), if_neg (ne_of_not_mem_cons h)]

theorem map_stampRefs (h : refs.Nodup) (seq : Int) (held : Nat → Message) :
    (refs.map fun ref => PyVal.dict (stampRefs m seq refs held ref))
      = stampAll m seq (refs.map held) := by
  induction refs generalizing seq held with
  | nil => rfl
  | cons ref refs ih =>
    obtain ⟨hnot, hnodup⟩ := nodup_cons.mp h
    rw [map_cons, map_cons, stampAll]
    refine cons_eq_cons.mpr ⟨?_, ?_⟩
    · rw [stampRefs, stampRefs_of_notMem hnot, if_pos rfl]
    · simp only [stampRefs]
      rw [ih hnodup]
      refine congrArg _ (map_congr_left ?_)
      intro k hk
      exact if_neg (ne_of_mem_of_not_mem hk hnot)

/-- The numbers from `n` on, as the messages carry them. -/
def numbers (n len : Nat) : List (Option PyVal) := (List.range' n len).map fun i : Nat => some (.int i)

theorem numbers_append (n len len' : Nat) :
    numbers n (len + len') = numbers n len ++ numbers (n + len) len' := by
  rw [numbers, numbers, numbers, ← map_append, List.range'_append_1]

theorem nodup_numbers (n len : Nat) : (numbers n len).Nodup := by
  refine List.Nodup.map ?_ nodup_range'
  intro i j hij
  have hint : (i : Int) = j := by
    injection hij with hval
    injection hval
  omega

/-- The messages are numbered from zero without a gap, and each has an id of its own. -/
structure Canonical (ms : List PyVal) : Prop where
  seqs : ms.map seqOf = numbers 0 ms.length
  named : ∀ x ∈ ms, (idOf x).isSome = true
  distinct : (ms.filterMap idOf).Pairwise fun x y => x.pyEq y = false

theorem canonical_nil : Canonical [] := by
  refine ⟨rfl, ?_, .nil⟩
  intro x hx
  cases hx

theorem canonical_append (h : Canonical ms) : Canonical (ms ++ batch) ↔
    batch.map seqOf = numbers ms.length batch.length ∧ (∀ x ∈ batch, (idOf x).isSome = true) ∧
      (ms.filterMap idOf ++ batch.filterMap idOf).Pairwise fun x y => x.pyEq y = false := by
  have hsplit : numbers 0 (ms ++ batch).length
      = numbers 0 ms.length ++ numbers ms.length batch.length := by
    rw [length_append, numbers_append, Nat.zero_add]
  constructor
  · rintro ⟨hseqs, hnamed, hdistinct⟩
    rw [map_append, h.seqs, hsplit] at hseqs
    refine ⟨append_cancel_left hseqs, fun x hx => hnamed x (mem_append_right _ hx), ?_⟩
    rwa [filterMap_append] at hdistinct
  · rintro ⟨hseqs, hnamed, hdistinct⟩
    refine ⟨?_, ?_, ?_⟩
    · rw [map_append, h.seqs, hseqs, hsplit]
    · intro x hx
      rcases mem_append.mp hx with hx | hx
      · exact h.named x hx
      · exact hnamed x hx
    · rwa [filterMap_append]

/-- The messages carry no number, or the one they are given from `n` on. -/
def SeqsFit : Nat → List Message → Prop
  | _, [] => True
  | n, message :: messages =>
      (∀ v, field "seq" message = some v → v = .int n) ∧ SeqsFit (n + 1) messages

/-- The ids of the messages: the ones they carry, or those they are given. -/
def idsOf (m : PyStr) : Nat → List Message → List PyVal
  | _, [] => []
  | n, message :: messages =>
      (field "entry_id" message).getD (convId m n) :: idsOf m (n + 1) messages

theorem seqs_stampAll : (stampAll m n messages).map seqOf = numbers n (stampAll m n messages).length ↔
    SeqsFit n messages := by
  induction messages generalizing n with
  | nil => exact iff_of_true rfl trivial
  | cons message messages ih =>
    have hnext : (n : Int) + 1 = ((n + 1 : Nat) : Int) := by omega
    rw [stampAll, map_cons, length_cons, numbers, List.range'_succ, map_cons,
      cons_eq_cons, seqOf_stamp, hnext]
    have hrest : List.map seqOf (stampAll m (↑(n + 1)) messages) = List.map (fun i : Nat => some (.int i))
        (List.range' (n + 1) (stampAll m (↑(n + 1)) messages).length) ↔ SeqsFit (n + 1) messages := ih
    rw [hrest, SeqsFit, Option.some.injEq]
    refine and_congr_left fun _ => ?_
    rcases field "seq" message with _ | v
    · simp
    · simp

theorem ids_stampAll (m : PyStr) (n : Nat) (messages : List Message) :
    (∀ x ∈ stampAll m n messages, (idOf x).isSome = true) ∧
      (stampAll m n messages).filterMap idOf = idsOf m n messages := by
  induction messages generalizing n with
  | nil =>
    refine ⟨?_, rfl⟩
    intro x hx
    cases hx
  | cons message messages ih =>
    have hnext : (n : Int) + 1 = ((n + 1 : Nat) : Int) := by omega
    obtain ⟨hnamed, hids⟩ := ih (n + 1)
    rw [stampAll, hnext]
    constructor
    · intro x hx
      rcases mem_cons.mp hx with rfl | hx
      · rw [idOf_stamp]
        rfl
      · exact hnamed x hx
    · rw [filterMap_cons, idOf_stamp, hids]
      rfl

/-- The messages of a batch carry no number or the next ones, and ids that neither the conversation
nor another of them has. -/
def Fits (m : PyStr) (ms : List PyVal) (messages : List Message) : Prop :=
  SeqsFit ms.length messages ∧
    (ms.filterMap idOf ++ idsOf m ms.length messages).Pairwise fun x y => x.pyEq y = false

/-- **The batches that keep the numbering.** -/
theorem canonical_append_iff (h : Canonical ms) :
    Canonical (ms ++ stampAll m ms.length messages) ↔ Fits m ms messages := by
  obtain ⟨hnamed, hids⟩ := ids_stampAll m ms.length messages
  rw [canonical_append h, seqs_stampAll, hids, Fits]
  exact and_congr_right fun _ => and_iff_right hnamed

/-! ### The length of a conversation -/

theorem sum_lengths (batches : List (List PyVal)) :
    (batches.map fun ms => (ms.length : Int)).sum = (batches.flatten.length : Int) := by
  induction batches with
  | nil => rfl
  | cons ms batches ih =>
    rw [map_cons, sum_cons, ih, flatten_cons, length_append]
    omega

theorem conversationLength_eq {events : List EventRow}
    (hms : (events.filter (·.eventType = .conversationAppended)).flatMap (fun e => messagesOf e.payload)
      = ms) (h : ms.map seqOf = numbers 0 ms.length) :
    conversationLength events = .ok (ms.length : Int) := by
  rw [conversationLength]
  rw [flatMap_def] at hms
  generalize (events.filter (·.eventType = .conversationAppended)).map
    (fun e => messagesOf e.payload) = batches at hms ⊢
  subst hms
  have hcount := sum_lengths batches
  rcases eq_nil_or_concat batches with rfl | ⟨before, last, rfl⟩
  · rfl
  · rw [concat_eq_append] at *
    rcases eq_nil_or_concat last with rfl | ⟨last, x, rfl⟩
    · simp only [List.getLast?_concat, Option.bind_some, List.getLast?_nil, Option.bind_none, hcount]
    · rw [concat_eq_append] at *
      have hflat : (before ++ [last ++ [x]]).flatten = (before.flatten ++ last) ++ [x] := by simp
      rw [hflat] at h ⊢
      have hseq : seqOf x = some (.int ((before.flatten ++ last).length : Int)) := by
        rw [map_append, length_append, length_singleton, numbers_append, Nat.zero_add] at h
        have hlast := (append_inj' h rfl).2
        exact (List.cons.inj hlast).1
      simp only [List.getLast?_concat, Option.bind_some, hseq, pyInt?, length_append,
        length_singleton]
      rfl

/-! ### What an append writes -/

theorem canonical_eq (hnum : db.Numbered) (m : PyStr) :
    db.canonical m = (db.said m).flatMap fun e => messagesOf e.payload := by
  rw [MissionTables.canonical, eventsOf_eq hnum]
  rfl

theorem length_of_canonical (h : Canonical (db.canonical m)) :
    conversationLength (db.eventsOf m) = .ok ((db.canonical m).length : Int) :=
  conversationLength_eq rfl h.seqs

theorem canonical_written (hdb : db.Consistent) (m m' actorId : PyStr) (batch : List PyVal) :
    (db.journalled (conversationEvent m' actorId batch)).Consistent ∧
      (db.journalled (conversationEvent m' actorId batch)).canonical m
        = if m = m' then db.canonical m ++ batch else db.canonical m := by
  have heffect : Effect (.appendConversation m' [] actorId) db
      (db.journalled (conversationEvent m' actorId batch)) := .said rfl
  have hafter := heffect.consistent hdb
  refine ⟨hafter, ?_⟩
  have hevents : (db.journalled (conversationEvent m' actorId batch)).events
      = (db.journalled (conversationEvent m' actorId batch)).events := rfl
  have hmission : (conversationEvent m' actorId batch).missionId = m' := rfl
  rw [canonical_eq hafter.numbered, canonical_eq hdb.numbered, MissionTables.said,
    MissionTables.said, rowsOf_journalled hevents m, hmission]
  by_cases hm : m = m'
  · rw [if_pos hm, if_pos hm, filter_append, flatMap_append]
    refine congrArg _ ?_
    simp [conversationEvent, messagesOf, PyVal.get]
  · rw [if_neg hm, if_neg hm]

theorem writeBatch_eq_ok {batch : List PyVal} (h : writeBatch m actorId batch c = (.ok u, c')) :
    c'.store = c.store.journalled (conversationEvent m actorId batch) ∧ Script.Spent 4 c c' := by
  constructor
  · obtain ⟨c₁, c₂, h₁, hevent, h₂⟩ := immediate_eq_ok h
    rw [h₂, appendEvent_eq_ok hevent, h₁]
  · exact spent_transaction (fun c₁ c₂ _ hrun => spent_appendEvent hrun) h

theorem lengthOf_eq_ok {seq : Int} (h : lengthOf m c = (.ok seq, c')) :
    conversationLength (c.store.eventsOf m) = .ok seq ∧ c'.store = c.store ∧ Script.Spent 1 c c' := by
  obtain ⟨events, c₁, hevents, h⟩ := bind_eq_ok.mp h
  obtain ⟨rfl, h₁⟩ := select_eq_ok hevents
  obtain ⟨hseq, rfl⟩ := ofExcept_eq_ok.mp h
  exact ⟨hseq, h₁, spent_select hevents⟩

theorem reads_lengthOf (m : PyStr) : Script.Reads (lengthOf m) :=
  reads_bind (reads_query _ _) fun _ => reads_ofExcept _

theorem unfailing_of_spent {n : Nat} (h : Script.Spent 5 c c') (hfuse : c.fuse = some n) : 5 ≤ n := by
  rw [Script.Spent, hfuse] at h
  obtain ⟨k, -, hk⟩ := Option.map_eq_some_iff.mp h.symm
  omega

theorem append_eq (s : Conversation) (m : PyStr) (refs : List Nat) (actorId : PyStr)
    (fuse : Option Nat) :
    (s.append m refs actorId fuse).2.db = s.db ∨
      ∃ seq, conversationLength (s.db.eventsOf m) = .ok seq ∧
        (s.append m refs actorId fuse).2.db = s.db.journalled (conversationEvent m actorId
          (refs.map fun ref => .dict (stampRefs m seq refs s.held ref))) ∧
        ∀ n, fuse = some n → 5 ≤ n := by
  rw [Conversation.append]
  rcases hlength : lengthOf m ⟨s.db, fuse⟩ with ⟨x, c⟩
  have hstore : c.store = s.db := (reads_lengthOf m).of_eq hlength
  cases x with
  | error e => exact .inl hstore
  | ok seq =>
    obtain ⟨hseq, -, hspent⟩ := lengthOf_eq_ok hlength
    rcases hwrite : writeBatch m actorId
      (refs.map fun ref => .dict (stampRefs m seq refs s.held ref)) c with ⟨y, c'⟩
    cases y with
    | error e =>
      left
      simp only [hwrite]
      exact (transaction_eq_error hwrite).trans hstore
    | ok u =>
      right
      obtain ⟨hafter, hspent'⟩ := writeBatch_eq_ok hwrite
      refine ⟨seq, hseq, ?_, fun n hfuse => unfailing_of_spent (hspent.trans hspent') hfuse⟩
      simp only [hwrite]
      rw [hafter, hstore]

theorem appendConversation_stored {messages : List Message}
    (h : appendConversation m messages actorId c = (.ok u, c')) :
    ∃ seq, conversationLength (c.store.eventsOf m) = .ok seq ∧
      c'.store = c.store.journalled (conversationEvent m actorId (stampAll m seq messages)) ∧
      ∀ n, c.fuse = some n → 5 ≤ n := by
  obtain ⟨events, c₁, hevents, h⟩ := bind_eq_ok.mp h
  obtain ⟨rfl, h₁⟩ := select_eq_ok hevents
  obtain ⟨seq, c₂, hseq, h⟩ := bind_eq_ok.mp h
  obtain ⟨hlength, rfl⟩ := ofExcept_eq_ok.mp hseq
  obtain ⟨hafter, hspent⟩ := writeBatch_eq_ok h
  refine ⟨seq, hlength, ?_, fun n hfuse =>
    unfailing_of_spent ((spent_select hevents).trans hspent) hfuse⟩
  rw [hafter, h₁]

/-! ### Runs -/

/-- A batch of the mission that no failing statement keeps from being written is one that keeps the
numbering, and no dictionary is in it twice. -/
def Turn.Fits (m : PyStr) (s : Conversation) (t : Turn) : Prop :=
  match t with
  | .call l => ∀ messages actorId, l.op = .appendConversation m messages actorId →
      (∀ n, l.fuse = some n → 5 ≤ n) → MissionStore.Fits m (s.db.canonical m) messages
  | .append m' refs _ fuse => m' = m → (∀ n, fuse = some n → 5 ≤ n) →
      refs.Nodup ∧ MissionStore.Fits m (s.db.canonical m) (refs.map s.held)
  | .write _ _ => True

theorem Turn.canonical_after (t : Turn) (hdb : s.db.Consistent) (hs : Canonical (s.db.canonical m))
    (ht : t.Fits m s) : (t.after s).db.Consistent ∧ Canonical ((t.after s).db.canonical m) := by
  cases t with
  | write ref message => exact ⟨hdb, hs⟩
  | append m' refs actorId fuse =>
    rw [show (Turn.append m' refs actorId fuse).after s = (s.append m' refs actorId fuse).2 from rfl]
    rcases append_eq s m' refs actorId fuse with hsame | ⟨seq, hseq, hafter, hfuse⟩
    · rw [hsame]
      exact ⟨hdb, hs⟩
    · rw [hafter]
      obtain ⟨hcons, hcanonical⟩ := canonical_written hdb m m' actorId
        (refs.map fun ref => .dict (stampRefs m' seq refs s.held ref))
      refine ⟨hcons, ?_⟩
      rw [hcanonical]
      split
      · next hm =>
        subst hm
        obtain ⟨hnodup, hfits⟩ := ht rfl hfuse
        rw [length_of_canonical hs] at hseq
        cases hseq
        rw [map_stampRefs hnodup]
        exact (canonical_append_iff hs).mpr hfits
      · exact hs
  | call l =>
    refine ⟨l.consistent_after hdb, ?_⟩
    show Canonical ((l.after s.db).canonical m)
    by_cases hop : ∃ messages actorId, l.op = .appendConversation m messages actorId
    · obtain ⟨messages, actorId, hop⟩ := hop
      rcases hrun : perform (.appendConversation m messages actorId) ⟨s.db, l.fuse⟩ with ⟨x, c'⟩
      have hafter : l.after s.db = c'.store := by rw [Call.after, hop, hrun]
      rw [hafter]
      cases x with
      | error e =>
        rcases perform_error hdb.real hrun with hsame | ⟨a, n, hother, -⟩
        · rw [show c'.store = s.db from hsame]
          exact hs
        · cases hother
      | ok u =>
        obtain ⟨seq, hseq, hstore, hfuse⟩ := appendConversation_stored hrun
        have hfits := ht messages actorId hop hfuse
        obtain ⟨-, hcanonical⟩ := canonical_written hdb m m actorId (stampAll m seq messages)
        have hseq' : conversationLength (s.db.eventsOf m) = .ok seq := hseq
        rw [length_of_canonical hs] at hseq'
        cases hseq'
        rw [show c'.store = s.db.journalled _ from hstore, hcanonical, if_pos rfl]
        exact (canonical_append_iff hs).mpr hfits
    · have hother : ∀ messages actorId, l.op ≠ .appendConversation m messages actorId :=
        fun messages actorId heq => hop ⟨messages, actorId, heq⟩
      have hsaid : (l.after s.db).said m = s.db.said m := saidKept_perform hother ⟨s.db, l.fuse⟩
      rw [canonical_eq (l.consistent_after hdb).numbered, hsaid, ← canonical_eq hdb.numbered]
      exact hs

theorem canonical_of_reachable (h : conversations.ReachableUnder (fun s t => t.Fits m s) s) :
    s.db.Consistent ∧ Canonical (s.db.canonical m) := by
  refine h.invariant (P := fun s => s.db.Consistent ∧ Canonical (s.db.canonical m)) ?_ ?_
  · intro s hs
    rw [show s.db = MissionTables.empty from hs]
    exact ⟨consistent_empty, canonical_nil⟩
  · intro s t s' hs ht hstep
    obtain rfl : t.after s = s' := Option.some.inj hstep
    exact t.canonical_after hs.1 hs.2 ht

theorem append_of_unfailing (hs : Canonical (s.db.canonical m)) (refs : List Nat)
    (actorId : PyStr) : ((Turn.append m refs actorId none).after s).db
      = s.db.journalled (conversationEvent m actorId
        (refs.map fun ref => .dict (stampRefs m (s.db.canonical m).length refs s.held ref))) := by
  have hlength : lengthOf m ⟨s.db, none⟩ = (.ok ((s.db.canonical m).length : Int), ⟨s.db, none⟩) := by
    rw [lengthOf, bind_of_ok (select_of_unfailing _ s.db), length_of_canonical hs]
    rfl
  have hwrite : ∀ batch, writeBatch m actorId batch ⟨s.db, none⟩
      = (.ok (), ⟨s.db.journalled (conversationEvent m actorId batch), none⟩) := by
    intro batch
    refine transaction_of_unfailing _ (appendEvent_of_unfailing ?_)
    intro hkey
    cases hkey
  show (s.append m refs actorId none).2.db = _
  rw [Conversation.append, hlength]
  simp only [hwrite]

theorem nodup_of_canonical {ms : List PyVal} {g : Nat → PyVal} (hs : Canonical ms)
    (h : Canonical (ms ++ refs.map g)) : refs.Nodup := by
  have hseqs := ((canonical_append hs).mp h).1
  have hnodup := nodup_numbers ms.length (refs.map g).length
  rw [← hseqs, map_map] at hnodup
  exact hnodup.of_map _

/-- **The conversation of a mission all of whose batches fit** is numbered from zero without a gap,
with an id of its own for each message; a batch that does not fit, once it is written, breaks
that. -/
theorem numbered {s : Conversation} (h : conversations.ReachableUnder (fun s t => t.Fits m s) s) :
    Canonical (s.db.canonical m) ∧
    ∀ refs actorId, Canonical (((Turn.append m refs actorId none).after s).db.canonical m) →
      (Turn.append m refs actorId none).Fits m s := by
  obtain ⟨hdb, hs⟩ := canonical_of_reachable h
  refine ⟨hs, ?_⟩
  intro refs actorId hafter _ _
  rw [append_of_unfailing hs, (canonical_written hdb m m actorId _).2, if_pos rfl] at hafter
  have hnodup := nodup_of_canonical hs hafter
  rw [map_stampRefs hnodup] at hafter
  exact ⟨hnodup, (canonical_append_iff hs).mp hafter⟩

def userMessage : Message := [("role", .str "user")]

def opened : Conversation := ⟨firstMission.after MissionTables.empty, fun _ => userMessage⟩

/-- The conversation after a batch of two messages. -/
def twoMessages : Conversation := (Turn.append "m" [0, 1] "actor" none).after opened

/-- A third message, in a batch of its own. -/
theorem numbered_batches :
    Canonical (((Turn.append "m" [2] "actor" none).after twoMessages).db.canonical "m") ∧
      (((Turn.append "m" [2] "actor" none).after twoMessages).db.canonical "m").map seqOf =
        [some (.int 0), some (.int 1), some (.int 2)] := by
  have hinit : conversations.ReachableUnder (fun s t => t.Fits "m" s)
      ⟨MissionTables.empty, fun _ => userMessage⟩ := .init rfl
  have hopened : conversations.ReachableUnder (fun s t => t.Fits "m" s) opened := by
    refine .step hinit ?_ (l := .call firstMission) rfl
    intro messages actorId hop
    cases hop
  have hfirst : (Turn.append "m" [0, 1] "actor" none).Fits "m" opened := by
    intro _ _
    refine ⟨by decide, ⟨?_, ?_, trivial⟩, by decide⟩ <;> (intro v hv; cases hv)
  have hsecond : (Turn.append "m" [2] "actor" none).Fits "m" twoMessages := by
    intro _ _
    refine ⟨by decide, ⟨?_, trivial⟩, by decide⟩
    intro v hv
    cases hv
  have htwo : conversations.ReachableUnder (fun s t => t.Fits "m" s) twoMessages :=
    .step hopened hfirst (l := .append "m" [0, 1] "actor" none) rfl
  have h := numbered (.step htwo hsecond (l := .append "m" [2] "actor" none) rfl)
  exact ⟨h.1, rfl⟩

/-- The transaction of an append fails, another append is written, and the first is repeated. -/
def retried : Conversation :=
  (Turn.append "m" [0] "actor" none).after ((Turn.append "m" [1] "actor" none).after
    ((Turn.append "m" [0] "actor" (some 3)).after opened))

/-- The message keeps the number of the append that failed. -/
theorem retried_twice_numbered : conversations.Reachable retried ∧
    (retried.db.canonical "m").map seqOf = [some (.int 0), some (.int 0)] ∧
    ¬ Canonical (retried.db.canonical "m") := by
  have hinit : conversations.Reachable ⟨MissionTables.empty, fun _ => userMessage⟩ := .init rfl
  have hopened : conversations.Reachable opened :=
    .step hinit trivial (l := .call firstMission) rfl
  have hseqs : (retried.db.canonical "m").map seqOf = [some (.int 0), some (.int 0)] := rfl
  refine ⟨?_, hseqs, ?_⟩
  · exact .step (.step (.step hopened trivial (l := .append "m" [0] "actor" (some 3)) rfl) trivial
      (l := .append "m" [1] "actor" none) rfl) trivial (l := .append "m" [0] "actor" none) rfl
  · intro hcanonical
    have hnodup := nodup_numbers 0 (retried.db.canonical "m").length
    rw [← hcanonical.seqs, hseqs] at hnodup
    exact (List.nodup_cons.mp hnodup).1 List.mem_cons_self

end Rosclaw.MissionStore
