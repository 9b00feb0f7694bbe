/-
The pages of a transcript give the transcript when the events after the first page are silent.

A page is taken from the events in their order and keeps the first of them, so the first page has
the oldest events; the page before it is empty, and what comes after it is never asked for.

* `shown_foldl` — the projection shows the same after further events exactly when they are silent;
* `Numbered` — the events of every mission are numbered from one;
* `paged_iff` — the condition on the journal;
* `newest_lost` — two messages and pages of one event.
-/
import Rosclaw.Agentd.Transcript
import Rosclaw.Lib.Log

namespace Rosclaw.Transcript

open List

variable {str : PyVal → PyStr}

/-! ### Silent events -/

/-- The event is not shown: it is for debugging, it is of a type without blocks, it ends a message,
or it has a text and nothing to say.  A text delta says nothing when the block is full, or when the
assistant has said nothing and this text is blank. -/
def Projection.silent (str : PyVal → PyStr) (p : Projection) (e : AgentEvent) : Bool :=
  e.visibility = .debug ||
    match e.effect str with
    | .accept => (e.text str).isEmpty
    | .delta => maxDeltaRun ≤ p.deltaRun || ((p.open e).text ++ e.text str).isBlank
    | .add _ => false
    | .close | .nothing => true

def Silent (str : PyVal → PyStr) : Projection → List AgentEvent → Prop
  | _, [] => True
  | p, e :: es => p.silent str e = true ∧ Silent str (p.step str e) es

theorem shown_eq (p : Projection) : p.shown = p.blocks ++ p.assistant.elim [] Assistant.shown := by
  rw [Projection.shown, Projection.closeAssistant]
  cases hp : p.assistant with
  | none => simp
  | some a => simp

theorem shown_closeAssistant (p : Projection) : p.closeAssistant.shown = p.shown := by
  rw [shown_eq p.closeAssistant, shown_eq p, Projection.closeAssistant]
  cases hp : p.assistant with
  | none => simp [hp]
  | some a => simp

theorem shown_add (p : Projection) (block : Block) : (p.add block).shown = p.shown ++ [block] := by
  rw [shown_eq, Projection.add, Projection.shown]
  have hnone : p.closeAssistant.assistant = none := by
    rw [Projection.closeAssistant]
    cases hp : p.assistant with
    | none => simp [hp]
    | some a => simp
  simp [hnone]

def Projection.weight (p : Projection) : Nat := (p.shown.map Block.sequence).sum

theorem weight_add (p : Projection) (block : Block) :
    (p.add block).weight = p.weight + block.sequence := by
  simp [Projection.weight, shown_add]

def Before (p : Projection) (e : AgentEvent) : Prop :=
  0 < e.sequence ∧ ∀ a, p.assistant = some a → a.sequence < e.sequence

theorem isBlank_append (s t : PyStr) : (s ++ t).isBlank = (s.isBlank && t.isBlank) := by
  simp [PyStr.isBlank, all_append]

variable {a : Assistant} {es es' : List AgentEvent} {rows : Rows}

theorem shown_of_blank (h : a.text.isBlank = true) : a.shown = [] := by
  rw [Assistant.shown, if_pos h]

variable {p : Projection} {e : AgentEvent}

theorem elim_shown_open (h : (p.open e).text.isBlank = true) :
    p.assistant.elim [] Assistant.shown = [] := by
  cases hp : p.assistant with
  | none => rfl
  | some a =>
    rw [Projection.open, hp] at h
    exact shown_of_blank h

theorem sequence_of_add {block : Block} (h : e.effect str = .add block) :
    block.sequence = e.sequence := by
  rw [AgentEvent.effect] at h
  split at h <;> cases h <;> rfl

theorem shown_delta_of_silent
    (h : maxDeltaRun ≤ p.deltaRun ∨ ((p.open e).text ++ e.text str).isBlank = true) :
    (p.delta str e).shown = p.shown := by
  rw [shown_eq (p.delta str e), Projection.delta]
  split_ifs with hrun
  · have hblank := h.resolve_left (by omega)
    dsimp only
    rw [Option.elim_some, shown_of_blank hblank, shown_eq, elim_shown_open]
    rw [isBlank_append, Bool.and_eq_true] at hblank
    exact hblank.1
  · rw [shown_eq]
    dsimp only
    rw [Option.elim_some, Projection.open]
    cases hp : p.assistant with
    | none => rfl
    | some a => rfl

theorem weight_delta (hbefore : Before p e)
    (h : ¬(maxDeltaRun ≤ p.deltaRun ∨ ((p.open e).text ++ e.text str).isBlank = true)) :
    p.weight < (p.delta str e).weight := by
  rw [not_or, Bool.not_eq_true] at h
  have hnew : (p.delta str e).weight = (p.blocks.map Block.sequence).sum + e.sequence := by
    rw [Projection.weight, shown_eq, Projection.delta, if_pos (by omega)]
    dsimp only
    rw [Option.elim_some, Assistant.shown, h.2, if_neg Bool.false_ne_true]
    simp [Assistant.block]
  rw [hnew, Projection.weight, shown_eq]
  obtain ⟨hpos, hlt⟩ := hbefore
  cases hp : p.assistant with
  | none => simp [hpos]
  | some a =>
    have ha := hlt a hp
    rw [Option.elim_some, Assistant.shown]
    split_ifs
    · simp [hpos]
    · simp [Assistant.block, ha]

theorem shown_of_silent (h : p.silent str e = true) : (p.step str e).shown = p.shown := by
  rw [Projection.step]
  by_cases hdebug : e.visibility = .debug
  · rw [if_pos hdebug]
  rw [Projection.silent, decide_eq_false hdebug, Bool.false_or] at h
  rw [if_neg hdebug]
  cases heff : e.effect str with
  | accept =>
    rw [heff] at h
    dsimp only at h ⊢
    rw [if_pos h, shown_closeAssistant]
  | delta =>
    rw [heff] at h
    refine shown_delta_of_silent ?_
    simpa using h
  | close => exact shown_closeAssistant p
  | add block =>
    rw [heff] at h
    cases h
  | nothing => rfl

theorem weight_of_not_silent (hbefore : Before p e)
    (h : p.silent str e = false) : p.weight < (p.step str e).weight := by
  rw [Projection.silent, Bool.or_eq_false_iff, decide_eq_false_iff_not] at h
  obtain ⟨hdebug, h⟩ := h
  rw [Projection.step, if_neg hdebug]
  have hpos := hbefore.1
  cases heff : e.effect str with
  | accept =>
    rw [heff] at h
    dsimp only at h ⊢
    rw [if_neg (by rw [h]; exact Bool.false_ne_true), weight_add]
    exact Nat.lt_add_of_pos_right hpos
  | delta =>
    rw [heff] at h
    refine weight_delta hbefore ?_
    simpa using h
  | close =>
    rw [heff] at h
    cases h
  | add block =>
    dsimp only
    rw [weight_add, sequence_of_add heff]
    exact Nat.lt_add_of_pos_right hpos
  | nothing =>
    rw [heff] at h
    cases h

/-! ### Runs of events -/

theorem weight_le_step (hbefore : Before p e) : p.weight ≤ (p.step str e).weight := by
  cases h : p.silent str e with
  | true => rw [Projection.weight, Projection.weight, shown_of_silent h]
  | false => exact le_of_lt (weight_of_not_silent hbefore h)

theorem assistant_step (h : (p.step str e).assistant = some a) :
    p.assistant = some a ∨ a.sequence = e.sequence := by
  have hclose : ∀ {q : Projection}, q.closeAssistant.assistant = none := by
    intro q
    rw [Projection.closeAssistant]
    cases hq : q.assistant with
    | none => exact hq
    | some b => rfl
  have hadd : ∀ block, (p.add block).assistant = none := fun _ => hclose
  rw [Projection.step] at h
  by_cases hdebug : e.visibility = .debug
  · rw [if_pos hdebug] at h
    exact .inl h
  rw [if_neg hdebug] at h
  cases heff : e.effect str with
  | accept =>
    rw [heff] at h
    dsimp only at h
    split_ifs at h
    · rw [hclose] at h
      cases h
    · rw [hadd] at h
      cases h
  | delta =>
    rw [heff] at h
    dsimp only at h
    rw [Projection.delta] at h
    split_ifs at h
    · cases h
      exact .inr rfl
    · rw [Option.some.injEq, Projection.open] at h
      cases hp : p.assistant with
      | none =>
        rw [hp] at h
        rw [← h]
        exact .inr rfl
      | some b =>
        rw [hp] at h
        exact .inl (congrArg some h)
  | close =>
    rw [heff] at h
    dsimp only at h
    rw [hclose] at h
    cases h
  | add block =>
    rw [heff] at h
    dsimp only at h
    rw [hadd] at h
    cases h
  | nothing =>
    rw [heff] at h
    exact .inl h

/-- The events come after the block of the assistant, in the order of their sequences. -/
def Ordered (p : Projection) (es : List AgentEvent) : Prop :=
  (∀ e ∈ es, Before p e) ∧ es.Pairwise fun e e' => e.sequence < e'.sequence

theorem ordered_step (h : Ordered p (e :: es)) : Ordered (p.step str e) es := by
  obtain ⟨hbefore, hsorted⟩ := h
  rw [pairwise_cons] at hsorted
  refine ⟨fun e' he' => ⟨(hbefore e' (mem_cons_of_mem e he')).1, fun a ha => ?_⟩, hsorted.2⟩
  obtain ha | ha := assistant_step ha
  · exact (hbefore e' (mem_cons_of_mem e he')).2 a ha
  · rw [ha]
    exact hsorted.1 e' he'

theorem ordered_foldl (h : Ordered p (es ++ es')) :
    Ordered (es.foldl (Projection.step str) p) es' := by
  induction es generalizing p with
  | nil => exact h
  | cons e es ih => exact ih (ordered_step h)

theorem weight_le_foldl (h : Ordered p es) :
    p.weight ≤ (es.foldl (Projection.step str) p).weight := by
  induction es generalizing p with
  | nil => exact le_refl _
  | cons e es ih =>
    exact (weight_le_step (h.1 e mem_cons_self)).trans (ih (ordered_step h))

/-- **After further events the projection shows the same exactly when they are silent.** -/
theorem shown_foldl (h : Ordered p es) :
    (es.foldl (Projection.step str) p).shown = p.shown ↔ Silent str p es := by
  induction es generalizing p with
  | nil => exact iff_of_true rfl trivial
  | cons e es ih =>
    rw [foldl_cons, Silent]
    cases hsilent : p.silent str e with
    | true =>
      rw [← shown_of_silent hsilent, ih (ordered_step h)]
      exact (and_iff_right rfl).symm
    | false =>
      refine iff_of_false (fun heq => ?_) fun hboth => Bool.false_ne_true hboth.1
      have hlt := weight_of_not_silent (h.1 e mem_cons_self) hsilent
      have hle : (p.step str e).weight ≤ (es.foldl (Projection.step str) (p.step str e)).weight :=
        weight_le_foldl (ordered_step h)
      have hsame := congrArg (fun bs => (bs.map Block.sequence).sum) heq
      change Projection.weight _ = p.weight at hsame
      omega

/-! ### The journal -/

def Numbered (rows : Rows) : Prop :=
  ∀ m, (rowsOf rows m).map (·.sequence) = List.range' 1 (rowsOf rows m).length

theorem latestSequence_eq (h : Numbered rows) (m : PyStr) :
    latestSequence rows m = (rowsOf rows m).length := by
  rw [latestSequence, h m, Log.foldr_max_range']

theorem numbered_append (h : Numbered rows) (a : Append) : Numbered (append rows a) := by
  intro m
  rw [append]
  split_ifs
  · exact h m
  · rw [rowsOf, filter_append]
    by_cases hm : a.missionId = m
    · have hrow : [a.row rows].filter (·.missionId = m) = [a.row rows] := by
        simp [Append.row, hm]
      have hseq : (a.row rows).sequence = (rowsOf rows m).length + 1 := by
        rw [Append.row, hm, latestSequence_eq h]
      rw [hrow, map_append, length_append, map_singleton, hseq,
        length_singleton, List.range'_concat, Nat.one_mul, Nat.add_comm 1]
      exact congrArg (· ++ [(rowsOf rows m).length + 1]) (h m)
    · have hrow : [a.row rows].filter (·.missionId = m) = [] := by
        simp [Append.row, hm]
      rw [hrow, append_nil]
      exact h m

def appends (calls : List Append) : Rows := calls.foldl append []

theorem numbered_appends (calls : List Append) : Numbered (appends calls) := by
  have hfoldl : ∀ {rows : Rows}, Numbered rows → Numbered (calls.foldl append rows) := by
    induction calls with
    | nil => exact fun h => h
    | cons a calls ih => exact fun h => ih (numbered_append h a)
  exact hfoldl fun m => rfl

section Pages

variable {rows : Rows} (hnum : Numbered rows) (m : PyStr)
include hnum

theorem sequence_pos {e : AgentEvent} (he : e ∈ rowsOf rows m) : 0 < e.sequence := by
  have hmem : e.sequence ∈ List.range' 1 (rowsOf rows m).length := by
    rw [← hnum m]
    exact mem_map_of_mem he
  rw [mem_range'_1] at hmem
  exact hmem.1

theorem sorted_rowsOf : (rowsOf rows m).Pairwise fun e e' => e.sequence < e'.sequence := by
  have hsorted : ((rowsOf rows m).map (·.sequence)).Pairwise (· < ·) := by
    rw [hnum m]
    exact pairwise_lt_range' (s := 1) (n := (rowsOf rows m).length)
  exact pairwise_map.mp hsorted

variable (k : Nat)

theorem replay_none : replay rows m none k = (rowsOf rows m).take k := by
  have hall : (rowsOf rows m).filter (fun e => 0 < e.sequence && (none : Option Nat).all (e.sequence < ·))
      = rowsOf rows m := by
    refine filter_eq_self.mpr fun e he => ?_
    simpa using sequence_pos hnum m he
  rw [replay, hall, List.Pairwise.insertionSort_eq]
  exact (sorted_rowsOf hnum m).imp Nat.le_of_lt

omit hnum in
theorem replay_one : replay rows m (some 1) k = [] := by
  have hnone : (rowsOf rows m).filter (fun e => 0 < e.sequence && (some 1).all (e.sequence < ·))
      = [] := by
    refine filter_eq_nil_iff.mpr fun e _ => ?_
    simp
    omega
  rw [replay, hnone, insertionSort_nil, take_nil]

theorem ordered_rowsOf : Ordered .new (rowsOf rows m) := by
  refine ⟨fun e he => ⟨sequence_pos hnum m he, fun a ha => ?_⟩, sorted_rowsOf hnum m⟩
  cases ha

theorem head_rowsOf {e : AgentEvent} {es : List AgentEvent} (h : rowsOf rows m = e :: es) :
    e.sequence = 1 := by
  have hseqs := hnum m
  rw [h, map_cons, length_cons, List.range'_succ] at hseqs
  exact (List.cons.inj hseqs).1

end Pages

/-- The pages that a client asks for give the transcript of the whole journal, and the first page
has its newest blocks. -/
structure Paged (str : PyVal → PyStr) (rows : Rows) (m : PyStr) (limit : Int) : Prop where
  joined : ∃ n, fetch str rows m limit n none
    = some (projectTranscript str (rowsOf rows m))
  newest : (transcript str rows m none limit).blocks
    <:+ projectTranscript str (rowsOf rows m)

theorem pageSize_pos (limit : Int) : 0 < pageSize limit := by
  rw [pageSize]
  omega

section Fetch

variable {rows : Rows} (hnum : Numbered rows) (m : PyStr) (limit : Int)
include hnum

theorem blocks_first : (transcript str rows m none limit).blocks
    = projectTranscript str ((rowsOf rows m).take (pageSize limit)) := by
  rw [transcript, replay_none hnum]
  dsimp only
  rw [take_take, Nat.min_eq_left (Nat.le_succ _)]

theorem hasMore_first : (transcript str rows m none limit).hasMore
    = decide (pageSize limit < (rowsOf rows m).length) := by
  rw [transcript, replay_none hnum]
  dsimp only
  rw [length_take]
  congr 1
  rw [eq_iff_iff]
  omega

theorem oldest_first (h : pageSize limit < (rowsOf rows m).length) :
    (transcript str rows m none limit).oldestSequence = 1 := by
  rw [transcript, replay_none hnum]
  dsimp only
  have hpos := pageSize_pos limit
  cases hrows : rowsOf rows m with
  | nil =>
    rw [hrows] at h
    exact absurd h (Nat.not_lt_zero _)
  | cons e es =>
    obtain ⟨k, hk⟩ := Nat.exists_eq_add_of_lt hpos
    rw [show pageSize limit = k + 1 by omega, take_succ_cons, take_succ_cons]
    exact head_rowsOf hnum m hrows

omit hnum in
theorem fetch_succ {n : Nat} {before : Option Nat} {blocks : List Block}
    (h : fetch str rows m limit n before = some blocks) :
    fetch str rows m limit (n + 1) before = some blocks := by
  induction n generalizing before blocks with
  | zero => cases h
  | succ n ih =>
    rw [fetch] at h ⊢
    split_ifs at h ⊢ with hmore
    · obtain ⟨earlier, hearlier, rfl⟩ := Option.map_eq_some_iff.mp h
      rw [ih hearlier, Option.map_some]
    · exact h

theorem fetch_eq (n : Nat) : fetch str rows m limit (n + 2) none
    = some (projectTranscript str ((rowsOf rows m).take (pageSize limit))) := by
  rw [fetch, hasMore_first hnum, blocks_first hnum]
  by_cases hmore : pageSize limit < (rowsOf rows m).length
  · -- the page before the oldest event is empty
    rw [if_pos (decide_eq_true hmore), oldest_first hnum m limit hmore, fetch]
    have hempty : transcript str rows m (some 1) limit
        = ⟨m, [], latestSequence rows m, 0, false⟩ := by
      rw [transcript, replay_one, take_nil]
      rfl
    rw [hempty]
    rfl
  · rw [if_neg (by simpa using hmore)]

end Fetch

/-- **Paging gives the transcript exactly when the events after the first page are silent**: of the
oldest events as many as the page holds are shown, and nothing of the later ones. -/
theorem paged_iff (str : PyVal → PyStr) (calls : List Append) (m : PyStr) (limit : Int) :
    Paged str (appends calls) m limit
      ↔ Silent str
          (((rowsOf (appends calls) m).take (pageSize limit)).foldl (Projection.step str) .new)
          ((rowsOf (appends calls) m).drop (pageSize limit)) := by
  have hnum := numbered_appends calls
  generalize appends calls = rows at *
  have hwhole : (((rowsOf rows m).drop (pageSize limit)).foldl (Projection.step str)
      (((rowsOf rows m).take (pageSize limit)).foldl (Projection.step str) .new)).shown
        = projectTranscript str (rowsOf rows m) := by
    rw [← List.foldl_append, List.take_append_drop, projectTranscript]
  have hfirst : (((rowsOf rows m).take (pageSize limit)).foldl (Projection.step str) .new).shown
      = projectTranscript str ((rowsOf rows m).take (pageSize limit)) := rfl
  have hordered : Ordered (((rowsOf rows m).take (pageSize limit)).foldl
      (Projection.step str) .new) ((rowsOf rows m).drop (pageSize limit)) := by
    refine ordered_foldl ?_
    rw [List.take_append_drop]
    exact ordered_rowsOf hnum m
  rw [← shown_foldl hordered, hwhole, hfirst]
  constructor
  · rintro ⟨⟨n, hn⟩, -⟩
    have hmore := fetch_succ m limit (fetch_succ m limit hn)
    rw [fetch_eq hnum m limit n] at hmore
    exact (Option.some.inj hmore).symm
  · intro heq
    refine ⟨⟨2, ?_⟩, ?_⟩
    · rw [fetch_eq hnum m limit 0, ← heq]
    · simp only [blocks_first hnum, ← heq, List.suffix_rfl]

/-- `str` of a text. -/
def strText : PyVal → PyStr
  | .str s => s
  | _ => ""

def said (text freshId : String) : Append :=
  ⟨"m1", .turnAccepted, .dict [("text", .str text)], .user, none, none, none, freshId⟩

/-- Of two messages a client that asks for pages of one event gets the older one, and is told by
the next page that there is no more. -/
theorem newest_lost :
    (transcript strText (appends [said "go" "e1", said "stop" "e2"]) "m1" none 1).blocks.map
        (·.sequence) = [1]
      ∧ (transcript strText (appends [said "go" "e1", said "stop" "e2"]) "m1" (some 1) 1).hasMore
          = false
      ∧ (projectTranscript strText
          (rowsOf (appends [said "go" "e1", said "stop" "e2"]) "m1")).map (·.sequence) = [1, 2]
      ∧ ¬Paged strText (appends [said "go" "e1", said "stop" "e2"]) "m1" 1 := by
  refine ⟨by decide, by decide, by decide, ?_⟩
  rintro ⟨-, hsuffix⟩
  have hsuffix' := hsuffix.map Block.sequence
  revert hsuffix'
  decide

end Rosclaw.Transcript
