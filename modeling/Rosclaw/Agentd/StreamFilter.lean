/-
The filter that hides decision blocks from the streamed output.

What is fed is held back until it is clear that no fence begins in it; from a fence on it is held
back until it carries the decision marker, or is longer than the look-ahead.

* `emitted_of_plain` — a text without a marker after its first fence is emitted, however it is
  split;
* `emitted_of_decision` — a decision block at the first fence ends the output, however the text
  is split;
* `same_iff` — the texts for which the splitting makes no difference;
* `displayed` — the first two results together;
* `splitting_decides` — an ordinary block before the decision block, and a text after it.
-/
import Rosclaw.Lib.Find
import Rosclaw.Lib.PyVal

namespace Rosclaw.StreamFilter

open List

abbrev Text := List Nat

def marker : Text := (PyStr.ofString "\"schema_version\": \"rosclaw.decision.v1\"").codes

def fence : Text := [96, 96, 96]

def lookahead : Nat := marker.length + 16

/-- `DecisionBlockFilter`; `sent` is what the sink got, in one piece. -/
structure Filter where
  sent : Text
  pending : Text
  suppressing : Bool
deriving DecidableEq

/-- `DecisionBlockFilter(sink)`. -/
def Filter.new : Filter := ⟨[], [], false⟩

/-- The loop of `_drain`, for a filter that does not suppress; with every round that does not
return the held text gets shorter, so its length is enough fuel. -/
def drainLoop : Nat → Filter → Filter
  | 0, f => f
  | fuel + 1, f =>
      match Find.index fence f.pending with
      | none =>
          -- a fence may straddle two pieces
          let keep := fence.length - 1
          { f with
            sent := f.sent ++ f.pending.take (f.pending.length - keep)
            pending := f.pending.drop (f.pending.length - keep) }
      | some i =>
          let sent := f.sent ++ f.pending.take i
          let tail := f.pending.drop i
          if marker <:+: tail then ⟨sent, [], true⟩
          else if lookahead < tail.length then
            drainLoop fuel ⟨sent ++ tail.take (lookahead + 1), tail.drop (lookahead + 1), false⟩
          else ⟨sent, tail, false⟩

def drain (f : Filter) : Filter := drainLoop (f.pending.length + 1) f

def feed (f : Filter) (piece : Text) : Filter :=
  if f.suppressing then f else drain { f with pending := f.pending ++ piece }

/-- The text of `flush` without a decision block in it. -/
def stripped (text : Text) : Text :=
  match Find.index fence text with
  | some i => if marker <:+: text.drop i then text.take i else text
  | none => text

def flush (f : Filter) : Filter :=
  if f.suppressing then ⟨f.sent, [], false⟩
  else ⟨f.sent ++ stripped f.pending, [], false⟩

def emitted (pieces : List Text) : Text := (flush (pieces.foldl feed .new)).sent

/-! ### Blocks -/

/-- The text of the pieces between fences, without the blocks that carry the marker; the first
piece is outside of a block, and a block may be open at the end. -/
def outsidePieces : List Text → Text
  | [] => []
  | [text] => text
  | [text, block] => text ++ if marker <:+: block then [] else fence ++ block
  | text :: block :: rest =>
      text ++ (if marker <:+: block then [] else fence ++ block ++ fence) ++ outsidePieces rest

def outside (text : Text) : Text := outsidePieces (Find.pieces fence 0 text)

def beforeFence (text : Text) : Text :=
  match Find.index fence text with
  | some i => text.take i
  | none => text

def fromFence (text : Text) : Text :=
  match Find.index fence text with
  | some i => text.drop i
  | none => []

/-- The first block of the text: what is after its first fence, up to the next one. -/
def firstBlock (text : Text) : Text := beforeFence ((fromFence text).drop fence.length)

theorem fence_ne_nil : fence ≠ [] := by decide

/-! ### What is sent -/

variable {fed piece rest text : Text} {k start : Nat} {pieces : List Text} (fuel : Nat) (f : Filter)

/-- One round of the loop and all after it: what was held is sent or still held, or it was cut at
a fence with the marker after it. -/
theorem drainLoop_cases (hf : f.suppressing = false) (hfuel : f.pending.length < fuel) :
    ((drainLoop fuel f).suppressing = false
        ∧ (drainLoop fuel f).sent ++ (drainLoop fuel f).pending = f.sent ++ f.pending
        ∧ f.sent <+: (drainLoop fuel f).sent)
      ∨ (drainLoop fuel f).suppressing = true
        ∧ ∃ k, fence <+: f.pending.drop k ∧ marker <:+: f.pending.drop k
          ∧ (drainLoop fuel f).sent = f.sent ++ f.pending.take k := by
  induction fuel generalizing f with
  | zero => exact absurd hfuel (Nat.not_lt_zero _)
  | succ fuel ih =>
    rw [drainLoop]
    cases hi : Find.index fence f.pending with
    | none =>
      left
      refine ⟨hf, ?_, prefix_append _ _⟩
      dsimp only
      rw [append_assoc, take_append_drop]
    | some i =>
      obtain ⟨hocc, -⟩ := (Find.index_eq_some fence_ne_nil).mp hi
      dsimp only
      split_ifs with hmarker hlong
      · exact .inr ⟨rfl, i, hocc, hmarker, rfl⟩
      · -- the region of the fence is sent, and the loop goes on with what is left
        have htail : f.sent ++ f.pending.take i ++ (f.pending.drop i).take (lookahead + 1)
            = f.sent ++ f.pending.take (i + (lookahead + 1)) := by
          rw [append_assoc, ← take_add]
        have hdrop : (f.pending.drop i).drop (lookahead + 1)
            = f.pending.drop (i + (lookahead + 1)) := drop_drop
        rw [htail, hdrop]
        obtain ⟨hopen, hsent, hpre⟩ | ⟨hsup, k, hfence, hmark, hsent⟩ :=
          ih ⟨_, f.pending.drop (i + (lookahead + 1)), false⟩ rfl (by
            rw [length_drop] at hlong ⊢
            omega)
        · left
          refine ⟨hopen, ?_, (prefix_append _ _).trans hpre⟩
          rw [hsent, append_assoc, take_append_drop]
        · right
          dsimp only at hfence hmark hsent
          rw [drop_drop] at hfence hmark
          refine ⟨hsup, _, hfence, hmark, ?_⟩
          rw [hsent, append_assoc, ← take_add]
      · left
        refine ⟨rfl, ?_, prefix_append _ _⟩
        rw [append_assoc, take_append_drop]

theorem marker_fromFence (hfence : fence <+: text.drop k) (hmarker : marker <:+: text.drop k) :
    marker <:+: fromFence text := by
  obtain ⟨i, hi, hik⟩ := Find.index_le fence_ne_nil hfence
  rw [fromFence, hi]
  refine hmarker.trans ?_
  rw [← Nat.add_sub_cancel' hik, ← drop_drop]
  exact (drop_suffix _ _).isInfix

theorem marker_fromFence_append (h : marker <:+: fromFence text) :
    marker <:+: fromFence (text ++ rest) := by
  rw [fromFence] at h
  cases hi : Find.index fence text with
  | none =>
    rw [hi] at h
    exact absurd (infix_nil.mp h) (by decide)
  | some i =>
    rw [hi] at h
    have hocc := ((Find.index_eq_some fence_ne_nil).mp hi).1
    have hlonger := (prefix_append text rest).drop i
    exact marker_fromFence (hocc.trans hlonger) (h.trans hlonger.isInfix)

theorem feed_eq {f : Filter} (hf : f.suppressing = false) (piece : Text) :
    feed f piece = drainLoop ((f.pending ++ piece).length + 1)
      ⟨f.sent, f.pending ++ piece, false⟩ := by
  rw [feed, hf, if_neg Bool.false_ne_true, drain]

theorem drop_add_length (sent pending : Text) (k : Nat) :
    (sent ++ pending).drop (sent.length + k) = pending.drop k := by
  rw [← drop_drop, drop_left]

/-! ### Texts without a decision block -/

def Open (f : Filter) (fed : Text) : Prop := f.suppressing = false ∧ f.sent ++ f.pending = fed

theorem open_feed {f : Filter} (h : Open f fed) (hplain : ¬marker <:+: fromFence (fed ++ piece)) :
    Open (feed f piece) (fed ++ piece) := by
  obtain ⟨hopen, rfl⟩ := h
  rw [feed_eq hopen, append_assoc] at *
  obtain ⟨hopen', hsent, -⟩ | ⟨-, k, hfence, hmarker, -⟩ :=
    drainLoop_cases _ ⟨f.sent, f.pending ++ piece, false⟩ rfl (Nat.lt_succ_self _)
  · exact ⟨hopen', hsent⟩
  · -- the fence is one of the text that was fed
    rw [← drop_add_length f.sent] at hfence hmarker
    exact absurd (marker_fromFence hfence hmarker) hplain

theorem open_foldl {f : Filter} (h : Open f fed)
    (hplain : ¬marker <:+: fromFence (fed ++ pieces.flatten)) :
    Open (pieces.foldl feed f) (fed ++ pieces.flatten) := by
  induction pieces generalizing f fed with
  | nil => simpa using h
  | cons piece pieces ih =>
    rw [flatten_cons, ← append_assoc] at hplain ⊢
    refine ih (open_feed h fun hmarker => hplain ?_) hplain
    exact marker_fromFence_append hmarker

theorem emitted_of_plain (hplain : ¬marker <:+: fromFence pieces.flatten) :
    emitted pieces = pieces.flatten := by
  have hnew : Open .new [] := ⟨rfl, rfl⟩
  obtain ⟨hopen, hfed⟩ := open_foldl hnew hplain
  rw [nil_append] at hfed
  rw [emitted, flush, hopen, if_neg Bool.false_ne_true]
  have hstripped : stripped (pieces.foldl feed .new).pending
      = (pieces.foldl feed .new).pending := by
    rw [stripped]
    cases hi : Find.index fence (pieces.foldl feed .new).pending with
    | none => rfl
    | some i =>
      have hfence := ((Find.index_eq_some fence_ne_nil).mp hi).1
      refine if_neg fun hmarker => hplain ?_
      rw [← drop_add_length (pieces.foldl feed .new).sent, hfed] at hfence hmarker
      exact marker_fromFence hfence hmarker
  dsimp only
  rw [hstripped, hfed]

/-! ### A decision block at the first fence -/

section Decision

variable {text : Text} {start : Nat} (hstart : Find.index fence text = some start)
  (hwindow : marker <:+: (text.drop start).take (lookahead + 1))

/-- Of the text before the fence some is sent and some is held, or the block is suppressed. -/
def Waiting (text : Text) (start : Nat) (f : Filter) (fed : Text) : Prop :=
  fed <+: text ∧ f.sent.length ≤ start
    ∧ (f.suppressing = false → f.sent ++ f.pending = fed)
    ∧ (f.suppressing = true → f.sent = text.take start)

variable {f : Filter} {fed held piece sent : Text} {pieces : List Text}

include hstart in
theorem index_held (hfed : sent ++ held <+: text) (hsent : sent.length ≤ start) :
    Find.index fence held
      = if start + fence.length ≤ (sent ++ held).length then some (start - sent.length)
        else none := by
  obtain ⟨rest, rfl⟩ := hfed
  have hdrop := Find.index_drop fence_ne_nil hstart hsent
  rw [append_assoc, drop_left] at hdrop
  rw [Find.index_append fence_ne_nil hdrop, length_append]
  congr 1
  rw [eq_iff_iff]
  omega

theorem cut_held (hfed : sent ++ held <+: text) (hsent : sent.length ≤ start)
    (hlen : start ≤ (sent ++ held).length) :
    sent ++ held.take (start - sent.length) = text.take start
      ∧ held.drop (start - sent.length) = (sent ++ held).drop start := by
  obtain ⟨rest, rfl⟩ := hfed
  constructor
  · rw [take_append_of_le_length hlen, take_append, take_of_length_le hsent]
  · rw [drop_append, drop_of_length_le hsent, nil_append]

include hwindow in
theorem marker_of_long (hfed : fed <+: text) (hlong : lookahead < (fed.drop start).length) :
    marker <:+: fed.drop start := by
  obtain ⟨rest, rfl⟩ := hfed
  have hlen : start ≤ fed.length := by
    rw [length_drop] at hlong
    omega
  rw [drop_append_of_le_length hlen, take_append_of_le_length hlong] at hwindow
  exact hwindow.trans (List.take_prefix _ _).isInfix

include hstart hwindow

theorem waiting_feed (h : Waiting text start f fed) (hfed : fed ++ piece <+: text) :
    Waiting text start (feed f piece) (fed ++ piece) := by
  obtain ⟨-, hlen, hopen, hsup⟩ := h
  cases hf : f.suppressing with
  | true =>
    have hfeed : feed f piece = f := by
      rw [feed, hf, if_pos rfl]
    rw [hfeed]
    exact ⟨hfed, hlen, fun hopen' => absurd (hopen'.symm.trans hf) Bool.false_ne_true, hsup⟩
  | false =>
    obtain rfl := hopen hf
    rw [append_assoc] at hfed ⊢
    rw [feed_eq hf, drainLoop]
    dsimp only
    rw [index_held hstart hfed hlen]
    generalize f.pending ++ piece = held at *
    by_cases hcomplete : start + fence.length ≤ (f.sent ++ held).length
    · -- the fence has arrived, and with it all of the text before it
      obtain ⟨hbefore, htail⟩ := cut_held hfed hlen (by omega)
      rw [if_pos hcomplete]
      dsimp only
      rw [hbefore, htail]
      have hle : (text.take start).length ≤ start := length_take_le _ _
      split_ifs with hmarker hlong
      · exact ⟨hfed, hle, fun h => absurd h.symm Bool.false_ne_true, fun _ => rfl⟩
      · exact absurd (marker_of_long hwindow hfed hlong) hmarker
      · refine ⟨hfed, hle, fun _ => ?_, fun h => absurd h Bool.false_ne_true⟩
        dsimp only
        rw [← hbefore, ← htail, append_assoc, take_append_drop]
    · rw [if_neg hcomplete]
      refine ⟨hfed, ?_, fun _ => ?_, fun h => absurd h Bool.false_ne_true⟩
      · rw [length_append, show fence.length = 3 from rfl] at hcomplete
        dsimp only
        rw [length_append, length_take, show fence.length = 3 from rfl]
        omega
      · dsimp only
        rw [append_assoc, take_append_drop]

theorem waiting_foldl (h : Waiting text start f fed) (hfed : fed ++ pieces.flatten <+: text) :
    Waiting text start (pieces.foldl feed f) (fed ++ pieces.flatten) := by
  induction pieces generalizing f fed with
  | nil => simpa using h
  | cons piece pieces ih =>
    rw [flatten_cons, ← append_assoc] at hfed ⊢
    exact ih (waiting_feed hstart hwindow h ((prefix_append _ _).trans hfed)) hfed

theorem emitted_of_window (htext : pieces.flatten = text) : emitted pieces = text.take start := by
  have hnew : Waiting text start .new [] :=
    ⟨List.nil_prefix, Nat.zero_le _, fun _ => rfl, fun h => absurd h Bool.false_ne_true⟩
  have hfed : [] ++ pieces.flatten <+: text := by
    rw [nil_append, htext]
  obtain ⟨-, hlen, hopen, hsup⟩ := waiting_foldl hstart hwindow hnew hfed
  rw [nil_append, htext] at hopen
  rw [emitted, flush]
  cases hf : (pieces.foldl feed .new).suppressing with
  | true =>
    rw [if_pos rfl]
    exact hsup hf
  | false =>
    have hfed' := hopen hf
    generalize pieces.foldl feed .new = f at *
    have hpre : f.sent ++ f.pending <+: text := by
      rw [hfed']
    have hend := Find.le_length fence_ne_nil ((Find.index_eq_some fence_ne_nil).mp hstart).1
    have hmarker : marker <:+: text.drop start := hwindow.trans (List.take_prefix _ _).isInfix
    obtain ⟨hbefore, htail⟩ := cut_held hpre hlen (by rw [hfed']; omega)
    rw [if_neg Bool.false_ne_true, stripped, index_held hstart hpre hlen, hfed', if_pos hend]
    dsimp only
    rw [htail, hfed', if_pos hmarker, hbefore]

end Decision

/-! ### The results together -/

/-- A decision block at the first fence, with its marker within the look-ahead, ends the output;
a text without a marker after its first fence is sent as it is.  How the text is split makes no
difference. -/
theorem displayed (pieces : List Text) :
    (¬marker <:+: fromFence pieces.flatten → emitted pieces = pieces.flatten)
      ∧ (marker <:+: firstBlock pieces.flatten →
          marker <:+: (fromFence pieces.flatten).take (lookahead + 1) →
          emitted pieces = beforeFence pieces.flatten) := by
  refine ⟨emitted_of_plain, fun _ hwindow => ?_⟩
  rw [fromFence] at hwindow
  rw [beforeFence]
  cases hstart : Find.index fence pieces.flatten with
  | none =>
    rw [hstart] at hwindow
    exact absurd (List.infix_nil.mp hwindow) (by decide)
  | some start =>
    rw [hstart] at hwindow
    exact emitted_of_window hstart hwindow rfl

def decision : Text := (PyStr.ofString "```json\n\x7b").codes ++ marker ++ [125, 10] ++ fence

/-- An answer of two pieces, the second of which begins within the decision block. -/
def answer : List Text :=
  [(PyStr.ofString "text").codes ++ decision.take 20, decision.drop 20]

/-- An answer without a block is displayed, and of the one with a decision block the text before
it. -/
theorem displayed_answer :
    emitted [(PyStr.ofString "no block").codes] = (PyStr.ofString "no block").codes
      ∧ emitted answer = (PyStr.ofString "text").codes :=
  ⟨(displayed [(PyStr.ofString "no block").codes]).1 (by decide +kernel),
    (displayed answer).2 (by decide +kernel) (by decide +kernel)⟩

def ordinary : Text := fence ++ List.replicate 60 120 ++ fence

/-- An ordinary block before the decision block is displayed without its last fence if it comes
alone, and not at all if it comes with the decision block; and a text after the decision block is
not displayed. -/
theorem splitting_decides :
    emitted [ordinary, decision] = fence ++ List.replicate 60 120
      ∧ emitted [ordinary ++ decision] = []
      ∧ outside (ordinary ++ decision) = ordinary
      ∧ emitted [decision, (PyStr.ofString "bye").codes] = []
      ∧ outside (decision ++ (PyStr.ofString "bye").codes) = (PyStr.ofString "bye").codes := by
  decide +kernel

/-! ### Where the splitting decides -/

theorem sent_prefix_feed (piece : Text) : f.sent <+: (feed f piece).sent := by
  cases hf : f.suppressing with
  | true =>
    rw [feed, hf, if_pos rfl]
  | false =>
    rw [feed_eq hf]
    obtain ⟨-, -, hsent⟩ | ⟨-, k, -, -, hsent⟩ :=
      drainLoop_cases _ ⟨f.sent, f.pending ++ piece, false⟩ rfl (Nat.lt_succ_self _)
    · exact hsent
    · rw [hsent]
      exact prefix_append _ _

theorem sent_prefix_flush : f.sent <+: (flush f).sent := by
  rw [flush]
  split_ifs
  · exact prefix_rfl
  · exact prefix_append _ _

theorem emitted_singleton (hmarker : marker <:+: fromFence text) :
    emitted [text] = beforeFence text := by
  rw [fromFence] at hmarker
  rw [beforeFence]
  cases hi : Find.index fence text with
  | none =>
    rw [hi] at hmarker
    exact absurd (infix_nil.mp hmarker) (by decide)
  | some i =>
    rw [hi] at hmarker
    have hfeed : feed .new text = ⟨text.take i, [], true⟩ := by
      rw [feed_eq rfl, drainLoop]
      dsimp only [Filter.new, nil_append]
      rw [hi]
      exact if_pos hmarker
    rw [emitted, foldl_cons, foldl_nil, hfeed]
    rfl

theorem sent_of_full (hstart : Find.index fence text = some start)
    (hlen : start + (lookahead + 1) ≤ text.length)
    (hwindow : ¬marker <:+: (text.drop start).take (lookahead + 1)) :
    text.take (start + (lookahead + 1))
      <+: (feed .new (text.take (start + (lookahead + 1)))).sent := by
  have hsplit := take_append_drop (start + (lookahead + 1)) text
  have hindex : Find.index fence (text.take (start + (lookahead + 1))) = some start := by
    rw [← hsplit] at hstart
    have hfence : 3 ≤ lookahead + 1 := by decide
    rw [Find.index_append fence_ne_nil hstart, if_pos]
    rw [length_take, Nat.min_eq_left hlen, show fence.length = 3 from rfl]
    omega
  have htail : (text.take (start + (lookahead + 1))).drop start
      = (text.drop start).take (lookahead + 1) := by
    rw [drop_take, Nat.add_sub_cancel_left]
  have hfull : ((text.drop start).take (lookahead + 1)).length = lookahead + 1 := by
    rw [length_take, length_drop]
    omega
  rw [feed_eq rfl, drainLoop]
  dsimp only [Filter.new, nil_append]
  rw [hindex]
  dsimp only
  rw [htail, if_neg hwindow, if_pos (by omega), take_of_length_le (le_of_eq hfull),
    take_take, Nat.min_eq_left (by omega), ← take_add]
  obtain ⟨-, -, hsent⟩ | ⟨-, k, -, -, hsent⟩ := drainLoop_cases
    ((text.take (start + (lookahead + 1))).length)
    ⟨text.take (start + (lookahead + 1)), ((text.drop start).take (lookahead + 1)).drop
      (lookahead + 1), false⟩ rfl (by
        rw [length_drop, hfull, length_take, Nat.min_eq_left hlen]
        omega)
  · exact hsent
  · rw [hsent]
    exact prefix_append _ _

/-- **Where the splitting makes no difference.**  The marker does not come after the first fence,
or it comes within the look-ahead. -/
theorem same_iff (text : Text) :
    (∀ pieces pieces' : List Text, pieces.flatten = text → pieces'.flatten = text →
        emitted pieces = emitted pieces')
      ↔ ¬marker <:+: fromFence text
        ∨ marker <:+: (fromFence text).take (lookahead + 1) := by
  constructor
  · intro hsame
    by_contra hnot
    rw [not_or, not_not] at hnot
    obtain ⟨hmarker, hwindow⟩ := hnot
    have hone := emitted_singleton hmarker
    rw [fromFence] at hmarker hwindow
    rw [beforeFence] at hone
    cases hi : Find.index fence text with
    | none =>
      rw [hi] at hmarker
      exact absurd (infix_nil.mp hmarker) (by decide)
    | some start =>
      rw [hi] at hmarker hwindow hone
      dsimp only at hmarker hwindow hone
      have hlen : start + (lookahead + 1) ≤ text.length := by
        by_contra hshort
        refine hwindow ?_
        rw [take_of_length_le]
        · exact hmarker
        · rw [length_drop]
          omega
      -- the same text in two pieces, cut where the look-ahead is full
      have htwo := hsame
        [text.take (start + (lookahead + 1)), text.drop (start + (lookahead + 1))] [text]
        (by simp) (by simp)
      have hsent : text.take (start + (lookahead + 1)) <+: emitted
          [text.take (start + (lookahead + 1)), text.drop (start + (lookahead + 1))] :=
        ((sent_of_full hi hlen hwindow).trans (sent_prefix_feed _ _)).trans (sent_prefix_flush _)
      rw [htwo, hone] at hsent
      have hlong := hsent.length_le
      rw [length_take, length_take] at hlong
      omega
  · rintro (hplain | hwindow) pieces pieces' rfl hpieces'
    · rw [emitted_of_plain hplain, emitted_of_plain (by rw [hpieces']; exact hplain), hpieces']
    · rw [fromFence] at hwindow
      cases hstart : Find.index fence pieces.flatten with
      | none =>
        rw [hstart] at hwindow
        exact absurd (infix_nil.mp hwindow) (by decide)
      | some start =>
        rw [hstart] at hwindow
        rw [emitted_of_window hstart hwindow rfl, emitted_of_window hstart hwindow hpieces']

end Rosclaw.StreamFilter
