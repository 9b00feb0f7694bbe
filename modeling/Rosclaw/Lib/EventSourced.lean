/-
Services whose state is the replay of an append-only journal.

An operation appends an event and then applies it to the state in memory.  An append can raise,
before or after the event is durable, and the process can end at the same points.

* `Fate`, `attempt` — an append, how it ends, and what is applied;
* `reopen` — a new process, whose state is the replay;
* `Consistent P` — the journal can be replayed to a state of which `P` holds, and a live process
  has that state;
* `Consistent.attempt_cases`, `Consistent.attempt`, `Consistent.reopen` — so it stays, if every
  event can be applied to the state that it was made from, and no append raises after the event
  is durable;
* `Consistent.mono`, `Consistent.change` — for another `P`, and for more that can be applied.
-/
import Mathlib.Data.List.Basic

namespace EventSourced

variable {S E : Type*}

def replay (apply : S → E → Option S) : S → List E → Option S
  | s, [] => some s
  | s, e :: es => (apply s e).bind fun s' => replay apply s' es

/-- How an append ends; `durable` if the event is in the journal. -/
inductive Fate
  | done
  | failed (durable : Bool)
  | crashed (durable : Bool)
deriving DecidableEq, Repr

/-- The process does not go on without an event that is in the journal. -/
def Fate.clean : Fate → Bool
  | .failed durable => !durable
  | _ => true

/-- A journal, and the events and the state of the process, if there is one. -/
structure Service (S E : Type*) where
  durable : List E
  live : Option (List E × S)

def Service.keep (v : Service S E) (e : E) (durable : Bool) : List E :=
  if durable then v.durable ++ [e] else v.durable

/-- An append by a process with these events and this state, and the state with which the
operation goes on, if it does. -/
def attempt (apply : S → E → Option S) (v : Service S E) (es : List E) (s : S) (e : E) (f : Fate) :
    Service S E × Option S :=
  -- the file of the event is there already
  if es.length < v.durable.length then (v, none)
  else match f with
    | .done => match apply s e with
      | some s' => (⟨v.durable ++ [e], some (es ++ [e], s')⟩, some s')
      | none => (⟨v.durable ++ [e], some (es ++ [e], s)⟩, none)
    | .failed durable => (⟨v.keep e durable, some (es, s)⟩, none)
    | .crashed durable => (⟨v.keep e durable, none⟩, none)

def reopen (apply : S → E → Option S) (start : S) (v : Service S E) : Service S E :=
  ⟨v.durable, (replay apply start v.durable).map fun s => (v.durable, s)⟩

/-- The journal can be replayed to a state of which `P` holds, the state of the process. -/
structure Consistent (apply : S → E → Option S) (start : S) (P : List E → S → Prop)
    (v : Service S E) : Prop where
  opens : ∃ s, replay apply start v.durable = some s ∧ P v.durable s
  agrees : ∀ es s, v.live = some (es, s) → es = v.durable ∧ replay apply start v.durable = some s

variable {apply : S → E → Option S} {start s s' : S} {v : Service S E} {es : List E} {e : E}
  {f : Fate}

theorem replay_append (s : S) (es es' : List E) :
    replay apply s (es ++ es') = (replay apply s es).bind fun s' => replay apply s' es' := by
  induction es generalizing s with
  | nil => rfl
  | cons e es ih =>
    rw [List.cons_append, replay, replay, Option.bind_assoc]
    exact congrArg _ (funext ih)

theorem replay_snoc (s : S) (es : List E) (e : E) :
    replay apply s (es ++ [e]) = (replay apply s es).bind fun s' => apply s' e := by
  rw [replay_append]
  refine congrArg _ (funext fun s' => ?_)
  exact Option.bind_fun_some (apply s' e)

theorem replay_snoc_of (hreplay : replay apply start es = some s) (happly : apply s e = some s') :
    replay apply start (es ++ [e]) = some s' := by
  rw [replay_snoc, hreplay, Option.bind_some, happly]

theorem replay_change {apply' : S → E → Option S}
    (h : ∀ s e s', apply s e = some s' → apply' s e = some s') {s s' : S} {es : List E}
    (hreplay : replay apply s es = some s') : replay apply' s es = some s' := by
  induction es generalizing s with
  | nil => exact hreplay
  | cons e es ih =>
    obtain ⟨s₁, h₁, h₂⟩ := Option.bind_eq_some_iff.mp hreplay
    rw [replay, h _ _ _ h₁, Option.bind_some]
    exact ih h₂

theorem attempt_eq_some {v' : Service S E} (h : attempt apply v es s e f = (v', some s')) :
    f = .done ∧ apply s e = some s' ∧ v' = ⟨v.durable ++ [e], some (es ++ [e], s')⟩ := by
  unfold attempt at h
  split at h
  · cases (Prod.mk.inj h).2
  · cases f with
    | done =>
      cases happly : apply s e with
      | none =>
        rw [happly] at h
        cases (Prod.mk.inj h).2
      | some s₁ =>
        rw [happly] at h
        obtain ⟨rfl, hs⟩ := Prod.mk.inj h
        cases hs
        exact ⟨rfl, rfl, rfl⟩
    | failed durable => cases (Prod.mk.inj h).2
    | crashed durable => cases (Prod.mk.inj h).2

namespace Consistent

variable {P Q : List E → S → Prop}

theorem holds (hv : Consistent apply start P v) (hlive : v.live = some (es, s)) :
    P v.durable s := by
  obtain ⟨s', hs', hP⟩ := hv.opens
  obtain rfl : s' = s := Option.some.inj (hs'.symm.trans (hv.agrees es s hlive).2)
  exact hP

theorem of_live (hv : Consistent apply start P v) (hlive : v.live = some (es, s))
    (h : Q v.durable s) : Consistent apply start Q v :=
  ⟨⟨s, (hv.agrees es s hlive).2, h⟩, hv.agrees⟩

theorem change {apply' : S → E → Option S} (hv : Consistent apply start P v)
    (h : ∀ s e s', apply s e = some s' → apply' s e = some s') :
    Consistent apply' start P v := by
  obtain ⟨s, hs, hP⟩ := hv.opens
  refine ⟨⟨s, replay_change h hs, hP⟩, fun es s' hlive => ?_⟩
  obtain ⟨hes, hreplay⟩ := hv.agrees es s' hlive
  exact ⟨hes, replay_change h hreplay⟩

/-- **How a clean append of an event that can be applied ends.** -/
theorem attempt_cases (hv : Consistent apply start P v) (hlive : v.live = some (es, s))
    (happly : apply s e = some s') (hclean : f.clean = true) :
    (f = .done ∧ attempt apply v es s e f =
      (⟨v.durable ++ [e], some (v.durable ++ [e], s')⟩, some s')) ∨
    (f = .failed false ∧ attempt apply v es s e f = (v, none)) ∨
    ∃ durable, f = .crashed durable ∧
      attempt apply v es s e f = (⟨v.keep e durable, none⟩, none) := by
  obtain ⟨rfl, -⟩ := hv.agrees es s hlive
  unfold EventSourced.attempt
  rw [if_neg (Nat.lt_irrefl _)]
  cases f with
  | done => exact .inl ⟨rfl, by rw [happly]⟩
  | failed durable =>
    cases durable with
    | true => cases hclean
    | false =>
      refine .inr (.inl ⟨rfl, ?_⟩)
      show (⟨v.durable, some (v.durable, s)⟩, none) = (v, none)
      rw [← hlive]
  | crashed durable => exact .inr (.inr ⟨durable, rfl, rfl⟩)

/-- **A clean append of an event that can be applied.** -/
theorem attempt (hv : Consistent apply start P v) (hlive : v.live = some (es, s))
    (happly : apply s e = some s') (hclean : f.clean = true) (hP : P (v.durable ++ [e]) s') :
    Consistent apply start P (attempt apply v es s e f).1 := by
  have hnext := replay_snoc_of (hv.agrees es s hlive).2 happly
  rcases hv.attempt_cases hlive happly hclean with ⟨-, heq⟩ | ⟨-, heq⟩ | ⟨durable, -, heq⟩
  · rw [heq]
    refine ⟨⟨s', hnext, hP⟩, fun es' s'' h => ?_⟩
    obtain ⟨rfl, rfl⟩ := Prod.mk.inj (Option.some.inj h)
    exact ⟨rfl, hnext⟩
  · rw [heq]
    exact hv
  · rw [heq]
    refine ⟨?_, fun es' s'' h => by cases h⟩
    cases durable with
    | true => exact ⟨s', hnext, hP⟩
    | false => exact hv.opens

theorem attempt_killed (hv : Consistent apply start P v) (hlive : v.live = some (es, s))
    (happly : apply s e = some s') (hP : P (v.durable ++ [e]) s') :
    Consistent apply start P ⟨(EventSourced.attempt apply v es s e f).1.durable, none⟩ := by
  obtain ⟨rfl, hreplay⟩ := hv.agrees es s hlive
  have hkeep : ∀ durable, Consistent apply start P ⟨v.keep e durable, none⟩ := by
    intro durable
    refine ⟨?_, fun es' s'' h => by cases h⟩
    cases durable with
    | true => exact ⟨s', replay_snoc_of hreplay happly, hP⟩
    | false => exact hv.opens
  unfold EventSourced.attempt
  rw [if_neg (Nat.lt_irrefl _)]
  cases f with
  | done =>
    rw [happly]
    exact hkeep true
  | failed durable => exact hkeep durable
  | crashed durable => exact hkeep durable

theorem killed (hv : Consistent apply start P v) : Consistent apply start P ⟨v.durable, none⟩ :=
  ⟨hv.opens, fun es s h => by cases h⟩

theorem reopen (hv : Consistent apply start P v) :
    Consistent apply start P (reopen apply start v) := by
  refine ⟨hv.opens, fun es s h => ?_⟩
  obtain ⟨s', hs', heq⟩ := Option.map_eq_some_iff.mp h
  obtain ⟨rfl, rfl⟩ := Prod.mk.inj heq
  exact ⟨rfl, hs'⟩

end Consistent

end EventSourced
