/-
Topics of events and patterns of subscriptions (`core/event_topics.py`, `core/event_bus.py`).

* `Exact`, `eq_of_exact` — a pattern that only matches itself.
-/
import Rosclaw.Lib.PyVal

namespace Rosclaw.EventTopics

/-- `_TOPIC_COMPAT`: old names, and the names that they have now. -/
def topicCompat : List (PyStr × PyStr) :=
  [("agent.command", "rosclaw.agent.command"),
    ("skill.execution.start", "rosclaw.skill.execution.start"),
    ("skill.execution.complete", "rosclaw.skill.execution.complete"),
    ("praxis.completed", "rosclaw.praxis.completed"), ("praxis.failed", "rosclaw.praxis.failed"),
    ("praxis.recorded", "rosclaw.praxis.recorded"),
    ("firewall.action_blocked", "rosclaw.sandbox.action.blocked"),
    ("safety.violation", "rosclaw.safety.violation"),
    ("agent.response", "rosclaw.agent.response"),
    ("agent.capability.request", "rosclaw.agent.capability.request"),
    ("robot.emergency_stop", "rosclaw.robot.emergency_stop"),
    ("memory.experience.stored", "rosclaw.memory.experience.stored"),
    ("rosclaw.memory.write.completed", "rosclaw.memory.write.completed"),
    ("heuristic.recovery_suggested", "rosclaw.how.recovery_hint.generated"),
    ("heuristic.recovery_executed", "rosclaw.how.recovery_executed"),
    ("runtime.status", "rosclaw.runtime.status"),
    ("practice.session_started", "rosclaw.practice.session.started"),
    ("practice.session_finished", "rosclaw.practice.session.finished")]

/-- `topic.startswith("rosclaw.")`. -/
def isCanonical (topic : PyStr) : Bool := (PyStr.ofString "rosclaw.").codes.isPrefixOf topic.codes

def normalizeTopic (topic : PyStr) : PyStr :=
  if isCanonical topic then topic else (topicCompat.lookup topic).getD topic

variable {cs : List Nat} {name pattern topic : PyStr} {p : List Nat × List Nat}

theorem lookup_mem {table : List (PyStr × PyStr)} (h : table.lookup topic = some name) :
    ∃ e ∈ table, e.2 = name := by
  induction table with
  | nil => cases h
  | cons e table ih =>
    obtain ⟨old, new⟩ := e
    rw [List.lookup_cons] at h
    split at h
    · cases h
      exact ⟨_, .head _, rfl⟩
    · obtain ⟨e, he, heq⟩ := ih h
      exact ⟨e, .tail _ he, heq⟩

theorem canonical_compat : ∀ e ∈ topicCompat, isCanonical e.2 = true := by decide

theorem normalizeTopic_idem (topic : PyStr) :
    normalizeTopic (normalizeTopic topic) = normalizeTopic topic := by
  by_cases hcanonical : isCanonical topic = true
  · have heq : normalizeTopic topic = topic := by rw [normalizeTopic, if_pos hcanonical]
    rw [heq, heq]
  · cases hlookup : topicCompat.lookup topic with
    | none =>
      have heq : normalizeTopic topic = topic := by
        rw [normalizeTopic, if_neg hcanonical, hlookup, Option.getD_none]
      rw [heq, heq]
    | some name =>
      have heq : normalizeTopic topic = name := by
        rw [normalizeTopic, if_neg hcanonical, hlookup, Option.getD_some]
      obtain ⟨e, he, rfl⟩ := lookup_mem hlookup
      rw [heq, normalizeTopic, if_pos (canonical_compat e he)]

/-! ### Shell patterns -/

inductive Token
  | star
  | one
  | set (neg : Bool) (chars : List Nat)
  | lit (c : Nat)

/-- The characters up to the next `]`, and what follows it. -/
def upToBracket : List Nat → Option (List Nat × List Nat)
  | [] => none
  | 93 :: cs => some ([], cs)
  | c :: cs => (upToBracket cs).map fun p => (c :: p.1, p.2)

/-- What stands between brackets; a `]` that comes first is one of the characters. -/
def bracket : List Nat → Option (List Nat × List Nat)
  | 93 :: cs => (upToBracket cs).map fun p => (93 :: p.1, p.2)
  | cs => upToBracket cs

/-- What follows a `[`: whether it is negated, the characters, and the rest of the pattern. -/
def seq : List Nat → Option (Bool × List Nat × List Nat)
  | 33 :: cs => (bracket cs).map fun p => (true, p)
  | cs => (bracket cs).map fun p => (false, p)

theorem upToBracket_length (h : upToBracket cs = some p) : p.2.length < cs.length := by
  induction cs generalizing p with
  | nil => cases h
  | cons c cs ih =>
    unfold upToBracket at h
    split at h
    · cases h
    · next heq =>
      cases h
      obtain ⟨rfl, rfl⟩ := List.cons.inj heq
      exact Nat.lt_succ_self _
    · next heq =>
      obtain ⟨rfl, rfl⟩ := List.cons.inj heq
      obtain ⟨q, hq, rfl⟩ := Option.map_eq_some_iff.mp h
      have hlt := ih hq
      exact Nat.lt_succ_of_lt hlt

theorem bracket_length (h : bracket cs = some p) : p.2.length < cs.length := by
  unfold bracket at h
  split at h
  · obtain ⟨q, hq, rfl⟩ := Option.map_eq_some_iff.mp h
    have hlt := upToBracket_length hq
    exact Nat.lt_succ_of_lt hlt
  · exact upToBracket_length h

theorem seq_length {p : Bool × List Nat × List Nat} (h : seq cs = some p) :
    p.2.2.length < cs.length := by
  unfold seq at h
  split at h
  · obtain ⟨q, hq, rfl⟩ := Option.map_eq_some_iff.mp h
    have hlt := bracket_length hq
    exact Nat.lt_succ_of_lt hlt
  · obtain ⟨q, hq, rfl⟩ := Option.map_eq_some_iff.mp h
    exact bracket_length hq

/-- The parts of a pattern; a `[` that is not closed stands for itself. -/
def tokens : List Nat → List Token
  | [] => []
  | 42 :: cs => .star :: tokens cs
  | 63 :: cs => .one :: tokens cs
  | 91 :: cs =>
    match h : seq cs with
    | some (neg, chars, rest) =>
      have : rest.length < cs.length + 1 := Nat.lt_succ_of_lt (seq_length h)
      .set neg chars :: tokens rest
    | none => .lit 91 :: tokens cs
  | c :: cs => .lit c :: tokens cs
termination_by cs => cs.length

def inSeq (c : Nat) : List Nat → Bool
  | a :: 45 :: b :: cs => (a ≤ c && c ≤ b) || inSeq c cs
  | a :: cs => c = a || inSeq c cs
  | [] => false

def accepts : List Token → List Nat → Bool
  | [], s => s.isEmpty
  | .star :: ts, s => s.tails.any fun rest => accepts ts rest
  | .one :: ts, _ :: s => accepts ts s
  | .set neg chars :: ts, c :: s => inSeq c chars != neg && accepts ts s
  | .lit c :: ts, c' :: s => c = c' && accepts ts s
  | _, [] => false

/-- `fnmatch.fnmatch(topic, pattern)`. -/
def fnmatch (topic pattern : PyStr) : Bool := accepts (tokens pattern.codes) topic.codes

/-- `"*" in pattern or "?" in pattern`. -/
def hasWildcard (pattern : PyStr) : Bool := pattern.codes.contains 42 || pattern.codes.contains 63

def topicMatches (pattern topic : PyStr) : Bool :=
  if pattern = topic then true
  else if pattern = PyStr.ofString "#" then true
  else if hasWildcard pattern then fnmatch topic pattern
  else false

def Exact (pattern : PyStr) : Prop :=
  pattern ≠ PyStr.ofString "#" ∧ hasWildcard pattern = false

theorem eq_of_exact (hexact : Exact pattern) (h : topicMatches pattern topic = true) :
    pattern = topic := by
  by_contra hne
  rw [topicMatches, if_neg hne, if_neg hexact.1, hexact.2, if_neg Bool.false_ne_true] at h
  cases h

end Rosclaw.EventTopics
