/-
A connection to a transactional store with savepoints.

A transaction is begun by its own command or by a savepoint outside of one; releasing the outermost
savepoint of a transaction that it began commits.  Constraints that are deferred are looked at when
a transaction is committed.

* `script_guarded` — **a script of statements after a savepoint**: all of them took effect, or the
  savepoint is still there, or the transaction is gone;
* `execute_release_guarded`, `execute_rollbackTo_guarded` — what then becomes of it.
-/
import Mathlib.Data.List.Basic

namespace Savepoint

/-- A connection to a store of contents `D`, with savepoints named by `N`. -/
structure Session (N D : Type*) where
  committed : D
  current : D
  /-- the savepoints, the innermost first, each with what it goes back to -/
  marks : List (N × D)
  active : Bool
  /-- the transaction was begun by a savepoint -/
  byMark : Bool

def Session.closed {N D : Type*} (d : D) : Session N D := ⟨d, d, [], false, false⟩

/-- What an error does: it undoes the statement, or the whole transaction. -/
inductive Failure
  | statement | transaction

inductive Command (N D : Type*)
  | start | commit | rollback
  | savepoint (name : N)
  | release (name : N)
  | rollbackTo (name : N)
  | run (f : D → Except Failure D)

variable {N D : Type*} [DecidableEq N]

section Execute

variable (valid : D → Bool)

def commit (s : Session N D) : Session N D × Bool :=
  if valid s.current then (.closed s.current, true) else (s, false)

def Command.execute (s : Session N D) : Command N D → Session N D × Bool
  | .start =>
      if s.active then (s, false) else (⟨s.committed, s.current, s.marks, true, false⟩, true)
  | .commit => if s.active then Savepoint.commit valid s else (s, false)
  | .rollback => if s.active then (.closed s.committed, true) else (s, false)
  | .savepoint name =>
      (⟨s.committed, s.current, (name, s.current) :: s.marks, true, s.byMark || !s.active⟩, true)
  | .release name =>
      match s.marks.dropWhile fun m => m.1 ≠ name with
      | [] => (s, false)
      | _ :: rest =>
          if rest.isEmpty && s.byMark then Savepoint.commit valid s
          else (⟨s.committed, s.current, rest, s.active, s.byMark⟩, true)
  | .rollbackTo name =>
      match s.marks.dropWhile fun m => m.1 ≠ name with
      | [] => (s, false)
      | m :: rest => (⟨s.committed, m.2, m :: rest, s.active, s.byMark⟩, true)
  | .run f =>
      match f s.current with
      | .ok d =>
          if s.active then (⟨s.committed, d, s.marks, true, s.byMark⟩, true)
          else if valid d then (.closed d, true)
          else (s, false)
      | .error .statement => (s, false)
      | .error .transaction => (.closed s.committed, false)

def script (s : Session N D) : List (Command N D) → Session N D × Bool
  | [] => (s, true)
  | c :: cs =>
      match c.execute valid s with
      | (s', true) => script s' cs
      | (s', false) => (s', false)

def effects : List (D → Except Failure D) → D → Except Failure D
  | [], d => .ok d
  | f :: fs, d => (f d).bind (effects fs)

def guarded (name : N) (c d : D) : Session N D := ⟨c, d, [(name, c)], true, true⟩

variable {valid} {name : N} {c d : D}

theorem dropWhile_guarded :
    ([(name, c)] : List (N × D)).dropWhile (fun m => m.1 ≠ name) = [(name, c)] := by
  simp

theorem execute_run_ok {f : D → Except Failure D} {d' : D} (h : f d = .ok d') :
    (Command.run f).execute valid (guarded name c d) = (guarded name c d', true) := by
  rw [Command.execute, guarded]
  simp only [h]
  rfl

theorem execute_run_error {f : D → Except Failure D} {e : Failure} (h : f d = .error e) :
    (Command.run f).execute valid (guarded name c d) = (guarded name c d, false)
      ∨ (Command.run f).execute valid (guarded name c d) = (.closed c, false) := by
  rw [Command.execute, guarded]
  simp only [h]
  cases e with
  | statement => exact .inl rfl
  | transaction => exact .inr rfl

/-- Statements after a savepoint: they all succeed, or the savepoint can still be gone back to, or
the transaction is gone. -/
theorem script_guarded (fs : List (D → Except Failure D)) : (∃ d', effects fs d = .ok d'
      ∧ script valid (guarded name c d) (fs.map .run) = (guarded name c d', true))
    ∨ (∃ d', script valid (guarded name c d) (fs.map .run) = (guarded name c d', false))
    ∨ script valid (guarded name c d) (fs.map .run) = (.closed c, false) := by
  induction fs generalizing d with
  | nil => exact .inl ⟨d, rfl, rfl⟩
  | cons f fs ih =>
    rw [List.map_cons, script, effects]
    cases hf : f d with
    | ok d' =>
      rw [execute_run_ok hf]
      rcases @ih d' with ⟨d'', heffects, hscript⟩ | hfailed | hgone
      · exact .inl ⟨d'', heffects, hscript⟩
      · exact .inr (.inl hfailed)
      · exact .inr (.inr hgone)
    | error e =>
      rcases @execute_run_error N D _ valid name c d f e hf with hkept | hgone
      · rw [hkept]
        exact .inr (.inl ⟨d, rfl⟩)
      · rw [hgone]
        exact .inr (.inr rfl)

theorem execute_release_guarded : (Command.release name).execute valid (guarded name c d)
      = if valid d then (.closed d, true) else (guarded name c d, false) := by
  rw [Command.execute, guarded, dropWhile_guarded]
  rfl

theorem execute_rollbackTo_guarded :
    (Command.rollbackTo name).execute valid (guarded name c d) = (guarded name c c, true) := by
  rw [Command.execute, guarded, dropWhile_guarded]
  rfl

end Execute

end Savepoint
