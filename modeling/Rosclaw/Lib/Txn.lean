/-
Programs over a store that commits every statement by itself.

A program reads the store, executes statements and ends with a value or an error;
what it has executed stays executed.  Its meaning is the list of the statements it
executes and how it ends, so a program that is cut short leaves a prefix of the list.

* `bind_of_ok`, `bind_of_error`, `read_bind`, `raise_bind`, `exec_bind_eq`, … — running a
  program step by step;
* `execAll_or` — a list of statements is executed whole, or up to the first one that
  the store refuses.
-/
import Mathlib.Logic.Basic

/-- What the statements do to a store, and the error of one that the store refuses. -/
class Store (S : Type) (W E : outParam Type) where
  refuses : S → W → Option E
  apply : S → W → S

/-- A program: from a store, the statements it executes and how it ends. -/
def Txn (S W E α : Type) := S → List W × Except E α

namespace Txn

open List

variable {S W E α β : Type} [Store S W E]

def after (s : S) (ws : List W) : S := ws.foldl Store.apply s

@[simp] theorem after_nil (s : S) : after s ([] : List W) = s := rfl

theorem after_append (s : S) (ws ws' : List W) : after s (ws ++ ws') = after (after s ws) ws' :=
  foldl_append

/-- Go on with the value of the first part of a program, from the store it leaves. -/
def proceed (s : S) (f : α → Txn S W E β) :
    List W × Except E α → List W × Except E β
  | (ws, .error e) => (ws, .error e)
  | (ws, .ok a) => (ws ++ (f a (after s ws)).1, (f a (after s ws)).2)

instance : Monad (Txn S W E) where
  pure a := fun _ => ([], .ok a)
  bind x f := fun s => proceed s f (x s)

def read (f : S → α) : Txn S W E α := fun s => ([], .ok (f s))

def raise (e : E) : Txn S W E α := fun _ => ([], .error e)

def exec (w : W) : Txn S W E Unit := fun s =>
  match Store.refuses s w with
  | some e => ([], .error e)
  | none => ([w], .ok ())

def check (ok : Bool) (e : E) : Txn S W E Unit := if ok then pure () else raise e

def ofExcept : Except E α → Txn S W E α
  | .error e => raise e
  | .ok a => pure a

def mapError (g : E → E) (x : Txn S W E α) : Txn S W E α := fun s => ((x s).1, (x s).2.mapError g)

def execAll : List W → Txn S W E Unit
  | [] => pure ()
  | w :: ws => exec w >>= fun _ => execAll ws

variable {P : S → Prop} {b : β} {crash : Option Nat} {e : E} {f : Unit → Txn S W E β} {k size : Nat}
  {ok : Bool} {r : Except E β} {s : S} {w : W} {ws ws' : List W} {x : Txn S W E α} (a : α)

theorem bind_of_ok {f : α → Txn S W E β} {a : α} (h : x s = (ws, .ok a)) :
    (x >>= f) s = (ws ++ (f a (after s ws)).1, (f a (after s ws)).2) := by
  show proceed s f (x s) = _
  rw [h]
  rfl

theorem bind_of_error {f : α → Txn S W E β} (h : x s = (ws, .error e)) :
    (x >>= f) s = (ws, .error e) := by
  show proceed s f (x s) = _
  rw [h]
  rfl

@[simp] theorem read_bind (g : S → α) (f : α → Txn S W E β) (s : S) :
    (read g >>= f) s = f (g s) s := rfl

@[simp] theorem pure_bind (f : α → Txn S W E β) (s : S) :
    ((pure a : Txn S W E α) >>= f) s = f a s := rfl

@[simp] theorem raise_bind (e : E) (f : α → Txn S W E β) (s : S) :
    ((raise e : Txn S W E α) >>= f) s = ([], .error e) := rfl

theorem check_of_true (h : ok = true) : (check ok e : Txn S W E Unit) = pure () := if_pos h

theorem check_of_false (h : ok = false) :
    (check ok e : Txn S W E Unit) = raise e := if_neg (by simp [h])

@[simp] theorem ofExcept_ok : (ofExcept (.ok a) : Txn S W E α) = pure a := rfl

@[simp] theorem ofExcept_error (e : E) : (ofExcept (.error e) : Txn S W E α) = raise e := rfl

theorem exec_of_refused (h : Store.refuses s w = some e) : exec w s = ([], .error e) := by
  rw [exec, h]

theorem exec_of_accepted (h : Store.refuses s w = none) : exec w s = ([w], .ok ()) := by
  rw [exec, h]

theorem exec_bind_of_refused (h : Store.refuses s w = some e) : (exec w >>= f) s = ([], .error e) :=
  bind_of_error (exec_of_refused h)

theorem exec_bind_of_accepted (h : Store.refuses s w = none) :
    (exec w >>= f) s = (w :: (f () (Store.apply s w)).1, (f () (Store.apply s w)).2) :=
  bind_of_ok (exec_of_accepted h)

/-! Running a program forward: what its first part does, then the rest. -/

theorem exec_bind_eq (hw : Store.refuses s w = none) (h : f () (Store.apply s w) = (ws, r)) :
    (exec w >>= f) s = (w :: ws, r) := by
  rw [exec_bind_of_accepted hw, h]

theorem check_bind_eq (hok : ok = true) (h : f () s = (ws, r)) :
    (check ok e >>= f) s = (ws, r) := by
  rw [check_of_true hok, pure_bind, h]

theorem check_bind_raise (hok : ok = false) : (check ok e >>= f) s = ([], .error e) := by
  rw [check_of_false hok, raise_bind]

theorem ofExcept_bind_eq {x : Except E α} {a : α} {f : α → Txn S W E β} (hx : x = .ok a)
    (h : f a s = (ws, r)) : (ofExcept x >>= f) s = (ws, r) := by
  rw [hx, ofExcept_ok, pure_bind, h]

theorem check_bind_cases (ok : Bool) (e : E) (f : Unit → Txn S W E β) (s : S) :
    (check ok e >>= f) s = ([], .error e) ∨ ok = true ∧ (check ok e >>= f) s = f () s := by
  cases ok with
  | false => exact .inl (check_bind_raise rfl)
  | true => exact .inr ⟨rfl, by rw [check_of_true rfl, pure_bind]⟩

theorem exec_bind_cases (w : W) (f : Unit → Txn S W E β) (s : S) :
    (∃ e, Store.refuses s w = some e ∧ (exec w >>= f) s = ([], .error e)) ∨
      Store.refuses s w = none ∧
        (exec w >>= f) s = (w :: (f () (Store.apply s w)).1, (f () (Store.apply s w)).2) := by
  cases hw : Store.refuses s w with
  | some e => exact .inl ⟨e, rfl, exec_bind_of_refused hw⟩
  | none => exact .inr ⟨rfl, exec_bind_of_accepted hw⟩

/-! What a program that ends well has done. -/

theorem check_bind_ok (h : ((check ok e >>= f) s).2 = .ok b) : ok = true ∧ (f () s).2 = .ok b := by
  cases ok with
  | false =>
    rw [check_bind_raise rfl] at h
    cases h
  | true =>
    rw [check_of_true rfl, pure_bind] at h
    exact ⟨rfl, h⟩

theorem exec_bind_ok (h : ((exec w >>= f) s).2 = .ok b) :
    Store.refuses s w = none ∧ (f () (Store.apply s w)).2 = .ok b := by
  cases hw : Store.refuses s w with
  | some e =>
    rw [exec_bind_of_refused hw] at h
    cases h
  | none =>
    rw [exec_bind_of_accepted hw] at h
    exact ⟨rfl, h⟩

theorem ofExcept_bind_ok {x : Except E α} {f : α → Txn S W E β}
    (h : ((ofExcept x >>= f) s).2 = .ok b) : ∃ a, x = .ok a ∧ (f a s).2 = .ok b := by
  cases x with
  | error e =>
    rw [ofExcept_error, raise_bind] at h
    cases h
  | ok a =>
    rw [ofExcept_ok, pure_bind] at h
    exact ⟨a, rfl, h⟩

/-- **A list of statements** is executed whole, or up to one that is refused. -/
theorem execAll_or (ws : List W) (s : S) : execAll ws s = (ws, .ok ()) ∨
      ∃ done w rest e, ws = done ++ w :: rest ∧ Store.refuses (after s done) w = some e ∧
        execAll ws s = (done, .error e) := by
  induction ws generalizing s with
  | nil => exact .inl rfl
  | cons w ws ih =>
    cases h : Store.refuses s w with
    | some e => exact .inr ⟨[], w, ws, e, rfl, h, exec_bind_of_refused h⟩
    | none =>
      have hrun : execAll (w :: ws) s
          = (w :: (execAll ws (Store.apply s w)).1, (execAll ws (Store.apply s w)).2) :=
        exec_bind_of_accepted h
      rcases ih (Store.apply s w) with hall | ⟨done, w', rest, e, rfl, href, hdone⟩
      · left
        rw [hrun, hall]
      · right
        refine ⟨w :: done, w', rest, e, rfl, href, ?_⟩
        rw [hrun, hdone]

theorem execAll_singleton (w : W) (s : S) : (execAll [w] s).1 = [] ∨ (execAll [w] s).1 = [w] := by
  rcases execAll_or [w] s with hall | ⟨done, w', rest, e, heq, -, hdone⟩
  · exact .inr (congrArg Prod.fst hall)
  · rw [hdone]
    rcases append_eq_singleton_iff.mp heq.symm with ⟨hnil, -⟩ | ⟨-, hcons⟩
    · exact .inl hnil
    · cases hcons

theorem bind_pure_fst (x : Txn S W E α) (b : β) (s : S) :
    ((x >>= fun _ => (pure b : Txn S W E β)) s).1 = (x s).1 := by
  cases hresult : (x s).2 with
  | error e =>
    have hrun : x s = ((x s).1, .error e) := Prod.ext rfl hresult
    rw [bind_of_error hrun]
  | ok a =>
    have hrun : x s = ((x s).1, .ok a) := Prod.ext rfl hresult
    rw [bind_of_ok hrun]
    exact append_nil _

/-! ### A process that is killed -/

/-- What the process executes of the statements, `crash` being the number of them after
which it is killed. -/
def cut : Option Nat → List W → List W
  | none, ws => ws
  | some k, ws => ws.take k

/-- The process is not killed inside of the first `size` statements. -/
def whole (crash : Option Nat) (size : Nat) : Bool := crash.all fun k => k = 0 ∨ size ≤ k

/-- The statements that are left when `size` of them have been executed. -/
def past (crash : Option Nat) (size : Nat) : Option Nat := crash.map (· - size)

@[simp] theorem cut_nil (crash : Option Nat) : cut crash ([] : List W) = [] := by
  cases crash <;> simp [cut]

@[simp] theorem cut_zero (ws : List W) : cut (some 0) ws = [] := rfl

theorem cut_cons (h : crash ≠ some 0) (w : W) (ws : List W) :
    cut crash (w :: ws) = w :: cut (past crash 1) ws := by
  cases crash with
  | none => rfl
  | some k =>
    obtain ⟨k, rfl⟩ : ∃ k', k = k' + 1 := Nat.exists_eq_succ_of_ne_zero fun hk => h (by rw [hk])
    exact take_succ_cons

theorem past_one (h : crash ≠ some 0) : past crash 1 = some k ↔ crash = some (k + 1) := by
  cases crash with
  | none => simp [past]
  | some n =>
    have hn : n ≠ 0 := fun hn => h (by rw [hn])
    show some (n - 1) = some k ↔ some n = some (k + 1)
    rw [Option.some_inj, Option.some_inj]
    omega

theorem whole_of_le_one (crash : Option Nat) (h : size ≤ 1) : whole crash size = true := by
  cases crash with
  | none => rfl
  | some k =>
    show decide (k = 0 ∨ size ≤ k) = true
    rw [decide_eq_true_eq]
    omega

/-- **What a block of statements keeps** when the process is not killed inside of it. -/
theorem after_cut_append (block ws : List W) (hwhole : whole crash block.length = true) (hs : P s)
    (hrest : P (after (after s block) (cut (past crash block.length) ws))) :
    P (after s (cut crash (block ++ ws))) := by
  cases crash with
  | none =>
    show P (after s (block ++ ws))
    rw [after_append]
    exact hrest
  | some k =>
    have hk : k = 0 ∨ block.length ≤ k := of_decide_eq_true hwhole
    show P (after s ((block ++ ws).take k))
    rcases hk with rfl | hk
    · exact hs
    · rw [take_append, take_of_length_le hk, after_append]
      exact hrest

theorem after_cut_then (h : P (after s (cut crash ws)))
    (hrest : P (after s ws) → P (after (after s ws) (cut (past crash ws.length) ws'))) :
    P (after s (cut crash (ws ++ ws'))) := by
  cases crash with
  | none =>
    show P (after s (ws ++ ws'))
    rw [after_append]
    exact hrest h
  | some k =>
    show P (after s ((ws ++ ws').take k))
    rcases Nat.le_total ws.length k with hk | hk
    · have htake : cut (some k) ws = ws := take_of_length_le hk
      rw [htake] at h
      rw [take_append, take_of_length_le hk, after_append]
      exact hrest h
    · rw [take_append_of_le_length hk]
      exact h

theorem after_cut_of_kept (crash : Option Nat) (hs : P s)
    (hkept : ∀ w ∈ ws, ∀ s, P s → P (Store.apply s w)) : P (after s (cut crash ws)) := by
  induction ws generalizing s crash with
  | nil =>
    rw [cut_nil]
    exact hs
  | cons w ws ih =>
    have hw : P (Store.apply s w) := hkept w mem_cons_self s hs
    exact after_cut_append [w] ws (whole_of_le_one crash (Nat.le_refl 1)) hs
      (ih (past crash 1) hw fun v hv => hkept v (mem_cons_of_mem w hv))

end Txn
