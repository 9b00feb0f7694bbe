/-
Scripts of statements over a store with transactions.

A script reads and writes the store statement by statement and ends with a value or
an error.  Before any of its statements the store can fail, which ends the script with
an error of the store, and a script can raise by itself; `transaction` puts the store
back to where it was unless everything in it and its commit went through.

* `bind_eq_ok`, `query_eq_ok`, `update_eq_ok`, `transaction_eq_ok` — what went through
  when a script answers;
* `transaction_eq_error` — a transaction that raises leaves the store as it was;
* `Spent` — how many statements lie between two states of a connection;
* `Reads` — scripts that do not write.
-/
import Mathlib.Logic.Basic

/-- A connection to a store; `fuse` counts the statements before the one that fails. -/
structure Conn (S : Type) where
  store : S
  fuse : Option Nat

def Script (S E α : Type) := Conn S → Except E α × Conn S

namespace Script

variable {S E α β : Type}

def proceed (f : α → Script S E β) : Except E α × Conn S → Except E β × Conn S
  | (.ok a, c) => f a c
  | (.error e, c) => (.error e, c)

instance : Monad (Script S E) where
  pure a := fun c => (.ok a, c)
  bind x f := fun c => proceed f (x c)

def raise (e : E) : Script S E α := fun c => (.error e, c)

def ofExcept : Except E α → Script S E α
  | .ok a => pure a
  | .error e => raise e

/-- The connection after one more statement, unless the store fails at it. -/
def tick (c : Conn S) : Option (Conn S) :=
  match c.fuse with
  | some 0 => none
  | some (n + 1) => some ⟨c.store, some n⟩
  | none => some c

/-- A statement: `e` is the error with which the store fails. -/
def statement (e : E) (f : S → Except E (α × S)) : Script S E α := fun c =>
  match tick c with
  | none => (.error e, ⟨c.store, none⟩)
  | some c' =>
    match f c'.store with
    | .ok (a, s) => (.ok a, ⟨s, c'.fuse⟩)
    | .error e' => (.error e', c')

def query (e : E) (f : S → α) : Script S E α := statement e fun s => .ok (f s, s)

/-- A statement that writes, unless a constraint of the store refuses it. -/
def update (e : E) (f : S → Except E S) : Script S E Unit :=
  statement e fun s => (f s).map fun s' => ((), s')

/-- `BEGIN`, the script, `COMMIT`; whatever raises puts the store back. -/
def transaction (e : E) (x : Script S E α) : Script S E α := fun c =>
  match (query e fun _ => ()) c with
  | (.error e', c') => (.error e', c')
  | (.ok _, c') =>
    match (x >>= fun a => query e fun _ => a) c' with
    | (.ok a, c'') => (.ok a, c'')
    | (.error e', c'') => (.error e', ⟨c.store, c''.fuse⟩)

/-! ### What went through -/

variable {x : Script S E α} {f : α → Script S E β}

theorem bind_eq_ok {c c'' : Conn S} {b : β} :
    (x >>= f) c = (.ok b, c'') ↔ ∃ a c', x c = (.ok a, c') ∧ f a c' = (.ok b, c'') := by
  show proceed f (x c) = _ ↔ _
  rcases h : x c with ⟨r, c'⟩
  cases r with
  | ok a =>
    constructor
    · intro hf
      exact ⟨a, c', rfl, hf⟩
    · rintro ⟨a', c₁, ha, hf⟩
      cases ha
      exact hf
  | error e => simp [proceed]

variable {c c' : Conn S} {a : α}

theorem bind_of_ok (h : x c = (.ok a, c')) : (x >>= f) c = f a c' := by
  show proceed f (x c) = _
  rw [h]
  rfl

variable {e : E}

theorem bind_eq_error {c c'' : Conn S} : (x >>= f) c = (.error e, c'') ↔
      x c = (.error e, c'') ∨ ∃ a c', x c = (.ok a, c') ∧ f a c' = (.error e, c'') := by
  show proceed f (x c) = _ ↔ _
  rcases h : x c with ⟨r, c'⟩
  cases r with
  | ok a =>
    constructor
    · intro hf
      exact .inr ⟨a, c', rfl, hf⟩
    · rintro (ha | ⟨a', c₁, ha, hf⟩)
      · cases ha
      · cases ha
        exact hf
  | error e => simp [proceed]

theorem bind_eq {c c'' : Conn S} {r : Except E β} (h : (x >>= f) c = (r, c'')) :
    (∃ e, x c = (.error e, c'') ∧ r = .error e) ∨
      ∃ a c', x c = (.ok a, c') ∧ f a c' = (r, c'') := by
  cases r with
  | ok b => exact .inr (bind_eq_ok.mp h)
  | error e =>
    rcases bind_eq_error.mp h with hx | hf
    · exact .inl ⟨e, hx, rfl⟩
    · exact .inr hf

theorem pure_eq_ok {a b : α} : (pure a : Script S E α) c = (.ok b, c') ↔ a = b ∧ c = c' := by
  show ((.ok a : Except E α), c) = (.ok b, c') ↔ _
  simp

theorem pure_ne_error : (pure a : Script S E α) c ≠ (.error e, c') := by
  show ((.ok a : Except E α), c) ≠ (.error e, c')
  simp

theorem raise_ne_ok : (raise e : Script S E α) c ≠ (.ok a, c') := by
  simp [raise]

variable {e' : E} {n n' : Nat} {r : Except E α} {s s' : S}

theorem ofExcept_eq_ok : (ofExcept r : Script S E α) c = (.ok a, c') ↔ r = .ok a ∧ c = c' := by
  cases r with
  | ok a' => rw [ofExcept, pure_eq_ok]; simp
  | error e => simp [ofExcept, raise]

theorem tick_store (h : tick c = some c') : c'.store = c.store := by
  unfold tick at h
  split at h
  · cases h
  · cases h
    rfl
  · cases h
    rfl

theorem statement_eq_ok {f : S → Except E (α × S)}
    (h : statement e f c = (.ok a, c')) : f c.store = .ok (a, c'.store) := by
  unfold statement at h
  split at h
  · cases h
  · next c₁ htick =>
    rw [tick_store htick] at h
    split at h
    · next a' s hf =>
      cases h
      exact hf
    · cases h

theorem query_eq_ok {f : S → α}
    (h : query e f c = (.ok a, c')) : f c.store = a ∧ c'.store = c.store := by
  have hf : (.ok (f c.store, c.store) : Except E (α × S)) = .ok (a, c'.store) := statement_eq_ok h
  have heq : (f c.store, c.store) = (a, c'.store) := Except.ok.inj hf
  exact ⟨congrArg Prod.fst heq, (congrArg Prod.snd heq).symm⟩

theorem update_eq_ok {f : S → Except E S} {u : Unit}
    (h : update e f c = (.ok u, c')) : f c.store = .ok c'.store := by
  have hf : (f c.store).map (fun s' => ((), s')) = .ok (u, c'.store) := statement_eq_ok h
  rcases hr : f c.store with e' | s
  · rw [hr] at hf
    cases hf
  · rw [hr] at hf
    have hs : s = c'.store := congrArg Prod.snd (Except.ok.inj hf)
    rw [hs]

theorem query_of_unfailing (e : E) (f : S → α) (s : S) :
    query e f ⟨s, none⟩ = (.ok (f s), ⟨s, none⟩) := rfl

theorem update_of_unfailing (e : E) {f : S → Except E S} (h : f s = .ok s') :
    update e f ⟨s, none⟩ = (.ok (), ⟨s', none⟩) := by
  simp [update, statement, tick, h, Except.map]

theorem statement_eq_error {e : E} {f : S → Except E (α × S)}
    (h : statement e f c = (.error e', c')) : c'.store = c.store := by
  unfold statement at h
  split at h
  · cases h
    rfl
  · next c₁ htick =>
    split at h
    · cases h
    · cases h
      exact tick_store htick

theorem transaction_eq_ok (h : transaction e x c = (.ok a, c')) :
    ∃ c₁ c₂, c₁.store = c.store ∧ x c₁ = (.ok a, c₂) ∧ c'.store = c₂.store := by
  unfold transaction at h
  split at h
  · cases h
  · next u c₁ hbegin =>
    split at h
    · next a' c₃ hbody =>
      cases h
      obtain ⟨a', c₂, hx, hcommit⟩ := bind_eq_ok.mp hbody
      obtain ⟨rfl, hstore⟩ := query_eq_ok hcommit
      exact ⟨c₁, c₂, (query_eq_ok hbegin).2, hx, hstore⟩
    · cases h

theorem transaction_of_unfailing (e : E) (h : x ⟨s, none⟩ = (.ok a, ⟨s', none⟩)) :
    transaction e x ⟨s, none⟩ = (.ok a, ⟨s', none⟩) := by
  have hcommit : (x >>= fun a => query e fun _ => a) ⟨s, none⟩ = (.ok a, ⟨s', none⟩) := by
    rw [bind_of_ok h]
    rfl
  simp [transaction, query_of_unfailing, hcommit]

theorem transaction_of_error (e : E) {c : Conn S} (h : x ⟨s, none⟩ = (.error e', c)) :
    (transaction e x ⟨s, none⟩).1 = .error e' := by
  have hbody : (x >>= fun a => query e fun _ => a) ⟨s, none⟩ = (.error e', c) := by
    show proceed _ (x ⟨s, none⟩) = _
    rw [h]
    rfl
  simp [transaction, query_of_unfailing, hbody]

/-- **A transaction that raises leaves the store as it was.** -/
theorem transaction_eq_error {e : E} (h : transaction e x c = (.error e', c')) :
    c'.store = c.store := by
  unfold transaction at h
  split at h
  · next e₁ c₁ hbegin =>
    cases h
    exact statement_eq_error hbegin
  · split at h
    · cases h
    · cases h
      rfl

/-! ### How many statements were executed -/

/-- The second connection is the first one after `n` statements. -/
def Spent (n : Nat) (c c' : Conn S) : Prop := c.fuse = c'.fuse.map (· + n)

theorem Spent.refl (c : Conn S) : Spent 0 c c := by
  rw [Spent]
  cases c.fuse <;> rfl

theorem Spent.trans {c c' c'' : Conn S} (h : Spent n c c') (h' : Spent n' c' c'') :
    Spent (n' + n) c c'' := by
  rw [Spent] at h h' ⊢
  rw [h, h', Option.map_map]
  congr 1
  funext k
  exact Nat.add_assoc k n' n

theorem spent_statement {f : S → Except E (α × S)}
    (h : statement e f c = (.ok a, c')) : Spent 1 c c' := by
  unfold statement at h
  split at h
  · cases h
  · next c₁ htick =>
    have hfuse : c.fuse = c₁.fuse.map (· + 1) := by
      unfold tick at htick
      split at htick
      · cases htick
      · next n hn =>
        cases htick
        rw [hn]
        rfl
      · next hn =>
        cases htick
        rw [hn]
        rfl
    split at h
    · cases h
      exact hfuse
    · cases h

theorem spent_transaction (hx : ∀ c₁ c₂, c₁.store = c.store → x c₁ = (.ok a, c₂) → Spent n c₁ c₂)
    (h : transaction e x c = (.ok a, c')) : Spent (n + 2) c c' := by
  unfold transaction at h
  split at h
  · cases h
  · next u c₁ hbegin =>
    split at h
    · next a' c₃ hbody =>
      cases h
      obtain ⟨a₂, c₂, hrun, hcommit⟩ := bind_eq_ok.mp hbody
      obtain ⟨rfl, -⟩ := query_eq_ok hcommit
      have hspent := ((spent_statement hbegin).trans (hx _ _ (query_eq_ok hbegin).2 hrun)).trans
        (spent_statement hcommit)
      rwa [show 1 + (n + 1) = n + 2 by omega] at hspent
    · cases h

theorem query_eq_error {e : E} {f : S → α} (h : query e f c = (.error e', c')) :
    c.fuse = some 0 := by
  unfold query statement at h
  split at h
  · next htick =>
    unfold tick at htick
    split at htick
    · assumption
    · cases htick
    · cases htick
  · cases h

/-! ### Scripts that do not write -/

def Reads (x : Script S E α) : Prop := ∀ c, (x c).2.store = c.store

theorem Reads.of_eq (h : Reads x) (hrun : x c = (r, c')) : c'.store = c.store := by
  have hc := h c
  rwa [hrun] at hc

theorem reads_pure (a : α) : Reads (pure a : Script S E α) := fun _ => rfl

theorem reads_raise (e : E) : Reads (raise e : Script S E α) := fun _ => rfl

theorem reads_ofExcept (r : Except E α) : Reads (ofExcept r : Script S E α) := by
  intro c
  cases r <;> rfl

theorem reads_query (e : E) (f : S → α) : Reads (query e f) := by
  intro c
  rcases h : query e f c with ⟨r, c'⟩
  cases r with
  | ok a => exact (query_eq_ok h).2
  | error e' => exact statement_eq_error h

theorem reads_bind (hx : Reads x) (hf : ∀ a, Reads (f a)) : Reads (x >>= f) := by
  intro c
  show (proceed f (x c)).2.store = c.store
  rcases h : x c with ⟨r, c'⟩
  have hc' : c'.store = c.store := hx.of_eq h
  cases r with
  | ok a => exact (hf a c').trans hc'
  | error e => exact hc'

/-! ### What a script keeps -/

section Keeps
variable {R : S → S → Prop}

/-- The store before and the store after are related, however the script ends. -/
def Keeps (R : S → S → Prop) (x : Script S E α) : Prop := ∀ c, R c.store (x c).2.store

variable {x : Script S E α}

theorem Keeps.of_eq (h : Keeps R x) {c c' : Conn S} {r : Except E α}
    (hrun : x c = (r, c')) : R c.store c'.store := by
  have hc := h c
  rwa [hrun] at hc

theorem Reads.keeps (hrefl : ∀ s, R s s) (h : Reads x) : Keeps R x := by
  intro c
  rw [h c]
  exact hrefl c.store

theorem keeps_update {e : E} {f : S → Except E S} (hrefl : ∀ s, R s s)
    (hf : ∀ s s', f s = .ok s' → R s s') : Keeps R (update e f) := by
  intro c
  rcases h : update e f c with ⟨r, c'⟩
  cases r with
  | ok u => exact hf _ _ (update_eq_ok h)
  | error e' =>
    show R c.store c'.store
    rw [statement_eq_error h]
    exact hrefl c.store

theorem keeps_bind {f : α → Script S E β}
    (htrans : ∀ {s s' s''}, R s s' → R s' s'' → R s s'') (hx : Keeps R x)
    (hf : ∀ a, Keeps R (f a)) : Keeps R (x >>= f) := by
  intro c
  show R c.store (proceed f (x c)).2.store
  rcases h : x c with ⟨r, c'⟩
  cases r with
  | ok a => exact htrans (hx.of_eq h) (hf a c')
  | error e => exact hx.of_eq h

theorem keeps_transaction {e : E} (hrefl : ∀ s, R s s) (hx : Keeps R x) :
    Keeps R (transaction e x) := by
  intro c
  rcases h : transaction e x c with ⟨r, c'⟩
  cases r with
  | ok a =>
    obtain ⟨c₁, c₂, h₁, hrun, h₂⟩ := transaction_eq_ok h
    have hrel := hx.of_eq hrun
    rwa [h₁, ← h₂] at hrel
  | error e' =>
    show R c.store c'.store
    rw [transaction_eq_error h]
    exact hrefl c.store

end Keeps

end Script
