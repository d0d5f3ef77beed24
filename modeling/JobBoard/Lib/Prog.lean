import Mathlib.Logic.Basic

/-!
# Programs over a transactional database

`Prog D W ε α` is a program that talks to a database of type `D` one statement
at a time, with writes of type `W`, errors of type `ε` and a result of type
`α`. A statement reads the database its connection sees and issues the writes
it computes from it; the continuation sees what the statement saw. An `aside`
is a statement on another connection or a call to another service: it takes
effect at once, also while a transaction is open. `openTx h k` opens a
transaction, runs `k` inside it, and hands an error that leaves the
transaction to `h` once everything is rolled back.

How programs run, alone or interleaved, is `Txn.System`.
-/

set_option autoImplicit false

namespace Txn

/-- How writes change a database, and the locks each write takes. -/
structure Store (D W K : Type) where
  apply : D → W → D
  keys : W → List K

namespace Store

variable {D W K : Type} (S : Store D W K)

def applyAll (d : D) (ws : List W) : D := ws.foldl S.apply d

def locks (ws : List W) : List K := ws.flatMap S.keys

@[simp] theorem applyAll_nil (d : D) : S.applyAll d [] = d := rfl

@[simp] theorem applyAll_cons (d : D) (w : W) (ws : List W) :
    S.applyAll d (w :: ws) = S.applyAll (S.apply d w) ws := rfl

theorem applyAll_append (d : D) (ws vs : List W) :
    S.applyAll d (ws ++ vs) = S.applyAll (S.applyAll d ws) vs := by
  simp [applyAll, List.foldl_append]

@[simp] theorem locks_nil : S.locks [] = [] := rfl

@[simp] theorem locks_cons (w : W) (ws : List W) : S.locks (w :: ws) = S.keys w ++ S.locks ws := rfl

@[simp] theorem locks_append (ws vs : List W) : S.locks (ws ++ vs) = S.locks ws ++ S.locks vs := by
  simp [locks, List.flatMap_append]

end Store

inductive Prog (D W ε α : Type) where
  | ret (a : α)
  | throw (e : ε)
  /-- One statement on the program's own connection. -/
  | stmt (w : D → List W) (k : D → Prog D W ε α)
  /-- One statement outside the program's transaction, effective at once. -/
  | aside (w : D → List W) (k : D → Prog D W ε α)
  | openTx (h : ε → Prog D W ε α) (k : Prog D W ε α)
  | commit (k : Prog D W ε α)

namespace Prog

variable {D W K ε α β : Type}

def bind : Prog D W ε α → (α → Prog D W ε β) → Prog D W ε β
  | ret a, f => f a
  | throw e, _ => throw e
  | stmt w k, f => stmt w fun d => (k d).bind f
  | aside w k, f => aside w fun d => (k d).bind f
  | openTx h k, f => openTx (fun e => (h e).bind f) (k.bind f)
  | commit k, f => commit (k.bind f)

instance : Monad (Prog D W ε) where
  pure := ret
  bind := bind

@[simp] theorem pure_eq (a : α) : (pure a : Prog D W ε α) = ret a := rfl

@[simp] theorem ret_bind (a : α) (f : α → Prog D W ε β) : (ret a >>= f) = f a := rfl

@[simp] theorem throw_bind (e : ε) (f : α → Prog D W ε β) : (throw e >>= f) = throw e := rfl

@[simp] theorem stmt_bind (w : D → List W) (k : D → Prog D W ε α) (f : α → Prog D W ε β) :
    (stmt w k >>= f) = stmt w fun d => k d >>= f := rfl

@[simp] theorem aside_bind (w : D → List W) (k : D → Prog D W ε α) (f : α → Prog D W ε β) :
    (aside w k >>= f) = aside w fun d => k d >>= f := rfl

@[simp] theorem openTx_bind (h : ε → Prog D W ε α) (k : Prog D W ε α) (f : α → Prog D W ε β) :
    (openTx h k >>= f) = openTx (fun e => h e >>= f) (k >>= f) := rfl

@[simp] theorem commit_bind (k : Prog D W ε α) (f : α → Prog D W ε β) :
    (commit k >>= f) = commit (k >>= f) := rfl

theorem bind_assoc {γ : Type} (p : Prog D W ε α) (f : α → Prog D W ε β) (g : β → Prog D W ε γ) :
    (p >>= f >>= g) = p >>= fun a => f a >>= g := by
  induction p with
  | ret a => rfl
  | throw e => rfl
  | stmt w k ih => simp only [stmt_bind, ih]
  | aside w k ih => simp only [aside_bind, ih]
  | openTx h k ihh ihk => simp only [openTx_bind, ihh, ihk]
  | commit k ih => simp only [commit_bind, ih]

/-- The errors thrown by a program that opens no transaction, changed by `g`. -/
def mapError (g : ε → ε) : Prog D W ε α → Prog D W ε α
  | ret a => ret a
  | throw e => throw (g e)
  | stmt w k => stmt w fun d => (k d).mapError g
  | aside w k => aside w fun d => (k d).mapError g
  | openTx h k => openTx h k
  | commit k => commit (k.mapError g)

def ofExcept : Except ε α → Prog D W ε α
  | .ok a => ret a
  | .error e => throw e

/-- A read: no writes, no locks. -/
def select (f : D → α) : Prog D W ε α := stmt (fun _ => []) fun d => ret (f d)

/-- A statement that succeeds with writes and a result, or raises an error. -/
def query (f : D → Except ε (List W × α)) : Prog D W ε α :=
  stmt (fun d => match f d with | .ok r => r.1 | .error _ => [])
    fun d => match f d with | .ok r => ret r.2 | .error e => throw e

/-- A statement that issues the given writes. -/
def write (f : D → List W) : Prog D W ε Unit := stmt f fun _ => ret ()

/-- A call outside the transaction. -/
def outside (f : D → List W) : Prog D W ε Unit := aside f fun _ => ret ()

/-- `dataSource.transaction(body)` with a handler for the errors that leave it
and a continuation for the value it commits. -/
def transaction (body : Prog D W ε β) (h : ε → Prog D W ε α) (k : β → Prog D W ε α) :
    Prog D W ε α :=
  openTx h (body >>= fun b => commit (k b))

end Prog

end Txn
