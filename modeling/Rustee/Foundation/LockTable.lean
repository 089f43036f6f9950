/-
# Rustee.Foundation.LockTable -- rows under row locks

The part of a transactional store that read-committed transactions share: each key has
its committed row, and while a transaction holds the key's lock, the version that
transaction has made of it so far.  Other transactions keep seeing the committed row and
must wait for the lock.  A commit publishes the holder's versions and a rollback forgets
them; both release every lock the transaction holds.  A key with no row is a lock target
too: that is the unique-index entry an uncommitted insert leaves for other inserters to
wait on.

A statement that waits for a lock is evaluated when it has the lock.  So it reads
`latest`, the newest version of the row whoever made it (`view_eq_latest`), and nothing
commits to that row before its own transaction ends.  `latest` is what the invariants of
a component are about: writing changes it at one key, committing does not change it at
all (`latest_commit`), and a rollback takes it back to the committed row
(`latest_rollback`).
-/
import Mathlib.Logic.Function.Basic

namespace Rustee.Foundation

set_option autoImplicit false
set_option linter.unusedSectionVars false

universe u v w

structure LockTable (Key : Type u) (Row : Type v) (Txn : Type w) where
  /-- The committed rows. -/
  rows : Key → Option Row
  /-- Who holds a key's lock, and the holder's version of the row. -/
  held : Key → Option (Txn × Option Row)

namespace LockTable

variable {Key : Type u} {Row : Type v} {Txn : Type w} [DecidableEq Txn]

def empty : LockTable Key Row Txn := ⟨fun _ => none, fun _ => none⟩

/-- The row as transaction `t` sees it: its own version, or else the committed one. -/
def view (T : LockTable Key Row Txn) (t : Txn) (k : Key) : Option Row :=
  match T.held k with
  | some (holder, version) => if holder = t then version else T.rows k
  | none => T.rows k

/-- The newest version of the row, committed or not. -/
def latest (T : LockTable Key Row Txn) (k : Key) : Option Row :=
  match T.held k with
  | some (_, version) => version
  | none => T.rows k

def holder (T : LockTable Key Row Txn) (k : Key) : Option Txn :=
  (T.held k).map Prod.fst

/-- No other transaction holds the lock, so `t` need not wait. -/
def available (T : LockTable Key Row Txn) (t : Txn) (k : Key) : Bool :=
  match T.holder k with
  | some holder => holder = t
  | none => true

/-- What stays locked when `t` ends. -/
def release (T : LockTable Key Row Txn) (t : Txn) (k : Key) : Option (Txn × Option Row) :=
  if T.holder k = some t then none else T.held k

def commit (T : LockTable Key Row Txn) (t : Txn) : LockTable Key Row Txn :=
  ⟨T.view t, T.release t⟩

def rollback (T : LockTable Key Row Txn) (t : Txn) : LockTable Key Row Txn :=
  ⟨T.rows, T.release t⟩

/-- Take the lock of `k` for `t` and leave `version` as `t`'s version of the row.  Locking
without a change writes back what is there. -/
def write [DecidableEq Key] (T : LockTable Key Row Txn) (t : Txn) (k : Key)
    (version : Option Row) : LockTable Key Row Txn :=
  ⟨T.rows, Function.update T.held k (some (t, version))⟩

variable (T : LockTable Key Row Txn) (t : Txn) (k : Key)

/-! ## Reading -/

theorem view_eq_latest {T : LockTable Key Row Txn} {t : Txn} {k : Key}
    (free : T.available t k = true) : T.view t k = T.latest k := by
  unfold available holder at free
  unfold view latest
  cases held : T.held k with
  | none => rfl
  | some lock => simp_all

theorem view_eq_rows {T : LockTable Key Row Txn} {t : Txn} {k : Key}
    (other : T.holder k ≠ some t) : T.view t k = T.rows k := by
  unfold holder at other
  unfold view
  cases held : T.held k with
  | none => rfl
  | some lock => simp_all

theorem available_iff {T : LockTable Key Row Txn} {t : Txn} {k : Key} :
    T.available t k = true ↔ T.holder k = none ∨ T.holder k = some t := by
  unfold available
  cases T.holder k <;> simp

variable {version : Option Row}

theorem view_of_held {T : LockTable Key Row Txn} {t : Txn} {k : Key}
    (mine : T.held k = some (t, version)) : T.view t k = version := by
  simp [view, mine]

theorem view_of_unheld {T : LockTable Key Row Txn} {t : Txn} {k : Key}
    (other : ∀ version, T.held k ≠ some (t, version)) : T.view t k = T.rows k := by
  unfold view
  cases locked : T.held k with
  | none => rfl
  | some lock =>
    obtain ⟨holder, version⟩ := lock
    have different : holder ≠ t := by
      rintro rfl
      exact other version locked
    simp [different]

theorem held_of_available {T : LockTable Key Row Txn} {t holder : Txn} {k : Key}
    (free : T.available t k = true) (locked : T.held k = some (holder, version)) :
    holder = t := by
  rcases available_iff.1 free with unheld | mine
  · rw [LockTable.holder, locked] at unheld
    cases unheld
  · rw [LockTable.holder, locked] at mine
    exact Option.some.inj mine

/-! ## Ending a transaction -/

theorem held_commit {T : LockTable Key Row Txn} {t holder : Txn} {k : Key} :
    (T.commit t).held k = some (holder, version) ↔ T.held k = some (holder, version) ∧ holder ≠ t := by
  have released : (T.commit t).held k = if T.holder k = some t then none else T.held k := rfl
  rw [released]
  by_cases mine : T.holder k = some t
  · rw [if_pos mine]
    constructor
    · intro impossible
      cases impossible
    · rintro ⟨locked, other⟩
      rw [LockTable.holder, locked] at mine
      exact absurd (Option.some.inj mine) other
  · rw [if_neg mine]
    constructor
    · intro locked
      refine ⟨locked, ?_⟩
      rintro rfl
      exact mine (by rw [LockTable.holder, locked]; rfl)
    · exact fun held => held.1

theorem held_rollback {T : LockTable Key Row Txn} {t holder : Txn} {k : Key} :
    (T.rollback t).held k = some (holder, version) ↔
      T.held k = some (holder, version) ∧ holder ≠ t :=
  held_commit

@[simp] theorem commit_rows : (T.commit t).rows k = T.view t k := rfl

@[simp] theorem rollback_rows : (T.rollback t).rows k = T.rows k := rfl

@[simp] theorem holder_commit :
    (T.commit t).holder k = if T.holder k = some t then none else T.holder k := by
  unfold holder commit release
  simp only
  split <;> simp_all [holder]

@[simp] theorem holder_rollback :
    (T.rollback t).holder k = if T.holder k = some t then none else T.holder k :=
  holder_commit T t k

@[simp] theorem latest_commit : (T.commit t).latest k = T.latest k := by
  unfold latest commit release view holder
  cases held : T.held k with
  | none => simp [held]
  | some lock =>
    by_cases mine : lock.1 = t
    · simp [held, mine]
    · simp [held, mine]

theorem latest_rollback :
    (T.rollback t).latest k = if T.holder k = some t then T.rows k else T.latest k := by
  unfold latest rollback release holder
  cases held : T.held k with
  | none => simp [held]
  | some lock =>
    by_cases mine : lock.1 = t
    · simp [held, mine]
    · simp [held, mine]

/-! ## Writing -/

section Write

variable [DecidableEq Key]

@[simp] theorem latest_write (version : Option Row) (k' : Key) :
    (T.write t k version).latest k' = if k' = k then version else T.latest k' := by
  unfold latest write
  by_cases same : k' = k
  · subst same; simp
  · simp [same]

theorem held_write (version : Option Row) (k' : Key) :
    (T.write t k version).held k' = if k' = k then some (t, version) else T.held k' := by
  simp [write, Function.update_apply]

@[simp] theorem holder_write (version : Option Row) (k' : Key) :
    (T.write t k version).holder k' = if k' = k then some t else T.holder k' := by
  unfold holder write
  by_cases same : k' = k
  · subst same; simp
  · simp [same]

end Write

end LockTable

end Rustee.Foundation
