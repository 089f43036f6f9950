/-
# Rustee.Mongo.Checkpoint -- the change-stream checkpoint of one consumer

`rustee-mongodb-checkpoint-sqlx/src/store.rs`, for one consumer: its lease row, its checkpoint
row, the database clock, and the saves that are on their way.

A lease statement changes one row at once.  The clock readings it was evaluated with are inputs,
and may be older than the moment its change becomes visible.  A save is one statement over two
tables, in the steps that other statements can come between: it takes its snapshot of the lease
row, tests it, inserts the checkpoint row or waits for its lock and tests again, and commits.
The snapshot stays what it was; the clock does not.
-/
import Rustee.Foundation.Machine

namespace Rustee.Mongo.Checkpoint

open Rustee.Foundation

set_option autoImplicit false

/-! ## Rows -/

/-- A positive number of whole milliseconds, one hour at most. -/
abbrev ChangeStreamLeaseDuration :=
  { milliseconds : Nat // 0 < milliseconds ∧ milliseconds ≤ 3600000 }

structure LeaseRow (Owner : Type) where
  owner : Owner
  /-- In microseconds, as the clock. -/
  expiresAt : Nat
  /-- How many leases had begun with this one.  No statement reads it. -/
  term : Nat
  deriving DecidableEq, Repr

structure CheckpointRow (Token : Type) where
  resumeToken : Token
  /-- The term of the lease that it was saved under.  No statement reads it. -/
  term : Nat
  deriving DecidableEq, Repr

inductive Phase where
  /-- The snapshot is taken. -/
  | begun
  /-- The first test is passed. -/
  | tested
  /-- The row is inserted or locked, and written. -/
  | locked
  deriving DecidableEq, Repr

/-- A `save_while_leased` on its way. -/
structure Save (Owner Token : Type) where
  owner : Owner
  resumeToken : Token
  /-- The lease row as the statement sees it. -/
  snapshot : Option (LeaseRow Owner)
  phase : Phase
  deriving DecidableEq, Repr

variable {Owner Token : Type} [DecidableEq Owner]

/-- `EXISTS (SELECT 1 .. WHERE consumer = $1 AND owner = $3 AND expires_at > clock_timestamp())`. -/
def Save.isLeased (save : Save Owner Token) (now : Nat) : Bool :=
  save.snapshot.any fun row => row.owner = save.owner ∧ now < row.expiresAt

/-- The term it saves under. -/
def Save.term (save : Save Owner Token) : Nat := (save.snapshot.map LeaseRow.term).getD 0

structure State (Owner Token : Type) where
  now : Nat
  lease : Option (LeaseRow Owner)
  checkpoint : Option (CheckpointRow Token)
  /-- The save that has inserted or locked the checkpoint row. -/
  writer : Option Nat
  saves : Nat → Option (Save Owner Token)
  /-- How many leases have begun. -/
  terms : Nat

inductive Input (Owner Token : Type) where
  | tick (later : Nat)
  | tryAcquireLease (owner : Owner) (duration : ChangeStreamLeaseDuration) (started reading : Nat)
  | renewLease (owner : Owner) (duration : ChangeStreamLeaseDuration) (started reading : Nat)
  | releaseLease (owner : Owner)
  | begin (id : Nat) (owner : Owner) (resumeToken : Token)
  | test (id : Nat)
  | write (id : Nat)
  | commit (id : Nat)
  /-- The connection or the process is gone. -/
  | abort (id : Nat)
  deriving DecidableEq

inductive Output where
  | quiet
  | acquired
  | contended
  | renewed
  | released
  | leaseLost
  | passed
  | locked
  | saved
  deriving DecidableEq, Repr

/-! ## Statements -/

/-- `clock_timestamp() + ($3::bigint * INTERVAL '1 millisecond')`. -/
def expiry (started : Nat) (duration : ChangeStreamLeaseDuration) : Nat :=
  started + duration.val * 1000

def tryAcquireLease (s : State Owner Token) (owner : Owner) (duration : ChangeStreamLeaseDuration)
    (started reading : Nat) : State Owner Token × Output :=
  let begins : State Owner Token :=
    { s with lease := some ⟨owner, expiry started duration, s.terms + 1⟩, terms := s.terms + 1 }
  match s.lease with
  | none => (begins, .acquired)
  | some row =>
    if row.owner = owner then
      ({ s with lease := some { row with expiresAt := expiry started duration } }, .acquired)
    else if row.expiresAt ≤ reading then (begins, .acquired)
    else (s, .contended)

def renewLease (s : State Owner Token) (owner : Owner) (duration : ChangeStreamLeaseDuration)
    (started reading : Nat) : State Owner Token × Output :=
  match s.lease with
  | none => (s, .leaseLost)
  | some row =>
    if row.owner = owner ∧ reading < row.expiresAt then
      ({ s with lease := some { row with expiresAt := expiry started duration } }, .renewed)
    else (s, .leaseLost)

def releaseLease (s : State Owner Token) (owner : Owner) : State Owner Token × Output :=
  match s.lease with
  | none => (s, .leaseLost)
  | some row => if row.owner = owner then ({ s with lease := none }, .released) else (s, .leaseLost)

def State.setSave (s : State Owner Token) (id : Nat) (save : Option (Save Owner Token)) :
    State Owner Token :=
  { s with saves := Function.update s.saves id save }

/-- The first test, on the way to the insert. -/
def testSave (s : State Owner Token) (id : Nat) : Option (State Owner Token × Output) :=
  match s.saves id with
  | some ⟨owner, token, snapshot, .begun⟩ =>
    let save : Save Owner Token := ⟨owner, token, snapshot, .tested⟩
    if save.isLeased s.now then some (s.setSave id (some save), .passed)
    else some (s.setSave id none, .leaseLost)
  | _ => none

/-- The insert; where there is a row, its lock and the test again. -/
def writeSave (s : State Owner Token) (id : Nat) : Option (State Owner Token × Output) :=
  match s.writer, s.saves id with
  | none, some ⟨owner, token, snapshot, .tested⟩ =>
    let save : Save Owner Token := ⟨owner, token, snapshot, .locked⟩
    if s.checkpoint = none ∨ save.isLeased s.now then
      some ({ s.setSave id (some save) with writer := some id }, .locked)
    else some (s.setSave id none, .leaseLost)
  | _, _ => none

def commitSave (s : State Owner Token) (id : Nat) : Option (State Owner Token × Output) :=
  match s.saves id with
  | some ⟨owner, token, snapshot, .locked⟩ =>
    let save : Save Owner Token := ⟨owner, token, snapshot, .locked⟩
    some ({ s.setSave id none with checkpoint := some ⟨token, save.term⟩, writer := none }, .saved)
  | _ => none

def abortSave (s : State Owner Token) (id : Nat) : Option (State Owner Token × Output) :=
  match s.saves id with
  | some _ =>
    some ({ s.setSave id none with writer := if s.writer = some id then none else s.writer },
      .quiet)
  | none => none

def step (s : State Owner Token) : Input Owner Token → Option (State Owner Token × Output)
  | .tick later => some ({ s with now := s.now + later }, .quiet)
  | .tryAcquireLease owner duration started reading =>
    if started ≤ s.now ∧ reading ≤ s.now then
      some (tryAcquireLease s owner duration started reading)
    else none
  | .renewLease owner duration started reading =>
    if started ≤ s.now ∧ reading ≤ s.now then some (renewLease s owner duration started reading)
    else none
  | .releaseLease owner => some (releaseLease s owner)
  | .begin id owner token =>
    match s.saves id with
    | none => some (s.setSave id (some ⟨owner, token, s.lease, .begun⟩), .quiet)
    | some _ => none
  | .test id => testSave s id
  | .write id => writeSave s id
  | .commit id => commitSave s id
  | .abort id => abortSave s id

/-- Any rows, at any time, with nothing on its way; the lease is the newest that began. -/
structure State.Initial (s : State Owner Token) : Prop where
  newest : ∀ row, s.lease = some row → row.term = s.terms
  saved : ∀ row, s.checkpoint = some row → row.term ≤ s.terms
  unlocked : s.writer = none
  idle : ∀ id, s.saves id = none

def machine (Owner Token : Type) [DecidableEq Owner] :
    Machine (State Owner Token) (Input Owner Token) Output where
  initial := State.Initial
  step := step

end Rustee.Mongo.Checkpoint
