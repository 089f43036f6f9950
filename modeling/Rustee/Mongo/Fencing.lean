/-
# Rustee.Mongo.Fencing -- a stale save does not overwrite a newer checkpoint

A save tests the lease row of its snapshot, so it goes by the expiry that it read when it began.
While that has not come, nobody else can have taken the lease: `Inv.guarded`, which needs that
owners release only when their saves are done and that no owner makes its own lease shorter.
Without the second, `shorter_lease_overwrites` is a run in which a stale token replaces a newer one.

Between its last test and its commit a save can still be overtaken by a lease that begins: it
replaces nothing newer, but it returns late.  Where no lease begins while a save is that far, a save
that returns has been made under the newest lease (`Settled`).  `checkpoint_fenced` has both.
-/
import Rustee.Mongo.Checkpoint

namespace Rustee.Mongo.Checkpoint

open Rustee.Foundation

set_option autoImplicit false
set_option linter.unusedSectionVars false

variable {Owner Token : Type} [DecidableEq Owner]

/-! ## What is promised -/

/-- `owner` has the lease, and it has not run out. -/
def Holds (s : State Owner Token) (owner : Owner) : Prop :=
  ∃ row, s.lease = some row ∧ row.owner = owner ∧ s.now < row.expiresAt

structure Fenced (s : State Owner Token) : Prop where
  oneHolder : ∀ one other, Holds s one → Holds s other → one = other
  /-- What a save replaces was not saved under a later lease. -/
  replaces : ∀ id save after, s.saves id = some save →
    step s (.commit id) = some (after, .saved) →
    ∀ old, s.checkpoint = some old → old.term ≤ save.term
  /-- A save that replaces a checkpoint does so before a later lease begins. -/
  locks : ∀ id save after, s.saves id = some save →
    step s (.write id) = some (after, .locked) → s.checkpoint ≠ none → save.term = s.terms
  /-- So is the first test passed before. -/
  passes : ∀ id save after, s.saves id = some save →
    step s (.test id) = some (after, .passed) → save.term = s.terms

/-- Owners release their lease when their own saves have returned. -/
def releasesIdle (s : State Owner Token) : Input Owner Token → Prop
  | .releaseLease owner => ∀ id save, s.saves id = some save → save.owner ≠ owner
  | _ => True

/-- The owner of the lease does not move its expiry back. -/
def keepsExpiry (s : State Owner Token) : Input Owner Token → Bool
  | .tryAcquireLease owner duration started _ | .renewLease owner duration started _ =>
    s.lease.all fun row => row.owner ≠ owner || row.expiresAt ≤ expiry started duration
  | _ => true

/-- No save is between its last test and its commit.  Where there is no checkpoint row, the first
test is the last. -/
def State.Quiet (s : State Owner Token) : Prop :=
  s.writer = none ∧
    (s.checkpoint = none → ∀ id save, s.saves id = some save → save.phase ≠ .tested)

/-- A lease begins only when no save is past its last test. -/
def takesQuiet (s : State Owner Token) : Input Owner Token → Prop
  | .tryAcquireLease owner .. => (∃ row, s.lease = some row ∧ row.owner = owner) ∨ s.Quiet
  | _ => True

/-- A save that returns was made under the newest lease. -/
def InTime (s : State Owner Token) : Prop :=
  ∀ id save after, s.saves id = some save → step s (.commit id) = some (after, .saved) →
    save.term = s.terms

/-! ## What a step does -/

/-- What a save goes on with. -/
def Output.isProgress : Output → Bool
  | .passed | .locked | .saved => true
  | _ => false

inductive Effect (s : State Owner Token) : Input Owner Token → State Owner Token → Output → Prop
  /-- Nothing changes but the clock. -/
  | waits (input : Input Owner Token) (later : Nat) {output : Output}
      (plain : output.isProgress = false) : Effect s input { s with now := s.now + later } output
  /-- A lease begins, where there is none or another that has run out. -/
  | takes (input : Input Owner Token) (owner : Owner) (expiresAt : Nat)
      (free : ∀ row, s.lease = some row → row.expiresAt ≤ s.now)
      (quiet : takesQuiet s input → s.Quiet) :
      Effect s input { s with lease := some ⟨owner, expiresAt, s.terms + 1⟩
                              terms := s.terms + 1 } .acquired
  /-- The owner of the lease sets its expiry. -/
  | extends_ {input : Input Owner Token} {row : LeaseRow Owner} {expiresAt : Nat}
      (isRow : s.lease = some row)
      (kept : keepsExpiry s input = true → row.expiresAt ≤ expiresAt) {output : Output}
      (plain : output.isProgress = false) :
      Effect s input { s with lease := some { row with expiresAt } } output
  | releases {row : LeaseRow Owner} (isRow : s.lease = some row) :
      Effect s (.releaseLease row.owner) { s with lease := none } .released
  | begins (id : Nat) (owner : Owner) (token : Token) (fresh : s.saves id = none) :
      Effect s (.begin id owner token) (s.setSave id (some ⟨owner, token, s.lease, .begun⟩)) .quiet
  | passes {id : Nat} {save : Save Owner Token} (isSave : s.saves id = some save)
      (isBegun : save.phase = .begun) (leased : save.isLeased s.now = true) :
      Effect s (.test id) (s.setSave id (some { save with phase := .tested })) .passed
  | refused {id : Nat} {save : Save Owner Token} (input : Input Owner Token)
      (isSave : s.saves id = some save) (notLocked : save.phase ≠ .locked) :
      Effect s input (s.setSave id none) .leaseLost
  | locks {id : Nat} {save : Save Owner Token} (isSave : s.saves id = some save)
      (isTested : save.phase = .tested) (free : s.writer = none)
      (leased : s.checkpoint = none ∨ save.isLeased s.now = true) :
      Effect s (.write id)
        { s.setSave id (some { save with phase := .locked }) with writer := some id } .locked
  | saves {id : Nat} {save : Save Owner Token} (isSave : s.saves id = some save)
      (isLocked : save.phase = .locked) :
      Effect s (.commit id) { s.setSave id none with
        checkpoint := some ⟨save.resumeToken, save.term⟩, writer := none } .saved
  | aborts {id : Nat} {save : Save Owner Token} (isSave : s.saves id = some save) :
      Effect s (.abort id) { s.setSave id none with
        writer := if s.writer = some id then none else s.writer } .quiet

variable {output : Output} {s : State Owner Token} {id : Nat} {save : Save Owner Token}

theorem effect_refl (s : State Owner Token) (input : Input Owner Token)
    (plain : output.isProgress = false) : Effect s input s output :=
  .waits input 0 plain

theorem tryAcquireLease_effect (s : State Owner Token) (owner : Owner)
    (duration : ChangeStreamLeaseDuration) (started : Nat) {reading : Nat} (past : reading ≤ s.now) :
    Effect s (.tryAcquireLease owner duration started reading)
      (tryAcquireLease s owner duration started reading).1
      (tryAcquireLease s owner duration started reading).2 := by
  unfold tryAcquireLease
  cases isLease : s.lease with
  | none =>
    refine .takes _ owner _ (by simp [isLease]) fun quiet => quiet.resolve_left ?_
    simp [isLease]
  | some row =>
    simp only
    split
    · rename_i mine
      refine .extends_ isLease (fun kept => ?_) rfl
      simpa [keepsExpiry, isLease, mine] using kept
    · rename_i notMine
      split
      · rename_i expired
        refine .takes _ owner _ (fun other isOther => ?_) fun quiet => quiet.resolve_left ?_
        · rw [isLease] at isOther
          cases isOther
          exact Nat.le_trans expired past
        · rintro ⟨other, isOther, mine⟩
          rw [isLease] at isOther
          cases isOther
          exact notMine mine
      · exact effect_refl s _ rfl

theorem renewLease_effect (s : State Owner Token) (owner : Owner)
    (duration : ChangeStreamLeaseDuration) (started reading : Nat) :
    Effect s (.renewLease owner duration started reading)
      (renewLease s owner duration started reading).1
      (renewLease s owner duration started reading).2 := by
  unfold renewLease
  cases isLease : s.lease with
  | none => exact effect_refl s _ rfl
  | some row =>
    simp only
    split
    · rename_i mine
      refine .extends_ isLease (fun kept => ?_) rfl
      simpa [keepsExpiry, isLease, mine.1] using kept
    · exact effect_refl s _ rfl

theorem releaseLease_effect (s : State Owner Token) (owner : Owner) :
    Effect s (.releaseLease owner) (releaseLease s owner).1 (releaseLease s owner).2 := by
  unfold releaseLease
  cases isLease : s.lease with
  | none => exact effect_refl s _ rfl
  | some row =>
    simp only
    split
    · rename_i mine
      subst mine
      exact .releases isLease
    · exact effect_refl s _ rfl

theorem save_step_effect {after : State Owner Token} :
    (testSave s id = some (after, output) → Effect s (.test id) after output) ∧
      (writeSave s id = some (after, output) → Effect s (.write id) after output) ∧
      (commitSave s id = some (after, output) → Effect s (.commit id) after output) ∧
      (abortSave s id = some (after, output) → Effect s (.abort id) after output) := by
  refine ⟨fun stepped => ?_, fun stepped => ?_, fun stepped => ?_, fun stepped => ?_⟩
  · unfold testSave at stepped
    split at stepped
    · rename_i owner token snapshot isSave
      simp only at stepped
      split at stepped
      · rename_i leased
        cases stepped
        exact .passes isSave rfl leased
      · cases stepped
        exact .refused _ isSave (by simp)
    · cases stepped
  · unfold writeSave at stepped
    split at stepped
    · rename_i owner token snapshot free isSave
      simp only at stepped
      split at stepped
      · rename_i leased
        cases stepped
        exact .locks isSave rfl free leased
      · cases stepped
        exact .refused _ isSave (by simp)
    · cases stepped
  · unfold commitSave at stepped
    split at stepped
    · rename_i owner token snapshot isSave
      cases stepped
      exact .saves isSave rfl
    · cases stepped
  · unfold abortSave at stepped
    split at stepped
    · rename_i save isSave
      cases stepped
      exact .aborts isSave
    · cases stepped

/-- **Everything a step can do.** -/
theorem step_effect {after : State Owner Token} {input : Input Owner Token}
    (stepped : step s input = some (after, output)) : Effect s input after output := by
  cases input with
  | tick later =>
    cases stepped
    exact .waits _ later rfl
  | tryAcquireLease owner duration started reading =>
    simp only [step] at stepped
    split at stepped
    · rename_i past
      have effect := tryAcquireLease_effect s owner duration started past.2
      rwa [Option.some.inj stepped] at effect
    · cases stepped
  | renewLease owner duration started reading =>
    simp only [step] at stepped
    split at stepped
    · have effect := renewLease_effect s owner duration started reading
      rwa [Option.some.inj stepped] at effect
    · cases stepped
  | releaseLease owner =>
    have effect := releaseLease_effect s owner
    rwa [Option.some.inj stepped] at effect
  | begin id owner token =>
    simp only [step] at stepped
    split at stepped
    · rename_i fresh
      cases stepped
      exact .begins id owner token fresh
    · cases stepped
  | test id => exact save_step_effect.1 stepped
  | write id => exact save_step_effect.2.1 stepped
  | commit id => exact save_step_effect.2.2.1 stepped
  | abort id => exact save_step_effect.2.2.2 stepped

/-! ## The invariant -/

/-- The save goes by a lease of its own. -/
def Save.Owns (save : Save Owner Token) (row : LeaseRow Owner) : Prop :=
  save.snapshot = some row ∧ row.owner = save.owner

structure Inv (s : State Owner Token) : Prop where
  newest : ∀ row, s.lease = some row → row.term = s.terms
  saved : ∀ old, s.checkpoint = some old → old.term ≤ s.terms
  seen : ∀ id save, s.saves id = some save → save.term ≤ s.terms
  /-- While the expiry of its snapshot has not come, a save's lease is the lease. -/
  guarded : ∀ id save row, s.saves id = some save → save.Owns row → s.now < row.expiresAt →
    ∃ current, s.lease = some current ∧ current.owner = row.owner ∧ current.term = row.term ∧
      row.expiresAt ≤ current.expiresAt
  /-- One save at a time has the checkpoint row. -/
  exclusive : ∀ id save, s.saves id = some save → save.phase = .locked → s.writer = some id
  /-- And what it found there was not saved under a later lease. -/
  replaces : ∀ id save, s.saves id = some save → save.phase = .locked →
    ∀ old, s.checkpoint = some old → old.term ≤ save.term

theorem Inv.of_initial (initial : s.Initial) : Inv s := by
  have idle : ∀ id save, s.saves id ≠ some save := by
    intro id save isSave
    rw [initial.idle] at isSave
    cases isSave
  exact ⟨initial.newest, initial.saved, fun id save isSave => absurd isSave (idle id save),
    fun id save row isSave => absurd isSave (idle id save),
    fun id save isSave => absurd isSave (idle id save),
    fun id save isSave => absurd isSave (idle id save)⟩

theorem isLeased_iff {now : Nat} : save.isLeased now = true ↔
    ∃ row, save.Owns row ∧ now < row.expiresAt := by
  unfold Save.isLeased Save.Owns
  cases save.snapshot with
  | none => simp
  | some row => simp [and_assoc]

/-- A save whose test passes goes by the newest lease. -/
theorem Inv.term_eq (inv : Inv s) (isSave : s.saves id = some save)
    (leased : save.isLeased s.now = true) :
    save.term = s.terms := by
  obtain ⟨row, owns, unexpired⟩ := isLeased_iff.1 leased
  obtain ⟨current, isCurrent, -, sameTerm, -⟩ := inv.guarded id save row isSave owns unexpired
  rw [Save.term, owns.1, Option.map_some, Option.getD_some, ← sameTerm]
  exact inv.newest current isCurrent

theorem saves_setSave {other : Nat} {change : Option (Save Owner Token)} :
    (s.setSave id change).saves other = some save ↔
      (other = id ∧ change = some save) ∨ (other ≠ id ∧ s.saves other = some save) := by
  have updated : (s.setSave id change).saves other = Function.update s.saves id change other := rfl
  rw [updated, Function.update_apply]
  by_cases same : other = id
  · simp [same]
  · simp [same]

/-- A save that goes leaves the others as they were. -/
theorem saves_of_removed {other : Nat} (isSave : (s.setSave id none).saves other = some save) :
    other ≠ id ∧ s.saves other = some save := by
  rcases saves_setSave.1 isSave with ⟨-, impossible⟩ | kept
  · cases impossible
  · exact kept

theorem Inv.removed (inv : Inv s) (id : Nat) : Inv (s.setSave id none) := by
  refine ⟨inv.newest, inv.saved, ?_, ?_, ?_, ?_⟩
  · intro other save isSave
    exact inv.seen other save (saves_of_removed isSave).2
  · intro other save row isSave
    exact inv.guarded other save row (saves_of_removed isSave).2
  · intro other save isSave
    exact inv.exclusive other save (saves_of_removed isSave).2
  · intro other save isSave
    exact inv.replaces other save (saves_of_removed isSave).2

/-- A save that begins or moves on, whose lease is the lease while its snapshot has not run out. -/
theorem Inv.set (inv : Inv s) {change : Save Owner Token} {writer : Option Nat}
    (seen : change.term ≤ s.terms)
    (guarded : ∀ row, change.Owns row → s.now < row.expiresAt → ∃ current, s.lease = some current ∧
      current.owner = row.owner ∧ current.term = row.term ∧ row.expiresAt ≤ current.expiresAt)
    (locked : ∀ other found, (s.setSave id (some change)).saves other = some found →
      found.phase = .locked →
        writer = some other ∧ ∀ old, s.checkpoint = some old → old.term ≤ found.term) :
    Inv { s.setSave id (some change) with writer } := by
  refine ⟨inv.newest, inv.saved, ?_, ?_, ?_, ?_⟩
  · intro other found isFound
    rcases saves_setSave.1 isFound with ⟨rfl, same⟩ | ⟨-, isFound⟩
    · cases same
      exact seen
    · exact inv.seen other found isFound
  · intro other found row isFound owns
    rcases saves_setSave.1 isFound with ⟨rfl, same⟩ | ⟨-, isFound⟩
    · cases same
      exact guarded row owns
    · exact inv.guarded other found row isFound owns
  · exact fun other found isFound isLocked => (locked other found isFound isLocked).1
  · exact fun other found isFound isLocked => (locked other found isFound isLocked).2

/-- The save does not have the checkpoint row, and who has it keeps it. -/
theorem Inv.locked_of_unlocked (inv : Inv s) {change found : Save Owner Token} {other : Nat}
    (isFound : (s.setSave id (some change)).saves other = some found)
    (unlocked : change.phase ≠ .locked) (isLocked : found.phase = .locked) :
    s.writer = some other ∧ ∀ old, s.checkpoint = some old → old.term ≤ found.term := by
  rcases saves_setSave.1 isFound with ⟨-, same⟩ | ⟨-, isFound⟩
  · cases same
    exact absurd isLocked unlocked
  · exact ⟨inv.exclusive other found isFound isLocked, inv.replaces other found isFound isLocked⟩

theorem Inv.next {s after : State Owner Token} {input : Input Owner Token} {output : Output}
    (inv : Inv s) (idle : releasesIdle s input) (keeps : keepsExpiry s input = true)
    (effect : Effect s input after output) : Inv after := by
  cases effect with
  | waits _ later =>
    refine ⟨inv.newest, inv.saved, inv.seen, ?_, inv.exclusive, inv.replaces⟩
    intro id save row isSave owns unexpired
    exact inv.guarded id save row isSave owns (by simp only at unexpired; omega)
  | takes _ owner expiresAt free quiet =>
    refine ⟨?_, ?_, ?_, ?_, inv.exclusive, inv.replaces⟩
    · rintro row ⟨⟩
      rfl
    · exact fun old isOld => Nat.le_succ_of_le (inv.saved old isOld)
    · exact fun id save isSave => Nat.le_succ_of_le (inv.seen id save isSave)
    · -- an unexpired snapshot would be of the lease that has run out
      intro id save row isSave owns unexpired
      obtain ⟨current, isCurrent, -, -, later⟩ := inv.guarded id save row isSave owns unexpired
      have expired := free current isCurrent
      simp only at unexpired
      omega
  | @extends_ _ row expiresAt isRow kept =>
    refine ⟨?_, inv.saved, inv.seen, ?_, inv.exclusive, inv.replaces⟩
    · rintro other ⟨⟩
      exact inv.newest row isRow
    · intro id save seen isSave owns unexpired
      obtain ⟨current, isCurrent, sameOwner, sameTerm, later⟩ :=
        inv.guarded id save seen isSave owns unexpired
      rw [isRow] at isCurrent
      cases isCurrent
      exact ⟨_, rfl, sameOwner, sameTerm, Nat.le_trans later (kept keeps)⟩
  | @releases row isRow =>
    refine ⟨by simp, inv.saved, inv.seen, ?_, inv.exclusive, inv.replaces⟩
    intro id save seen isSave owns unexpired
    obtain ⟨current, isCurrent, sameOwner, -⟩ := inv.guarded id save seen isSave owns unexpired
    rw [isRow] at isCurrent
    cases isCurrent
    exact absurd (owns.2.symm.trans sameOwner.symm) (idle id save isSave)
  | begins id owner token fresh =>
    refine inv.set ?_ (fun row owns _ => ⟨row, owns.1, rfl, rfl, Nat.le_refl _⟩)
      fun other found isFound => inv.locked_of_unlocked isFound nofun
    unfold Save.term
    cases isLease : s.lease with
    | none => exact Nat.zero_le _
    | some row => exact Nat.le_of_eq (inv.newest row isLease)
  | @passes id save isSave isBegun leased =>
    exact inv.set (inv.seen id save isSave) (fun row => inv.guarded id save row isSave)
      fun other found isFound => inv.locked_of_unlocked isFound nofun
  | @refused id save _ isSave notLocked => exact inv.removed id
  | @locks id save isSave isTested free leased =>
    refine inv.set (inv.seen id save isSave) (fun row => inv.guarded id save row isSave)
      fun other found isFound isLocked => ?_
    rcases saves_setSave.1 isFound with ⟨rfl, same⟩ | ⟨-, isFound⟩
    · cases same
      refine ⟨rfl, fun old isOld => ?_⟩
      rcases leased with noRow | leased
      · rw [noRow] at isOld
        cases isOld
      · have newest : save.term = s.terms := inv.term_eq isSave leased
        have notLater := inv.saved old isOld
        have sameTerm : Save.term { save with phase := .locked } = save.term := rfl
        omega
    · -- nobody else can have the row
      have taken := inv.exclusive other found isFound isLocked
      rw [free] at taken
      cases taken
  | @saves id save isSave isLocked =>
    have alone : ∀ other found, (s.setSave id none).saves other = some found →
        found.phase ≠ .locked := by
      intro other found isFound otherLocked
      obtain ⟨differs, isFound⟩ := saves_of_removed isFound
      have mine := inv.exclusive id save isSave isLocked
      rw [inv.exclusive other found isFound otherLocked] at mine
      exact differs (Option.some.inj mine)
    have rest := inv.removed id
    refine ⟨rest.newest, ?_, rest.seen, rest.guarded, ?_, ?_⟩
    · rintro old ⟨⟩
      exact inv.seen id save isSave
    · exact fun other found isFound isLocked => absurd isLocked (alone other found isFound)
    · exact fun other found isFound isLocked => absurd isLocked (alone other found isFound)
  | @aborts id save isSave =>
    have rest := inv.removed id
    refine ⟨rest.newest, rest.saved, rest.seen, rest.guarded, ?_, rest.replaces⟩
    intro other found isFound isLocked
    have taken := rest.exclusive other found isFound isLocked
    have differs := (saves_of_removed isFound).1
    have sameWriter : s.writer = some other := taken
    simp [sameWriter, differs]

/-! ## Every run -/

theorem fenced_of_inv (inv : Inv s) : Fenced s := by
  refine ⟨?_, ?_, ?_, ?_⟩
  · rintro one other ⟨row, isRow, rfl, -⟩ ⟨row', isRow', rfl, -⟩
    rw [isRow] at isRow'
    cases isRow'
    rfl
  · intro id save after isSave stepped old isOld
    cases step_effect stepped with
    | waits _ _ plain => cases plain
    | extends_ _ _ plain => cases plain
    | saves isSave' isLocked =>
      rw [isSave] at isSave'
      cases isSave'
      exact inv.replaces id save isSave isLocked old isOld
  · intro id save after isSave stepped someRow
    cases step_effect stepped with
    | waits _ _ plain => cases plain
    | extends_ _ _ plain => cases plain
    | locks isSave' isTested free leased =>
      rw [isSave] at isSave'
      cases isSave'
      exact inv.term_eq isSave (leased.resolve_left someRow)
  · intro id save after isSave stepped
    cases step_effect stepped with
    | waits _ _ plain => cases plain
    | extends_ _ _ plain => cases plain
    | passes isSave' isBegun leased =>
      rw [isSave] at isSave'
      cases isSave'
      exact inv.term_eq isSave leased

theorem inv_run {trace : List (Input Owner Token × Output)}
    (run : (machine Owner Token).Run
      (fun s _ input => releasesIdle s input ∧ keepsExpiry s input = true) s trace) : Inv s := by
  induction run with
  | start initial => exact .of_initial initial
  | next run admitted stepped ih => exact ih.next admitted.1 admitted.2 (step_effect stepped)

/-- A save past its last test was begun under the newest lease. -/
def Settled (s : State Owner Token) : Prop :=
  ∀ id save, s.saves id = some save →
    save.phase = .locked ∨ save.phase = .tested ∧ s.checkpoint = none → save.term = s.terms

theorem Settled.removed (settled : Settled s) (id : Nat) : Settled (s.setSave id none) :=
  fun other save isSave => settled other save (saves_of_removed isSave).2

/-- A save that moves on is the only one that has anything to show. -/
theorem Settled.moved (settled : Settled s) {change : Save Owner Token} {writer : Option Nat}
    (newest : change.phase ≠ .begun → change.term = s.terms) :
    Settled { s.setSave id (some change) with writer } := by
  intro other found isFound far
  rcases saves_setSave.1 isFound with ⟨-, same⟩ | ⟨-, isFound⟩
  · cases same
    refine newest fun isBegun => ?_
    simp [isBegun] at far
  · exact settled other found isFound far

theorem Settled.next {s after : State Owner Token} {input : Input Owner Token} {output : Output}
    (settled : Settled s) (inv : Inv s) (quiet : takesQuiet s input)
    (effect : Effect s input after output) : Settled after := by
  cases effect with
  | waits | extends_ | releases => exact settled
  | takes _ owner expiresAt free isQuiet =>
    obtain ⟨unlocked, untested⟩ := isQuiet quiet
    rintro id save isSave (isLocked | ⟨isTested, noRow⟩)
    · have taken := inv.exclusive id save isSave isLocked
      rw [unlocked] at taken
      cases taken
    · exact absurd isTested (untested noRow id save isSave)
  | begins id owner token fresh => exact settled.moved fun begun => absurd rfl begun
  | @passes id save isSave isBegun leased =>
    have newest : save.term = s.terms := inv.term_eq isSave leased
    exact settled.moved fun _ => newest
  | @refused id save _ isSave notLocked => exact settled.removed id
  | @locks id save isSave isTested free leased =>
    have newest : save.term = s.terms := by
      rcases leased with noRow | leased
      · exact settled id save isSave (.inr ⟨isTested, noRow⟩)
      · exact inv.term_eq isSave leased
    exact settled.moved fun _ => newest
  | @saves id save isSave isLocked =>
    rintro other found isFound (isLocked | ⟨-, noRow⟩)
    · exact settled.removed id other found isFound (.inl isLocked)
    · cases noRow
  | @aborts id save isSave => exact settled.removed id

theorem settled_run {trace : List (Input Owner Token × Output)}
    (run : (machine Owner Token).Run (fun s _ input => (releasesIdle s input ∧
      keepsExpiry s input = true) ∧ takesQuiet s input) s trace) : Settled s := by
  induction run with
  | start initial =>
    intro id save isSave
    rw [initial.idle] at isSave
    cases isSave
  | next run admitted stepped ih =>
    have inv := inv_run (run.mono fun _ _ _ admitted => admitted.1)
    exact ih.next inv admitted.2 (step_effect stepped)

theorem inTime_of_settled (settled : Settled s) : InTime s := by
  intro id save after isSave stepped
  cases step_effect stepped with
  | waits _ _ plain => cases plain
  | extends_ _ _ plain => cases plain
  | saves isSave' isLocked =>
    rw [isSave] at isSave'
    cases isSave'
    exact settled id save isSave (.inl isLocked)

/-- **Fencing.**  In every run in which owners release when their saves have returned and do not
make their own lease shorter, one owner at a time has an unexpired lease, and a save replaces a
checkpoint only before a later lease begins.  If besides no lease begins while a save is past its
last test, every save that returns does so before a later lease begins. -/
theorem checkpoint_fenced (s : State Owner Token) (trace : List (Input Owner Token × Output)) :
    ((machine Owner Token).Run (fun s _ input => releasesIdle s input ∧
      keepsExpiry s input = true) s trace → Fenced s) ∧
    ((machine Owner Token).Run (fun s _ input => (releasesIdle s input ∧
      keepsExpiry s input = true) ∧ takesQuiet s input) s trace → Fenced s ∧ InTime s) := by
  refine ⟨fun run => fenced_of_inv (inv_run run), fun run => ?_⟩
  have inv := inv_run (run.mono fun _ _ _ admitted => admitted.1)
  exact ⟨fenced_of_inv inv, inTime_of_settled (settled_run run)⟩

def Input.isRelease : Input Owner Token → Bool
  | .releaseLease _ => true
  | _ => false

theorem releasesIdle_of_not_isRelease (s : State Owner Token) {input : Input Owner Token}
    (other : input.isRelease = false) : releasesIdle s input := by
  cases input with
  | releaseLease owner => cases other
  | _ => trivial

def Input.isAcquire : Input Owner Token → Bool
  | .tryAcquireLease .. => true
  | _ => false

theorem takesQuiet_of_saved (s : State Owner Token) {input : Input Owner Token}
    (quiet : input.isAcquire = true → s.writer = none ∧ s.checkpoint ≠ none) :
    takesQuiet s input := by
  cases input with
  | tryAcquireLease owner duration started reading =>
    obtain ⟨unlocked, saved⟩ := quiet rfl
    exact .inr ⟨unlocked, fun noRow => absurd noRow saved⟩
  | _ => trivial

/-- The database before anything. -/
def emptyState : State Nat Nat := ⟨0, none, none, none, fun _ => none, 0⟩

theorem emptyState_initial : emptyState.Initial :=
  ⟨by simp [emptyState], by simp [emptyState], rfl, fun _ => rfl⟩

/-- A checkpoint that an earlier consumer left. -/
def savedState : State Nat Nat := ⟨0, none, some ⟨7, 0⟩, none, fun _ => none, 0⟩

theorem savedState_initial : savedState.Initial :=
  ⟨by simp [savedState], by simp [savedState], rfl, fun _ => rfl⟩

/-- A save that waits until another owner has saved loses its lease. -/
theorem checkpoint_fenced_takeover :
    ∃ s trace, (machine Nat Nat).Run (fun s _ input => (releasesIdle s input ∧
        keepsExpiry s input = true) ∧ takesQuiet s input) s trace ∧ (Fenced s ∧ InTime s) ∧
      s.checkpoint = some ⟨2, 2⟩ ∧ (.write 0, .leaseLost) ∈ trace := by
  obtain ⟨s, trace, run, saved, lost⟩ := Machine.exists_run_exec (machine Nat Nat)
    (fun s _ input => (input.isRelease = false ∧ keepsExpiry s input = true) ∧
      (input.isAcquire = true → s.writer = none ∧ s.checkpoint ≠ none)) savedState_initial
    [.tryAcquireLease 0 ⟨1, by decide⟩ 0 0, .begin 0 0 1, .test 0, .tick 1000,
      .tryAcquireLease 1 ⟨1, by decide⟩ 1000 1000, .begin 1 1 2, .test 1, .write 1, .commit 1,
      .write 0]
    (fun s trace => s.checkpoint = some ⟨2, 2⟩ ∧ (.write 0, .leaseLost) ∈ trace)
    (by decide +kernel)
  have allowed : (machine Nat Nat).Run (fun s _ input => (releasesIdle s input ∧
      keepsExpiry s input = true) ∧ takesQuiet s input) s trace := by
    refine run.mono fun s _ input admitted => ⟨⟨?_, admitted.1.2⟩, ?_⟩
    · exact releasesIdle_of_not_isRelease s admitted.1.1
    · exact takesQuiet_of_saved s admitted.2
  exact ⟨s, trace, allowed, (checkpoint_fenced s trace).2 allowed, saved, lost⟩

/-- **A shorter lease lets a stale save through.**  An owner makes its lease shorter while one of
its saves waits, another owner takes the lease and saves, and the save that waited passes its
second test by the expiry it had read and locks the row that it is going to overwrite. -/
theorem shorter_lease_overwrites :
    ∃ s trace, (machine Nat Nat).Run (fun s _ input => releasesIdle s input) s trace ∧
      ¬Fenced s := by
  obtain ⟨s, trace, run, newer, stale⟩ := Machine.exists_run_exec (machine Nat Nat)
    (fun _ _ input => input.isRelease = false) emptyState_initial
    [.tryAcquireLease 0 ⟨60000, by decide⟩ 0 0, .begin 0 0 1, .test 0,
      .renewLease 0 ⟨1, by decide⟩ 0 0, .tick 1000,
      .tryAcquireLease 1 ⟨60000, by decide⟩ 1000 1000, .begin 1 1 2, .test 1, .write 1, .commit 1,
      .write 0]
    (fun s _ => s.checkpoint = some ⟨2, 2⟩ ∧
      s.saves 0 = some ⟨0, 1, some ⟨0, 60000000, 1⟩, .locked⟩) (by decide +kernel)
  refine ⟨s, trace, run.mono fun s _ _ => releasesIdle_of_not_isRelease s, fun fenced => ?_⟩
  obtain ⟨after, committed⟩ : ∃ after, step s (.commit 0) = some (after, .saved) := by
    simp only [step, commitSave, stale]
    exact ⟨_, rfl⟩
  exact absurd (fenced.replaces 0 _ _ stale committed _ newer) (by decide)

end Rustee.Mongo.Checkpoint
