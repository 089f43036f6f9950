/-
# Rustee.Outbox.Protocol -- stagers and relays over one outbox

Any number of business transactions stage messages, and any number of relays lease,
acknowledge and retry them.  A staged row stays with its transaction until the commit; a
relay's statement is one effect on the committed rows.  A lease or settlement value can be
held on to for any length of time, so `acknowledge` and `retry` may come with any row id
and any token.  `SKIP LOCKED` passes over rows that other statements have locked just then:
the environment names them.

The trace of a run gives each row a history of claims, releases and finishes, and the row
is at every moment the cell of that history (`Faithful.rows`, `run_faithful`).  The
protocol's guarantees are the guarantees of a `LeaseHistory`, read off the table
(`lease_protocol`).
-/
import Rustee.Foundation.Machine
import Rustee.Outbox.Storage
import Mathlib.Algebra.Order.Ring.Int

namespace Rustee.Outbox.Protocol

open Rustee.Foundation

set_option autoImplicit false

/-! ## The machine -/

structure State where
  /-- The database clock, in microseconds. -/
  clock : Int
  rows : List OutboxRow
  /-- Rows that open transactions have inserted, oldest first. -/
  pending : List (Nat × OutboxRow)
  /-- The lease tokens drawn so far. -/
  issued : List Uuid

inductive Input where
  | tick (micros : Nat)
  | stage (txn : Nat) (message : OutboxMessage)
  | stageJobAfter (txn : Nat) (message : OutboxMessage) (schedule : JobSchedule)
  | stageEventAfter (txn : Nat) (message : OutboxMessage) (schedule : EventSchedule)
  | commit (txn : Nat)
  | rollback (txn : Nat)
  /-- A relay draws `token` and claims; the rows are updated `elapsed` after they were
  chosen. -/
  | lease (kind : OutboxKind) (destination : OutboxDestination) (config : LeaseConfig)
      (token : Uuid) (locked : List OutboxId) (elapsed : Nat)
  | acknowledge (id : OutboxId) (token : Uuid)
  | retry (id : OutboxId) (token : Uuid) (delay : Duration)

inductive Output where
  | done
  | staged (outcome : StageOutcome)
  | notAJob
  | notAnEvent
  /-- The rows claimed, and when. -/
  | leased (claimedAt : Int) (leases : List StoredLease)
  | settled (outcome : LeaseOutcome)
  | failed (error : OutboxError)
  deriving DecidableEq

/-- The insert of `stage` and `stage_after`.  It waits for another transaction that has
inserted the same key and is still open. -/
def State.insert (s : State) (txn : Nat) (message : OutboxMessage) (delayMillis : Nat) :
    Option (State × Output) :=
  let mine := s.pending.filter fun entry => entry.1 = txn
  let others := s.pending.filter fun entry => entry.1 ≠ txn
  match stage ((s.rows ++ mine.map Prod.snd).map OutboxRow.message) message with
  | (.alreadyPresent, _) => some (s, .staged .alreadyPresent)
  | (.inserted id, _) =>
    if others.any fun entry => entry.2.message.key = message.key then none
    -- a repeated row id violates the primary key and ends the transaction
    else if (s.rows ++ mine.map Prod.snd).any fun row => row.id = message.id then
      some ({ s with pending := others }, .failed .database)
    else if others.any fun entry => entry.2.id = message.id then none
    else
      some ({ s with pending := s.pending ++ [(txn, stagedRow message s.clock delayMillis)] },
        .staged (.inserted id))

def step (s : State) : Input → Option (State × Output)
  | .tick micros => some ({ s with clock := s.clock + micros }, .done)
  | .stage txn message => s.insert txn message 0
  | .stageJobAfter txn message schedule =>
    if message.kind ≠ .job then some (s, .notAJob)
    else s.insert txn message schedule.delayMillis
  | .stageEventAfter txn message schedule =>
    if message.kind ≠ .event then some (s, .notAnEvent)
    else s.insert txn message schedule.delayMillis
  | .commit txn =>
    some ({ s with
        rows := s.rows ++ (s.pending.filter fun entry => entry.1 = txn).map Prod.snd
        pending := s.pending.filter fun entry => entry.1 ≠ txn }, .done)
  | .rollback txn =>
    some ({ s with pending := s.pending.filter fun entry => entry.1 ≠ txn }, .done)
  | .lease kind destination config token locked elapsed =>
    -- a fresh token
    if token ∈ s.issued then none
    else
      let claimedAt := s.clock + elapsed
      match lease s.rows kind destination config token locked s.clock claimedAt with
      | .ok (rows, leases) =>
        some ({ s with clock := claimedAt, rows, issued := token :: s.issued },
          .leased claimedAt leases)
      | .error error =>
        some ({ s with clock := claimedAt, issued := token :: s.issued }, .failed error)
  | .acknowledge id token =>
    let (rows, outcome) := acknowledge s.rows id token s.clock
    some ({ s with rows }, .settled outcome)
  | .retry id token delay =>
    match retry s.rows id token delay s.clock with
    | .ok (rows, outcome) => some ({ s with rows }, .settled outcome)
    | .error error => some (s, .failed error)

/-- The outbox from an empty table on. -/
def outbox : Machine State Input Output where
  initial s := s.rows = [] ∧ s.pending = [] ∧ s.issued = []
  step := step

/-! ## Histories -/

/-- What an entry of the trace did to the lease of row `id`. -/
def eventOf (id : OutboxId) : Input × Output → Option (LeaseEvent Uuid)
  | (.lease _ _ config token _ _, .leased claimedAt leases) =>
    if id ∈ leases.map (·.lease.id) then
      some (.claim token claimedAt (claimedAt + config.leaseDuration.asMillis * 1000))
    else none
  | (.acknowledge row token, .settled outcome) =>
    if outcome = .applied ∧ id = row then some (.finish token) else none
  | (.retry row token _, .settled outcome) =>
    if outcome = .applied ∧ id = row then some (.release token) else none
  | _ => none

def history (id : OutboxId) (trace : List (Input × Output)) : List (LeaseEvent Uuid) :=
  trace.filterMap (eventOf id)

theorem history_append (id : OutboxId) (trace : List (Input × Output)) (entry : Input × Output) :
    history id (trace ++ [entry]) = history id trace ++ (eventOf id entry).toList := by
  simp only [history, List.filterMap_append]
  cases event : eventOf id entry <;> simp [event]

/-! ## What a step can do -/

/-- The effects of a step: the committed rows stay, a transaction adds a row of its own, a
commit publishes such rows, or a relay's statement moves committed rows along their
leases. -/
inductive Effect (s after : State) (entry : Input × Output) : Prop
  | quiet (rows : after.rows = s.rows) (pending : after.pending.Sublist s.pending)
      (clock : s.clock ≤ after.clock) (issued : s.issued ⊆ after.issued)
      (silent : ∀ id, eventOf id entry = none)
  | inserted (txn : Nat) (message : OutboxMessage) (delayMillis : Nat)
      (after_eq : after =
        { s with pending := s.pending ++ [(txn, stagedRow message s.clock delayMillis)] })
      (new : ∀ row ∈ s.rows ++ s.pending.map Prod.snd, row.id ≠ message.id)
      (silent : ∀ id, eventOf id entry = none)
  | committed (txn : Nat)
      (after_eq : after = { s with
        rows := s.rows ++ (s.pending.filter fun entry => entry.1 = txn).map Prod.snd
        pending := s.pending.filter fun entry => entry.1 ≠ txn })
      (silent : ∀ id, eventOf id entry = none)
  | statement (g : OutboxRow → OutboxRow) (rows : after.rows = s.rows.map g)
      (pending : after.pending = s.pending) (clock : s.clock ≤ after.clock)
      (issued : s.issued ⊆ after.issued)
      (moves : ∀ row ∈ s.rows, row.Paired → row.Moves (eventOf row.id entry) (g row))
      (absent : ∀ id, id ∉ s.rows.map OutboxRow.id → eventOf id entry = none)
      (claims : ∀ id token now expires, eventOf id entry = some (.claim token now expires) →
        token ∉ s.issued ∧ token ∈ after.issued ∧ now ≤ after.clock)

variable {s : State} {input : Input}

/-- An insert finds its key taken, ends its transaction, or adds a row with an id of its own. -/
theorem insert_cases {after : State} {txn : Nat} {message : OutboxMessage} {delayMillis : Nat}
    {output : Output} (inserted : s.insert txn message delayMillis = some (after, output)) :
    after = s ∨ after = { s with pending := s.pending.filter fun entry => entry.1 ≠ txn } ∨
      after = { s with pending := s.pending ++ [(txn, stagedRow message s.clock delayMillis)] } ∧
        output = .staged (.inserted message.id) ∧
        ∀ row ∈ s.rows ++ s.pending.map Prod.snd, row.id ≠ message.id := by
  simp only [State.insert] at inserted
  split at inserted
  · cases inserted
    exact .inl rfl
  · rename_i id _ isNew
    obtain rfl := stage_eq_inserted isNew
    split at inserted
    · cases inserted
    · split at inserted
      · cases inserted
        exact .inr (.inl rfl)
      · rename_i mineNew
        split at inserted
        · cases inserted
        · rename_i othersNew
          cases inserted
          refine .inr (.inr ⟨rfl, rfl, fun row member same => ?_⟩)
          simp only [List.any_eq_true, decide_eq_true_eq, List.mem_append, List.mem_map,
            List.mem_filter, not_exists, not_and] at mineNew othersNew member
          rcases member with stored | ⟨entry, staged, rfl⟩
          · exact mineNew row (.inl stored) same
          · by_cases mine : entry.1 = txn
            · exact mineNew entry.2 (.inr ⟨entry, ⟨staged, mine⟩, rfl⟩) same
            · exact othersNew entry ⟨staged, mine⟩ same

/-- The outputs of an insert are no events. -/
theorem insert_effect {after : State} {txn : Nat} {message : OutboxMessage} {delayMillis : Nat}
    {output : Output} (silent : ∀ id, eventOf id (input, output) = none)
    (inserted : s.insert txn message delayMillis = some (after, output)) :
    Effect s after (input, output) := by
  rcases insert_cases inserted with rfl | rfl | ⟨rfl, -, new⟩
  · exact .quiet rfl (List.Sublist.refl _) le_rfl (List.Subset.refl _) silent
  · exact .quiet rfl List.filter_sublist le_rfl (List.Subset.refl _) silent
  · exact .inserted txn message delayMillis rfl new silent

theorem settle_effect (unique : (s.rows.map OutboxRow.id).Nodup) {id : OutboxId} {token : Uuid}
    {set : OutboxRow → OutboxRow} {event : LeaseEvent Uuid}
    (events : ∀ row outcome, eventOf row (input, .settled outcome) =
      if outcome = .applied ∧ row = id then some event else none)
    (settling : event.claimed = none)
    (moves : ∀ row, row.Paired → carries id token row = true → row.Moves (some event) (set row)) :
    Effect s { s with rows := (settle s.rows id token set).1 }
      (input, .settled (settle s.rows id token set).2) := by
  obtain ⟨g, rows, moved⟩ := settle_moves unique id token moves
  refine .statement g rows rfl le_rfl (List.Subset.refl _) ?_ ?_ ?_
  · intro row stored paired
    rw [events]
    exact moved row stored paired
  · intro row missing
    rw [events, if_neg]
    rintro ⟨applied, rfl⟩
    obtain ⟨found, stored, mine⟩ := (settle_applied_iff unique row token set).1 applied
    exact missing ((of_decide_eq_true mine).1 ▸ List.mem_map_of_mem stored)
  · intro row claimant now expires claimed
    rw [events] at claimed
    split at claimed
    · rw [Option.some.inj claimed] at settling
      cases settling
    · cases claimed

theorem step_effect {after : State} (unique : (s.rows.map OutboxRow.id).Nodup) {output : Output}
    (stepped : step s input = some (after, output)) :
    Effect s after (input, output) := by
  cases input with
  | tick micros =>
    simp only [step, Option.some.injEq, Prod.mk.injEq] at stepped
    obtain ⟨rfl, rfl⟩ := stepped
    exact .quiet rfl (List.Sublist.refl _) (by simp) (List.Subset.refl _) fun _ => rfl
  | stage txn message => exact insert_effect (fun _ => rfl) stepped
  | stageJobAfter txn message schedule =>
    simp only [step] at stepped
    split at stepped
    · cases stepped
      exact .quiet rfl (List.Sublist.refl _) le_rfl (List.Subset.refl _) fun _ => rfl
    · exact insert_effect (fun _ => rfl) stepped
  | stageEventAfter txn message schedule =>
    simp only [step] at stepped
    split at stepped
    · cases stepped
      exact .quiet rfl (List.Sublist.refl _) le_rfl (List.Subset.refl _) fun _ => rfl
    · exact insert_effect (fun _ => rfl) stepped
  | commit txn =>
    simp only [step, Option.some.injEq, Prod.mk.injEq] at stepped
    obtain ⟨rfl, rfl⟩ := stepped
    exact .committed txn rfl fun _ => rfl
  | rollback txn =>
    simp only [step, Option.some.injEq, Prod.mk.injEq] at stepped
    obtain ⟨rfl, rfl⟩ := stepped
    exact .quiet rfl List.filter_sublist le_rfl (List.Subset.refl _) fun _ => rfl
  | lease kind destination config token locked elapsed =>
    simp only [step] at stepped
    split at stepped
    · cases stepped
    · rename_i fresh
      split at stepped
      · rename_i rows leases ok
        cases stepped
        obtain ⟨g, rfl, listed, moves⟩ := lease_ok unique (by omega) ok
        refine .statement g rfl rfl (by simp) (List.subset_cons_self _ _) ?_ ?_ ?_
        · intro row stored _
          exact (moves row stored).1
        · intro id missing
          exact if_neg fun member => missing (listed id member)
        · intro id claimant now expires claimed
          simp only [eventOf] at claimed
          split at claimed
          · cases claimed
            exact ⟨fresh, List.mem_cons_self, le_rfl⟩
          · cases claimed
      · cases stepped
        exact .quiet rfl (List.Sublist.refl _) (by simp) (List.subset_cons_self _ _) fun _ => rfl
  | acknowledge id token =>
    simp only [step, Option.some.injEq, Prod.mk.injEq] at stepped
    obtain ⟨rfl, rfl⟩ := stepped
    refine settle_effect unique (fun _ _ => rfl) rfl fun row paired mine => ?_
    exact ⟨rfl, fun _ => by simp [OutboxRow.Paired, acknowledgeRow],
      acknowledgeRow_apply paired mine s.clock⟩
  | retry id token delay =>
    simp only [step, retry] at stepped
    split at stepped
    · rename_i rows outcome ok
      split at ok
      · cases ok
      · rename_i delayMillis _
        cases ok
        cases stepped
        refine settle_effect unique (fun _ _ => rfl) rfl fun row paired mine => ?_
        exact ⟨rfl, fun _ => by simp [OutboxRow.Paired, retryRow],
          retryRow_apply paired mine s.clock delayMillis⟩
    · cases stepped
      exact .quiet rfl (List.Sublist.refl _) le_rfl (List.Subset.refl _) fun _ => rfl

/-! ## The rows are the cells of their histories -/

structure Faithful (s : State) (trace : List (Input × Output)) : Prop where
  /-- The primary key, over committed and open rows. -/
  ids : (s.rows.map OutboxRow.id ++ s.pending.map (·.2.id)).Nodup
  rows : ∀ row ∈ s.rows, row.Paired ∧ LeaseHistory (history row.id trace) row.cell
  absent : ∀ id, id ∉ s.rows.map OutboxRow.id → history id trace = []
  pending : ∀ entry ∈ s.pending, entry.2.Paired ∧ entry.2.cell = .fresh
  claims : ∀ id token now expires, .claim token now expires ∈ history id trace →
    now ≤ s.clock ∧ token ∈ s.issued

namespace Faithful

variable {s after : State} {trace : List (Input × Output)} {entry : Input × Output}

theorem unique (faithful : Faithful s trace) : (s.rows.map OutboxRow.id).Nodup :=
  (List.nodup_append.1 faithful.ids).1

theorem history_silent (silent : ∀ id, eventOf id entry = none) (id : OutboxId) :
    history id (trace ++ [entry]) = history id trace := by
  rw [history_append, silent id]
  exact List.append_nil _

/-- One statement moves each row by one event at most, and so moves its history. -/
theorem statement (faithful : Faithful s trace) {g : OutboxRow → OutboxRow}
    (rows : after.rows = s.rows.map g) (pending : after.pending = s.pending)
    (clock : s.clock ≤ after.clock) (issued : s.issued ⊆ after.issued)
    (moves : ∀ row ∈ s.rows, row.Paired → row.Moves (eventOf row.id entry) (g row))
    (absent : ∀ id, id ∉ s.rows.map OutboxRow.id → eventOf id entry = none)
    (claims : ∀ id token now expires, eventOf id entry = some (.claim token now expires) →
      token ∉ s.issued ∧ token ∈ after.issued ∧ now ≤ after.clock) :
    Faithful after (trace ++ [entry]) := by
  have idOf : ∀ row ∈ s.rows, (g row).id = row.id := by
    intro row stored
    exact congrArg OutboxMessage.id (moves row stored (faithful.rows row stored).1).1
  have ids : after.rows.map OutboxRow.id = s.rows.map OutboxRow.id := by
    rw [rows, List.map_map]
    exact List.map_congr_left idOf
  refine ⟨?_, ?_, ?_, ?_, ?_⟩
  · rw [ids, pending]
    exact faithful.ids
  · intro moved member
    rw [rows] at member
    obtain ⟨row, stored, rfl⟩ := List.mem_map.1 member
    obtain ⟨paired, earlier⟩ := faithful.rows row stored
    obtain ⟨-, stillPaired, effect⟩ := moves row stored paired
    refine ⟨stillPaired paired, ?_⟩
    rw [idOf row stored, history_append]
    cases event : eventOf row.id entry with
    | none =>
      rw [event] at effect
      rw [show g row = row from effect]
      simpa using earlier
    | some event' =>
      rw [event] at effect
      refine earlier.next ?_ effect
      -- a token drawn now is in no earlier claim
      intro token claimed old member sameToken
      cases event' with
      | claim claimant now expires =>
        cases claimed
        cases old with
        | claim other now' expires' =>
          cases sameToken
          exact (claims row.id _ _ _ event).1 (faithful.claims _ _ _ _ member).2
        | release | finish => cases sameToken
      | release | finish => cases claimed
  · intro id missing
    rw [ids] at missing
    rw [history_append, faithful.absent id missing, absent id missing]
    rfl
  · rw [pending]
    exact faithful.pending
  · intro id token now expires member
    rw [history_append] at member
    rcases List.mem_append.1 member with earlier | new
    · obtain ⟨past, known⟩ := faithful.claims id token now expires earlier
      exact ⟨past.trans clock, issued known⟩
    · obtain ⟨-, drawn, past⟩ := claims id token now expires (Option.mem_toList.1 new)
      exact ⟨past, drawn⟩

theorem quiet (faithful : Faithful s trace) (rows : after.rows = s.rows)
    (pending : after.pending.Sublist s.pending) (clock : s.clock ≤ after.clock)
    (issued : s.issued ⊆ after.issued) (silent : ∀ id, eventOf id entry = none) :
    Faithful after (trace ++ [entry]) := by
  refine ⟨?_, ?_, ?_, ?_, ?_⟩
  · rw [rows]
    exact faithful.ids.sublist ((List.Sublist.refl _).append (pending.map _))
  · intro row stored
    rw [history_silent silent]
    exact faithful.rows row (rows ▸ stored)
  · intro id missing
    rw [history_silent silent]
    exact faithful.absent id (rows ▸ missing)
  · exact fun entry member => faithful.pending entry (pending.subset member)
  · intro id token now expires member
    rw [history_silent silent] at member
    obtain ⟨past, known⟩ := faithful.claims id token now expires member
    exact ⟨past.trans clock, issued known⟩

theorem inserted (faithful : Faithful s trace) {txn delayMillis : Nat} {message : OutboxMessage}
    (new : ∀ row ∈ s.rows ++ s.pending.map Prod.snd, row.id ≠ message.id)
    (silent : ∀ id, eventOf id entry = none) :
    Faithful { s with pending := s.pending ++ [(txn, stagedRow message s.clock delayMillis)] }
      (trace ++ [entry]) := by
  refine ⟨?_, ?_, ?_, ?_, ?_⟩
  · simp only [List.map_append, List.map_cons, List.map_nil, ← List.append_assoc]
    refine List.nodup_append.2 ⟨faithful.ids, List.nodup_singleton _, ?_⟩
    intro id old id' last same
    rw [List.mem_singleton.1 last] at same
    rcases List.mem_append.1 old with stored | staged
    · obtain ⟨row, member, rfl⟩ := List.mem_map.1 stored
      exact new row (List.mem_append_left _ member) same
    · obtain ⟨pair, member, rfl⟩ := List.mem_map.1 staged
      exact new pair.2 (List.mem_append_right _ (List.mem_map_of_mem member)) same
  · intro row stored
    rw [history_silent silent]
    exact faithful.rows row stored
  · intro id missing
    rw [history_silent silent]
    exact faithful.absent id missing
  · intro pair member
    rcases List.mem_append.1 member with old | last
    · exact faithful.pending pair old
    · rw [List.mem_singleton.1 last]
      exact ⟨by simp [OutboxRow.Paired, stagedRow], rfl⟩
  · intro id token now expires member
    rw [history_silent silent] at member
    exact faithful.claims id token now expires member

/-- A commit publishes rows that have no history yet. -/
theorem committed (faithful : Faithful s trace) (txn : Nat)
    (silent : ∀ id, eventOf id entry = none) :
    Faithful
      { s with
        rows := s.rows ++ (s.pending.filter fun entry => entry.1 = txn).map Prod.snd
        pending := s.pending.filter fun entry => entry.1 ≠ txn } (trace ++ [entry]) := by
  have perm : List.Perm ((s.pending.filter fun entry => entry.1 = txn).map (·.2.id) ++
      (s.pending.filter fun entry => entry.1 ≠ txn).map (·.2.id)) (s.pending.map (·.2.id)) := by
    rw [← List.map_append]
    have := List.filter_append_perm (fun entry : Nat × OutboxRow => decide (entry.1 = txn)) s.pending
    simpa using this.map (·.2.id)
  refine ⟨?_, ?_, ?_, ?_, ?_⟩
  · rw [List.map_append, List.map_map, List.append_assoc]
    exact (perm.append_left _).nodup_iff.2 faithful.ids
  · intro row member
    rw [history_silent silent]
    rcases List.mem_append.1 member with stored | new
    · exact faithful.rows row stored
    · obtain ⟨pair, mine, rfl⟩ := List.mem_map.1 new
      have staged := List.mem_of_mem_filter mine
      obtain ⟨paired, fresh⟩ := faithful.pending pair staged
      refine ⟨paired, ?_⟩
      have missing : pair.2.id ∉ s.rows.map OutboxRow.id := fun stored =>
        (List.nodup_append.1 faithful.ids).2.2 _ stored _ (List.mem_map_of_mem staged) rfl
      rw [faithful.absent _ missing, fresh]
      exact .start
  · intro id missing
    rw [history_silent silent]
    refine faithful.absent id fun stored => missing ?_
    rw [List.map_append]
    exact List.mem_append_left _ stored
  · exact fun pair member => faithful.pending pair (List.mem_of_mem_filter member)
  · intro id token now expires member
    rw [history_silent silent] at member
    exact faithful.claims id token now expires member

/-- **One step.** -/
theorem next (faithful : Faithful s trace) (effect : Effect s after entry) :
    Faithful after (trace ++ [entry]) := by
  cases effect with
  | quiet rows pending clock issued silent => exact faithful.quiet rows pending clock issued silent
  | inserted txn message delayMillis after_eq new silent =>
    rw [after_eq]
    exact faithful.inserted new silent
  | committed txn after_eq silent =>
    rw [after_eq]
    exact faithful.committed txn silent
  | statement g rows pending clock issued moves absent claims =>
    exact faithful.statement rows pending clock issued moves absent claims

end Faithful

theorem run_faithful {trace : List (Input × Output)} (reached : outbox.Reaches s trace) :
    Faithful s trace := by
  refine reached.invariant ?_ ?_
  · rintro s ⟨rows, pending, issued⟩
    refine ⟨?_, ?_, fun _ _ => rfl, ?_, ?_⟩
    · simp [rows, pending]
    · simp [rows]
    · simp [pending]
    · intro id token now expires member
      cases member
  · intro before after trace input output _ faithful _ stepped
    exact faithful.next (step_effect faithful.unique stepped)

/-! ## The protocol -/

/-- Row `id` is unpublished and carries `token` now. -/
def Carried (s : State) (id : OutboxId) (token : Uuid) : Prop :=
  ∃ row ∈ s.rows, row.id = id ∧ row.publishedAt = none ∧ row.leaseToken = some token

/-- `token` was given out for row `id`, was not settled, and has not run out. -/
def Unexpired (s : State) (trace : List (Input × Output)) (id : OutboxId) (token : Uuid) : Prop :=
  ∃ now expires, .claim token now expires ∈ history id trace ∧
    (∀ event ∈ history id trace, event.settles token = false) ∧ s.clock < expires

theorem carried_iff {id : OutboxId} {token : Uuid} :
    Carried s id token ↔ ∃ row ∈ s.rows, carries id token row = true := by
  refine exists_congr fun row => and_congr_right fun _ => ?_
  simp only [carries, decide_eq_true_eq]
  tauto

namespace Faithful

variable {s : State} {trace : List (Input × Output)}

variable {row : OutboxRow}

theorem lease_consistent (faithful : Faithful s trace) (stored : row ∈ s.rows) :
    (row.leaseToken = none ↔ row.leasedUntil = none) ∧
      (row.publishedAt ≠ none → row.leaseToken = none ∧ row.leasedUntil = none) := by
  obtain ⟨paired, earlier⟩ := faithful.rows row stored
  refine ⟨paired, fun published => ?_⟩
  have unleased := earlier.finished_lease (Option.isSome_iff_ne_none.2 published)
  unfold OutboxRow.Paired at paired
  unfold OutboxRow.cell at unleased
  cases token : row.leaseToken with
  | none => exact ⟨rfl, paired.1 token⟩
  | some t =>
    cases deadline : row.leasedUntil with
    | none => exact ⟨by rw [← token]; exact paired.2 deadline, rfl⟩
    | some d =>
      simp only [token, deadline] at unleased
      cases unleased

/-- A published row is left alone by every step. -/
theorem published_stays (faithful : Faithful s trace) (stored : row ∈ s.rows)
    (published : row.publishedAt ≠ none) {after : State} {entry : Input × Output}
    (effect : Effect s after entry) : row ∈ after.rows ∧ eventOf row.id entry = none := by
  cases effect with
  | quiet rows pending clock issued silent => exact ⟨rows ▸ stored, silent _⟩
  | inserted txn message delayMillis after_eq new silent => exact ⟨after_eq ▸ stored, silent _⟩
  | committed txn after_eq silent =>
    exact ⟨after_eq ▸ List.mem_append_left _ stored, silent _⟩
  | statement g rows pending clock issued moves absent claims =>
    obtain ⟨-, -, effect⟩ := moves row stored (faithful.rows row stored).1
    cases event : eventOf row.id entry with
    | none =>
      rw [event] at effect
      refine ⟨?_, rfl⟩
      rw [rows]
      exact List.mem_map.2 ⟨row, stored, effect⟩
    | some event' =>
      rw [event] at effect
      have unfinished := (LeaseHistory.apply_cases effect).1
      rw [show row.cell.finished = row.publishedAt.isSome from rfl,
        Option.isSome_iff_ne_none.2 published] at unfinished
      cases unfinished

theorem settle_outcome (faithful : Faithful s trace) (id : OutboxId) (token : Uuid)
    (set : OutboxRow → OutboxRow) :
    (Carried s id token → (settle s.rows id token set).2 = .applied) ∧
      (¬Carried s id token → settle s.rows id token set = (s.rows, .lost)) := by
  have iff := settle_applied_iff faithful.unique id token set
  rw [← carried_iff] at iff
  refine ⟨iff.2, fun free => ?_⟩
  have lost := mt iff.1 free
  refine Prod.ext (settle_lost faithful.unique lost) ?_
  cases outcome : (settle s.rows id token set).2 with
  | applied => exact absurd outcome lost
  | lost => rfl

theorem acknowledge_outcome (faithful : Faithful s trace) (id : OutboxId) (token : Uuid) :
    (Carried s id token → ∃ after, step s (.acknowledge id token) = some (after, .settled .applied)) ∧
      (¬Carried s id token → step s (.acknowledge id token) = some (s, .settled .lost)) := by
  obtain ⟨applied, lost⟩ := faithful.settle_outcome id token (acknowledgeRow s.clock)
  simp only [step, acknowledge]
  exact ⟨fun carried => ⟨_, by rw [applied carried]⟩, fun free => by rw [lost free]⟩

theorem retry_outcome (faithful : Faithful s trace) (id : OutboxId) (token : Uuid)
    {delay : Duration} {delayMillis : Nat} (ok : durationMillis delay = .ok delayMillis) :
    (Carried s id token → ∃ after, step s (.retry id token delay) = some (after, .settled .applied)) ∧
      (¬Carried s id token → step s (.retry id token delay) = some (s, .settled .lost)) := by
  obtain ⟨applied, lost⟩ := faithful.settle_outcome id token (retryRow s.clock delayMillis)
  simp only [step, retry, ok]
  exact ⟨fun carried => ⟨_, by rw [applied carried]⟩, fun free => by rw [lost free]⟩

theorem settled_once (faithful : Faithful s trace) (id : OutboxId) (token : Uuid) :
    (history id trace).countP (LeaseEvent.settles token) ≤ 1 := by
  by_cases stored : id ∈ s.rows.map OutboxRow.id
  · obtain ⟨row, member, rfl⟩ := List.mem_map.1 stored
    exact (faithful.rows row member).2.settled_once token
  · rw [faithful.absent id stored]
    exact Nat.zero_le 1

/-- A token that was given out and has not run out is the one on the row. -/
theorem unexpired_carried (faithful : Faithful s trace) {id : OutboxId} {token : Uuid}
    (unexpired : Unexpired s trace id token) :
    ∃ row ∈ s.rows, row.id = id ∧ row.leaseToken = some token := by
  obtain ⟨now, expires, claimed, unsettled, later⟩ := unexpired
  by_cases stored : id ∈ s.rows.map OutboxRow.id
  · obtain ⟨row, present, rfl⟩ := List.mem_map.1 stored
    refine ⟨row, present, rfl, ?_⟩
    rcases (faithful.rows row present).2.unsettled claimed unsettled with
      lease | ⟨other, at', deadline, member, expired⟩
    · unfold OutboxRow.cell at lease
      split at lease
      · rename_i token' _ held _
        cases lease
        exact held
      · cases lease
    · have := (faithful.claims _ _ _ _ member).1
      omega
  · rw [faithful.absent id stored] at claimed
    cases claimed

theorem unexpired_unique (faithful : Faithful s trace) {id : OutboxId} {a b : Uuid}
    (left : Unexpired s trace id a) (right : Unexpired s trace id b) : a = b := by
  obtain ⟨row, stored, rfl, held⟩ := faithful.unexpired_carried left
  obtain ⟨other, stored', same, held'⟩ := faithful.unexpired_carried right
  obtain rfl := eq_of_id faithful.unique stored' stored same
  exact Option.some.inj (held.symm.trans held')

/-- A claim takes rows that are unpublished and free of an unexpired lease. -/
theorem claim_free (faithful : Faithful s trace) {kind : OutboxKind} {destination : OutboxDestination}
    {config : LeaseConfig} {token : Uuid} {locked : List OutboxId} {elapsed : Nat} {after : State}
    {claimedAt : Int} {leases : List StoredLease}
    (stepped : step s (.lease kind destination config token locked elapsed) =
      some (after, .leased claimedAt leases))
    (stored : row ∈ s.rows) (claimed : row.id ∈ leases.map (·.lease.id)) :
    row.publishedAt = none ∧ ∀ deadline, row.leasedUntil = some deadline → deadline ≤ s.clock := by
  simp only [step] at stepped
  split at stepped
  · cases stepped
  · split at stepped
    · rename_i ok
      cases stepped
      obtain ⟨_, _, _, moves⟩ := lease_ok faithful.unique (by omega) ok
      exact (moves row stored).2 claimed
    · cases stepped

end Faithful

/-- **The lease protocol.**  After every interleaving of stagers and relays: token and
deadline are set together and a published row has neither; no step touches a published row;
a settlement applies exactly to an unpublished row that carries its token, changes nothing
otherwise, and no token settles a row twice (a `retry` whose delay is out of range is
refused first); a row is claimed only when its last lease was released or has run out, so
that at most one unexpired token exists for it; and `relay_attempt` counts the claims. -/
theorem lease_protocol (s : State) (trace : List (Input × Output))
    (reached : outbox.Reaches s trace) :
    (∀ row ∈ s.rows, (row.leaseToken = none ↔ row.leasedUntil = none) ∧
      (row.publishedAt ≠ none → row.leaseToken = none ∧ row.leasedUntil = none)) ∧
    (∀ row ∈ s.rows, row.publishedAt ≠ none → ∀ input after output,
      step s input = some (after, output) →
        row ∈ after.rows ∧ eventOf row.id (input, output) = none) ∧
    (∀ id token,
      ((Carried s id token →
          ∃ after, step s (.acknowledge id token) = some (after, .settled .applied)) ∧
        (¬Carried s id token → step s (.acknowledge id token) = some (s, .settled .lost))) ∧
      (∀ delay delayMillis, durationMillis delay = .ok delayMillis →
        (Carried s id token →
          ∃ after, step s (.retry id token delay) = some (after, .settled .applied)) ∧
        (¬Carried s id token → step s (.retry id token delay) = some (s, .settled .lost))) ∧
      (∀ delay error, durationMillis delay = .error error →
        step s (.retry id token delay) = some (s, .failed error)) ∧
      (history id trace).countP (LeaseEvent.settles token) ≤ 1) ∧
    ((∀ kind destination config token locked elapsed after claimedAt leases,
        step s (.lease kind destination config token locked elapsed) =
          some (after, .leased claimedAt leases) →
        ∀ row ∈ s.rows, row.id ∈ leases.map (·.lease.id) →
          ∀ deadline, row.leasedUntil = some deadline → deadline ≤ s.clock) ∧
      ∀ id a b, Unexpired s trace id a → Unexpired s trace id b → a = b) ∧
    (∀ row ∈ s.rows, row.relayAttempt = (history row.id trace).countP LeaseEvent.isClaim) := by
  have faithful := run_faithful reached
  refine ⟨fun row stored => faithful.lease_consistent stored, ?_, fun id token => ⟨?_, ?_, ?_, ?_⟩,
    ⟨?_, fun id a b => faithful.unexpired_unique⟩, ?_⟩
  · intro row stored published input after output stepped
    exact faithful.published_stays stored published (step_effect faithful.unique stepped)
  · exact faithful.acknowledge_outcome id token
  · exact fun delay delayMillis ok => faithful.retry_outcome id token ok
  · intro delay error refused
    simp only [step, retry, refused]
  · exact faithful.settled_once id token
  · intro kind destination config token locked elapsed after claimedAt leases stepped row stored
      claimed
    exact (faithful.claim_free stepped stored claimed).2
  · exact fun row stored => (faithful.rows row stored).2.attempts

/-! ## A row that is leased twice -/

def welcomeMail : OutboxMessage where
  id := 1
  kind := .job
  destination := ⟨"mail", by decide⟩
  messageId := "8b2e"
  messageType := "mail.welcome"
  schemaVersion := 1
  orderingKey := "8b2e"
  deliveryAttempt := 1
  priority := 0
  payload := [123, 125]
  valid := by decide

/-- Ten rows at a time, for one millisecond. -/
def shortLease : LeaseConfig where
  batchSize := 10
  leaseDuration := .fromMillis 1
  batch_pos := by decide
  batch_fits := by decide
  duration_fits := by decide

def emptyOutbox : State := ⟨0, [], [], []⟩

theorem emptyOutbox_initial : outbox.initial emptyOutbox := ⟨rfl, rfl, rfl⟩

/-- The first relay is too slow: its lease runs out, a second relay claims the row, and the
first one's late acknowledgement is lost. -/
def slowRelay : List Input :=
  [.stage 1 welcomeMail, .commit 1, .lease .job welcomeMail.destination shortLease 7 [] 0,
    .tick 1000, .lease .job welcomeMail.destination shortLease 8 [] 0, .acknowledge 1 7,
    .acknowledge 1 8]

theorem lease_protocol_slowRelay :
    ∃ s trace, outbox.Reaches s trace ∧ ∃ row ∈ s.rows, row.publishedAt ≠ none ∧
      row.relayAttempt = 2 ∧ row.leaseToken = none ∧
      (history row.id trace).countP LeaseEvent.isClaim = 2 := by
  obtain ⟨s, trace, run, row, stored, published, twice⟩ := Machine.exists_run_exec outbox
    (fun _ _ _ => True) emptyOutbox_initial slowRelay
    (fun s _ => ∃ row ∈ s.rows, row.publishedAt ≠ none ∧ row.relayAttempt = 2) (by decide)
  obtain ⟨consistent, -, -, -, counted⟩ := lease_protocol s trace run
  exact ⟨s, trace, run, row, stored, published, twice, ((consistent row stored).2 published).1,
    (counted row stored).symm.trans twice⟩

/-- A retry for two hours is refused although its token is the one on the row. -/
theorem retry_refused :
    ∃ s trace, outbox.Reaches s trace ∧ ∃ id token delay, Carried s id token ∧
      step s (.retry id token delay) = some (s, .failed .invalidDuration) := by
  obtain ⟨s, trace, run, carried⟩ := Machine.exists_run_exec outbox (fun _ _ _ => True)
    emptyOutbox_initial
    [.stage 1 welcomeMail, .commit 1, .lease .job welcomeMail.destination shortLease 7 [] 0]
    (fun s _ => ∃ row ∈ s.rows, row.id = 1 ∧ row.publishedAt = none ∧ row.leaseToken = some 7)
    (by decide)
  exact ⟨s, trace, run, 1, 7, .fromMillis 7200000, carried, rfl⟩

end Rustee.Outbox.Protocol
