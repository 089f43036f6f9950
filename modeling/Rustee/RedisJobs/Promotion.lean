/-
# Rustee.RedisJobs.Promotion -- the promotion script, command by command

`PROMOTE_DUE_RETRIES_SCRIPT` of `rustee-jobs-redis/src/worker/settlement.rs` over any state of its
four keys.  A script that fails keeps what it has written.

Its first loop is meant to refuse before anything is written, but `HEXISTS` answers with a number
and in Lua every number counts as true, so the loop never refuses (`not_incomplete`).  What stops the
script is `XADD` in the second loop, when `HGET` gave `false`; by then the ids before it have been
promoted.  So the script is all or nothing exactly if the selected ids all have their entries, or the
first one has not (`promotion_all_or_nothing`).

A stream has an id for each of its entries, and `XADD` also fails when there is none left.
-/
import Rustee.RedisJobs.Scripts
import Mathlib.Algebra.Order.Ring.Nat

namespace Rustee.RedisJobs.Promotion

open Rustee.Foundation

set_option autoImplicit false

/-! ## Replies, as Lua sees them -/

inductive Lua (V : Type) where
  | number (n : Nat)
  | string (value : V)
  | boolean (value : Bool)

/-- Everything but `false` and `nil` counts as true. -/
def Lua.truthy {V : Type} : Lua V → Bool
  | .boolean value => value
  | .number _ | .string _ => true

/-- A value as an argument of `redis.call`; the replies of `HGET` are strings or `false`. -/
def Lua.argument {V : Type} : Lua V → Option V
  | .string value => some value
  | .number _ | .boolean _ => none

section Hash

variable {Id V : Type}

def hexists (hash : Id → Option V) (id : Id) : Lua V :=
  .number (if (hash id).isSome then 1 else 0)

def hget (hash : Id → Option V) (id : Id) : Lua V :=
  match hash id with
  | some value => .string value
  | none => .boolean false

theorem argument_hget (hash : Id → Option V) (id : Id) : (hget hash id).argument = hash id := by
  unfold hget
  split <;> simp_all [Lua.argument]

end Hash

/-! ## The four keys -/

variable {Id Score Payload Attempt : Type}

/-- The entries of the stream, and the last id that it gave: milliseconds times 2^64 and sequence
number. -/
structure Stream (Payload Attempt : Type) where
  lastId : Nat
  entries : List (Payload × Attempt)

namespace Stream

/-- The id `*` stands for. -/
def nextId (stream : Stream Payload Attempt) (millis : Nat) : Nat :=
  max (millis * 2 ^ 64) (stream.lastId + 1)

/-- `XADD stream * payload .. attempt ..`. -/
def xadd (stream : Stream Payload Attempt) (millis : Nat) (payload : Lua Payload)
    (attempt : Lua Attempt) : Option (Stream Payload Attempt) :=
  match payload.argument, attempt.argument with
  | some payload, some attempt =>
    if stream.nextId millis < 2 ^ 128 then
      some ⟨stream.nextId millis, stream.entries ++ [(payload, attempt)]⟩
    else none
  | _, _ => none

/-- There are ids for `n` more entries. -/
def Room (stream : Stream Payload Attempt) (millis n : Nat) : Prop :=
  n ≠ 0 → stream.nextId millis + n ≤ 2 ^ 128

end Stream

structure ZSet (Id Score : Type) where
  entries : List (Id × Score)
  distinct : (entries.map Prod.fst).Nodup

namespace ZSet

def zrem [DecidableEq Id] (set : ZSet Id Score) (id : Id) : ZSet Id Score where
  entries := Keyed.hdel set.entries id
  distinct := by
    rw [← Keyed.keys, Keyed.keys_hdel]
    exact set.distinct.filter _

/-- `ZRANGEBYSCORE set -inf now LIMIT 0 count`. -/
def due [LinearOrder Id] [LinearOrder Score] (set : ZSet Id Score) (now : Score) (count : Nat) :
    List Id :=
  (((set.entries.filter fun entry => entry.2 ≤ now).insertionSort fun a b =>
    a.2 < b.2 ∨ a.2 = b.2 ∧ a.1 ≤ b.1).take count).map Prod.fst

end ZSet

structure Keys (Id Score Payload Attempt : Type) where
  stream : Stream Payload Attempt
  schedule : ZSet Id Score
  payloads : Id → Option Payload
  attempts : Id → Option Attempt

/-! ## The script -/

inductive ScriptError where
  /-- `rustee retry record is incomplete`. -/
  | incomplete
  /-- A command of the second loop failed. -/
  | command
  deriving DecidableEq, Repr

namespace Keys

/-- The condition of the first loop. -/
def incomplete (keys : Keys Id Score Payload Attempt) (id : Id) : Bool :=
  !(hexists keys.payloads id).truthy || !(hexists keys.attempts id).truthy

/-- The guard never fires. -/
theorem not_incomplete (keys : Keys Id Score Payload Attempt) (id : Id) :
    keys.incomplete id = false := rfl

section Loop

variable [DecidableEq Id]

/-- The body of the second loop. -/
def promoteOne (millis : Nat) (keys : Keys Id Score Payload Attempt) (id : Id) :
    Option (Keys Id Score Payload Attempt) :=
  (keys.stream.xadd millis (hget keys.payloads id) (hget keys.attempts id)).map fun stream =>
    { stream
      schedule := keys.schedule.zrem id
      payloads := Function.update keys.payloads id none
      attempts := Function.update keys.attempts id none }

/-- The second loop: what it leaves, and whether it went through. -/
def promoteAll (millis : Nat) :
    List Id → Keys Id Score Payload Attempt → Keys Id Score Payload Attempt × Bool
  | [], keys => (keys, true)
  | id :: rest, keys =>
    match keys.promoteOne millis id with
    | some keys => promoteAll millis rest keys
    | none => (keys, false)

end Loop

/-- `PROMOTE_DUE_RETRIES_SCRIPT`; the clock is `now` as a score and `millis` for the stream. -/
def promoteDueRetries [LinearOrder Id] [LinearOrder Score] (now : Score) (millis count : Nat)
    (keys : Keys Id Score Payload Attempt) :
    Keys Id Score Payload Attempt × Except ScriptError Nat :=
  let ids := keys.schedule.due now count
  if ids.any keys.incomplete then (keys, .error .incomplete)
  else
    match keys.promoteAll millis ids with
    | (keys, true) => (keys, .ok ids.length)
    | (keys, false) => (keys, .error .command)

/-! ## One id -/

/-- The id has what `XADD` needs. -/
def Complete (keys : Keys Id Score Payload Attempt) (id : Id) : Prop :=
  (keys.payloads id).isSome = true ∧ (keys.attempts id).isSome = true

section Run

variable [DecidableEq Id] {keys middle after : Keys Id Score Payload Attempt} {id : Id} {ids : List Id}
  {millis : Nat}

/-- What promoting an id does, when it has a payload and an attempt and the stream an id. -/
structure Promotes (millis : Nat) (keys : Keys Id Score Payload Attempt) (id : Id)
    (after : Keys Id Score Payload Attempt) : Prop where
  lastId : after.stream.lastId = keys.stream.nextId millis
  appended : ∃ payload attempt, keys.payloads id = some payload ∧ keys.attempts id = some attempt ∧
    after.stream.entries = keys.stream.entries ++ [(payload, attempt)]
  schedule : after.schedule = keys.schedule.zrem id
  payloads : after.payloads = Function.update keys.payloads id none
  attempts : after.attempts = Function.update keys.attempts id none

theorem promotes_of_promoteOne (promoted : keys.promoteOne millis id = some after) :
    Promotes millis keys id after := by
  obtain ⟨stream, added, rfl⟩ := Option.map_eq_some_iff.1 promoted
  rw [Stream.xadd, argument_hget, argument_hget] at added
  split at added
  · rename_i payload attempt isPayload isAttempt
    split at added
    · cases added
      exact ⟨rfl, ⟨payload, attempt, isPayload, isAttempt, rfl⟩, rfl, rfl, rfl⟩
    · cases added
  · cases added

theorem promoteOne_isSome_iff :
    (keys.promoteOne millis id).isSome = true ↔
      keys.Complete id ∧ keys.stream.nextId millis < 2 ^ 128 := by
  rw [promoteOne, Option.isSome_map, Stream.xadd, argument_hget, argument_hget, Complete]
  cases keys.payloads id <;> cases keys.attempts id <;> simp

namespace Promotes

theorem nextId (promotes : Promotes millis keys id after) :
    after.stream.nextId millis = keys.stream.nextId millis + 1 := by
  rw [Stream.nextId, promotes.lastId]
  exact Nat.max_eq_right (Nat.le_succ_of_le (Nat.le_max_left ..))

/-- Other ids are left alone. -/
theorem complete_iff (promotes : Promotes millis keys id after) {other : Id} (differ : other ≠ id) :
    after.Complete other ↔ keys.Complete other := by
  rw [Complete, Complete, promotes.payloads, promotes.attempts, Function.update_of_ne differ,
    Function.update_of_ne differ]

end Promotes

/-! ## The second loop -/

/-- All of `ids` were promoted, and nothing else happened. -/
structure Promoted (keys : Keys Id Score Payload Attempt) (ids : List Id)
    (after : Keys Id Score Payload Attempt) : Prop where
  appended : ∃ bodies : List (Payload × Attempt), after.stream.entries = keys.stream.entries ++ bodies ∧
    List.Forall₂ (fun id body => keys.payloads id = some body.1 ∧ keys.attempts id = some body.2)
      ids bodies
  schedule : after.schedule.entries = keys.schedule.entries.filter fun entry => entry.1 ∉ ids
  payloads : ∀ id, after.payloads id = if id ∈ ids then none else keys.payloads id
  attempts : ∀ id, after.attempts id = if id ∈ ids then none else keys.attempts id

theorem Promoted.nil (keys : Keys Id Score Payload Attempt) : Promoted keys [] keys where
  appended := ⟨[], by simp, .nil⟩
  schedule := by simp
  payloads := by simp
  attempts := by simp

theorem Promoted.cons (first : Promotes millis keys id middle) (rest : Promoted middle ids after)
    (fresh : id ∉ ids) : Promoted keys (id :: ids) after := by
  obtain ⟨bodies, isAppended, stored⟩ := rest.appended
  obtain ⟨payload, attempt, isPayload, isAttempt, isFirst⟩ := first.appended
  constructor
  · refine ⟨(payload, attempt) :: bodies, by rw [isAppended, isFirst, List.append_assoc]; rfl,
      .cons ⟨isPayload, isAttempt⟩ ?_⟩
    -- what is still there under an id was there before
    refine stored.imp fun other body => ?_
    rw [first.payloads, first.attempts, Function.update_apply, Function.update_apply]
    by_cases same : other = id <;> simp [same]
  · rw [rest.schedule, first.schedule]
    simp only [ZSet.zrem, Keyed.hdel, Keyed.remove, List.filter_filter]
    refine List.filter_congr fun entry _ => ?_
    simp [Bool.and_comm]
  · intro other
    rw [rest.payloads, first.payloads, Function.update_apply]
    by_cases same : other = id <;> simp [same, fresh]
  · intro other
    rw [rest.attempts, first.attempts, Function.update_apply]
    by_cases same : other = id <;> simp [same, fresh]

theorem promoted_of_promoteAll (distinct : ids.Nodup)
    (through : (keys.promoteAll millis ids).2 = true) :
    Promoted keys ids (keys.promoteAll millis ids).1 := by
  induction ids generalizing keys with
  | nil => exact .nil keys
  | cons id rest ih =>
    obtain ⟨fresh, distinct⟩ := List.nodup_cons.1 distinct
    rw [promoteAll] at through ⊢
    cases promoted : keys.promoteOne millis id with
    | none => simp [promoted] at through
    | some middle =>
      simp only [promoted] at through ⊢
      exact .cons (promotes_of_promoteOne promoted) (ih distinct through) fresh

/-- The loop goes through exactly if every id has its entries, and the stream ids for them. -/
theorem promoteAll_iff (distinct : ids.Nodup) :
    (keys.promoteAll millis ids).2 = true ↔
      (∀ id ∈ ids, keys.Complete id) ∧ keys.stream.Room millis ids.length := by
  induction ids generalizing keys with
  | nil => simp [promoteAll, Stream.Room]
  | cons id rest ih =>
    obtain ⟨fresh, distinct⟩ := List.nodup_cons.1 distinct
    have some_iff : (keys.promoteOne millis id).isSome = true ↔
        keys.Complete id ∧ keys.stream.nextId millis < 2 ^ 128 := promoteOne_isSome_iff
    rw [promoteAll]
    cases promoted : keys.promoteOne millis id with
    | none =>
      rw [promoted] at some_iff
      simp only [Bool.false_eq_true, false_iff, Stream.Room, List.length_cons]
      rintro ⟨complete, room⟩
      have first := complete id List.mem_cons_self
      have room := room (by omega)
      have := some_iff.2 ⟨first, by omega⟩
      cases this
    | some middle =>
      have promotes := promotes_of_promoteOne promoted
      rw [promoted] at some_iff
      obtain ⟨complete, room⟩ := some_iff.1 rfl
      simp only
      rw [ih distinct, List.forall_mem_cons, Stream.Room, Stream.Room, promotes.nextId,
        List.length_cons]
      have others : (∀ other ∈ rest, middle.Complete other) ↔ ∀ other ∈ rest, keys.Complete other :=
        forall₂_congr fun other isOther =>
          promotes.complete_iff fun same => fresh (same ▸ isOther)
      rw [others, and_iff_right complete]
      refine and_congr_right fun _ => ?_
      omega

theorem length_entries_le (keys : Keys Id Score Payload Attempt) (millis : Nat) (ids : List Id) :
    keys.stream.entries.length ≤ (keys.promoteAll millis ids).1.stream.entries.length := by
  induction ids generalizing keys with
  | nil => exact Nat.le_refl _
  | cons id rest ih =>
    rw [promoteAll]
    cases promoted : keys.promoteOne millis id with
    | none => exact Nat.le_refl _
    | some middle =>
      obtain ⟨payload, attempt, -, -, isFirst⟩ := (promotes_of_promoteOne promoted).appended
      refine Nat.le_trans ?_ (ih middle)
      simp [isFirst]

/-- A script that stops has left the keys alone exactly if it stopped at the first id. -/
theorem unchanged_iff (stopped : (keys.promoteAll millis ids).2 = false) :
    (keys.promoteAll millis ids).1 = keys ↔
      ∃ first rest, ids = first :: rest ∧ (¬keys.Complete first ∨ ¬keys.stream.Room millis 1) := by
  cases ids with
  | nil => cases stopped
  | cons id rest =>
    have some_iff : (keys.promoteOne millis id).isSome = true ↔
        keys.Complete id ∧ keys.stream.nextId millis < 2 ^ 128 := promoteOne_isSome_iff
    have room_iff : keys.stream.Room millis 1 ↔ keys.stream.nextId millis < 2 ^ 128 :=
      forall_prop_of_true Nat.one_ne_zero
    have first_iff : (∃ first later, id :: rest = first :: later ∧
        (¬keys.Complete first ∨ ¬keys.stream.Room millis 1)) ↔
        ¬(keys.Complete id ∧ keys.stream.Room millis 1) := by
      rw [not_and_or]
      constructor
      · rintro ⟨first, later, ⟨⟩, lacks⟩
        exact lacks
      · exact fun lacks => ⟨id, rest, rfl, lacks⟩
    rw [first_iff, room_iff, ← some_iff, promoteAll]
    cases promoted : keys.promoteOne millis id with
    | none => simp
    | some middle =>
      obtain ⟨payload, attempt, -, -, isFirst⟩ := (promotes_of_promoteOne promoted).appended
      have longer := length_entries_le middle millis rest
      rw [isFirst, List.length_append, List.length_singleton] at longer
      refine iff_of_false (fun same => ?_) (by simp)
      simp only at same
      rw [same] at longer
      omega

end Run

/-! ## All or nothing -/

section Script

variable [LinearOrder Id] [LinearOrder Score]

theorem nodup_due (set : ZSet Id Score) (now : Score) (count : Nat) : (set.due now count).Nodup := by
  unfold ZSet.due
  rw [List.map_take]
  refine List.Nodup.sublist (List.take_sublist _ _) ?_
  refine ((List.perm_insertionSort _ _).map Prod.fst).nodup_iff.2 ?_
  exact set.distinct.sublist (List.filter_sublist.map _)

theorem promoteDueRetries_eq (now : Score) (millis count : Nat)
    (keys : Keys Id Score Payload Attempt) :
    keys.promoteDueRetries now millis count =
      ((keys.promoteAll millis (keys.schedule.due now count)).1,
        if (keys.promoteAll millis (keys.schedule.due now count)).2 = true then
          .ok (keys.schedule.due now count).length
        else .error .command) := by
  have unguarded : (keys.schedule.due now count).any keys.incomplete = false :=
    List.any_eq_false.2 fun id _ => by simp [not_incomplete]
  simp only [promoteDueRetries, unguarded]
  rcases keys.promoteAll millis (keys.schedule.due now count) with ⟨after, _ | _⟩ <;> rfl

/-- Either the script reports an error and the keys are as they were, or all selected ids were
promoted; and when one of them lacks an entry, it is the former. -/
def AllOrNothing (now : Score) (millis count : Nat) (keys : Keys Id Score Payload Attempt) : Prop :=
  let ids := keys.schedule.due now count
  let result := keys.promoteDueRetries now millis count
  let nothing := (∃ error, result.2 = .error error) ∧ result.1 = keys
  let all := result.2 = .ok ids.length ∧ Promoted keys ids result.1
  (nothing ∨ all) ∧ ((∃ id ∈ ids, ¬keys.Complete id) → nothing)

/-- The selected ids have their entries and the stream has ids for them, or the first one lacks one
or the stream has none. -/
def Promotable (now : Score) (millis count : Nat) (keys : Keys Id Score Payload Attempt) : Prop :=
  let ids := keys.schedule.due now count
  ((∀ id ∈ ids, keys.Complete id) ∧ keys.stream.Room millis ids.length) ∨
    ∃ first rest, ids = first :: rest ∧ (¬keys.Complete first ∨ ¬keys.stream.Room millis 1)

/-- **All or nothing**, if and only if the script does not stop in between. -/
theorem promotion_all_or_nothing (now : Score) (millis count : Nat)
    (keys : Keys Id Score Payload Attempt) :
    AllOrNothing now millis count keys ↔ Promotable now millis count keys := by
  have distinct := nodup_due keys.schedule now count
  simp only [AllOrNothing, Promotable, promoteDueRetries_eq]
  generalize keys.schedule.due now count = ids at distinct
  rw [← promoteAll_iff distinct]
  cases through : (keys.promoteAll millis ids).2 with
  | true =>
    have complete := ((promoteAll_iff distinct).1 through).1
    refine iff_of_true ⟨.inr ⟨rfl, promoted_of_promoteAll distinct through⟩, ?_⟩ (.inl rfl)
    rintro ⟨id, isId, lacks⟩
    exact absurd (complete id isId) lacks
  | false =>
    rw [← unchanged_iff through]
    constructor
    · rintro ⟨⟨-, unchanged⟩ | ⟨refused, -⟩, -⟩
      · exact .inr unchanged
      · cases refused
    · intro promotable
      have unchanged := promotable.resolve_left Bool.false_ne_true
      exact ⟨.inl ⟨⟨_, rfl⟩, unchanged⟩, fun _ => ⟨⟨_, rfl⟩, unchanged⟩⟩

/-- Two ids are due, and the second has no payload. -/
def halfStored : Keys Nat Nat String Nat where
  stream := ⟨0, []⟩
  schedule := ⟨[(1, 5), (2, 6)], by decide⟩
  payloads id := if id = 1 then some "first" else none
  attempts _ := some 2

/-- The script reports an error, and has promoted the first. -/
theorem promoted_before_error :
    halfStored.schedule.due 10 8 = [1, 2] ∧ (halfStored.payloads 2).isSome = false ∧
      (halfStored.promoteDueRetries 10 10 8).2 = .error .command ∧
      (halfStored.promoteDueRetries 10 10 8).1.stream.entries = [("first", 2)] ∧
      (halfStored.promoteDueRetries 10 10 8).1.schedule.entries = [(2, 6)] := by
  decide

end Script

end Keys

/-! ## The keys of a group -/

/-- The four keys as the model of a group has them.  Entries that the group has read stay in the
stream, before the others. -/
structure Shows (read : List (Body × Nat)) (keys : Keys EntryId Nat Body Nat) (r : Redis) : Prop where
  entries : keys.stream.entries = read ++ r.unread.map fun entry => (entry.body, entry.attempt)
  schedule : keys.schedule.entries = r.schedule
  payloads : keys.payloads = Keyed.hget r.payloads
  attempts : keys.attempts = Keyed.hget r.attempts

section Group

variable {read : List (Body × Nat)} {keys : Keys EntryId Nat Body Nat} {r : Redis} {millis : Nat}

theorem Shows.promoteOne (shown : Shows read keys r) (room : keys.stream.nextId millis < 2 ^ 128)
    (id : EntryId) :
    (keys.promoteOne millis id = none ∧ r.promoteOne id = none) ∨
      ∃ keys' r', keys.promoteOne millis id = some keys' ∧ r.promoteOne id = some r' ∧
        Shows read keys' r' := by
  rw [Keys.promoteOne, Stream.xadd, argument_hget, argument_hget, Redis.promoteOne, shown.payloads,
    shown.attempts]
  cases Keyed.hget r.payloads id with
  | none => exact .inl ⟨rfl, rfl⟩
  | some body =>
    cases Keyed.hget r.attempts id with
    | none => exact .inl ⟨rfl, rfl⟩
    | some attempt =>
      simp only [if_pos room]
      refine .inr ⟨_, _, rfl, rfl, ?_, ?_, ?_, ?_⟩
      · simp [shown.entries, Redis.xadd]
      · simp [ZSet.zrem, shown.schedule]
      · exact (Keyed.hget_hdel _ _).symm
      · exact (Keyed.hget_hdel _ _).symm

theorem Shows.promoteAll (ids : List EntryId) (shown : Shows read keys r)
    (room : keys.stream.Room millis ids.length) :
    Shows read (keys.promoteAll millis ids).1 (Redis.promoteAll ids r).1 ∧
      (keys.promoteAll millis ids).2 = (Redis.promoteAll ids r).2 := by
  induction ids generalizing keys r with
  | nil => exact ⟨shown, rfl⟩
  | cons id rest ih =>
    have available := room (by simp)
    rw [List.length_cons] at available
    rw [Keys.promoteAll, Redis.promoteAll]
    rcases shown.promoteOne (by omega : keys.stream.nextId millis < 2 ^ 128) id with
      ⟨isNone, isNone'⟩ | ⟨keys', r', isSome, isSome', shows'⟩
    · rw [isNone, isNone']
      exact ⟨shown, rfl⟩
    · rw [isSome, isSome']
      refine ih shows' fun _ => ?_
      rw [(Keys.promotes_of_promoteOne isSome).nextId]
      omega

/-- The promotion of a group's model is this script, while its stream has ids. -/
theorem script_refines_promotion (shown : Shows read keys r) (count : Nat)
    (room : keys.stream.Room millis (r.dueIds count).length) :
    Shows read (keys.promoteDueRetries r.now millis count).1 (r.promoteDueRetries count).1 ∧
      (keys.promoteDueRetries r.now millis count).2.toOption = (r.promoteDueRetries count).2 := by
  have same : keys.schedule.due r.now count = r.dueIds count := by
    rw [ZSet.due, Redis.dueIds, shown.schedule]
  obtain ⟨shown, through⟩ := shown.promoteAll (r.dueIds count) room
  rw [Keys.promoteDueRetries_eq, same, Redis.promoteDueRetries]
  rcases promoted : Redis.promoteAll (r.dueIds count) r with ⟨after, _ | _⟩
  · rw [promoted] at shown through
    exact ⟨shown, by simp [through, Except.toOption]⟩
  · rw [promoted] at shown through
    exact ⟨shown, by simp [through, Except.toOption]⟩

end Group

/-- One job, whose first delivery failed. -/
def failedOnce : Redis where
  now := 10
  nextId := 2
  unread := []
  pending := []
  schedule := [(1, 5)]
  payloads := [(1, ⟨0, [110, 117, 108, 108]⟩)]
  attempts := [(1, 2)]
  deadLetters := []

/-- Its first entry is still in the stream. -/
def failedOnceKeys : Keys EntryId Nat Body Nat where
  stream := ⟨3 * 2 ^ 64, [(⟨0, [110, 117, 108, 108]⟩, 1)]⟩
  schedule := ⟨failedOnce.schedule, by decide⟩
  payloads := Keyed.hget failedOnce.payloads
  attempts := Keyed.hget failedOnce.attempts

theorem script_refines_promotion_one :
    Shows [(⟨0, [110, 117, 108, 108]⟩, 1)] (failedOnceKeys.promoteDueRetries 10 10 8).1
        (failedOnce.promoteDueRetries 8).1 ∧
      (failedOnceKeys.promoteDueRetries 10 10 8).2.toOption = some 1 := by
  have shown : Shows [(⟨0, [110, 117, 108, 108]⟩, 1)] failedOnceKeys failedOnce := ⟨rfl, rfl, rfl, rfl⟩
  exact script_refines_promotion shown 8 fun _ => by decide +kernel

end Rustee.RedisJobs.Promotion
