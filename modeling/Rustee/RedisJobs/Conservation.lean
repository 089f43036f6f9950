/-
# Rustee.RedisJobs.Conservation -- no job is lost or doubled

Publishers, consumers of one group, and the maintenance of their workers, in any order.  A
consumer may crash after a read, may hold a delivery for as long as it likes, may reclaim
an entry it is still working on, and may settle a delivery after it lost the entry: so
every delivery ever made stays in `deliveries` and can be settled at any time and again.

Three things carry the proof.  `Evolves` says how entries move: an id that has left the
unread part never comes back to it, and a pending entry was pending or unread before.
`WellFormed` is what the five keys agree on.  And `places`, the multiset of the jobs in
the five keys, changes only by a publication and by an acknowledgement, so that with the
acknowledged jobs it is always the jobs published (`job_conservation`).
-/
import Rustee.Foundation.Machine
import Rustee.RedisJobs.Scripts
import Mathlib.Data.Multiset.Range
import Mathlib.Data.Multiset.Count
import Mathlib.Tactic.Abel
import Mathlib.Algebra.Order.Group.Multiset

namespace Rustee.RedisJobs.Conservation

open Rustee.Foundation Rustee.Jobs

set_option autoImplicit false

/-! ## The machine -/

structure State where
  redis : Redis
  /-- How many jobs were published. -/
  published : Nat
  /-- Entries a consumer reclaimed and has not yet asked the delivery count of. -/
  claimed : List (String × Entry)
  /-- Every delivery made. -/
  deliveries : List Delivery

inductive Input where
  | tick (ms : Nat)
  | publish (payload : List UInt8) (attempt : Nat)
  | read (consumer : String) (count : Nat)
  | reclaim (consumer : String) (idle : List EntryId) (count : Nat)
  /-- `pending_delivery_count`, for one of the reclaimed entries. -/
  | countPending (index : Nat)
  /-- A worker processes a delivery it holds or once held. -/
  | settle (index : Nat) (policy : WorkerPolicy) (verdict : Verdict)
  | promote (count : Nat)

inductive Output where
  | done
  | settled (delivery : Delivery) (result : Except RedisStreamsError JobDeliveryOutcome)
  | failed (error : RedisStreamsError)

def step (s : State) : Input → Option (State × Output)
  | .tick ms => some ({ s with redis := { s.redis with now := s.redis.now + ms } }, .done)
  | .publish payload attempt =>
    some ({ s with redis := s.redis.xadd ⟨s.published, payload⟩ attempt
                   published := s.published + 1 }, .done)
  | .read consumer count =>
    let (redis, entries) := s.redis.xreadgroup consumer count
    let new := entries.map fun entry => deliveryFromEntry consumer entry none
    some ({ s with redis, deliveries := s.deliveries ++ new }, .done)
  | .reclaim consumer idle count =>
    let (redis, entries) := s.redis.xautoclaim consumer idle count
    let new := entries.map fun entry => (consumer, entry)
    some ({ s with redis, claimed := s.claimed ++ new }, .done)
  | .countPending index =>
    match s.claimed[index]? with
    | none => none
    | some (consumer, entry) =>
      -- the entry may have been settled since; its batch is then dropped with an error
      match s.redis.xpending entry.id with
      | none => some ({ s with claimed := s.claimed.eraseIdx index }, .failed .deliveryMetadata)
      | some pending =>
        some ({ s with
          claimed := s.claimed.eraseIdx index
          deliveries := s.deliveries ++
            [deliveryFromEntry consumer entry (some pending.timesDelivered)] }, .done)
  | .settle index policy verdict =>
    match s.deliveries[index]? with
    | none => none
    | some delivery =>
      let (redis, result) :=
        settleAction s.redis delivery (chooseAction policy.policy delivery verdict)
      some ({ s with redis }, .settled delivery result)
  | .promote count =>
    match s.redis.promoteDueRetries count with
    | (redis, some _) => some ({ s with redis }, .done)
    | (redis, none) => some ({ s with redis }, .failed .retryPromotion)

/-- The group over empty keys. -/
def group : Machine State Input Output where
  initial s := (∃ now nextId, s.redis = ⟨now, nextId, [], [], [], [], [], []⟩) ∧
    s.published = 0 ∧ s.claimed = [] ∧ s.deliveries = []
  step := step

/-- The jobs whose acknowledgement went through. -/
def ackedJobs (trace : List (Input × Output)) : List Nat :=
  trace.filterMap fun entry =>
    match entry.2 with
    | .settled delivery (.ok .acknowledged) => some delivery.body.job
    | _ => none

/-- How often a settlement of stream entry `id` went through. -/
def settlements (id : EntryId) (trace : List (Input × Output)) : Nat :=
  trace.countP fun entry =>
    match entry.2 with
    | .settled delivery (.ok _) => delivery.entryId = id
    | _ => false

/-! ## Where entries go -/

/-- Later keys: a new id is new, and an id never goes back. -/
structure Evolves (r r' : Redis) : Prop where
  next : r.nextId ≤ r'.nextId
  unread : ∀ e ∈ r'.unread, e ∈ r.unread ∨ r.nextId ≤ e.id
  pending : ∀ p ∈ r'.pending, (∃ q ∈ r.pending, q.entry = p.entry) ∨ p.entry ∈ r.unread ∨
    r.nextId ≤ p.id

/-- What the five keys agree on. -/
structure WellFormed (r : Redis) : Prop where
  ids : (r.unread.map Entry.id ++ r.pending.map Pending.id).Nodup
  below : ∀ id ∈ r.unread.map Entry.id ++ r.pending.map Pending.id, id < r.nextId
  payloads : Keyed.keys r.payloads = Keyed.keys r.schedule
  attempts : Keyed.keys r.attempts = Keyed.keys r.schedule
  retries : (Keyed.keys r.schedule).Nodup
  gone : ∀ id ∈ Keyed.keys r.schedule,
    id < r.nextId ∧ id ∉ r.unread.map Entry.id ∧ id ∉ r.pending.map Pending.id

/-- The entry was delivered with this body, as far as the keys still know it. -/
def Known (r : Redis) (id : EntryId) (body : Body) : Prop :=
  id < r.nextId ∧ id ∉ r.unread.map Entry.id ∧ ∀ p ∈ r.pending, p.id = id → p.entry.body = body

/-- The entry is settled. -/
def Gone (r : Redis) (id : EntryId) : Prop :=
  id < r.nextId ∧ id ∉ r.unread.map Entry.id ∧ id ∉ r.pending.map Pending.id

/-- The jobs in the keys. -/
def places (r : Redis) : Multiset Nat :=
  (r.unread.map (·.body.job) : Multiset Nat) + (r.pending.map (·.entry.body.job) : Multiset Nat) +
    (r.payloads.map (·.2.job) : Multiset Nat) + (r.deadLetters.map (·.body.job) : Multiset Nat)

variable {r r' : Redis} {id : EntryId}

theorem Evolves.refl (r : Redis) : Evolves r r :=
  ⟨le_rfl, fun _ member => .inl member, fun p member => .inl ⟨p, member, rfl⟩⟩

theorem Evolves.known (evolves : Evolves r r') {body : Body} (known : Known r id body) :
    Known r' id body := by
  obtain ⟨below, delivered, same⟩ := known
  have notNew : ∀ e ∈ r.unread, e.id ≠ id := fun e member eq =>
    delivered (List.mem_map.2 ⟨e, member, eq⟩)
  refine ⟨below.trans_le evolves.next, ?_, ?_⟩
  · intro member
    obtain ⟨e, stored, rfl⟩ := List.mem_map.1 member
    rcases evolves.unread e stored with old | new
    · exact notNew e old rfl
    · exact absurd below (Nat.not_lt.2 new)
  · intro p stored eq
    rcases evolves.pending p stored with ⟨q, old, entry⟩ | unread | new
    · rw [← entry]
      exact same q old (by rw [← eq, Pending.id, Pending.id, entry])
    · exact absurd eq (notNew p.entry unread)
    · exact absurd below (Nat.not_lt.2 (eq ▸ new))

theorem Evolves.gone (evolves : Evolves r r') (gone : Gone r id) : Gone r' id := by
  obtain ⟨below, delivered, settled⟩ := gone
  have known : Known r' id ⟨0, []⟩ :=
    evolves.known ⟨below, delivered, fun p member eq =>
      absurd (List.mem_map.2 ⟨p, member, eq⟩) settled⟩
  refine ⟨known.1, known.2.1, fun member => ?_⟩
  obtain ⟨p, stored, rfl⟩ := List.mem_map.1 member
  rcases evolves.pending p stored with ⟨q, old, entry⟩ | unread | new
  · exact settled (List.mem_map.2 ⟨q, old, congrArg Entry.id entry⟩)
  · exact delivered (List.mem_map_of_mem unread)
  · exact absurd below (Nat.not_lt.2 new)

/-- The retry keys stay well formed under whatever leaves them alone. -/
theorem WellFormed.evolve (wf : WellFormed r) (evolves : Evolves r r')
    (ids : (r'.unread.map Entry.id ++ r'.pending.map Pending.id).Nodup)
    (below : ∀ id ∈ r'.unread.map Entry.id ++ r'.pending.map Pending.id, id < r'.nextId)
    (schedule : r'.schedule = r.schedule) (payloads : r'.payloads = r.payloads)
    (attempts : r'.attempts = r.attempts) : WellFormed r' where
  ids := ids
  below := below
  payloads := by rw [payloads, schedule]; exact wf.payloads
  attempts := by rw [attempts, schedule]; exact wf.attempts
  retries := by rw [schedule]; exact wf.retries
  gone := by
    rw [schedule]
    exact fun id member => evolves.gone (wf.gone id member)

/-! ### Publishing -/

theorem xadd_evolves (body : Body) (attempt : Nat) : Evolves r (r.xadd body attempt) := by
  refine ⟨Nat.le_succ _, fun e member => ?_, fun p member => .inl ⟨p, member, rfl⟩⟩
  rcases List.mem_append.1 member with old | new
  · exact .inl old
  · rw [List.mem_singleton.1 new]
    exact .inr le_rfl

theorem xadd_wellFormed (wf : WellFormed r) (body : Body) (attempt : Nat) :
    WellFormed (r.xadd body attempt) := by
  have perm : (((r.xadd body attempt).unread.map Entry.id) ++ r.pending.map Pending.id).Perm
      (r.nextId :: (r.unread.map Entry.id ++ r.pending.map Pending.id)) := by
    simp only [Redis.xadd, List.map_append, List.map_cons, List.map_nil, List.append_assoc,
      List.singleton_append]
    exact List.perm_middle
  refine wf.evolve (xadd_evolves body attempt) ?_ ?_ rfl rfl rfl
  · refine perm.nodup_iff.2 (List.nodup_cons.2 ⟨fun member => ?_, wf.ids⟩)
    exact Nat.lt_irrefl _ (wf.below _ member)
  · intro id member
    rcases List.mem_cons.1 (perm.mem_iff.1 member) with rfl | old
    · exact Nat.lt_succ_self _
    · exact Nat.lt_succ_of_lt (wf.below id old)

theorem xadd_places (body : Body) (attempt : Nat) :
    places (r.xadd body attempt) = {body.job} + places r := by
  simp only [places, Redis.xadd, List.map_append, List.map_cons, List.map_nil,
    ← Multiset.coe_add, Multiset.coe_singleton]
  abel

/-! ### Reading and reclaiming -/

theorem xreadgroup_evolves (consumer : String) (count : Nat) :
    Evolves r (r.xreadgroup consumer count).1 := by
  refine ⟨le_rfl, fun e member => .inl (List.mem_of_mem_drop member), fun p member => ?_⟩
  rcases List.mem_append.1 member with old | new
  · exact .inl ⟨p, old, rfl⟩
  · obtain ⟨e, taken, rfl⟩ := List.mem_map.1 new
    exact .inr (.inl (List.mem_of_mem_take taken))

theorem xreadgroup_ids (consumer : String) (count : Nat) :
    ((r.xreadgroup consumer count).1.unread.map Entry.id ++
      (r.xreadgroup consumer count).1.pending.map Pending.id).Perm
      (r.unread.map Entry.id ++ r.pending.map Pending.id) := by
  have split : r.unread.map Entry.id =
      (r.unread.take count).map Entry.id ++ (r.unread.drop count).map Entry.id := by
    rw [← List.map_append, List.take_append_drop]
  have taken : ((r.unread.take count).map fun entry => (⟨entry, consumer, 1⟩ : Pending)).map
      Pending.id = (r.unread.take count).map Entry.id := by
    rw [List.map_map]
    rfl
  simp only [Redis.xreadgroup, List.map_append]
  rw [taken, split, ← Multiset.coe_eq_coe]
  simp only [← Multiset.coe_add]
  abel

theorem xreadgroup_wellFormed (wf : WellFormed r) (consumer : String) (count : Nat) :
    WellFormed (r.xreadgroup consumer count).1 := by
  have perm := xreadgroup_ids (r := r) consumer count
  exact wf.evolve (xreadgroup_evolves consumer count) (perm.nodup_iff.2 wf.ids)
    (fun id member => wf.below id (perm.mem_iff.1 member)) rfl rfl rfl

theorem xreadgroup_places (consumer : String) (count : Nat) :
    places (r.xreadgroup consumer count).1 = places r := by
  have split : r.unread.map (·.body.job) =
      (r.unread.take count).map (·.body.job) ++ (r.unread.drop count).map (·.body.job) := by
    rw [← List.map_append, List.take_append_drop]
  have taken : ((r.unread.take count).map fun entry => (⟨entry, consumer, 1⟩ : Pending)).map
      (·.entry.body.job) = (r.unread.take count).map (·.body.job) := by
    rw [List.map_map]
    rfl
  simp only [places, Redis.xreadgroup, List.map_append]
  rw [taken, split]
  simp only [← Multiset.coe_add]
  abel

/-- A read entry is known with its body. -/
theorem xreadgroup_known (wf : WellFormed r) (consumer : String) (count : Nat) {e : Entry}
    (read : e ∈ (r.xreadgroup consumer count).2) :
    Known (r.xreadgroup consumer count).1 e.id e.body := by
  have ids := (xreadgroup_wellFormed wf consumer count).ids
  have pending : (⟨e, consumer, 1⟩ : Pending) ∈ (r.xreadgroup consumer count).1.pending :=
    List.mem_append_right _ (List.mem_map.2 ⟨e, read, rfl⟩)
  refine ⟨wf.below _ (List.mem_append_left _ (List.mem_map_of_mem (List.mem_of_mem_take read))),
    fun unread => ?_, fun p member same => ?_⟩
  · exact (List.nodup_append.1 ids).2.2 _ unread _ (List.mem_map_of_mem pending) rfl
  · rw [List.inj_on_of_nodup_map (List.nodup_append.1 ids).2.1 member pending same]

/-- `XAUTOCLAIM` changes owners and counts, not entries. -/
theorem xautoclaim_entries (consumer : String) (idle : List EntryId) (count : Nat) :
    (r.xautoclaim consumer idle count).1.pending.map Pending.entry =
      r.pending.map Pending.entry := by
  simp only [Redis.xautoclaim, List.map_map]
  refine List.map_congr_left fun p _ => ?_
  simp only [Function.comp]
  split <;> rfl

theorem xautoclaim_evolves (consumer : String) (idle : List EntryId) (count : Nat) :
    Evolves r (r.xautoclaim consumer idle count).1 := by
  refine ⟨le_rfl, fun e member => .inl member, fun p member => .inl ?_⟩
  have entry : p.entry ∈ (r.xautoclaim consumer idle count).1.pending.map Pending.entry :=
    List.mem_map_of_mem member
  rw [xautoclaim_entries] at entry
  exact List.mem_map.1 entry

theorem xautoclaim_wellFormed (wf : WellFormed r) (consumer : String) (idle : List EntryId)
    (count : Nat) : WellFormed (r.xautoclaim consumer idle count).1 := by
  have ids : (r.xautoclaim consumer idle count).1.pending.map Pending.id =
      r.pending.map Pending.id := by
    have := congrArg (List.map Entry.id) (xautoclaim_entries (r := r) consumer idle count)
    rw [List.map_map, List.map_map] at this
    exact this
  refine wf.evolve (xautoclaim_evolves consumer idle count) ?_ ?_ rfl rfl rfl
  · rw [ids]; exact wf.ids
  · rw [ids]; exact wf.below

theorem xautoclaim_places (consumer : String) (idle : List EntryId) (count : Nat) :
    places (r.xautoclaim consumer idle count).1 = places r := by
  have jobs : (r.xautoclaim consumer idle count).1.pending.map (·.entry.body.job) =
      r.pending.map (·.entry.body.job) := by
    have := congrArg (List.map (·.body.job)) (xautoclaim_entries (r := r) consumer idle count)
    rw [List.map_map, List.map_map] at this
    exact this
  simp only [places, jobs]
  rfl

theorem xautoclaim_known (wf : WellFormed r) (consumer : String) (idle : List EntryId)
    (count : Nat) {e : Entry} (claimed : e ∈ (r.xautoclaim consumer idle count).2) :
    Known (r.xautoclaim consumer idle count).1 e.id e.body := by
  obtain ⟨p, taken, rfl⟩ := List.mem_map.1 claimed
  have stored : p ∈ r.pending := List.mem_of_mem_filter (List.mem_of_mem_take taken)
  refine (xautoclaim_evolves consumer idle count).known ⟨?_, fun unread => ?_, fun q member same => ?_⟩
  · exact wf.below _ (List.mem_append_right _ (List.mem_map_of_mem stored))
  · exact (List.nodup_append.1 wf.ids).2.2 _ unread _ (List.mem_map_of_mem stored) rfl
  · rw [List.inj_on_of_nodup_map (List.nodup_append.1 wf.ids).2.1 member stored same]

/-! ### Settling -/

theorem ownedBy_iff {consumer : String} :
    r.ownedBy id consumer = true ↔ ∃ p ∈ r.pending, p.id = id ∧ p.consumer = consumer := by
  simp [Redis.ownedBy]

/-- The pending list without `id`. -/
def acked (r : Redis) (id : EntryId) : Redis :=
  { r with pending := Keyed.remove Pending.id id r.pending }

variable {p : Pending}

theorem xack_owned (unique : (r.pending.map Pending.id).Nodup) (member : p ∈ r.pending) :
    r.xack p.id = (acked r p.id, 1) := by
  have count : (r.pending.countP fun q => q.id = p.id) = 1 := by
    rw [(Keyed.perm_remove unique member).countP_eq, List.countP_cons]
    have none_left : ((Keyed.remove Pending.id p.id r.pending).countP fun q => q.id = p.id) = 0 :=
      List.countP_eq_zero.2 fun q left => by
        simpa using (Keyed.mem_remove.1 left).2
    rw [none_left]
    simp
  simp only [Redis.xack, count]
  rfl

theorem acked_evolves (r : Redis) (id : EntryId) : Evolves r (acked r id) :=
  ⟨le_rfl, fun _ member => .inl member,
    fun p member => .inl ⟨p, (Keyed.mem_remove.1 member).1, rfl⟩⟩

theorem acked_gone (wf : WellFormed r) (member : p ∈ r.pending) :
    Gone (acked r p.id) p.id := by
  refine ⟨wf.below _ (List.mem_append_right _ (List.mem_map_of_mem member)), fun unread => ?_, ?_⟩
  · exact (List.nodup_append.1 wf.ids).2.2 _ unread _ (List.mem_map_of_mem member) rfl
  · intro stored
    obtain ⟨q, left, same⟩ := List.mem_map.1 stored
    exact (Keyed.mem_remove.1 left).2 same

theorem acked_ids (wf : WellFormed r) (id : EntryId) :
    ((acked r id).unread.map Entry.id ++ (acked r id).pending.map Pending.id).Nodup ∧
      ∀ k ∈ (acked r id).unread.map Entry.id ++ (acked r id).pending.map Pending.id,
        k < r.nextId := by
  have sub : ((acked r id).unread.map Entry.id ++ (acked r id).pending.map Pending.id).Sublist
      (r.unread.map Entry.id ++ r.pending.map Pending.id) :=
    (List.Sublist.refl _).append (List.filter_sublist.map _)
  exact ⟨wf.ids.sublist sub, fun k member => wf.below k (sub.subset member)⟩

theorem acked_wellFormed (wf : WellFormed r) (id : EntryId) : WellFormed (acked r id) := by
  obtain ⟨ids, below⟩ := acked_ids wf id
  exact wf.evolve (acked_evolves r id) ids below rfl rfl rfl

/-- Taking an entry off the pending list takes its job off the keys. -/
theorem acked_places (wf : WellFormed r) (member : p ∈ r.pending) :
    places r = {p.entry.body.job} + places (acked r p.id) := by
  have perm := Keyed.perm_remove (List.nodup_append.1 wf.ids).2.1 member
  have jobs : (r.pending.map (·.entry.body.job) : Multiset Nat) = {p.entry.body.job} +
      ((acked r p.id).pending.map (·.entry.body.job) : Multiset Nat) := by
    rw [Multiset.coe_eq_coe.2 (perm.map _)]
    rfl
  simp only [places, jobs]
  simp only [acked]
  abel

/-- `SCHEDULE_RETRY_SCRIPT`, once the entry is known to be owned. -/
def retried (r : Redis) (id : EntryId) (delayMs : Nat) (body : Body) (nextAttempt : Nat) : Redis :=
  { acked r id with
    payloads := r.payloads ++ [(id, body)]
    attempts := r.attempts ++ [(id, nextAttempt)]
    schedule := r.schedule ++ [(id, r.now + delayMs)] }

theorem scheduleRetry_owned (wf : WellFormed r) (member : p ∈ r.pending) (delayMs : Nat) (body : Body)
    (nextAttempt : Nat) :
    r.scheduleRetry p.id p.consumer delayMs body nextAttempt =
      (retried r p.id delayMs body nextAttempt, 1) := by
  have new : p.id ∉ Keyed.keys r.schedule := fun scheduled =>
    (wf.gone _ scheduled).2.2 (List.mem_map_of_mem member)
  unfold Redis.scheduleRetry
  rw [if_pos (ownedBy_iff.2 ⟨p, member, rfl, rfl⟩), Keyed.hset_of_not_mem new,
    Keyed.hset_of_not_mem (by rw [wf.payloads]; exact new),
    Keyed.hset_of_not_mem (by rw [wf.attempts]; exact new)]
  refine xack_owned ?_ ?_
  · exact (List.nodup_append.1 wf.ids).2.1
  · exact member

theorem retried_evolves (r : Redis) (id : EntryId) (delayMs : Nat) (body : Body)
    (nextAttempt : Nat) : Evolves r (retried r id delayMs body nextAttempt) :=
  ⟨le_rfl, (acked_evolves r id).unread, (acked_evolves r id).pending⟩

theorem keys_append {V : Type} (l : List (EntryId × V)) (k : EntryId) (v : V) :
    Keyed.keys (l ++ [(k, v)]) = Keyed.keys l ++ [k] := by
  simp [Keyed.keys]

theorem retried_wellFormed (wf : WellFormed r) (member : p ∈ r.pending) (delayMs : Nat) (body : Body)
    (nextAttempt : Nat) :
    WellFormed (retried r p.id delayMs body nextAttempt) := by
  obtain ⟨ids, below⟩ := acked_ids wf p.id
  have new : p.id ∉ Keyed.keys r.schedule := fun scheduled =>
    (wf.gone _ scheduled).2.2 (List.mem_map_of_mem member)
  refine ⟨ids, below, ?_, ?_, ?_, ?_⟩
  · simp only [retried, keys_append, wf.payloads]
  · simp only [retried, keys_append, wf.attempts]
  · simp only [retried, keys_append]
    refine List.nodup_append.2 ⟨wf.retries, List.nodup_singleton _, ?_⟩
    intro a old b last same
    exact new (List.mem_singleton.1 last ▸ same ▸ old)
  · intro k scheduled
    simp only [retried, keys_append] at scheduled
    rcases List.mem_append.1 scheduled with old | last
    · exact (acked_evolves r p.id).gone (wf.gone k old)
    · rw [List.mem_singleton.1 last]
      exact acked_gone wf member

theorem retried_places (wf : WellFormed r) (member : p ∈ r.pending) (delayMs nextAttempt : Nat) :
    places (retried r p.id delayMs p.entry.body nextAttempt) = places r := by
  rw [acked_places wf member]
  simp only [places, retried, acked, List.map_append, List.map_cons, List.map_nil,
    ← Multiset.coe_add, Multiset.coe_singleton]
  abel

/-- `DEAD_LETTER_IF_OWNED_SCRIPT`, once the entry is known to be owned. -/
def buried (r : Redis) (id : EntryId) (body : Body) (attempt : Nat) : Redis :=
  { acked r id with deadLetters := r.deadLetters ++ [⟨body, attempt, id⟩] }

theorem deadLetter_owned (wf : WellFormed r) (member : p ∈ r.pending) (body : Body) (attempt : Nat) :
    r.deadLetterIfOwned p.id p.consumer body attempt = (buried r p.id body attempt, 1) := by
  unfold Redis.deadLetterIfOwned
  rw [if_pos (ownedBy_iff.2 ⟨p, member, rfl, rfl⟩)]
  refine xack_owned ?_ ?_
  · exact (List.nodup_append.1 wf.ids).2.1
  · exact member

theorem buried_evolves (r : Redis) (id : EntryId) (body : Body) (attempt : Nat) :
    Evolves r (buried r id body attempt) :=
  ⟨le_rfl, (acked_evolves r id).unread, (acked_evolves r id).pending⟩

theorem buried_wellFormed (wf : WellFormed r) (body : Body) (attempt : Nat) :
    WellFormed (buried r id body attempt) := by
  obtain ⟨ids, below⟩ := acked_ids wf id
  exact wf.evolve (buried_evolves r id body attempt) ids below rfl rfl rfl

theorem buried_places (wf : WellFormed r) (member : p ∈ r.pending) (attempt : Nat) :
    places (buried r p.id p.entry.body attempt) = places r := by
  rw [acked_places wf member]
  simp only [places, buried, acked, List.map_append, List.map_cons, List.map_nil,
    ← Multiset.coe_add, Multiset.coe_singleton]
  abel

theorem nonzeroDurationToMillis_isSome (d : Duration) :
    (nonzeroDurationToMillis d).isSome = true ↔
      d.wholeMillis = true ∧ d.asMillis ≤ usizeMax ∧ 1000000 ≤ d.nanos := by
  have millis : d.asMillis = 0 ↔ d.nanos < 1000000 := by
    unfold Duration.asMillis
    omega
  unfold nonzeroDurationToMillis
  split_ifs <;> simp_all

/-- A validated policy never asks for a delay that Redis cannot store. -/
theorem chooseAction_delay (policy : WorkerPolicy) (delivery : Delivery) (verdict : Verdict)
    {nextAttempt : Nat} {delay : Duration}
    (chosen : chooseAction policy.policy delivery verdict = .retry nextAttempt delay) :
    ∃ delayMs, nonzeroDurationToMillis delay = some delayMs := by
  have valid := policy.valid
  unfold validateRetryPolicy at valid
  split at valid
  · rename_i checked
    obtain ⟨usable, initial, max⟩ := checked
    obtain ⟨initialWhole, -, initialPos⟩ := (nonzeroDurationToMillis_isSome _).1 initial
    obtain ⟨maxWhole, maxFits, -⟩ := (nonzeroDurationToMillis_isSome _).1 max
    have fits : policy.policy.maxBackoff.nanos ≤ durationMax.nanos := by
      unfold Duration.asMillis usizeMax at maxFits
      unfold durationMax
      simp only
      omega
    obtain ⟨-, attempt, -, retried⟩ := chooseAction_retry chosen
    obtain ⟨-, -, -, -, rfl⟩ := RetryPolicy.afterFailure_retry retried
    refine Option.isSome_iff_exists.1 ((nonzeroDurationToMillis_isSome _).2 ⟨?_, ?_, ?_⟩)
    · exact RetryPolicy.backoff_whole initialWhole maxWhole fits attempt
    · exact (Nat.div_le_div_right (policy.policy.backoff_le attempt)).trans maxFits
    · exact initialPos.trans (RetryPolicy.le_backoff usable fits attempt)
  · cases valid

/-- What a settlement can do: it is lost, or it moves the job of the pending entry it owns. -/
inductive Settlement (r : Redis) (delivery : Delivery) :
    Redis → Except RedisStreamsError JobDeliveryOutcome → Prop
  | lost : Settlement r delivery r (.error .deliveryOwnershipLost)
  | acknowledged {p : Pending} (member : p ∈ r.pending) (same : p.id = delivery.entryId) :
      Settlement r delivery (acked r delivery.entryId) (.ok .acknowledged)
  | retried {p : Pending} (member : p ∈ r.pending) (same : p.id = delivery.entryId)
      (delayMs nextAttempt : Nat) :
      Settlement r delivery (retried r delivery.entryId delayMs delivery.body nextAttempt)
        (.ok .retried)
  | deadLettered {p : Pending} (member : p ∈ r.pending) (same : p.id = delivery.entryId)
      (attempt : Nat) :
      Settlement r delivery (buried r delivery.entryId delivery.body attempt) (.ok .deadLettered)

theorem settleAction_settlement (wf : WellFormed r) (policy : WorkerPolicy) (delivery : Delivery)
    (verdict : Verdict) :
    Settlement r delivery
      (settleAction r delivery (chooseAction policy.policy delivery verdict)).1
      (settleAction r delivery (chooseAction policy.policy delivery verdict)).2 := by
  by_cases owned : r.ownedBy delivery.entryId delivery.consumer = true
  · obtain ⟨p, member, same, consumer⟩ := ownedBy_iff.1 owned
    cases chosen : chooseAction policy.policy delivery verdict with
    | acknowledge =>
      have ok : r.ackIfOwned delivery.entryId delivery.consumer = (acked r delivery.entryId, 1) := by
        rw [Redis.ackIfOwned, if_pos owned, ← same]
        exact xack_owned (List.nodup_append.1 wf.ids).2.1 member
      simp only [settleAction, ok, settledBy, if_true]
      exact .acknowledged member same
    | retry nextAttempt delay =>
      obtain ⟨delayMs, ms⟩ := chooseAction_delay policy delivery verdict chosen
      simp only [settleAction, ms]
      rw [← same, ← consumer, scheduleRetry_owned wf member, same]
      simp only [settledBy, if_true]
      exact .retried member same delayMs nextAttempt
    | deadLetter =>
      simp only [settleAction]
      rw [← same, ← consumer, deadLetter_owned wf member, same]
      simp only [settledBy, if_true]
      exact .deadLettered member same _
  · cases chosen : chooseAction policy.policy delivery verdict with
    | acknowledge =>
      simp only [settleAction, Redis.ackIfOwned, if_neg owned, settledBy, Nat.zero_ne_one, if_false]
      exact .lost
    | retry nextAttempt delay =>
      obtain ⟨delayMs, ms⟩ := chooseAction_delay policy delivery verdict chosen
      simp only [settleAction, ms, Redis.scheduleRetry, if_neg owned, settledBy, Nat.zero_ne_one,
        if_false]
      exact .lost
    | deadLetter =>
      simp only [settleAction, Redis.deadLetterIfOwned, if_neg owned, settledBy, Nat.zero_ne_one,
        if_false]
      exact .lost

/-! ### Promoting -/

theorem Evolves.trans {r'' : Redis} (first : Evolves r r') (second : Evolves r' r'') :
    Evolves r r'' := by
  refine ⟨first.next.trans second.next, fun e member => ?_, fun p member => ?_⟩
  · rcases second.unread e member with old | new
    · exact first.unread e old
    · exact .inr (first.next.trans new)
  · rcases second.pending p member with ⟨q, old, entry⟩ | unread | new
    · rw [Pending.id, ← entry]
      exact first.pending q old
    · exact .inr (first.unread _ unread)
    · exact .inr (.inr (first.next.trans new))

def promoted (r : Redis) (id : EntryId) (body : Body) (attempt : Nat) : Redis :=
  { r.xadd body attempt with
    payloads := Keyed.hdel r.payloads id
    attempts := Keyed.hdel r.attempts id
    schedule := Keyed.hdel r.schedule id }

/-- A scheduled record is complete, so the loop body goes through. -/
theorem promoteOne_scheduled (wf : WellFormed r) (scheduled : id ∈ Keyed.keys r.schedule) :
    ∃ body attempt, r.promoteOne id = some (promoted r id body attempt) ∧
      (id, body) ∈ r.payloads ∧ (id, attempt) ∈ r.attempts := by
  obtain ⟨body, payload⟩ := Keyed.hget_of_mem_keys (wf.payloads ▸ scheduled)
  obtain ⟨attempt, stored⟩ := Keyed.hget_of_mem_keys (wf.attempts ▸ scheduled)
  refine ⟨body, attempt, ?_, Keyed.hget_mem payload, Keyed.hget_mem stored⟩
  simp only [Redis.promoteOne, payload, stored]
  rfl

theorem promoted_evolves (id : EntryId) (body : Body) (attempt : Nat) :
    Evolves r (promoted r id body attempt) :=
  have added := xadd_evolves (r := r) body attempt
  ⟨added.next, added.unread, added.pending⟩

theorem promoted_wellFormed (wf : WellFormed r) (id : EntryId) (body : Body) (attempt : Nat) :
    WellFormed (promoted r id body attempt) := by
  have added := xadd_wellFormed wf body attempt
  refine ⟨added.ids, added.below, ?_, ?_, ?_, ?_⟩
  · simp only [promoted, Keyed.keys_hdel, wf.payloads]
  · simp only [promoted, Keyed.keys_hdel, wf.attempts]
  · simp only [promoted, Keyed.keys_hdel]
    exact wf.retries.filter _
  · intro k scheduled
    simp only [promoted, Keyed.keys_hdel] at scheduled
    exact added.gone k (List.mem_of_mem_filter scheduled)

theorem promoted_places (wf : WellFormed r) {body : Body} (stored : (id, body) ∈ r.payloads)
    (attempt : Nat) : places (promoted r id body attempt) = places r := by
  have unique : (r.payloads.map Prod.fst).Nodup := by
    rw [show r.payloads.map Prod.fst = Keyed.keys r.schedule from wf.payloads]
    exact wf.retries
  have jobs : (r.payloads.map (·.2.job) : Multiset Nat) =
      {body.job} + ((Keyed.hdel r.payloads id).map (·.2.job) : Multiset Nat) := by
    rw [Multiset.coe_eq_coe.2 ((Keyed.perm_remove unique stored).map _)]
    rfl
  simp only [places, jobs, promoted, Redis.xadd, List.map_append, List.map_cons, List.map_nil,
    ← Multiset.coe_add, Multiset.coe_singleton]
  abel

/-- The loop goes through and only moves jobs. -/
theorem promoteAll_spec {ids : List EntryId} (wf : WellFormed r) (unique : ids.Nodup)
    (scheduled : ∀ id ∈ ids, id ∈ Keyed.keys r.schedule) :
    (Redis.promoteAll ids r).2 = true ∧ Evolves r (Redis.promoteAll ids r).1 ∧
      WellFormed (Redis.promoteAll ids r).1 ∧ places (Redis.promoteAll ids r).1 = places r := by
  induction ids generalizing r with
  | nil => exact ⟨rfl, .refl r, wf, rfl⟩
  | cons id rest ih =>
    obtain ⟨absent, unique⟩ := List.nodup_cons.1 unique
    obtain ⟨body, attempt, one, stored, -⟩ :=
      promoteOne_scheduled wf (scheduled id List.mem_cons_self)
    have still : ∀ k ∈ rest, k ∈ Keyed.keys (promoted r id body attempt).schedule := by
      intro k member
      simp only [promoted, Keyed.keys_hdel, List.mem_filter, decide_eq_true_eq]
      exact ⟨scheduled k (List.mem_cons_of_mem _ member), fun same => absent (same ▸ member)⟩
    obtain ⟨through, evolves, wf', same⟩ := ih (promoted_wellFormed wf id body attempt) unique still
    simp only [Redis.promoteAll, one]
    exact ⟨through, (promoted_evolves id body attempt).trans evolves, wf',
      same.trans (promoted_places wf stored attempt)⟩

theorem dueIds_nodup (wf : WellFormed r) (count : Nat) :
    (r.dueIds count).Nodup ∧ ∀ id ∈ r.dueIds count, id ∈ Keyed.keys r.schedule := by
  have sub : ((r.schedule.filter fun entry => entry.2 ≤ r.now).map Prod.fst).Sublist
      (Keyed.keys r.schedule) := List.filter_sublist.map _
  have perm : ((r.schedule.filter fun entry => entry.2 ≤ r.now).insertionSort fun a b =>
      a.2 < b.2 ∨ a.2 = b.2 ∧ a.1 ≤ b.1).map Prod.fst |>.Perm
      ((r.schedule.filter fun entry => entry.2 ≤ r.now).map Prod.fst) :=
    (List.perm_insertionSort _ _).map _
  have taken : (r.dueIds count).Sublist (((r.schedule.filter fun entry => entry.2 ≤ r.now).insertionSort
      fun a b => a.2 < b.2 ∨ a.2 = b.2 ∧ a.1 ≤ b.1).map Prod.fst) :=
    (List.take_sublist _ _).map _
  refine ⟨(perm.nodup_iff.2 (wf.retries.sublist sub)).sublist taken, fun id member => ?_⟩
  exact sub.subset (perm.mem_iff.1 (taken.subset member))

theorem promoteDueRetries_spec (wf : WellFormed r) (count : Nat) :
    ∃ r', r.promoteDueRetries count = (r', some (r.dueIds count).length) ∧ Evolves r r' ∧
      WellFormed r' ∧ places r' = places r := by
  obtain ⟨unique, scheduled⟩ := dueIds_nodup wf count
  have spec := promoteAll_spec wf unique scheduled
  simp only [Redis.promoteDueRetries]
  cases promotion : Redis.promoteAll (r.dueIds count) r with
  | mk r' through =>
    rw [promotion] at spec
    obtain ⟨rfl, evolves, wf', same⟩ := spec
    exact ⟨r', rfl, evolves, wf', same⟩

/-! ## The invariant of a run -/

structure Conserved (s : State) (trace : List (Input × Output)) : Prop where
  wellFormed : WellFormed s.redis
  claimed : ∀ c ∈ s.claimed, Known s.redis c.2.id c.2.body
  deliveries : ∀ d ∈ s.deliveries, Known s.redis d.entryId d.body
  /-- Every job published is in one of the keys or acknowledged, once. -/
  jobs : places s.redis + (ackedJobs trace : Multiset Nat) = Multiset.range s.published
  settled : ∀ id, settlements id trace = 0 ∨ settlements id trace = 1 ∧ Gone s.redis id

/-- An output that settles nothing. -/
def Output.silent : Output → Prop
  | .settled _ (.ok _) => False
  | _ => True

theorem ackedJobs_silent (trace : List (Input × Output)) (input : Input) {output : Output}
    (silent : output.silent) : ackedJobs (trace ++ [(input, output)]) = ackedJobs trace := by
  simp only [ackedJobs, List.filterMap_append]
  cases output with
  | done | failed => simp
  | settled delivery result =>
    cases result with
    | ok => exact silent.elim
    | error => simp

theorem settlements_silent (id : EntryId) (trace : List (Input × Output)) (input : Input)
    {output : Output} (silent : output.silent) :
    settlements id (trace ++ [(input, output)]) = settlements id trace := by
  simp only [settlements, List.countP_append]
  cases output with
  | done | failed => simp
  | settled delivery result =>
    cases result with
    | ok => exact silent.elim
    | error => simp

namespace Conserved

variable {s : State} {trace : List (Input × Output)}

variable {input : Input}

/-- A step that settles nothing: the keys evolve and keep their jobs, up to a publication. -/
theorem quiet {after : State} {output : Output} (conserved : Conserved s trace) (silent : output.silent)
    (evolves : Evolves s.redis after.redis) (wf : WellFormed after.redis)
    (claimed : ∀ c ∈ after.claimed, c ∈ s.claimed ∨ Known after.redis c.2.id c.2.body)
    (deliveries : ∀ d ∈ after.deliveries, d ∈ s.deliveries ∨ Known after.redis d.entryId d.body)
    (jobs : ∀ rest : Multiset Nat, places s.redis + rest = Multiset.range s.published →
      places after.redis + rest = Multiset.range after.published) :
    Conserved after (trace ++ [(input, output)]) := by
  refine ⟨wf, fun c member => ?_, fun d member => ?_, ?_, fun id => ?_⟩
  · rcases claimed c member with old | new
    · exact evolves.known (conserved.claimed c old)
    · exact new
  · rcases deliveries d member with old | new
    · exact evolves.known (conserved.deliveries d old)
    · exact new
  · rw [ackedJobs_silent trace input silent]
    exact jobs _ conserved.jobs
  · rw [settlements_silent id trace input silent]
    exact (conserved.settled id).imp_right fun ⟨one, gone⟩ => ⟨one, evolves.gone gone⟩

/-- A settlement that goes through takes its entry off the pending list, for good. -/
theorem settle {redis : Redis} {delivery : Delivery} {outcome : JobDeliveryOutcome}
    (conserved : Conserved s trace) (evolves : Evolves s.redis redis) (wf : WellFormed redis)
    {p : Pending}
    (member : p ∈ s.redis.pending) (same : p.id = delivery.entryId) (gone : Gone redis delivery.entryId)
    (jobs : places s.redis =
      places redis + (ackedJobs [(input, Output.settled delivery (.ok outcome))] : Multiset Nat)) :
    Conserved { s with redis } (trace ++ [(input, .settled delivery (.ok outcome))]) := by
  refine ⟨wf, fun c held => evolves.known (conserved.claimed c held),
    fun d held => evolves.known (conserved.deliveries d held), ?_, fun id => ?_⟩
  · have split : ackedJobs (trace ++ [(input, .settled delivery (.ok outcome))]) =
        ackedJobs trace ++ ackedJobs [(input, .settled delivery (.ok outcome))] := by
      simp only [ackedJobs, List.filterMap_append]
    rw [split, ← conserved.jobs, jobs, ← Multiset.coe_add]
    abel
  · have count : settlements id (trace ++ [(input, .settled delivery (.ok outcome))]) =
        settlements id trace + if delivery.entryId = id then 1 else 0 := by
      simp only [settlements, List.countP_append, List.countP_singleton, decide_eq_true_eq]
    rw [count]
    by_cases this : delivery.entryId = id
    · subst this
      -- the entry was pending, so it had not been settled
      have unsettled : settlements delivery.entryId trace = 0 := by
        refine (conserved.settled delivery.entryId).resolve_right fun earlier => ?_
        exact earlier.2.2.2 (same ▸ List.mem_map_of_mem member)
      rw [unsettled, if_pos rfl]
      exact .inr ⟨rfl, gone⟩
    · rw [if_neg this, Nat.add_zero]
      exact (conserved.settled id).imp_right fun ⟨one, gone⟩ => ⟨one, evolves.gone gone⟩

theorem settled_next (conserved : Conserved s trace) {delivery : Delivery}
    (held : delivery ∈ s.deliveries)
    {redis : Redis} {result : Except RedisStreamsError JobDeliveryOutcome}
    (settlement : Settlement s.redis delivery redis result) :
    Conserved { s with redis } (trace ++ [(input, .settled delivery result)]) := by
  have wf := conserved.wellFormed
  -- the body a consumer holds is the body of the entry
  have bodyOf : ∀ {p : Pending}, p ∈ s.redis.pending → p.id = delivery.entryId →
      p.entry.body = delivery.body := fun member same =>
    (conserved.deliveries delivery held).2.2 _ member same
  cases settlement with
  | lost =>
    exact conserved.quiet trivial (.refl _) wf (fun _ => .inl) (fun _ => .inl) fun _ => id
  | @acknowledged p member same =>
    have gone := acked_gone wf member
    have jobs := acked_places wf member
    rw [bodyOf member same] at jobs
    rw [same] at gone jobs
    refine conserved.settle (acked_evolves _ _) (acked_wellFormed wf _) member same gone ?_
    rw [jobs, add_comm]
    rfl
  | @retried p member same delayMs nextAttempt =>
    have gone := acked_gone wf member
    have wf' := retried_wellFormed wf member delayMs delivery.body nextAttempt
    have jobs := retried_places wf member delayMs nextAttempt
    rw [bodyOf member same] at jobs
    rw [same] at gone jobs wf'
    refine conserved.settle (retried_evolves ..) wf' member same ⟨gone.1, gone.2.1, gone.2.2⟩ ?_
    rw [jobs]
    exact (add_zero _).symm
  | @deadLettered p member same attempt =>
    have gone := acked_gone wf member
    have jobs := buried_places wf member attempt
    rw [bodyOf member same] at jobs
    rw [same] at gone jobs
    refine conserved.settle (buried_evolves ..) (buried_wellFormed wf _ _) member same
      ⟨gone.1, gone.2.1, gone.2.2⟩ ?_
    rw [jobs]
    exact (add_zero _).symm

/-- **One step.** -/
theorem next (conserved : Conserved s trace) {after : State} {input : Input} {output : Output}
    (stepped : step s input = some (after, output)) :
    Conserved after (trace ++ [(input, output)]) := by
  have wf := conserved.wellFormed
  cases input with
  | tick ms =>
    simp only [step, Option.some.injEq, Prod.mk.injEq] at stepped
    obtain ⟨rfl, rfl⟩ := stepped
    refine conserved.quiet trivial ⟨le_rfl, fun _ => .inl, fun p member => .inl ⟨p, member, rfl⟩⟩
      ⟨wf.ids, wf.below, wf.payloads, wf.attempts, wf.retries, wf.gone⟩ (fun _ => .inl)
      (fun _ => .inl) fun _ => id
  | publish payload attempt =>
    simp only [step, Option.some.injEq, Prod.mk.injEq] at stepped
    obtain ⟨rfl, rfl⟩ := stepped
    refine conserved.quiet trivial (xadd_evolves _ _) (xadd_wellFormed wf _ _) (fun _ => .inl)
      (fun _ => .inl) fun rest jobs => ?_
    simp only [xadd_places, Multiset.range_succ, ← jobs, ← Multiset.singleton_add]
    abel
  | read consumer count =>
    simp only [step, Option.some.injEq, Prod.mk.injEq] at stepped
    obtain ⟨rfl, rfl⟩ := stepped
    refine conserved.quiet trivial (xreadgroup_evolves _ _) (xreadgroup_wellFormed wf _ _)
      (fun _ => .inl) (fun d member => ?_) fun rest jobs => ?_
    · rcases List.mem_append.1 member with old | new
      · exact .inl old
      · obtain ⟨e, read, rfl⟩ := List.mem_map.1 new
        exact .inr (xreadgroup_known wf consumer count read)
    · simp only [xreadgroup_places]
      exact jobs
  | reclaim consumer idle count =>
    simp only [step, Option.some.injEq, Prod.mk.injEq] at stepped
    obtain ⟨rfl, rfl⟩ := stepped
    refine conserved.quiet trivial (xautoclaim_evolves _ _ _) (xautoclaim_wellFormed wf _ _ _)
      (fun c member => ?_) (fun _ => .inl) fun rest jobs => ?_
    · rcases List.mem_append.1 member with old | new
      · exact .inl old
      · obtain ⟨e, reclaimed, rfl⟩ := List.mem_map.1 new
        exact .inr (xautoclaim_known wf consumer idle count reclaimed)
    · simp only [xautoclaim_places]
      exact jobs
  | countPending index =>
    simp only [step] at stepped
    split at stepped
    · cases stepped
    · rename_i consumer entry found
      have known := conserved.claimed _ (List.mem_of_getElem? found)
      split at stepped
      · cases stepped
        exact conserved.quiet trivial (.refl _) wf
          (fun c member => .inl (List.mem_of_mem_eraseIdx member))
          (fun _ => .inl) fun _ => id
      · rename_i pending _
        cases stepped
        refine conserved.quiet trivial (.refl _) wf
          (fun c member => .inl (List.mem_of_mem_eraseIdx member)) (fun d member => ?_) fun _ => id
        rcases List.mem_append.1 member with old | new
        · exact .inl old
        · rw [List.mem_singleton.1 new]
          exact .inr known
  | settle index policy verdict =>
    simp only [step] at stepped
    split at stepped
    · cases stepped
    · rename_i delivery found
      cases stepped
      exact conserved.settled_next (List.mem_of_getElem? found)
        (settleAction_settlement wf policy delivery verdict)
  | promote count =>
    obtain ⟨redis, promotion, evolves, wf', jobs⟩ := promoteDueRetries_spec wf count
    simp only [step, promotion, Option.some.injEq, Prod.mk.injEq] at stepped
    obtain ⟨rfl, rfl⟩ := stepped
    refine conserved.quiet trivial evolves wf' (fun _ => .inl) (fun _ => .inl) fun rest old => ?_
    simp only [jobs]
    exact old

end Conserved

theorem run_conserved {s : State} {trace : List (Input × Output)} (reached : group.Reaches s trace) :
    Conserved s trace := by
  refine reached.invariant ?_ fun _ _ _ _ _ _ conserved _ stepped => conserved.next stepped
  rintro ⟨redis, published, claimed, deliveries⟩ ⟨⟨now, nextId, rfl⟩, rfl, rfl, rfl⟩
  refine ⟨?_, ?_, ?_, ?_, fun id => .inl rfl⟩
  · constructor <;> simp [Keyed.keys]
  · simp
  · simp
  · rfl

/-! ## The theorem -/

/-- In how many places the job is: unread, pending, awaiting a retry, dead-lettered,
acknowledged. -/
def placesOf (job : Nat) (s : State) (trace : List (Input × Output)) : Nat :=
  s.redis.unread.countP (fun e => e.body.job = job) +
    s.redis.pending.countP (fun p => p.entry.body.job = job) +
    s.redis.payloads.countP (fun record => record.2.job = job) +
    s.redis.deadLetters.countP (fun letter => letter.body.job = job) + (ackedJobs trace).count job

theorem count_map_job {A : Type} (f : A → Nat) (l : List A) (job : Nat) :
    (l.map f).count job = l.countP fun a => f a = job := by
  rw [List.count, List.countP_map]
  rfl

theorem Conserved.placesOf_eq {s : State} {trace : List (Input × Output)}
    (conserved : Conserved s trace) {job : Nat} (published : job < s.published) :
    placesOf job s trace = 1 := by
  have counted := congrArg (Multiset.count job) conserved.jobs
  rw [Multiset.count_eq_one_of_mem (Multiset.nodup_range _) (Multiset.mem_range.2 published)] at counted
  simp only [places, Multiset.count_add, Multiset.coe_count, count_map_job] at counted
  exact counted

/-- **Jobs are conserved.**  After every interleaving: each published job is in exactly one
place; a stream entry is settled at most once, and a settlement that does not go through
reports the lost ownership and changes nothing; and the three retry keys hold the same ids. -/
theorem job_conservation (s : State) (trace : List (Input × Output))
    (reached : group.Reaches s trace) :
    (∀ job, job < s.published → placesOf job s trace = 1) ∧
    (∀ id, settlements id trace ≤ 1) ∧
    (∀ index policy verdict after delivery result,
      step s (.settle index policy verdict) = some (after, .settled delivery result) →
        (∃ outcome, result = .ok outcome) ∨
          result = .error .deliveryOwnershipLost ∧ after = s) ∧
    (∀ id, (id ∈ Keyed.keys s.redis.schedule ↔ id ∈ Keyed.keys s.redis.payloads) ∧
      (id ∈ Keyed.keys s.redis.schedule ↔ id ∈ Keyed.keys s.redis.attempts)) := by
  have conserved := run_conserved reached
  have wf := conserved.wellFormed
  refine ⟨fun job published => conserved.placesOf_eq published, fun id => ?_, ?_, fun id => ?_⟩
  · rcases conserved.settled id with none_yet | ⟨one, -⟩
    · rw [none_yet]; exact Nat.zero_le 1
    · rw [one]
  · intro index policy verdict after delivery result stepped
    simp only [step] at stepped
    split at stepped
    · cases stepped
    · rename_i delivery' found
      simp only [Option.some.injEq, Prod.mk.injEq, Output.settled.injEq] at stepped
      obtain ⟨rfl, rfl, rfl⟩ := stepped
      have settlement := settleAction_settlement wf policy delivery' verdict
      generalize settleAction s.redis delivery' (chooseAction policy.policy delivery' verdict) =
        answer at settlement
      obtain ⟨redis, result⟩ := answer
      cases settlement with
      | lost => exact .inr ⟨rfl, rfl⟩
      | acknowledged | retried | deadLettered => exact .inl ⟨_, rfl⟩
  · rw [wf.payloads, wf.attempts]
    exact ⟨Iff.rfl, Iff.rfl⟩

/-- `RetryPolicy::default`. -/
def defaultPolicy : WorkerPolicy where
  policy := ⟨5, .fromMillis 1000, .fromMillis 300000⟩
  valid := by decide

def emptyKeys : State := ⟨⟨0, 0, [], [], [], [], [], []⟩, 0, [], []⟩

theorem emptyKeys_initial : group.initial emptyKeys := ⟨⟨0, 0, rfl⟩, rfl, rfl, rfl⟩

/-- Consumer `a` is slow and `b` reclaims its entry.  The handler of `b` fails, so the job
is scheduled for a retry; `a` comes too late; the retry is promoted, read and handled. -/
def slowConsumer : List Input :=
  [.publish [123, 125] 1, .read "a" 10, .reclaim "b" [0] 10, .countPending 0,
    .settle 1 defaultPolicy .handlerFailed, .settle 0 defaultPolicy .handled, .tick 60000,
    .promote 10, .read "a" 10, .settle 2 defaultPolicy .handled]

theorem job_conservation_slowConsumer :
    ∃ s trace, group.Reaches s trace ∧ s.published = 1 ∧ settlements 0 trace = 1 ∧
      settlements 1 trace = 1 ∧ placesOf 0 s trace = 1 := by
  obtain ⟨s, trace, run, published, first, second⟩ := Machine.exists_run_exec group
    (fun _ _ _ => True) emptyKeys_initial slowConsumer
    (fun s trace => s.published = 1 ∧ settlements 0 trace = 1 ∧ settlements 1 trace = 1) (by decide)
  have conserved := (job_conservation s trace run).1 0 (by omega)
  exact ⟨s, trace, run, published, first, second, conserved⟩

end Rustee.RedisJobs.Conservation
