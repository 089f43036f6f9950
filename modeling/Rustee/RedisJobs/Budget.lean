/-
# Rustee.RedisJobs.Budget -- how often a job is handed out

`RetryPolicy` calls `max_deliveries` the maximum of total deliveries.  A worker consults it
in one place only, after a handler has failed.  A reclaimed entry is delivered again with
the redeliveries the broker counted added to its attempt, and nothing compares that sum
with the budget: an entry whose consumers crash is handed out for as long as they do
(`reclaimed_past_budget`).

`Within` is what a step has to meet for the budget to hold.  A reclaim takes only entries
that have a delivery left, and a failed handler's retry is scheduled on behalf of the latest
delivery of its entry.  The proof weighs each job: `used` counts the deliveries it had,
those still being prepared included, and wherever the job waits, the attempt number stored
with it is larger (`Fits`).
-/
import Rustee.RedisJobs.Conservation

namespace Rustee.RedisJobs.Conservation

open Rustee.Foundation Rustee.Jobs

set_option autoImplicit false

/-! ## The budget and the condition -/

/-- No delivery has an attempt number past the budget, and no job was handed out more often. -/
def KeepsBudget (policy : RetryPolicy) (s : State) : Prop :=
  (∀ d ∈ s.deliveries, ∀ attempt ∈ d.attempt, attempt ≤ policy.maxDeliveries) ∧
    ∀ job, (s.deliveries.countP fun d => d.attempt.isSome ∧ d.body.job = job) ≤
      policy.maxDeliveries

def Within (policy : WorkerPolicy) (s : State) (_ : List (Input × Output)) : Input → Prop
  | .publish _ attempt => 0 < attempt ∧ attempt ≤ policy.policy.maxDeliveries
  | .reclaim _ idle count =>
    ∀ p ∈ (s.redis.pending.filter fun p => p.id ∈ idle).take count,
      p.entry.attempt + p.timesDelivered ≤ policy.policy.maxDeliveries
  | .settle index worker verdict =>
    worker.policy = policy.policy ∧ (verdict = .handlerFailed →
      ∀ delivery ∈ s.deliveries[index]?, ∀ p ∈ s.redis.pending,
        p.id = delivery.entryId → p.consumer = delivery.consumer →
          delivery.attempt = some (p.entry.attempt + p.timesDelivered - 1))
  | .tick _ | .read _ _ | .countPending _ | .promote _ => True

instance (policy : WorkerPolicy) (s : State) (trace : List (Input × Output)) :
    ∀ input, Decidable (Within policy s trace input)
  | .publish _ attempt =>
    inferInstanceAs (Decidable (0 < attempt ∧ attempt ≤ policy.policy.maxDeliveries))
  | .reclaim _ idle count =>
    inferInstanceAs (Decidable (∀ p ∈ (s.redis.pending.filter fun p => p.id ∈ idle).take count,
      p.entry.attempt + p.timesDelivered ≤ policy.policy.maxDeliveries))
  | .settle index worker verdict =>
    inferInstanceAs (Decidable (worker.policy = policy.policy ∧ (verdict = .handlerFailed →
      ∀ delivery ∈ s.deliveries[index]?, ∀ p ∈ s.redis.pending,
        p.id = delivery.entryId → p.consumer = delivery.consumer →
          delivery.attempt = some (p.entry.attempt + p.timesDelivered - 1))))
  | .tick _ | .read _ _ | .countPending _ | .promote _ => inferInstanceAs (Decidable True)

/-! ## What a settlement does to the keys -/

variable {r r' : Redis} {id : EntryId}

@[simp] theorem settledBy_fst (answer : Redis × Nat) (outcome : JobDeliveryOutcome) :
    (settledBy answer outcome).1 = answer.1 := by
  unfold settledBy
  split <;> rfl

/-- `Settlement`, with what a retry was scheduled for. -/
inductive Settles (policy : RetryPolicy) (r : Redis) (delivery : Delivery) (verdict : Verdict) :
    Redis → Prop
  | lost : Settles policy r delivery verdict r
  | acknowledged : Settles policy r delivery verdict (acked r delivery.entryId)
  | deadLettered (attempt : Nat) :
      Settles policy r delivery verdict (buried r delivery.entryId delivery.body attempt)
  | retried {p : Pending} (member : p ∈ r.pending) (same : p.id = delivery.entryId)
      (consumer : p.consumer = delivery.consumer) (failed : verdict = .handlerFailed)
      {attempt : Nat} (known : delivery.attempt = some attempt)
      (within : attempt < policy.maxDeliveries) (delayMs : Nat) :
      Settles policy r delivery verdict
        (retried r delivery.entryId delayMs delivery.body (min (attempt + 1) u16Max))

theorem settleAction_settles (wf : WellFormed r) (policy : RetryPolicy) (delivery : Delivery)
    (verdict : Verdict) :
    Settles policy r delivery verdict
      (settleAction r delivery (chooseAction policy delivery verdict)).1 := by
  cases chosen : chooseAction policy delivery verdict with
  | acknowledge =>
    simp only [settleAction, settledBy_fst, Redis.ackIfOwned]
    split
    · exact .acknowledged
    · exact .lost
  | deadLetter =>
    simp only [settleAction, settledBy_fst, Redis.deadLetterIfOwned]
    split
    · exact .deadLettered _
    · exact .lost
  | retry nextAttempt delay =>
    obtain ⟨failed, attempt, known, retried⟩ := chooseAction_retry chosen
    obtain ⟨-, -, within, rfl, -⟩ := RetryPolicy.afterFailure_retry retried
    simp only [settleAction]
    split
    · exact .lost
    · rename_i delayMs _
      rw [settledBy_fst]
      by_cases owned : r.ownedBy delivery.entryId delivery.consumer = true
      · obtain ⟨p, member, same, consumer⟩ := ownedBy_iff.1 owned
        have scheduled := scheduleRetry_owned wf member delayMs delivery.body
          (min (attempt + 1) u16Max)
        rw [same, consumer] at scheduled
        rw [scheduled]
        exact .retried member same consumer failed known within delayMs
      · rw [Redis.scheduleRetry, if_neg owned]
        exact .lost

theorem Settles.evolves {policy : RetryPolicy} {delivery : Delivery} {verdict : Verdict}
    (settles : Settles policy r delivery verdict r') : Evolves r r' := by
  cases settles with
  | lost => exact .refl r
  | acknowledged => exact acked_evolves r _
  | deadLettered attempt => exact buried_evolves r ..
  | retried => exact retried_evolves r ..

/-! ## Jobs are apart -/

/-- No job waits in two places. -/
structure Apart (r : Redis) : Prop where
  unread : (r.unread.map (·.body.job)).Nodup
  pending : (r.pending.map (·.entry.body.job)).Nodup
  unread_pending : ∀ e ∈ r.unread, ∀ p ∈ r.pending, e.body.job ≠ p.entry.body.job
  unread_scheduled : ∀ e ∈ r.unread, ∀ record ∈ r.payloads, e.body.job ≠ record.2.job
  pending_scheduled : ∀ p ∈ r.pending, ∀ record ∈ r.payloads, p.entry.body.job ≠ record.2.job

theorem Apart.of_places (distinct : (places r).Nodup) : Apart r := by
  have live : (r.unread.map (·.body.job) ++
      (r.pending.map (·.entry.body.job) ++ r.payloads.map (·.2.job))).Nodup := by
    rw [← Multiset.coe_nodup, ← Multiset.coe_add, ← Multiset.coe_add, ← add_assoc]
    exact Multiset.nodup_of_le (Multiset.le_add_right _ _) distinct
  obtain ⟨unread, later, first⟩ := List.nodup_append.1 live
  obtain ⟨pending, -, second⟩ := List.nodup_append.1 later
  refine ⟨unread, pending, fun e he p hp => ?_, fun e he record hr => ?_, fun p hp record hr => ?_⟩
  · exact first _ (List.mem_map_of_mem he) _ (List.mem_append_left _ (List.mem_map_of_mem hp))
  · exact first _ (List.mem_map_of_mem he) _
      (List.mem_append_right _ (List.mem_map.2 ⟨record, hr, rfl⟩))
  · exact second _ (List.mem_map_of_mem hp) _ (List.mem_map.2 ⟨record, hr, rfl⟩)

variable {s : State} {trace : List (Input × Output)}

theorem Conserved.apart (conserved : Conserved s trace) : Apart s.redis := by
  refine .of_places (Multiset.nodup_of_le ?_ (Multiset.nodup_range s.published))
  rw [← conserved.jobs]
  exact Multiset.le_add_right _ _

/-- A job in the keys was published. -/
theorem Conserved.job_lt (conserved : Conserved s trace) {job : Nat} (stored : job ∈ places s.redis) :
    job < s.published := by
  rw [← Multiset.mem_range, ← conserved.jobs]
  exact Multiset.mem_add.2 (.inl stored)

/-! ## Weighing the keys -/

/-- Wherever a job waits, the attempt stored with it is past the deliveries it had, and
within the budget. -/
structure Fits (max : Nat) (used : Nat → Nat) (r : Redis) : Prop where
  unread : ∀ e ∈ r.unread, used e.body.job < e.attempt ∧ e.attempt ≤ max
  pending : ∀ p ∈ r.pending, used p.entry.body.job < p.entry.attempt + p.timesDelivered ∧
    p.entry.attempt + p.timesDelivered ≤ max + 1
  scheduled : ∀ record ∈ r.payloads, ∀ attempt, (record.1, attempt) ∈ r.attempts →
    used record.2.job < attempt ∧ attempt ≤ max

namespace Fits

variable {max : Nat} {used used' : Nat → Nat}

theorem mono (fits : Fits max used r) (le : ∀ job, used' job ≤ used job) : Fits max used' r where
  unread e member := (fits.unread e member).imp_left (le _).trans_lt
  pending p member := (fits.pending p member).imp_left (le _).trans_lt
  scheduled record member attempt stored :=
    (fits.scheduled record member attempt stored).imp_left (le _).trans_lt

theorem xadd (fits : Fits max used r) {body : Body} {attempt : Nat}
    (larger : used body.job < attempt) (within : attempt ≤ max) :
    Fits max used (r.xadd body attempt) := by
  refine ⟨fun e member => ?_, fits.pending, fits.scheduled⟩
  rcases List.mem_append.1 member with old | new
  · exact fits.unread e old
  · rw [List.mem_singleton.1 new]
    exact ⟨larger, within⟩

theorem acked (fits : Fits max used r) (id : EntryId) : Fits max used (acked r id) :=
  ⟨fits.unread, fun p member => fits.pending p (Keyed.mem_remove.1 member).1, fits.scheduled⟩

theorem retried (fits : Fits max used r) (wf : WellFormed r) {p : Pending}
    (member : p ∈ r.pending) (delayMs : Nat) {body : Body} {nextAttempt : Nat}
    (larger : used body.job < nextAttempt) (within : nextAttempt ≤ max) :
    Fits max used (retried r p.id delayMs body nextAttempt) := by
  have new : p.id ∉ Keyed.keys r.schedule := fun scheduled =>
    (wf.gone _ scheduled).2.2 (List.mem_map_of_mem member)
  refine ⟨fits.unread, (fits.acked p.id).pending, ?_⟩
  intro record payload attempt stored
  -- the id is in neither hash, so the two new records belong together
  rcases List.mem_append.1 payload with old | last
  · rcases List.mem_append.1 stored with older | last
    · exact fits.scheduled record old attempt older
    · have key : record.1 = p.id := congrArg Prod.fst (List.mem_singleton.1 last)
      exact absurd (wf.payloads ▸ List.mem_map_of_mem old) (key ▸ new)
  · obtain rfl := List.mem_singleton.1 last
    rcases List.mem_append.1 stored with older | last
    · exact absurd (wf.attempts ▸ List.mem_map_of_mem older) new
    · have value : attempt = nextAttempt := congrArg Prod.snd (List.mem_singleton.1 last)
      rw [value]
      exact ⟨larger, within⟩

theorem promoted (fits : Fits max used r) {body : Body} {attempt : Nat}
    (payload : (id, body) ∈ r.payloads) (stored : (id, attempt) ∈ r.attempts) :
    Fits max used (promoted r id body attempt) := by
  obtain ⟨larger, within⟩ := fits.scheduled (id, body) payload attempt stored
  have added := fits.xadd larger within
  refine ⟨added.unread, added.pending, fun record member attempt stored => ?_⟩
  exact fits.scheduled record (Keyed.mem_remove.1 member).1 attempt (Keyed.mem_remove.1 stored).1

theorem promoteAll {ids : List EntryId} (fits : Fits max used r) (wf : WellFormed r)
    (unique : ids.Nodup) (scheduled : ∀ id ∈ ids, id ∈ Keyed.keys r.schedule) :
    Fits max used (Redis.promoteAll ids r).1 := by
  induction ids generalizing r with
  | nil => exact fits
  | cons id rest ih =>
    obtain ⟨absent, unique⟩ := List.nodup_cons.1 unique
    obtain ⟨body, attempt, one, payload, stored⟩ :=
      promoteOne_scheduled wf (scheduled id List.mem_cons_self)
    simp only [Redis.promoteAll, one]
    refine ih (fits.promoted payload stored) (promoted_wellFormed wf id body attempt) unique ?_
    intro k member
    simp only [Conservation.promoted, Keyed.keys_hdel, List.mem_filter, decide_eq_true_eq]
    exact ⟨scheduled k (List.mem_cons_of_mem _ member), fun same => absent (same ▸ member)⟩

theorem promoteDueRetries (fits : Fits max used r) (wf : WellFormed r) (count : Nat) :
    Fits max used (r.promoteDueRetries count).1 := by
  obtain ⟨unique, scheduled⟩ := dueIds_nodup wf count
  have all := fits.promoteAll wf unique scheduled
  simp only [Redis.promoteDueRetries]
  split <;> rename_i promotion <;> rw [promotion] at all <;> exact all

/-- Reading hands out each entry it takes once. -/
theorem xreadgroup (fits : Fits max used r) (apart : Apart r) (consumer : String) (count : Nat)
    (handed : ∀ job, used' job =
      used job + ((r.unread.take count).map (·.body.job)).count job) :
    Fits max used' (r.xreadgroup consumer count).1 := by
  have unique : ((r.unread.take count).map (·.body.job)).Nodup :=
    apart.unread.sublist ((List.take_sublist _ _).map _)
  -- a job that was not read is where it was
  have kept : ∀ job, (∀ e ∈ r.unread.take count, e.body.job ≠ job) → used' job = used job := by
    intro job others
    rw [handed, List.count_eq_zero_of_not_mem, Nat.add_zero]
    intro member
    obtain ⟨e, taken, same⟩ := List.mem_map.1 member
    exact others e taken same
  refine ⟨fun e member => ?_, fun p member => ?_, fun record member attempt stored => ?_⟩
  · have left : e ∈ r.unread := List.mem_of_mem_drop member
    rw [kept]
    · exact fits.unread e left
    · intro other taken same
      have split := apart.unread
      rw [← List.take_append_drop count r.unread, List.map_append] at split
      exact (List.nodup_append.1 split).2.2 _ (List.mem_map.2 ⟨other, taken, rfl⟩) _
        (List.mem_map.2 ⟨e, member, rfl⟩) same
  · rcases List.mem_append.1 member with old | new
    · rw [kept]
      · exact fits.pending p old
      · exact fun e taken => apart.unread_pending e (List.mem_of_mem_take taken) p old
    · obtain ⟨e, taken, rfl⟩ := List.mem_map.1 new
      have once : ((r.unread.take count).map (·.body.job)).count e.body.job = 1 :=
        List.count_eq_one_of_mem unique (List.mem_map.2 ⟨e, taken, rfl⟩)
      obtain ⟨larger, within⟩ := fits.unread e (List.mem_of_mem_take taken)
      simp only [handed, once]
      omega
  · rw [kept]
    · exact fits.scheduled record member attempt stored
    · exact fun e taken => apart.unread_scheduled e (List.mem_of_mem_take taken) record member

/-- Reclaiming hands out each entry it takes once more, if the budget has room for it. -/
theorem xautoclaim (fits : Fits max used r) (wf : WellFormed r) (apart : Apart r)
    (consumer : String) (idle : List EntryId) (count : Nat)
    (room : ∀ p ∈ (r.pending.filter fun p => p.id ∈ idle).take count,
      p.entry.attempt + p.timesDelivered ≤ max)
    (handed : ∀ job, used' job = used job +
      (((r.pending.filter fun p => p.id ∈ idle).take count).map (·.entry.body.job)).count job) :
    Fits max used' (r.xautoclaim consumer idle count).1 := by
  have sub : ((r.pending.filter fun p => p.id ∈ idle).take count).Sublist r.pending :=
    (List.take_sublist _ _).trans List.filter_sublist
  have unique := apart.pending.sublist (sub.map (·.entry.body.job))
  generalize claim : (r.pending.filter fun p => p.id ∈ idle).take count = taken at *
  have kept : ∀ job, (∀ p ∈ taken, p.entry.body.job ≠ job) → used' job = used job := by
    intro job others
    rw [handed, List.count_eq_zero_of_not_mem, Nat.add_zero]
    intro member
    obtain ⟨p, claimed, same⟩ := List.mem_map.1 member
    exact others p claimed same
  refine ⟨fun e member => ?_, fun p member => ?_, fun record member attempt stored => ?_⟩
  · rw [kept]
    · exact fits.unread e member
    · exact fun p claimed same => apart.unread_pending e member p (sub.subset claimed) same.symm
  · simp only [Redis.xautoclaim, claim] at member
    obtain ⟨q, held, rfl⟩ := List.mem_map.1 member
    obtain ⟨larger, within⟩ := fits.pending q held
    split
    · rename_i named
      obtain ⟨other, claimed, same⟩ := List.mem_map.1 named
      have isThis : other = q := List.inj_on_of_nodup_map (List.nodup_append.1 wf.ids).2.1
        (sub.subset claimed) held same
      subst isThis
      have once := List.count_eq_one_of_mem unique (List.mem_map.2 ⟨other, claimed, rfl⟩)
      have room := room other claimed
      simp only [handed, once]
      omega
    · rename_i unnamed
      rw [kept]
      · exact ⟨larger, within⟩
      · intro other claimed same
        have isThis : other = q :=
          List.inj_on_of_nodup_map apart.pending (sub.subset claimed) held same
        exact unnamed (isThis ▸ List.mem_map_of_mem claimed)
  · rw [kept]
    · exact fits.scheduled record member attempt stored
    · exact fun p claimed => apart.pending_scheduled p (sub.subset claimed) record member

end Fits

/-! ## The invariant of a run -/

/-- How many deliveries of the job were made or are being prepared. -/
def used (s : State) (job : Nat) : Nat :=
  (s.deliveries.countP fun d => d.body.job = job) + s.claimed.countP fun c => c.2.body.job = job

structure Budgeted (policy : RetryPolicy) (s : State) : Prop where
  fits : Fits policy.maxDeliveries (used s) s.redis
  spent : ∀ job, used s job ≤ policy.maxDeliveries
  fresh : ∀ job, s.published ≤ job → used s job = 0
  attempts : ∀ d ∈ s.deliveries, ∀ attempt ∈ d.attempt, attempt ≤ policy.maxDeliveries
  /-- A reclaimed entry is the entry it was taken from. -/
  claimed : ∀ c ∈ s.claimed, ∀ p ∈ s.redis.pending, p.id = c.2.id → p.entry = c.2

namespace Budgeted

variable {policy : RetryPolicy} {s after : State} {trace : List (Input × Output)}

/-- What is claimed stays recorded, whatever the step. -/
theorem claimed_step (budgeted : Budgeted policy s) (conserved : Conserved s trace)
    (evolves : Evolves s.redis r') {c : String × Entry} (held : c ∈ s.claimed) {p : Pending}
    (stored : p ∈ r'.pending) (same : p.id = c.2.id) : p.entry = c.2 := by
  obtain ⟨below, read, -⟩ := conserved.claimed c held
  rcases evolves.pending p stored with ⟨q, old, entry⟩ | unread | new
  · rw [← entry]
    exact budgeted.claimed c held q old (by rw [← same, Pending.id, Pending.id, entry])
  · exact absurd (List.mem_map.2 ⟨p.entry, unread, same⟩) read
  · exact absurd below (Nat.not_lt.2 (same ▸ new))

/-- A step that only moves entries about. -/
theorem moved (budgeted : Budgeted policy s) (conserved : Conserved s trace) {redis : Redis}
    (evolves : Evolves s.redis redis) (fits : Fits policy.maxDeliveries (used s) redis) :
    Budgeted policy { s with redis } where
  fits := fits
  spent := budgeted.spent
  fresh := budgeted.fresh
  attempts := budgeted.attempts
  claimed _ held _ stored same := budgeted.claimed_step conserved evolves held stored same

theorem publish (budgeted : Budgeted policy s) (conserved : Conserved s trace)
    (payload : List UInt8) {attempt : Nat} (positive : 0 < attempt)
    (within : attempt ≤ policy.maxDeliveries) :
    Budgeted policy { s with
      redis := s.redis.xadd ⟨s.published, payload⟩ attempt, published := s.published + 1 } where
  fits := by
    refine budgeted.fits.xadd ?_ within
    rw [budgeted.fresh _ le_rfl]
    exact positive
  spent := budgeted.spent
  fresh job later := budgeted.fresh job (Nat.le_of_succ_le later)
  attempts := budgeted.attempts
  claimed _ held _ stored same :=
    budgeted.claimed_step conserved (xadd_evolves _ _) held stored same

/-- The jobs that a step hands out once more are jobs that were published and had room. -/
theorem handed (budgeted : Budgeted policy s) (conserved : Conserved s trace) (jobs : List Nat)
    (unique : jobs.Nodup) (stored : ∀ job ∈ jobs, job ∈ places s.redis)
    (room : ∀ job ∈ jobs, used s job < policy.maxDeliveries) {used' : Nat → Nat}
    (more : ∀ job, used' job = used s job + jobs.count job) :
    (∀ job, used' job ≤ policy.maxDeliveries) ∧ ∀ job, s.published ≤ job → used' job = 0 := by
  refine ⟨fun job => ?_, fun job later => ?_⟩
  · rw [more]
    by_cases member : job ∈ jobs
    · rw [List.count_eq_one_of_mem unique member]
      exact room job member
    · rw [List.count_eq_zero_of_not_mem member]
      exact budgeted.spent job
  · rw [more, budgeted.fresh job later, List.count_eq_zero_of_not_mem]
    intro member
    exact absurd (conserved.job_lt (stored job member)) (Nat.not_lt.2 later)

theorem read (budgeted : Budgeted policy s) (conserved : Conserved s trace) (consumer : String)
    (count : Nat) :
    Budgeted policy { s with
      redis := (s.redis.xreadgroup consumer count).1
      deliveries := s.deliveries ++
        (s.redis.unread.take count).map fun entry => deliveryFromEntry consumer entry none } := by
  have apart := conserved.apart
  let taken := s.redis.unread.take count
  have more : ∀ job, used { s with
      redis := (s.redis.xreadgroup consumer count).1
      deliveries := s.deliveries ++ taken.map fun entry => deliveryFromEntry consumer entry none }
      job = used s job + (taken.map (·.body.job)).count job := by
    intro job
    simp only [used, List.countP_append, List.countP_map, count_map_job]
    simp only [Function.comp_def, deliveryFromEntry]
    omega
  have limits := budgeted.handed conserved (taken.map (·.body.job))
    (apart.unread.sublist ((List.take_sublist _ _).map _)) ?_ ?_ more
  · refine ⟨budgeted.fits.xreadgroup apart consumer count more, limits.1, limits.2, ?_, ?_⟩
    · intro d member attempt known
      rcases List.mem_append.1 member with old | new
      · exact budgeted.attempts d old attempt known
      · obtain ⟨e, read, rfl⟩ := List.mem_map.1 new
        have positive : (some e.attempt).filter (fun a => a > 0) = some attempt := known
        have isBase : some e.attempt = some attempt := (Option.filter_eq_some_iff.1 positive).1
        rw [← Option.some.inj isBase]
        exact (budgeted.fits.unread e (List.mem_of_mem_take read)).2
    · intro c held p stored same
      exact budgeted.claimed_step conserved (xreadgroup_evolves consumer count) held stored same
  · intro job member
    obtain ⟨e, read, rfl⟩ := List.mem_map.1 member
    simp only [places, Multiset.mem_add]
    exact .inl (.inl (.inl (List.mem_map.2 ⟨e, List.mem_of_mem_take read, rfl⟩)))
  · intro job member
    obtain ⟨e, read, rfl⟩ := List.mem_map.1 member
    obtain ⟨larger, within⟩ := budgeted.fits.unread e (List.mem_of_mem_take read)
    omega

theorem reclaim (budgeted : Budgeted policy s) (conserved : Conserved s trace)
    (consumer : String) (idle : List EntryId) (count : Nat)
    (room : ∀ p ∈ (s.redis.pending.filter fun p => p.id ∈ idle).take count,
      p.entry.attempt + p.timesDelivered ≤ policy.maxDeliveries) :
    Budgeted policy { s with
      redis := (s.redis.xautoclaim consumer idle count).1
      claimed := s.claimed ++
        (s.redis.xautoclaim consumer idle count).2.map fun entry => (consumer, entry) } := by
  have apart := conserved.apart
  have wf := conserved.wellFormed
  let taken := (s.redis.pending.filter fun p => p.id ∈ idle).take count
  have sub : taken.Sublist s.redis.pending :=
    (List.take_sublist _ _).trans List.filter_sublist
  have more : ∀ job, used { s with
      redis := (s.redis.xautoclaim consumer idle count).1
      claimed := s.claimed ++
        (s.redis.xautoclaim consumer idle count).2.map fun entry => (consumer, entry) }
      job = used s job + (taken.map (·.entry.body.job)).count job := by
    intro job
    simp only [used, Redis.xautoclaim, List.countP_append, List.countP_map, count_map_job]
    exact (Nat.add_assoc ..).symm
  have limits := budgeted.handed conserved (taken.map (·.entry.body.job))
    (apart.pending.sublist (sub.map _)) ?_ ?_ more
  · refine ⟨budgeted.fits.xautoclaim wf apart consumer idle count room more, limits.1, limits.2,
      budgeted.attempts, ?_⟩
    intro c held p stored same
    have evolves := xautoclaim_evolves (r := s.redis) consumer idle count
    rcases List.mem_append.1 held with old | new
    · exact budgeted.claimed_step conserved evolves old stored same
    · obtain ⟨e, reclaimed, rfl⟩ := List.mem_map.1 new
      obtain ⟨q, claimed, rfl⟩ := List.mem_map.1 reclaimed
      rcases evolves.pending p stored with ⟨origin, old, entry⟩ | unread | fresh
      · have isThis : origin = q := List.inj_on_of_nodup_map (List.nodup_append.1 wf.ids).2.1 old
          (sub.subset claimed) (by rw [Pending.id, entry]; exact same)
        rw [← entry, isThis]
      · exact absurd same ((List.nodup_append.1 wf.ids).2.2 _ (List.mem_map_of_mem unread) _
          (List.mem_map_of_mem (sub.subset claimed)))
      · have below := wf.below q.id (List.mem_append_right _ (List.mem_map_of_mem (sub.subset claimed)))
        exact absurd below (Nat.not_lt.2 (fresh.trans_eq same))
  · intro job member
    obtain ⟨p, claimed, rfl⟩ := List.mem_map.1 member
    simp only [places, Multiset.mem_add]
    exact .inl (.inl (.inr (List.mem_map.2 ⟨p, sub.subset claimed, rfl⟩)))
  · intro job member
    obtain ⟨p, claimed, rfl⟩ := List.mem_map.1 member
    have larger := (budgeted.fits.pending p (sub.subset claimed)).1
    exact larger.trans_le (room p claimed)

theorem countPending (budgeted : Budgeted policy s) {index : Nat} {consumer : String}
    {entry : Entry} (found : s.claimed[index]? = some (consumer, entry)) {p : Pending}
    (pending : s.redis.xpending entry.id = some p) :
    Budgeted policy { s with
      claimed := s.claimed.eraseIdx index
      deliveries := s.deliveries ++
        [deliveryFromEntry consumer entry (some p.timesDelivered)] } := by
  have member : p ∈ s.redis.pending := List.mem_of_find?_eq_some pending
  have same : p.id = entry.id := by simpa using List.find?_some pending
  have isEntry : p.entry = entry :=
    budgeted.claimed (consumer, entry) (List.mem_of_getElem? found) p member same
  -- the delivery takes the place of the claim
  have more : ∀ job, used { s with
      claimed := s.claimed.eraseIdx index
      deliveries := s.deliveries ++ [deliveryFromEntry consumer entry (some p.timesDelivered)] }
      job = used s job := by
    intro job
    obtain ⟨bound, isClaim⟩ := List.getElem?_eq_some_iff.1 found
    have split := (List.getElem_cons_eraseIdx_perm bound).countP_eq fun c => c.2.body.job = job
    simp only [isClaim, List.countP_cons] at split
    simp only [used, List.countP_append, List.countP_singleton, deliveryFromEntry]
    omega
  refine ⟨?_, ?_, ?_, ?_, ?_⟩
  · exact budgeted.fits.mono fun job => (more job).le
  · intro job
    rw [more]
    exact budgeted.spent job
  · intro job later
    rw [more]
    exact budgeted.fresh job later
  · intro d held attempt known
    rcases List.mem_append.1 held with old | new
    · exact budgeted.attempts d old attempt known
    · obtain rfl := List.mem_singleton.1 new
      have within := (budgeted.fits.pending p member).2
      rw [isEntry] at within
      have sum := (Option.filter_eq_some_iff.1 (Option.mem_def.1 known)).1
      simp only at sum
      split at sum
      · cases sum
      · obtain rfl := Option.some.inj sum
        omega
  · exact fun c held => budgeted.claimed c (List.mem_of_mem_eraseIdx held)

theorem dropClaim (budgeted : Budgeted policy s) (index : Nat) :
    Budgeted policy { s with claimed := s.claimed.eraseIdx index } := by
  have less : ∀ job, used { s with claimed := s.claimed.eraseIdx index } job ≤ used s job :=
    fun job => Nat.add_le_add_left ((List.eraseIdx_sublist _ _).countP_le) _
  refine ⟨budgeted.fits.mono less, fun job => (less job).trans (budgeted.spent job), ?_,
    budgeted.attempts, fun c held => budgeted.claimed c (List.mem_of_mem_eraseIdx held)⟩
  intro job later
  exact Nat.le_zero.1 ((less job).trans (budgeted.fresh job later).le)

theorem settle (budgeted : Budgeted policy s) (conserved : Conserved s trace)
    (small : policy.maxDeliveries ≤ u16Max) {delivery : Delivery} (held : delivery ∈ s.deliveries)
    {verdict : Verdict}
    (latest : verdict = .handlerFailed → ∀ p ∈ s.redis.pending, p.id = delivery.entryId →
      p.consumer = delivery.consumer →
        delivery.attempt = some (p.entry.attempt + p.timesDelivered - 1))
    {redis : Redis} (settles : Settles policy s.redis delivery verdict redis) :
    Budgeted policy { s with redis } := by
  refine budgeted.moved conserved settles.evolves ?_
  have fits := budgeted.fits
  cases settles with
  | lost => exact fits
  | acknowledged => exact fits.acked _
  | deadLettered attempt =>
    have left := fits.acked delivery.entryId
    exact ⟨left.unread, left.pending, left.scheduled⟩
  | @retried p member same consumer failed attempt known within delayMs =>
    have isLatest := latest failed p member same consumer
    have body := (conserved.deliveries delivery held).2.2 p member same
    have larger := (fits.pending p member).1
    rw [known, Option.some.injEq] at isLatest
    rw [body] at larger
    rw [← same]
    refine fits.retried conserved.wellFormed member delayMs ?_ ?_
    · omega
    · omega

theorem promote (budgeted : Budgeted policy s) (conserved : Conserved s trace) (count : Nat) :
    Budgeted policy { s with redis := (s.redis.promoteDueRetries count).1 } := by
  have wf := conserved.wellFormed
  obtain ⟨redis, promotion, evolves, -⟩ := promoteDueRetries_spec wf count
  have fits := budgeted.fits.promoteDueRetries wf count
  rw [promotion] at fits ⊢
  exact budgeted.moved conserved evolves fits

/-- **One step.** -/
theorem next {worker : WorkerPolicy} (budgeted : Budgeted worker.policy s)
    (conserved : Conserved s trace) (small : worker.policy.maxDeliveries ≤ u16Max)
    {input : Input} {output : Output} (within : Within worker s trace input)
    (stepped : step s input = some (after, output)) : Budgeted worker.policy after := by
  cases input with
  | tick ms =>
    cases stepped
    have fits := budgeted.fits
    exact budgeted.moved conserved
      ⟨le_rfl, fun _ => .inl, fun p member => .inl ⟨p, member, rfl⟩⟩
      ⟨fits.unread, fits.pending, fits.scheduled⟩
  | publish payload attempt =>
    cases stepped
    exact budgeted.publish conserved payload within.1 within.2
  | read consumer count =>
    cases stepped
    exact budgeted.read conserved consumer count
  | reclaim consumer idle count =>
    cases stepped
    exact budgeted.reclaim conserved consumer idle count within
  | countPending index =>
    simp only [step] at stepped
    split at stepped
    · cases stepped
    · rename_i consumer entry found
      split at stepped
      · cases stepped
        exact budgeted.dropClaim index
      · rename_i p pending
        cases stepped
        exact budgeted.countPending found pending
  | settle index policy verdict =>
    obtain ⟨same, latest⟩ := within
    simp only [step] at stepped
    split at stepped
    · cases stepped
    · rename_i delivery found
      cases stepped
      have settles := settleAction_settles conserved.wellFormed policy.policy delivery verdict
      rw [same] at settles ⊢
      exact budgeted.settle conserved small (List.mem_of_getElem? found)
        (fun failed => latest failed delivery found) settles
  | promote count =>
    have promoted := budgeted.promote conserved count
    simp only [step] at stepped
    split at stepped <;> rename_i promotion <;> cases stepped <;> rw [promotion] at promoted <;>
      exact promoted

end Budgeted

theorem run_budgeted {policy : WorkerPolicy} (small : policy.policy.maxDeliveries ≤ u16Max)
    (run : group.Run (Within policy) s trace) :
    Budgeted policy.policy s := by
  refine run.invariant (I := fun s _ => Budgeted policy.policy s) ?_ ?_
  · rintro ⟨redis, published, claimed, deliveries⟩ ⟨⟨now, nextId, rfl⟩, rfl, rfl, rfl⟩
    refine ⟨⟨?_, ?_, ?_⟩, ?_, ?_, ?_, ?_⟩ <;> simp [used]
  · intro before after trace input output reached budgeted within stepped
    exact budgeted.next (run_conserved (reached.mono fun _ _ _ _ => trivial)) small within stepped

/-! ## The theorem -/

/-- **The delivery budget.**  It holds after every run whose publications start within the
budget, whose reclaims leave alone an entry that has had its last delivery, and whose failed
handlers hold the latest delivery of their entry. -/
theorem delivery_budget (policy : WorkerPolicy) (small : policy.policy.maxDeliveries ≤ u16Max)
    (s : State) (trace : List (Input × Output)) (run : group.Run (Within policy) s trace) :
    KeepsBudget policy.policy s := by
  have budgeted := run_budgeted small run
  refine ⟨budgeted.attempts, fun job => ?_⟩
  calc (s.deliveries.countP fun d => d.attempt.isSome ∧ d.body.job = job)
      ≤ s.deliveries.countP fun d => d.body.job = job :=
        List.countP_mono_left fun d _ both => by simp_all
    _ ≤ used s job := Nat.le_add_right _ _
    _ ≤ policy.policy.maxDeliveries := budgeted.spent job

/-- Under the default policy the job of `slowConsumer` is handed out three times of five. -/
theorem delivery_budget_slowConsumer :
    ∃ s trace, group.Run (Within defaultPolicy) s trace ∧ s.deliveries.length = 3 ∧
      KeepsBudget defaultPolicy.policy s := by
  obtain ⟨s, trace, run, handed⟩ := Machine.exists_run_exec group (Within defaultPolicy)
    emptyKeys_initial slowConsumer (fun s _ => s.deliveries.length = 3) (by decide)
  exact ⟨s, trace, run, handed, delivery_budget defaultPolicy (by decide) s trace run⟩

/-- One delivery, and no retry. -/
def oncePolicy : WorkerPolicy where
  policy := ⟨1, .fromMillis 1000, .fromMillis 300000⟩
  valid := by decide

/-- The consumer `a` reads the job and crashes; `b` reclaims it and handles it, as the second
delivery of a budget of one. -/
theorem reclaimed_past_budget :
    ∃ s trace, group.Reaches s trace ∧ ackedJobs trace = [0] ∧
      (⟨"b", 0, ⟨0, [123, 125]⟩, some 2⟩ : Delivery) ∈ s.deliveries ∧
      ¬KeepsBudget oncePolicy.policy s := by
  obtain ⟨s, trace, run, acked, handed⟩ := Machine.exists_run_exec group (fun _ _ _ => True)
    emptyKeys_initial [.publish [123, 125] 1, .read "a" 10, .reclaim "b" [0] 10, .countPending 0,
      .settle 1 oncePolicy .handled]
    (fun s trace => ackedJobs trace = [0] ∧
      (⟨"b", 0, ⟨0, [123, 125]⟩, some 2⟩ : Delivery) ∈ s.deliveries) (by decide)
  refine ⟨s, trace, run, acked, handed, fun keeps => ?_⟩
  exact absurd (keeps.1 _ handed 2 rfl) (by decide)

end Rustee.RedisJobs.Conservation
