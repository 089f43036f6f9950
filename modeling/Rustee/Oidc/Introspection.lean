/-
# Rustee.Oidc.Introspection -- opaque tokens, validated remotely and cached locally

`validated_principal` and `OpaqueTokenCache` of `rustee-auth-oidc/src/introspection/`.  A response
is validated once and its principal is then served from the cache, for at most the time that the
token has left, which is counted in whole seconds from the last one that has begun.

One clock drives both.  It is an ordered field with a floor: `Instant` is its exact value and
`unix_seconds` its floor.

* `validatedPrincipal_eq_ok` separates what a validation reads of the clock from what it does not.
* `Holds.run`: what other calls can do to an entry is remove it.
* `revalidated_iff`: a response that was accepted is accepted until its expiry.

An entry is served until its time in the cache is over, so whether the cache can outlive the
validation is a comparison of these two times.
-/
import Rustee.Auth.Principal
import Rustee.Foundation.Keyed
import Mathlib.Algebra.Order.Floor.Semiring
import Mathlib.Data.Rat.Floor

namespace Rustee.Oidc

open Rustee.Auth
open Rustee.Foundation

set_option autoImplicit false

def u64Max : Nat := 18446744073709551615

/-! ## Claims -/

/-- `is_valid_oauth_scope_token`.  No byte of a character beyond ASCII passes the test, so it can be
made on the characters. -/
def isValidOauthScopeToken (value : String) (maxValueBytes : Nat) : Bool :=
  value ≠ "" && byteLen value ≤ maxValueBytes &&
    value.toList.all fun c => c = '!' || ('#' ≤ c && c ≤ '[') || (']' ≤ c && c ≤ '~')

def areValidOauthScopeTokens (values : List String) (maxValueBytes : Nat) : Bool :=
  values ≠ [] && values.all fun value => isValidOauthScopeToken value maxValueBytes

inductive ScopeClaim where
  | spaceDelimited (scopes : String)
  | values (scopes : List String)
  deriving DecidableEq, Repr

def ScopeClaim.scopes : ScopeClaim → List String
  | .spaceDelimited scopes => (scopes.toList.splitOn ' ').map String.ofList
  | .values scopes => scopes

def ScopeClaim.intoScopes (claim : ScopeClaim) : Except AuthError (List String) :=
  if areValidOauthScopeTokens claim.scopes maxPrincipalAuthorizationValueBytes then .ok claim.scopes
  else .error .rejectedBearerToken

inductive StringSetClaim where
  | one (value : String)
  | values (list : List String)
  deriving DecidableEq, Repr

def StringSetClaim.intoValues : StringSetClaim → List String
  | .one value => [value]
  | .values list => list

def normalizeVerifiedPrincipal (subject issuer : String) (tenant : Option String)
    (scope : Option ScopeClaim) (roles permissions : Option StringSetClaim) :
    Except AuthError Principal := do
  let scopes ← match scope with
    | some claim => claim.intoScopes
    | none => .ok []
  (Principal.fromVerifiedClaims subject issuer tenant scopes (roles.elim [] StringSetClaim.intoValues)
    (permissions.elim [] StringSetClaim.intoValues)).mapError fun _ => .rejectedBearerToken

/-! ## Responses -/

/-- What validation and cache read of an `OpaqueIntrospectionConfig`. -/
structure OpaqueIntrospectionConfig where
  issuer : String
  audience : String
  leewaySeconds : Nat
  cacheTtl : Duration
  maxCacheEntries : Nat

inductive AudienceClaim where
  | one (audience : String)
  | many (audiences : List String)
  deriving DecidableEq, Repr

def AudienceClaim.contains : AudienceClaim → String → Bool
  | .one audience, expected => audience = expected
  | .many audiences, expected => audiences.any fun audience => audience = expected

structure OpaqueTokenIntrospection where
  active : Bool
  sub : Option String
  iss : Option String
  aud : Option AudienceClaim
  exp : Option Nat
  nbf : Option Nat
  tenant : Option String
  scope : Option ScopeClaim
  roles : Option StringSetClaim
  permissions : Option StringSetClaim

section Clock

variable {K : Type} [Field K] [LinearOrder K] [IsStrictOrderedRing K] [FloorSemiring K]

/-- A time before the epoch counts as the epoch. -/
def unixSeconds (now : K) : Nat := ⌊now⌋₊

/-- A duration on the clock. -/
def seconds (d : Duration) : K := d.nanos / 1000000000

end Clock

namespace OpaqueTokenIntrospection

variable (response : OpaqueTokenIntrospection) (config : OpaqueIntrospectionConfig)

/-- The first check: an active token of a subject, from the issuer and for the audience. -/
def isFor : Bool :=
  response.active && response.sub.any (· ≠ "") && response.iss.any (· = config.issuer) &&
    response.aud.any fun audience => audience.contains config.audience

/-- The second check, at a time in whole seconds. -/
def isTimely (now : Nat) : Bool :=
  response.exp.all (fun expiration => now < min (expiration + config.leewaySeconds) u64Max) &&
    response.nbf.all fun notBefore => notBefore ≤ min (now + config.leewaySeconds) u64Max

def principal : Except AuthError Principal :=
  match response.sub, response.iss with
  | some subject, some issuer =>
    normalizeVerifiedPrincipal subject issuer response.tenant response.scope response.roles
      response.permissions
  | _, _ => .error .rejectedBearerToken

/-- How long the principal may be cached: as long as configured, and not for longer than the token
has left. -/
def cacheTtl (now : Nat) : Option Duration :=
  response.exp.bind fun expiration =>
    let remaining := expiration - now
    let bounded : Duration := ⟨min config.cacheTtl.nanos (remaining * 1000000000)⟩
    if bounded.nanos = 0 then none else some bounded

variable {K : Type} [Field K] [LinearOrder K] [FloorSemiring K]

def validatedPrincipal (now : K) : Except AuthError (Principal × Option Duration) := do
  if ¬ response.isFor config then .error .rejectedBearerToken
  else if ¬ response.isTimely config (unixSeconds now) then .error .rejectedBearerToken
  else do
    let principal ← response.principal
    .ok (principal, response.cacheTtl config (unixSeconds now))

variable {response config}

/-- Only the expiry, the start and the lifetime in the cache depend on the time. -/
theorem validatedPrincipal_eq_ok {now : K} {principal : Principal} {ttl : Option Duration} :
    response.validatedPrincipal config now = .ok (principal, ttl) ↔
      response.isFor config = true ∧ response.isTimely config (unixSeconds now) = true ∧
        response.principal = .ok principal ∧ response.cacheTtl config (unixSeconds now) = ttl := by
  unfold validatedPrincipal
  by_cases isFor : response.isFor config = true
  · by_cases timely : response.isTimely config (unixSeconds now) = true
    · rw [if_neg (not_not.2 isFor), if_neg (not_not.2 timely), bind_eq_ok]
      simp [isFor, timely]
    · rw [if_neg (not_not.2 isFor), if_pos timely]
      simp [timely]
  · rw [if_pos isFor]
    simp [isFor]

theorem cacheTtl_eq_some {now : Nat} {ttl : Duration}
    (bounded : response.cacheTtl config now = some ttl) :
    ∃ expiration, response.exp = some expiration ∧ 0 < ttl.nanos ∧
      ttl.nanos = min config.cacheTtl.nanos ((expiration - now) * 1000000000) := by
  obtain ⟨expiration, expires, bounded⟩ := Option.bind_eq_some_iff.1 bounded
  refine ⟨expiration, expires, ?_⟩
  dsimp only at bounded
  split at bounded
  · cases bounded
  · rename_i positive
    cases bounded
    exact ⟨Nat.pos_of_ne_zero positive, rfl⟩

/-- A response that was accepted stays acceptable until its expiry. -/
theorem isTimely_later {now later expiration : Nat} (expires : response.exp = some expiration)
    (timely : response.isTimely config now = true) (ordered : now ≤ later) :
    response.isTimely config later = true ↔
      later < min (expiration + config.leewaySeconds) u64Max := by
  simp only [isTimely, expires, Option.all_some, Bool.and_eq_true, decide_eq_true_eq] at timely ⊢
  constructor
  · exact And.left
  · intro unexpired
    refine ⟨unexpired, ?_⟩
    have begun := timely.2
    rw [Option.all_eq_true] at begun ⊢
    intro notBefore isNotBefore
    have := of_decide_eq_true (begun notBefore isNotBefore)
    exact decide_eq_true (this.trans (by omega))

end OpaqueTokenIntrospection

/-! ## The cache -/

structure TokenFingerprint where
  text : String
  deriving DecidableEq, Repr

structure CachedPrincipal (K : Type) where
  principal : Principal
  expiresAt : K

/-- `OpaqueTokenCache`, with what its lock guards and whether a panic has poisoned it. -/
structure OpaqueTokenCache (K : Type) where
  enabled : Bool
  maxEntries : Nat
  entries : List (TokenFingerprint × CachedPrincipal K)
  poisoned : Bool

/-- How `cache_principal` ends: an `Instant` that the platform cannot represent makes it panic. -/
inductive Storing where
  | returned (result : Except AuthError Unit)
  | panicked

/-- A call of another task, at the time at which it holds the lock. -/
inductive CacheCall (K : Type) where
  | cachedPrincipal (key : TokenFingerprint) (now : K)
  | cachePrincipal (key : TokenFingerprint) (principal : Principal) (ttl : Option Duration) (now : K)

/-- The key that a call may store an entry under. -/
def CacheCall.stores {K : Type} : CacheCall K → Option TokenFingerprint
  | .cachedPrincipal .. => none
  | .cachePrincipal key .. => some key

namespace OpaqueTokenCache

def new {K : Type} (maxEntries : Nat) (maxTtl : Duration) : OpaqueTokenCache K :=
  ⟨maxEntries > 0 && maxTtl.nanos ≠ 0, maxEntries, [], false⟩

section

variable {K : Type} [LinearOrder K] (cache : OpaqueTokenCache K)

def retain (now : K) : OpaqueTokenCache K :=
  { cache with entries := cache.entries.filter fun entry => now < entry.2.expiresAt }

def cachedPrincipal (key : TokenFingerprint) (now : K) :
    OpaqueTokenCache K × Except AuthError (Option Principal) :=
  if cache.enabled = false then (cache, .ok none)
  else if cache.poisoned then (cache, .error .providerUnavailable)
  else (cache.retain now, .ok ((Keyed.hget (cache.retain now).entries key).map (·.principal)))

end

variable {K : Type} [Field K] [LinearOrder K] (latest : K) (cache : OpaqueTokenCache K)

/-- `latest` is the last instant of the platform. -/
def cachePrincipal (key : TokenFingerprint) (principal : Principal) (ttl : Option Duration) (now : K) :
    OpaqueTokenCache K × Storing :=
  match ttl with
  | none => (cache, .returned (.ok ()))
  | some ttl =>
    if cache.enabled = false then (cache, .returned (.ok ()))
    else if cache.poisoned then (cache, .returned (.error .providerUnavailable))
    else
      let live := cache.retain now
      if cache.maxEntries ≤ live.entries.length ∧ key ∉ Keyed.keys live.entries then
        (live, .returned (.ok ()))
      else if latest < now + seconds ttl then ({ live with poisoned := true }, .panicked)
      else
        ({ live with entries := Keyed.hset live.entries key ⟨principal, now + seconds ttl⟩ },
          .returned (.ok ()))

def call : CacheCall K → OpaqueTokenCache K
  | .cachedPrincipal key now => (cache.cachedPrincipal key now).1
  | .cachePrincipal key principal ttl now => (cache.cachePrincipal latest key principal ttl now).1

def run (calls : List (CacheCall K)) : OpaqueTokenCache K := calls.foldl (call latest) cache

/-! ### What becomes of an entry -/

section

variable {K : Type} [LinearOrder K] {cache : OpaqueTokenCache K} {key : TokenFingerprint}
  {entry : CachedPrincipal K}

/-- The cache holds at most this entry under the key. -/
def Holds (cache : OpaqueTokenCache K) (key : TokenFingerprint) (entry : CachedPrincipal K) : Prop :=
  ∀ held, (key, held) ∈ cache.entries → held = entry

variable {now : K}

theorem mem_retain {pair : TokenFingerprint × CachedPrincipal K} :
    pair ∈ (cache.retain now).entries ↔ pair ∈ cache.entries ∧ now < pair.2.expiresAt := by
  simp [retain, List.mem_filter]

theorem Holds.retain (holds : cache.Holds key entry) (now : K) : (cache.retain now).Holds key entry :=
  fun held isHeld => holds held (mem_retain.1 isHeld).1

/-- A lookup finds only what has not expired. -/
theorem of_cachedPrincipal {principal : Principal}
    (found : (cache.cachedPrincipal key now).2 = .ok (some principal)) :
    cache.enabled = true ∧ cache.poisoned = false ∧
      ∃ held, (key, held) ∈ cache.entries ∧ now < held.expiresAt := by
  unfold cachedPrincipal at found
  split at found
  · cases found
  · rename_i enabled
    split at found
    · cases found
    · rename_i sound
      obtain ⟨held, isHeld, -⟩ := Option.map_eq_some_iff.1 (Except.ok.inj found)
      exact ⟨Bool.eq_true_of_not_eq_false enabled, Bool.eq_false_of_not_eq_true sound, held,
        mem_retain.1 (Keyed.hget_mem isHeld)⟩

theorem Holds.lt_of_cachedPrincipal {principal : Principal} (holds : cache.Holds key entry)
    (found : (cache.cachedPrincipal key now).2 = .ok (some principal)) : now < entry.expiresAt := by
  obtain ⟨-, -, held, isHeld, live⟩ := of_cachedPrincipal found
  rwa [holds held isHeld] at live

/-- A lookup finds the entry until it expires. -/
theorem cachedPrincipal_of_lt (enabled : cache.enabled = true) (sound : cache.poisoned = false)
    (holds : cache.Holds key entry) (member : (key, entry) ∈ cache.entries)
    (live : now < entry.expiresAt) :
    (cache.cachedPrincipal key now).2 = .ok (some entry.principal) := by
  have retained : (key, entry) ∈ (cache.retain now).entries := mem_retain.2 ⟨member, live⟩
  obtain ⟨held, isHeld⟩ := Keyed.hget_of_mem_keys (List.mem_map_of_mem (f := Prod.fst) retained)
  obtain rfl : held = entry := holds held (mem_retain.1 (Keyed.hget_mem isHeld)).1
  simp [cachedPrincipal, enabled, sound, isHeld]

end

section

variable {latest : K} {cache : OpaqueTokenCache K} {key : TokenFingerprint} {entry : CachedPrincipal K}

theorem Holds.call (holds : cache.Holds key entry) {call : CacheCall K}
    (elsewhere : call.stores ≠ some key) : (cache.call latest call).Holds key entry := by
  cases call with
  | cachedPrincipal other now =>
    simp only [OpaqueTokenCache.call, OpaqueTokenCache.cachedPrincipal]
    split_ifs
    · exact holds
    · exact holds
    · exact holds.retain now
  | cachePrincipal other principal ttl now =>
    cases ttl with
    | none => exact holds
    | some ttl =>
      simp only [OpaqueTokenCache.call, cachePrincipal]
      split_ifs
      · exact holds
      · exact holds
      · exact holds.retain now
      · exact holds.retain now
      · intro held isHeld
        rcases List.mem_append.1 isHeld with older | newer
        · exact holds.retain now held (Keyed.mem_remove.1 older).1
        · cases List.mem_singleton.1 newer
          exact absurd rfl elsewhere

/-- Other calls can only remove the entry. -/
theorem Holds.run (holds : cache.Holds key entry) {calls : List (CacheCall K)}
    (elsewhere : ∀ call ∈ calls, call.stores ≠ some key) : (cache.run latest calls).Holds key entry := by
  induction calls generalizing cache with
  | nil => exact holds
  | cons call rest ih =>
    exact ih (holds.call (elsewhere call List.mem_cons_self)) fun later isLater =>
      elsewhere later (List.mem_cons_of_mem _ isLater)

/-- When a lookup at once finds what was to be stored, it was stored. -/
theorem stored_of_cachedPrincipal {principal : Principal} {ttl : Duration} {now : K}
    (found : ((cache.cachePrincipal latest key principal (some ttl) now).1.cachedPrincipal key now).2 =
      .ok (some principal)) :
    let after := (cache.cachePrincipal latest key principal (some ttl) now).1
    after.enabled = true ∧ after.poisoned = false ∧ after.Holds key ⟨principal, now + seconds ttl⟩ ∧
      (key, ⟨principal, now + seconds ttl⟩) ∈ after.entries := by
  obtain ⟨enabled, sound, held, isHeld, -⟩ := of_cachedPrincipal found
  refine ⟨enabled, sound, ?_⟩
  simp only [cachePrincipal] at enabled sound isHeld ⊢
  split_ifs at enabled sound isHeld ⊢ with disabled poisoned full late
  · exact absurd enabled (by simp [disabled])
  · exact absurd sound (by simp [poisoned])
  · exact absurd (List.mem_map_of_mem (f := Prod.fst) isHeld) full.2
  · constructor
    · intro held isHeld
      rcases List.mem_append.1 isHeld with older | newer
      · exact absurd rfl (Keyed.mem_remove.1 older).2
      · cases List.mem_singleton.1 newer
        rfl
    · exact List.mem_append_right _ (List.mem_singleton.2 rfl)

end

end OpaqueTokenCache

/-! ## The cache and the validation -/

section

variable {K : Type} [Field K] [LinearOrder K] [IsStrictOrderedRing K]

theorem seconds_pos {d : Duration} (positive : 0 < d.nanos) : (0 : K) < seconds d := by
  unfold seconds
  positivity

/-- Whole seconds on the clock are those of the expiry. -/
theorem seconds_min {d bound : Duration} {whole : Nat}
    (isMin : d.nanos = min bound.nanos (whole * 1000000000)) :
    (seconds d : K) = min (seconds bound) (whole : K) := by
  have positive : (0 : K) ≤ 1000000000 := by norm_num
  unfold seconds
  rw [isMin, Nat.cast_min, ← min_div_div_right positive, Nat.cast_mul, Nat.cast_ofNat,
    mul_div_cancel_right₀ _ (by norm_num)]

variable [FloorSemiring K] {config : OpaqueIntrospectionConfig} {response : OpaqueTokenIntrospection}
  {validatedAt later : K} {principal : Principal} {ttl : Option Duration} {expiration : Nat}

/-- A response that was accepted is accepted with the same principal until the clock reaches its
expiry, which is the whole second that the leeway ends at. -/
theorem revalidated_iff (expires : response.exp = some expiration)
    (validated : response.validatedPrincipal config validatedAt = .ok (principal, ttl))
    (ordered : validatedAt ≤ later) :
    (∃ ttl, response.validatedPrincipal config later = .ok (principal, ttl)) ↔
      later < (min (expiration + config.leewaySeconds) u64Max : Nat) := by
  obtain ⟨isFor, timely, isPrincipal, -⟩ := OpaqueTokenIntrospection.validatedPrincipal_eq_ok.1 validated
  have unexpired : unixSeconds validatedAt < min (expiration + config.leewaySeconds) u64Max :=
    (OpaqueTokenIntrospection.isTimely_later expires timely le_rfl).1 timely
  have whole : unixSeconds later < min (expiration + config.leewaySeconds) u64Max ↔
      later < (min (expiration + config.leewaySeconds) u64Max : Nat) :=
    Nat.floor_lt' (Nat.ne_of_gt (Nat.zero_lt_of_lt unexpired))
  have grown : unixSeconds validatedAt ≤ unixSeconds later := Nat.floor_mono ordered
  rw [← whole, ← OpaqueTokenIntrospection.isTimely_later expires timely grown]
  constructor
  · rintro ⟨other, accepted⟩
    exact (OpaqueTokenIntrospection.validatedPrincipal_eq_ok.1 accepted).2.1
  · intro timelyLater
    exact ⟨_, OpaqueTokenIntrospection.validatedPrincipal_eq_ok.2
      ⟨isFor, timelyLater, isPrincipal, rfl⟩⟩

/-- The cache never outlives the validation, exactly when what is left of the token, from the last
whole second before its validation and counted from when it is cached, ends by its expiry. -/
theorem cache_within_validation_iff {ttl : Duration} {latest cachedAt : K} {cache : OpaqueTokenCache K}
    {key : TokenFingerprint}
    (validated : response.validatedPrincipal config validatedAt = .ok (principal, some ttl))
    (ordered : validatedAt ≤ cachedAt)
    (cached : ((cache.cachePrincipal latest key principal (some ttl) cachedAt).1.cachedPrincipal key
      cachedAt).2 = .ok (some principal)) :
    (∀ (calls : List (CacheCall K)) (lookedUpAt : K), cachedAt ≤ lookedUpAt →
        (∀ call ∈ calls, call.stores ≠ some key) →
        (((cache.cachePrincipal latest key principal (some ttl) cachedAt).1.run latest
          calls).cachedPrincipal key lookedUpAt).2 = .ok (some principal) →
        ∃ ttl, response.validatedPrincipal config lookedUpAt = .ok (principal, ttl)) ↔
      ∀ expiration, response.exp = some expiration →
        cachedAt + min (seconds config.cacheTtl) ((expiration - unixSeconds validatedAt : Nat) : K) ≤
          (min (expiration + config.leewaySeconds) u64Max : Nat) := by
  obtain ⟨-, -, -, bounded⟩ := OpaqueTokenIntrospection.validatedPrincipal_eq_ok.1 validated
  obtain ⟨expiration, expires, positive, isMin⟩ := OpaqueTokenIntrospection.cacheTtl_eq_some bounded
  obtain ⟨enabled, sound, holds, member⟩ := OpaqueTokenCache.stored_of_cachedPrincipal cached
  simp only [expires, Option.some.injEq, forall_eq', ← seconds_min (K := K) isMin]
  constructor
  · -- The first instant at which the response is rejected, if the entry is still there then.
    intro revalidates
    by_contra outlives
    have early : max cachedAt (min (expiration + config.leewaySeconds) u64Max : Nat) <
        cachedAt + seconds ttl :=
      max_lt (lt_add_of_pos_right _ (seconds_pos positive)) (not_le.1 outlives)
    have accepted := revalidates [] _ (le_max_left ..) (by simp)
      (OpaqueTokenCache.cachedPrincipal_of_lt enabled sound holds member early)
    have unexpired := (revalidated_iff expires validated (ordered.trans (le_max_left ..))).1 accepted
    exact absurd unexpired (not_lt.2 (le_max_right ..))
  · intro within calls lookedUpAt later elsewhere found
    have live := (holds.run elsewhere).lt_of_cachedPrincipal found
    exact (revalidated_iff expires validated (ordered.trans later)).2 (lt_of_lt_of_le live within)

end

/-- A configuration with the default leeway, lifetime and capacity. -/
def defaultConfig : OpaqueIntrospectionConfig :=
  ⟨"https://id.example", "orders", 0, ⟨60000000000⟩, 1024⟩

/-- An active response for a token that expires at the given second. -/
def activeUntil (expiration : Nat) : OpaqueTokenIntrospection :=
  ⟨true, some "ada", some "https://id.example", some (.one "orders"), some expiration, none, none, none,
    none, none⟩

/-- The principal of that response. -/
def ada : Principal :=
  ⟨⟨"ada", by decide +kernel⟩, some ⟨"https://id.example", by decide +kernel⟩, none, Principal.noValues,
    Principal.noValues, Principal.noValues⟩

/-- A token with a minute and a half left is cached for a minute. -/
theorem cache_within_validation_minute :
    let cache : OpaqueTokenCache ℚ :=
      ((OpaqueTokenCache.new 1024 defaultConfig.cacheTtl).cachePrincipal 1000 ⟨"token"⟩ ada
        (some ⟨60000000000⟩) 11).1
    ∀ (calls : List (CacheCall ℚ)) (lookedUpAt : ℚ), 11 ≤ lookedUpAt →
      (∀ call ∈ calls, call.stores ≠ some ⟨"token"⟩) →
      ((cache.run 1000 calls).cachedPrincipal ⟨"token"⟩ lookedUpAt).2 = .ok (some ada) →
      ∃ ttl, (activeUntil 100).validatedPrincipal defaultConfig lookedUpAt = .ok (ada, ttl) := by
  have validated : (activeUntil 100).validatedPrincipal defaultConfig (21 / 2 : ℚ) =
      .ok (ada, some ⟨60000000000⟩) := by
    decide +kernel
  refine (cache_within_validation_iff validated (by norm_num) (by decide +kernel)).2 ?_
  intro expiration expires
  cases expires
  decide +kernel

/-- A token that expires at second 1 is validated and cached at 0.9, when a whole second seems left
of it, and is still served at 1.8. -/
theorem cached_past_expiry :
    (activeUntil 1).validatedPrincipal defaultConfig (9 / 10 : ℚ) = .ok (ada, some ⟨1000000000⟩) ∧
      (((OpaqueTokenCache.new 1024 defaultConfig.cacheTtl).cachePrincipal 1000 ⟨"token"⟩ ada
        (some ⟨1000000000⟩) (9 / 10 : ℚ)).1.cachedPrincipal ⟨"token"⟩ (18 / 10)).2 = .ok (some ada) ∧
      (activeUntil 1).validatedPrincipal defaultConfig (18 / 10 : ℚ) = .error .rejectedBearerToken := by
  decide +kernel

end Rustee.Oidc
