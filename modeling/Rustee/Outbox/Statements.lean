/-
# Rustee.Outbox.Statements -- the texts that reach PostgreSQL

The three statements of `rustee-outbox-sqlx/src/lease/storage.rs`, letter for letter.  Their lines
end in an escaped backslash, so the texts have a backslash and a line break where the lines of
`src/stage.rs` are joined.  No token of PostgreSQL has a backslash outside quotes: the three texts
are refused before anything is read or written, whatever the table holds (`leaseSent_refused`).

`Rustee.Outbox.Storage` says what the statements do when the backslashes join their lines.
-/
import Rustee.Foundation.Statement
import Rustee.Outbox.Protocol

namespace Rustee.Outbox

open Rustee.Foundation

set_option autoImplicit false

@[irreducible] def leaseSql : String :=
  "WITH candidates AS ( \\\n" ++
  "               SELECT id \\
               FROM rustee_outbox \\
               WHERE published_at IS NULL \\
                 AND kind = $1 \\
                 AND destination = $2 \\
                 AND available_at <= clock_timestamp() \\
                 AND (leased_until IS NULL OR leased_until <= clock_timestamp()) \\
               ORDER BY priority DESC, created_at, id \\
               FOR UPDATE SKIP LOCKED \\
               LIMIT $3 \\
             ), claimed AS ( \\
               UPDATE rustee_outbox AS outbox \\
               SET lease_token = $4, \\
                   leased_until = clock_timestamp() + ($5::bigint * INTERVAL '1 millisecond'), \\
                   relay_attempt = outbox.relay_attempt + 1 \\
               FROM candidates \\
               WHERE outbox.id = candidates.id \\
               RETURNING outbox.id, outbox.message_id, outbox.message_type, \\
                         outbox.schema_version, outbox.ordering_key, outbox.delivery_attempt, \\
                         outbox.payload, outbox.relay_attempt, outbox.priority, outbox.created_at \\
             ) \\
             SELECT id, message_id, message_type, schema_version, ordering_key, delivery_attempt, \\
                    payload, relay_attempt \\
             FROM claimed \\
             ORDER BY priority DESC, created_at, id"

@[irreducible] def acknowledgeSql : String :=
  "UPDATE rustee_outbox \\\n" ++
  "             SET published_at = clock_timestamp(), lease_token = NULL, leased_until = NULL, \\
                 last_failure_kind = NULL \\
             WHERE id = $1 AND lease_token = $2 AND published_at IS NULL"

@[irreducible] def retrySql : String :=
  "UPDATE rustee_outbox \\\n" ++
  "             SET available_at = clock_timestamp() + ($3::bigint * INTERVAL '1 millisecond'), \\
                 lease_token = NULL, leased_until = NULL, last_failure_kind = 'publish_failed' \\
             WHERE id = $1 AND lease_token = $2 AND published_at IS NULL"

/-- PostgreSQL can split the text into tokens: a backslash is only ever inside a quoted text. -/
def scans : (quoted : Bool) → List Char → Bool
  | _, [] => true
  | quoted, c :: rest =>
    if c = '\'' then scans (!quoted) rest else (quoted || c ≠ '\\') && scans quoted rest

/-- What a statement comes to, given what would come of it if its text were accepted. -/
def fateOf (sql : String) (fate : Fate) : Fate :=
  if scans false sql.toList then fate else .refused

theorem scans_append {quoted : Bool} {front : List Char} (stuck : scans quoted front = false)
    (back : List Char) : scans quoted (front ++ back) = false := by
  induction front generalizing quoted with
  | nil => cases stuck
  | cons c rest ih =>
    simp only [scans, List.cons_append] at stuck ⊢
    split at stuck
    · rename_i isQuote
      rw [if_pos isQuote]
      exact ih stuck
    · rename_i notQuote
      rw [if_neg notQuote]
      rcases Bool.and_eq_false_iff.1 stuck with here | later
      · rw [here, Bool.false_and]
      · rw [ih later, Bool.and_false]

/-- A text whose first line is refused is refused. -/
theorem fateOf_append {first : String} (stuck : scans false first.toList = false) (rest : String)
    (fate : Fate) : fateOf (first ++ rest) fate = .refused := by
  rw [fateOf, String.toList_append, scans_append stuck]
  rfl

theorem fateOf_leaseSql (fate : Fate) : fateOf leaseSql fate = .refused := by
  unfold leaseSql
  exact fateOf_append (by decide) _ fate

/-- `PostgresOutbox::lease`, as its text is sent. -/
def leaseSent (rows : List OutboxRow) (kind : OutboxKind) (destination : OutboxDestination)
    (config : LeaseConfig) (token : Uuid) (locked : List OutboxId) (now claimedAt : Int) :
    Except OutboxError (List OutboxRow × List StoredLease) :=
  match durationMillis config.leaseDuration with
  | .error error => .error error
  | .ok _ =>
    match fateOf leaseSql .answered with
    | .answered => lease rows kind destination config token locked now claimedAt
    | _ => .error .database

/-- **No lease is given.** -/
theorem leaseSent_refused (rows : List OutboxRow) (kind : OutboxKind)
    (destination : OutboxDestination) (config : LeaseConfig) (token : Uuid)
    (locked : List OutboxId) (now claimedAt : Int) :
    leaseSent rows kind destination config token locked now claimedAt = .error .database := by
  rw [leaseSent, durationMillis_config, fateOf_leaseSql]

end Rustee.Outbox
