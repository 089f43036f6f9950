/-
# Rustee.Outbox.Inbox -- receipts that make redelivered messages take effect once

`PostgresInbox` of `rustee-outbox-sqlx/src/inbox.rs`.  A consumer inserts a receipt in the transaction of
its own writes.  While another open transaction has the same receipt the insert waits, for only the
end of that transaction decides whether there is a conflict.

`Deliveries` is what the consumers know from the answers alone: which transactions were told to do
the work, and which of those are committed.
-/
import Rustee.Foundation.Text
import Mathlib.Data.List.Perm.Basic
import Mathlib.Data.List.Nodup

namespace Rustee.Outbox

set_option autoImplicit false

open Rustee.Foundation

/-- What `validate_inbox_text` lets through. -/
abbrev InboxText := { value : String // isBoundedText 255 value = true }

/-- `InboxMessageId::event` and `InboxMessageId::job`. -/
def inboxMessageId (id : BitVec 128) : InboxText := ⟨uuidText id, isBoundedText_uuidText (by decide) id⟩

inductive InboxDecision where
  | firstDelivery
  | duplicate
  deriving DecidableEq, Repr

/-- A consumer and a message id. -/
abbrev Receipt := InboxText × InboxText

/-- The receipts in the table, and those of open transactions. -/
structure Inbox where
  committed : List Receipt
  held : List (Nat × Receipt)

/-- `INSERT … ON CONFLICT DO NOTHING` with the rows it affected, and `none` while it waits. -/
def Inbox.insert (inbox : Inbox) (transaction : Nat) (receipt : Receipt) : Option (Inbox × Nat) :=
  if receipt ∈ inbox.committed ∨ (transaction, receipt) ∈ inbox.held then some (inbox, 0)
  else if receipt ∈ inbox.held.map Prod.snd then none
  else some ({ inbox with held := inbox.held ++ [(transaction, receipt)] }, 1)

/-- `PostgresInbox::register`. -/
def Inbox.register (inbox : Inbox) (transaction : Nat) (receipt : Receipt) :
    Option (Inbox × InboxDecision) :=
  (inbox.insert transaction receipt).map fun (inbox, rowsAffected) =>
    (inbox, if rowsAffected = 1 then .firstDelivery else .duplicate)

inductive InboxStatement where
  | register (transaction : Nat) (receipt : Receipt)
  | commit (transaction : Nat)
  | rollback (transaction : Nat)

structure Deliveries where
  done : List (Nat × Receipt)
  pending : List (Nat × Receipt)

/-- A statement, and what the consumers make of its answer.  One that waits is made again. -/
def InboxStatement.run (s : Inbox × Deliveries) : InboxStatement → Inbox × Deliveries
  | .register transaction receipt =>
    match s.1.register transaction receipt with
    | none => s
    | some (inbox, .duplicate) => (inbox, s.2)
    | some (inbox, .firstDelivery) =>
      (inbox, { s.2 with pending := s.2.pending ++ [(transaction, receipt)] })
  | .commit transaction =>
    let mine := fun held : Nat × Receipt => held.1 = transaction
    (⟨s.1.committed ++ (s.1.held.filter mine).map Prod.snd, s.1.held.filter (!mine ·)⟩,
      ⟨s.2.done ++ s.2.pending.filter mine, s.2.pending.filter (!mine ·)⟩)
  | .rollback transaction =>
    let others := fun held : Nat × Receipt => held.1 ≠ transaction
    ({ s.1 with held := s.1.held.filter others }, { s.2 with pending := s.2.pending.filter others })

/-- The inbox has what the consumers were told, and nothing twice. -/
structure Receipted (s : Inbox × Deliveries) : Prop where
  committed : s.1.committed = s.2.done.map Prod.snd
  held : s.1.held = s.2.pending
  once : ((s.2.done ++ s.2.pending).map Prod.snd).Nodup

theorem Receipted.run {s : Inbox × Deliveries} (receipted : Receipted s) (statement : InboxStatement) :
    Receipted (statement.run s) := by
  obtain ⟨⟨committed, held⟩, ⟨done, pending⟩⟩ := s
  obtain ⟨isCommitted, isHeld, once⟩ := receipted
  simp only at isCommitted isHeld once
  subst isCommitted isHeld
  cases statement with
  | register transaction receipt =>
    simp only [InboxStatement.run, Inbox.register, Inbox.insert]
    split_ifs with known waits
    · exact ⟨rfl, rfl, once⟩
    · exact ⟨rfl, rfl, once⟩
    · refine ⟨rfl, rfl, ?_⟩
      change ((done ++ (held ++ [(transaction, receipt)])).map Prod.snd).Nodup
      rw [← List.append_assoc, List.map_append, List.map_singleton, ← List.concat_eq_append, List.nodup_concat]
      refine ⟨fun member => ?_, once⟩
      rw [List.map_append, List.mem_append] at member
      exact member.elim (known ∘ .inl) waits
  | commit transaction =>
    refine ⟨(List.map_append ..).symm, rfl, ?_⟩
    have moved := (List.filter_append_perm (fun pair => pair.1 = transaction) held).append_left done
    rw [← List.append_assoc] at moved
    exact (moved.map Prod.snd).nodup_iff.2 once
  | rollback transaction =>
    exact ⟨rfl, rfl, once.sublist ((List.filter_sublist.append_left done).map Prod.snd)⟩

/-- **Each message takes effect once.**  Whatever transactions register, commit and roll back in whatever
order, no two committed ones were told to do the work of one message.  A transaction is told to skip
it exactly if one of them has done it or it was itself told to do it; it waits while another is at
it; and otherwise it is told to do it, also after a rollback. -/
theorem effects_once (statements : List InboxStatement) (transaction : Nat) (receipt : Receipt) :
    let s := statements.foldl InboxStatement.run (⟨[], []⟩, ⟨[], []⟩)
    let answer := (s.1.register transaction receipt).map Prod.snd
    (s.2.done.map Prod.snd).Nodup ∧
      (answer = some .duplicate ↔
        receipt ∈ s.2.done.map Prod.snd ∨ (transaction, receipt) ∈ s.2.pending) ∧
      (answer = some .firstDelivery ↔
        receipt ∉ s.2.done.map Prod.snd ∧ receipt ∉ s.2.pending.map Prod.snd) := by
  intro s answer
  obtain ⟨committed, held, once⟩ : Receipted s :=
    List.foldlRecOn (motive := Receipted) statements _ ⟨rfl, rfl, List.nodup_nil⟩
      fun _ receipted statement _ => receipted.run statement
  refine ⟨once.sublist ((List.sublist_append_left ..).map _), ?_⟩
  simp only [answer, Inbox.register, Inbox.insert, committed, held]
  split_ifs with known waits
  · refine ⟨iff_of_true rfl known, iff_of_false (by simp) fun free => ?_⟩
    exact known.elim free.1 fun mine => free.2 (List.mem_map_of_mem mine)
  · exact ⟨iff_of_false (by simp) known, iff_of_false (by simp) fun free => free.2 waits⟩
  · exact ⟨iff_of_false (by simp) known, iff_of_true rfl ⟨known ∘ .inl, waits⟩⟩

end Rustee.Outbox
