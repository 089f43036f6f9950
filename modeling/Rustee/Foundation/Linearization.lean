/-
# Rustee.Foundation.Linearization -- calls that overlap, explained one after the other

The calls of a pool overlap.  A linearization of a trace is a list of calls, each with the value it
returns, such that a sequential object started in `init` returns just these values when it is called
in that order, and such that the list respects real time: a call that had returned before another
started is not listed after it.  Every call that has returned is listed with what it returned; calls
that are still open may be.

A linearization is built along the run.  `carry` takes it over a step, `append` lists the caller of a
step, and `withdraw` takes out a call that was listed too early; that is sound for an entry that did
not change the object.
-/
import Rustee.Foundation.Tasks
import Mathlib.Data.List.Nodup

namespace Rustee.Foundation

set_option autoImplicit false

namespace Linearization

variable {Caller Entry Choice Op α Value Object : Type}

/-! ## Overlapping calls -/

abbrev Trace (Caller Entry Choice Op α : Type) :=
  List (Pool.Input Caller Entry Choice × Turn Op α)

def Started (trace : Trace Caller Entry Choice Op α) (caller : Caller) (entry : Entry) : Prop :=
  ∃ turn, (.start caller entry, turn) ∈ trace

def Returned (trace : Trace Caller Entry Choice Op α) (caller : Caller) (value : α) : Prop :=
  ∃ input, input.caller = caller ∧ (input, .returns value) ∈ trace

/-- The first call had returned when the second started. -/
def Precedes (trace : Trace Caller Entry Choice Op α) (first second : Caller) : Prop :=
  ∃ before after value entry, trace = before ++ after ∧ Returned before first value ∧
    Started after second entry

/-! ## Calls in sequence -/

/-- A call of the sequential object with the value it returned. -/
structure Listed (Caller Entry Value : Type) where
  caller : Caller
  entry : Entry
  value : Value

variable (object : Object → Entry → Object × Value)

/-- The object after a list of calls. -/
def final (init : Object) : List (Listed Caller Entry Value) → Object
  | [] => init
  | call :: rest => final (object init call.entry).1 rest

/-- The object returns what is listed. -/
def Legal (init : Object) : List (Listed Caller Entry Value) → Prop
  | [] => True
  | call :: rest => (object init call.entry).2 = call.value ∧ Legal (object init call.entry).1 rest

/-- The call changes nothing where it returns this value. -/
def Listed.ReadOnly (call : Listed Caller Entry Value) : Prop :=
  ∀ o, (object o call.entry).2 = call.value → (object o call.entry).1 = o

variable {object} {init : Object} {order : List (Listed Caller Entry Value)}

theorem final_snoc (call : Listed Caller Entry Value) :
    final object init (order ++ [call]) = (object (final object init order) call.entry).1 := by
  induction order generalizing init with
  | nil => rfl
  | cons first rest ih => exact ih

theorem Legal.snoc {call : Listed Caller Entry Value} (legal : Legal object init order)
    (returns : (object (final object init order) call.entry).2 = call.value) :
    Legal object init (order ++ [call]) := by
  induction order generalizing init with
  | nil => exact ⟨returns, trivial⟩
  | cons first rest ih => exact ⟨legal.1, ih legal.2 returns⟩

/-- Calls that changed nothing can be left out. -/
theorem Legal.filter (keep : Listed Caller Entry Value → Bool) (legal : Legal object init order)
    (dropped : ∀ call ∈ order, keep call = false → call.ReadOnly object) :
    Legal object init (order.filter keep) ∧
      final object init (order.filter keep) = final object init order := by
  induction order generalizing init with
  | nil => exact ⟨trivial, rfl⟩
  | cons first rest ih =>
    obtain ⟨legalRest, same⟩ :=
      ih legal.2 fun call isCall => dropped call (List.mem_cons_of_mem _ isCall)
    cases kept : keep first with
    | true =>
      rw [List.filter_cons_of_pos kept]
      exact ⟨⟨legal.1, legalRest⟩, same⟩
    | false =>
      have unchanged := dropped first List.mem_cons_self kept init legal.1
      rw [List.filter_cons_of_neg (by simp [kept])]
      rw [unchanged] at legalRest same
      refine ⟨legalRest, ?_⟩
      rw [same, final, unchanged]

end Linearization

/-! ## Linearizations -/

open Linearization in
/-- `order` explains the calls of `trace`; `view` is what of a returned value the object knows. -/
structure Linearization {Caller Entry Choice Op α Value Object : Type}
    (object : Object → Entry → Object × Value) (init : Object) (view : α → Option Value)
    (trace : Trace Caller Entry Choice Op α) (order : List (Listed Caller Entry Value)) : Prop where
  legal : Legal object init order
  once : (order.map Listed.caller).Nodup
  started : ∀ call ∈ order, Started trace call.caller call.entry
  complete : ∀ caller value, Returned trace caller value →
    ∃ call ∈ order, call.caller = caller ∧ view value = some call.value
  realTime : order.Pairwise fun first second => ¬Precedes trace second.caller first.caller

namespace Linearization

variable {Caller Entry Choice Op α Value Object : Type} {object : Object → Entry → Object × Value}
  {init : Object} {view : α → Option Value} {trace : Trace Caller Entry Choice Op α}
  {order : List (Listed Caller Entry Value)} {input : Pool.Input Caller Entry Choice}
  {turn : Turn Op α} {caller : Caller}

theorem Started.snoc {entry : Entry} (started : Started trace caller entry)
    (step : Pool.Input Caller Entry Choice × Turn Op α) : Started (trace ++ [step]) caller entry := by
  obtain ⟨turn, isStep⟩ := started
  exact ⟨turn, List.mem_append_left _ isStep⟩

theorem returned_snoc_iff {value : α} :
    Returned (trace ++ [(input, turn)]) caller value ↔
      Returned trace caller value ∨ input.caller = caller ∧ turn = .returns value := by
  constructor
  · rintro ⟨other, isCaller, isStep⟩
    rcases List.mem_append.1 isStep with earlier | last
    · exact .inl ⟨other, isCaller, earlier⟩
    · rw [List.mem_singleton] at last
      cases last
      exact .inr ⟨isCaller, rfl⟩
  · rintro (⟨other, isCaller, isStep⟩ | ⟨isCaller, rfl⟩)
    · exact ⟨other, isCaller, List.mem_append_left _ isStep⟩
    · exact ⟨input, isCaller, List.mem_append_right _ List.mem_cons_self⟩

/-- A step puts a call before another only by starting that one. -/
theorem precedes_snoc {first second : Caller}
    (precedes : Precedes (trace ++ [(input, turn)]) first second) :
    (∃ value, Returned trace first value) ∧
      (Precedes trace first second ∨ ∃ entry, input = .start second entry) := by
  obtain ⟨before, after, value, entry, split, returned, started⟩ := precedes
  rcases List.eq_nil_or_concat after with rfl | ⟨shorter, last, rfl⟩
  · obtain ⟨_, isStep⟩ := started
    cases isStep
  · rw [List.concat_eq_append, ← List.append_assoc] at split
    obtain ⟨same, isLast⟩ := List.append_inj' split rfl
    cases isLast
    subst same
    have earlier : Returned (before ++ shorter) first value := by
      obtain ⟨other, isCaller, isStep⟩ := returned
      exact ⟨other, isCaller, List.mem_append_left _ isStep⟩
    refine ⟨⟨value, earlier⟩, ?_⟩
    obtain ⟨other, isStep⟩ := started
    rw [List.concat_eq_append, List.mem_append, List.mem_singleton] at isStep
    rcases isStep with inShorter | isLast
    · exact .inl ⟨before, shorter, value, entry, rfl, returned, other, inShorter⟩
    · cases isLast
      exact .inr ⟨entry, rfl⟩

theorem nil : Linearization object init view ([] : Trace Caller Entry Choice Op α) [] where
  legal := trivial
  once := .nil
  started := by simp
  complete := by
    rintro caller value ⟨_, -, isStep⟩
    cases isStep
  realTime := .nil

/-- A step after which the calls are explained as before: it starts a call that is not listed, and
it returns what is listed, if it does either. -/
theorem carry (lin : Linearization object init view trace order)
    (fresh : ∀ caller entry, input = .start caller entry → ∀ call ∈ order, call.caller ≠ caller)
    (returns : ∀ value, turn = .returns value →
      ∃ call ∈ order, call.caller = input.caller ∧ view value = some call.value) :
    Linearization object init view (trace ++ [(input, turn)]) order where
  legal := lin.legal
  once := lin.once
  started call isCall := (lin.started call isCall).snoc _
  complete := by
    intro caller value returned
    rcases returned_snoc_iff.1 returned with earlier | ⟨rfl, isTurn⟩
    · exact lin.complete caller value earlier
    · exact returns value isTurn
  realTime := by
    refine lin.realTime.imp_of_mem fun {first second} isFirst _ later precedes => ?_
    rcases (precedes_snoc precedes).2 with earlier | ⟨entry, isStart⟩
    · exact later earlier
    · exact fresh _ _ isStart first isFirst rfl

/-- The caller of a step takes effect with it. -/
theorem append (lin : Linearization object init view trace order)
    (absent : ∀ call ∈ order, call.caller ≠ input.caller) {entry : Entry} {value : Value}
    (started : Started (trace ++ [(input, turn)]) input.caller entry)
    (effect : (object (final object init order) entry).2 = value)
    (returns : ∀ returned, turn = .returns returned → view returned = some value) :
    Linearization object init view (trace ++ [(input, turn)])
      (order ++ [⟨input.caller, entry, value⟩]) where
  legal := lin.legal.snoc effect
  once := by
    rw [List.map_append, List.nodup_append]
    refine ⟨lin.once, List.nodup_singleton _, ?_⟩
    rintro first isFirst second isSecond rfl
    obtain ⟨call, isCall, rfl⟩ := List.mem_map.1 isFirst
    exact absent call isCall (List.mem_singleton.1 isSecond)
  started := by
    intro call isCall
    rcases List.mem_append.1 isCall with earlier | last
    · exact (lin.started call earlier).snoc _
    · rw [List.mem_singleton] at last
      subst last
      exact started
  complete := by
    intro caller returned isReturned
    rcases returned_snoc_iff.1 isReturned with earlier | ⟨rfl, isTurn⟩
    · obtain ⟨call, isCall, found⟩ := lin.complete caller returned earlier
      exact ⟨call, List.mem_append_left _ isCall, found⟩
    · exact ⟨_, List.mem_append_right _ List.mem_cons_self, rfl, returns returned isTurn⟩
  realTime := by
    rw [List.pairwise_append]
    refine ⟨?_, List.pairwise_singleton .., ?_⟩
    · refine lin.realTime.imp_of_mem fun {first second} isFirst _ later precedes => ?_
      rcases (precedes_snoc precedes).2 with earlier | ⟨entry, rfl⟩
      · exact later earlier
      · exact absent first isFirst rfl
    · -- the caller has not returned yet, so it precedes nobody
      intro first isFirst second isSecond precedes
      rw [List.mem_singleton] at isSecond
      subst isSecond
      obtain ⟨value, returned⟩ := (precedes_snoc precedes).1
      obtain ⟨call, isCall, isCaller, -⟩ := lin.complete _ _ returned
      exact absent call isCall isCaller

/-- A call that is still open and has changed nothing need not be listed. -/
theorem withdraw [DecidableEq Caller] (lin : Linearization object init view trace order)
    (stillOpen : ∀ value, ¬Returned trace caller value)
    (readOnly : ∀ call ∈ order, call.caller = caller → call.ReadOnly object) :
    Linearization object init view trace (order.filter fun call => call.caller ≠ caller) ∧
      final object init (order.filter fun call => call.caller ≠ caller) = final object init order := by
  obtain ⟨legal, same⟩ := lin.legal.filter (fun call => call.caller ≠ caller)
    fun call isCall dropped => readOnly call isCall (by simpa using dropped)
  have sublist : List.Sublist (order.filter fun call => call.caller ≠ caller) order :=
    List.filter_sublist
  refine ⟨⟨legal, lin.once.sublist (sublist.map _), fun call isCall =>
    lin.started call (sublist.mem isCall), ?_, lin.realTime.sublist sublist⟩, same⟩
  intro other value returned
  obtain ⟨call, isCall, rfl, found⟩ := lin.complete other value returned
  have kept : call.caller ≠ caller := by
    rintro rfl
    exact stillOpen value returned
  exact ⟨call, List.mem_filter.2 ⟨isCall, by simpa using kept⟩, rfl, found⟩

end Linearization

end Rustee.Foundation
