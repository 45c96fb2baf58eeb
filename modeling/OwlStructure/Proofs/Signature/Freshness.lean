import Mathlib.Data.List.Induction
import OwlStructure.IndividualHistory
import OwlStructure.Proofs.Text.Numbers

/-!
How fresh the fresh individuals are. The counter knows only of the fresh individuals before, so the
next one is new unless the counter has come round, or its id has been given or read before.
-/
namespace OwlStructure

theorem AnonymousIndividual.fresh_inj {m n : Nat} : fresh m = fresh n ↔ m = n := by
  rw [fresh, fresh, mk.injEq, append_repr_inj]

namespace IndividualHistory

namespace Event

def isFresh : Event → Bool
  | .fresh => true
  | _ => false

/-- The individuals that an event brings with ids from outside. -/
def given : Event → List AnonymousIndividual
  | .fresh => []
  | .withId id => [⟨id⟩]
  | @read _ _ decode? text =>
    match Json.ofText? decode? text with
    | some a => (anonymousIndividuals a).toList
    | none => []

end Event

variable {h : IndividualHistory} {events : List Event} {i : AnonymousIndividual}

/-- What is given leaves the counter alone. -/
theorem step_of_given {e : Event} (he : e.isFresh = false) :
    h.step e = ⟨h.counter, h.made ++ e.given⟩ := by
  cases e with
  | fresh => cases he
  | withId id => rfl
  | read decode? text =>
    simp only [step, IndividualHistory.read, Event.given]
    cases Json.ofText? decode? text with
    | none => simp only [List.append_nil]
    | some a => rfl

/-- A history counts the fresh individuals of some events, and has made these and the given ones. -/
structure Records (h : IndividualHistory) (events : List Event) : Prop where
  counter_eq : h.counter.toNat = events.countP Event.isFresh % UInt64.size
  mem_made : ∀ i, i ∈ h.made ↔
    (∃ n < events.countP Event.isFresh, i = .fresh (n % UInt64.size)) ∨ ∃ e ∈ events, i ∈ e.given

namespace Records

theorem start : IndividualHistory.start.Records [] where
  counter_eq := rfl
  mem_made i := by simp [IndividualHistory.start]

theorem fresh_eq (hr : h.Records events) :
    h.fresh.1 = .fresh (events.countP Event.isFresh % UInt64.size) := by
  rw [fresh, hr.counter_eq]

theorem step_fresh (hr : h.Records events) : (h.step .fresh).Records (events ++ [.fresh]) where
  counter_eq := by
    rw [List.countP_append]
    show (h.counter + 1).toNat = _
    rw [UInt64.toNat_add, hr.counter_eq]
    exact Nat.mod_add_mod _ _ _
  mem_made i := by
    have hmade : (h.step .fresh).made = h.made ++ [h.fresh.1] := rfl
    have hcount : (events ++ [Event.fresh]).countP Event.isFresh =
        events.countP Event.isFresh + 1 := by
      rw [List.countP_append]
      rfl
    rw [hmade, List.mem_append, hr.mem_made, List.mem_singleton, hr.fresh_eq, hcount]
    simp only [Nat.exists_lt_succ_right, List.mem_append, List.mem_singleton, or_and_right,
      exists_or, exists_eq_left, Event.given, List.not_mem_nil, or_false]
    exact or_right_comm

theorem step_given (hr : h.Records events) {e : Event} (he : e.isFresh = false) :
    (h.step e).Records (events ++ [e]) := by
  have hcount : (events ++ [e]).countP Event.isFresh = events.countP Event.isFresh := by
    rw [List.countP_append, List.countP_singleton, he]
    rfl
  rw [step_of_given he]
  refine ⟨by rw [hcount, hr.counter_eq], fun i => ?_⟩
  rw [hcount, List.mem_append, hr.mem_made, or_assoc]
  simp only [List.mem_append, List.mem_singleton, or_and_right, exists_or, exists_eq_left]

end Records

theorem records_run (events : List Event) : (start.run events).Records events := by
  induction events using List.reverseRecOn with
  | nil => exact .start
  | append_singleton events e ih =>
    rw [run, List.foldl_append]
    cases he : e.isFresh with
    | false => exact ih.step_given he
    | true =>
      cases e with
      | fresh => exact ih.step_fresh
      | _ => cases he

/-- A counter shows the number of an earlier moment just when it has come round. -/
theorem exists_lt_mod_eq {size count : Nat} (hsize : 0 < size) :
    (∃ n < count, count % size = n % size) ↔ size ≤ count := by
  constructor
  · rintro ⟨n, hn, heq⟩
    by_contra hless
    have hcount : count % size = count := Nat.mod_eq_of_lt (Nat.lt_of_not_le hless)
    have hmod : n % size ≤ n := Nat.mod_le n size
    omega
  · exact fun hle => ⟨count - size, by omega, Nat.mod_eq_sub_mod hle⟩

/-- After any events the next fresh individual carries the number of fresh ones before it, up to the
size of the counter. It has been made before just when the counter has come round, or when an
individual with its id has been given or read. -/
theorem fresh_mem_made_iff (events : List Event) :
    let h := start.run events
    let count := events.countP Event.isFresh
    h.fresh.1 = .fresh (count % UInt64.size) ∧
      (h.fresh.1 ∈ h.made ↔ UInt64.size ≤ count ∨ ∃ e ∈ events, h.fresh.1 ∈ e.given) := by
  intro h count
  have hr : h.Records events := records_run events
  refine ⟨hr.fresh_eq, ?_⟩
  rw [hr.mem_made]
  refine or_congr_left ?_
  rw [hr.fresh_eq]
  simp only [AnonymousIndividual.fresh_inj]
  exact exists_lt_mod_eq (by decide)

/-- One individual is given the id that the first fresh one has. -/
theorem fresh_not_new :
    let h := start.run [.withId "_:genid0"]
    h.fresh.1 ∈ h.made := by decide

end IndividualHistory

end OwlStructure
