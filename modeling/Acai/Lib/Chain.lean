import Mathlib.Data.List.Range
import Mathlib.Order.Basic

/-!
# Chains of records in memory

A chain is a list that is kept in memory: each record names the address of the next
one, and a mark in a record says that it is the last. A device that works off a
chain reads it from its first address on.

Following a chain ends when the mark is found, so it takes a number of steps as its
fuel. Where the records that are met are known, the chain is known for every fuel
that is large enough (`follow_eq`).
-/

namespace Acai

namespace Chain

variable {Addr Record : Type*} (fetch : Addr → Option Record) (next : Record → Addr)
  (stops : Record → Bool)

/-- The records from an address on, up to the first one that stops. -/
def follow : ℕ → Addr → Option (List Record)
  | 0, _ => none
  | fuel + 1, addr =>
      match fetch addr with
      | none => none
      | some record =>
          if stops record then some [record]
          else (follow fuel (next record)).map (record :: ·)

variable {fetch next stops} {fuel : ℕ} {addr : Addr} {record : Record}

theorem follow_of_stops (found : fetch addr = some record) (last : stops record = true) :
    follow fetch next stops (fuel + 1) addr = some [record] := by
  rw [follow, found]
  exact if_pos last

theorem follow_of_goesOn (found : fetch addr = some record) (goesOn : stops record = false) :
    follow fetch next stops (fuel + 1) addr =
      (follow fetch next stops fuel (next record)).map (record :: ·) := by
  rw [follow, found]
  exact if_neg (by simp [goesOn])

/-- The chain of records that are linked one after another, of which only the last one stops. -/
theorem follow_eq (place : ℕ → Addr) {records : ℕ → Record} {last : ℕ}
    (found : ∀ index ≤ last, fetch (place index) = some (records index))
    (linked : ∀ index < last, next (records index) = place (index + 1))
    (goesOn : ∀ index < last, stops (records index) = false)
    (ends : stops (records last) = true) (enough : last < fuel) :
    follow fetch next stops fuel (place 0) = some ((List.range (last + 1)).map records) := by
  induction last generalizing place records fuel with
  | zero =>
      rcases Nat.exists_eq_succ_of_ne_zero (Nat.ne_of_gt enough) with ⟨fuel, rfl⟩
      exact follow_of_stops (found 0 le_rfl) ends
  | succ last ih =>
      rcases Nat.exists_eq_succ_of_ne_zero (Nat.ne_of_gt (Nat.zero_lt_of_lt enough))
        with ⟨fuel, rfl⟩
      have rest := @ih fuel (fun index => place (index + 1)) (fun index => records (index + 1))
        (fun index le => found _ (Nat.succ_le_succ le))
        (fun index lt => linked _ (Nat.succ_lt_succ lt))
        (fun index lt => goesOn _ (Nat.succ_lt_succ lt)) ends (Nat.lt_of_succ_lt_succ enough)
      have all : (List.range (last + 1 + 1)).map records =
          records 0 :: (List.range (last + 1)).map fun index => records (index + 1) := by
        rw [List.range_succ_eq_map, List.map_cons, List.map_map]
        rfl
      rw [follow_of_goesOn (found 0 (Nat.zero_le _)) (goesOn 0 (Nat.succ_pos last)),
        linked 0 (Nat.succ_pos last), rest, Option.map_some, all]

end Chain

end Acai
