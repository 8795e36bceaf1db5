import Mathlib.Data.List.Nodup
import MarketAlerts.Dispatch.Basic

/-!
# The order of a report

A report lists its entries by event and then by outlet, whatever the order in which they came to be
known: the arrangement of entries with distinct places depends on the entries only.

- `arrange_eq`: entries that are given by a function of event and outlet are listed event by event,
  and for each event outlet by outlet.
-/

namespace MarketAlerts.Dispatcher

namespace Placed

/-- Whether one place comes before another: by event, and then by outlet. -/
def Before (a b : Placed) : Prop :=
  a.position < b.position ∨ a.position = b.position ∧ a.lane < b.lane

variable {a b c : Placed}

/-- A result comes no later if it comes before, or if it is at the same place. -/
theorem le_iff : a.le b = true ↔ a.Before b ∨ a.position = b.position ∧ a.lane = b.lane := by
  simp only [le, Before, Bool.or_eq_true, Bool.and_eq_true, decide_eq_true_eq, beq_iff_eq]
  omega

theorem le_trans (hab : a.le b = true) (hbc : b.le c = true) : a.le c = true := by
  simp only [le_iff, Before] at *
  omega

/-- Of two results one comes no later. -/
theorem le_total (a b : Placed) : (a.le b || b.le a) = true := by
  simp only [Bool.or_eq_true, le_iff, Before]
  omega

end Placed

/-- The entries for events and outlets, event by event. -/
def inOrder (events lanes : Nat) (sent? : Nat → Nat → Option Sent) : List Placed :=
  (List.range events).flatMap fun position =>
    (List.range lanes).filterMap fun lane =>
      (sent? lane position).map fun s => ⟨position, lane, s⟩

section InOrder

variable {events lanes : Nat} {sent? : Nat → Nat → Option Sent}

/-- What stands in order is what was sent, each at its place. -/
theorem mem_inOrder {x : Placed} : x ∈ inOrder events lanes sent? ↔
    x.position < events ∧ x.lane < lanes ∧ sent? x.lane x.position = some x.sent := by
  simp only [inOrder, List.mem_flatMap, List.mem_filterMap, List.mem_range, Option.map_eq_some_iff]
  constructor
  · rintro ⟨position, hposition, lane, hlane, s, hs, rfl⟩
    exact ⟨hposition, hlane, hs⟩
  · rintro ⟨hposition, hlane, hs⟩
    exact ⟨x.position, hposition, x.lane, hlane, x.sent, hs, rfl⟩

/-- What stands in order does so event by event, and for each event outlet by outlet. -/
theorem pairwise_inOrder : (inOrder events lanes sent?).Pairwise Placed.Before := by
  rw [inOrder, List.pairwise_flatMap]
  constructor
  · -- for one event, by outlet
    intro position _
    rw [List.pairwise_filterMap]
    refine List.pairwise_lt_range.imp fun hlt x hx y hy => ?_
    obtain ⟨s, -, rfl⟩ := Option.map_eq_some_iff.1 hx
    obtain ⟨t, -, rfl⟩ := Option.map_eq_some_iff.1 hy
    exact .inr ⟨rfl, hlt⟩
  · -- across events, by event
    refine List.pairwise_lt_range.imp fun hlt x hx y hy => .inl ?_
    simp only [List.mem_filterMap, Option.map_eq_some_iff] at hx hy
    obtain ⟨_, _, s, -, rfl⟩ := hx
    obtain ⟨_, _, t, -, rfl⟩ := hy
    exact hlt

theorem nodup_inOrder : (inOrder events lanes sent?).Nodup := by
  refine pairwise_inOrder.imp fun {a b} hbefore hab => ?_
  subst hab
  simp [Placed.Before] at hbefore

/-- Entries that are given by a function of event and outlet are listed event by event, and for each
event outlet by outlet. -/
theorem arrange_eq {placed : List Placed} (hnodup : placed.Nodup)
    (hmem : ∀ x, x ∈ placed ↔
      x.position < events ∧ x.lane < lanes ∧ sent? x.lane x.position = some x.sent) :
    arrange placed = (List.range events).flatMap fun position =>
      (List.range lanes).filterMap fun lane => sent? lane position := by
  -- two sorted lists of the same entries are equal, since no two entries share a place
  have hperm : (placed.mergeSort Placed.le).Perm (inOrder events lanes sent?) :=
    (List.mergeSort_perm _ _).trans ((List.perm_ext_iff_of_nodup hnodup nodup_inOrder).2
      fun x => (hmem x).trans mem_inOrder.symm)
  have hsorted : (inOrder events lanes sent?).Pairwise fun a b => a.le b = true :=
    pairwise_inOrder.imp fun hbefore => Placed.le_iff.2 (.inl hbefore)
  have hantisymm : ∀ a b, a ∈ placed.mergeSort Placed.le → b ∈ inOrder events lanes sent? →
      a.le b = true → b.le a = true → a = b := by
    -- entries at the same place are the same
    intro a b ha hb hab hba
    have hplace : a.position = b.position ∧ a.lane = b.lane := by
      simp only [Placed.le_iff, Placed.Before] at hab hba
      omega
    have hsent := (mem_inOrder.1 (hperm.mem_iff.1 ha)).2.2
    rw [hplace.1, hplace.2, (mem_inOrder.1 hb).2.2, Option.some.injEq] at hsent
    obtain ⟨position, lane, sent⟩ := a
    obtain ⟨position', lane', sent'⟩ := b
    simp_all
  have hmerged : (placed.mergeSort Placed.le).Pairwise fun a b => a.le b = true :=
    @List.pairwise_mergeSort _ Placed.le (fun _ _ _ => Placed.le_trans) Placed.le_total placed
  have heq := hperm.eq_of_pairwise hantisymm hmerged hsorted
  rw [arrange, heq, inOrder, List.map_flatMap]
  simp only [List.map_filterMap, Option.map_map, Function.comp_def, Option.map_id']

end InOrder

end MarketAlerts.Dispatcher
