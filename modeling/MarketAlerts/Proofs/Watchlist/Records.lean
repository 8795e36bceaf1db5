import Mathlib.Logic.Relation
import MarketAlerts.Proofs.Watchlist.Passes

/-!
# What the parts of a registered condition say about each other

`Watch.Turns` lists what can become of a registered condition in one go, and `Watch.IsCoherent` says
how its status, its counts, its last error and its memory go together.

- `Watch.isCoherent_ofCondition`, `Watch.Turns.isCoherent`: a condition is coherent at its
  registration, and remains so;
- `Watch.Turns.counts_le`: its counts never go down.
-/

namespace MarketAlerts

/-- Whether a status goes with the rest of a record, for a condition that is switched on or off. -/
structure Condition.Record.Permits (r : Condition.Record) (active : Bool)
    (status : Condition.Status) : Prop where
  disabled_iff : status = .disabled ↔ active = false
  triggered : status = .triggered → 0 < r.triggers ∧ r.lastError = none
  error : status = .error → r.lastError.isSome

namespace Condition.Record

variable {r r' : Condition.Record} {active : Bool}

/-- A condition that waits for its next pass may have any record. -/
theorem permits_atRest (r : Condition.Record) (active : Bool) :
    r.Permits active (.atRest active) := by
  cases active <;> constructor <;> simp [Status.atRest]

/-- Of the record only the triggers and the last error count. -/
theorem Permits.congr {status : Status} (h : r.Permits active status)
    (htriggers : r'.triggers = r.triggers) (herror : r'.lastError = r.lastError) :
    r'.Permits active status where
  disabled_iff := h.disabled_iff
  triggered := by
    rw [htriggers, herror]
    exact h.triggered
  error := by
    rw [herror]
    exact h.error

end Condition.Record

namespace Watch

/-- What can become of a registered condition in one go, unless it is removed. -/
inductive Turns : Watch → Watch → Prop
  /-- It is switched on or off. -/
  | setActive (w : Watch) (active : Bool) : Turns w (w.setActive active)
  /-- A pass takes it up. -/
  | begin {w : Watch} (hactive : w.condition.active = true) : Turns w w.begin
  /-- The outcome of a pass is applied to it. -/
  | apply {w : Watch} (hactive : w.condition.active = true) (now : Instant)
    (next : Option Instant) (o : Outcome) : Turns w (w.apply now next o)
  /-- A pass gives it up. -/
  | abort (w : Watch) : Turns w w.abort

/-- The status of a condition, its counts, its last error and its memory go together. -/
structure IsCoherent (w : Watch) : Prop where
  triggers_le : w.condition.record.triggers ≤ w.condition.record.evaluations
  lastTriggered_iff : w.condition.record.lastTriggered.isSome ↔ 0 < w.condition.record.triggers
  memory : w.memory.previous.isSome ∨ w.memory.history ≠ [] → 0 < w.condition.record.evaluations
  status : w.condition.record.Permits w.condition.active w.condition.record.status
  /-- The end of a cancelled pass can put this status back. -/
  statusBefore : w.condition.record.status = .evaluating →
    w.condition.record.Permits w.condition.active w.statusBefore

section IsCoherent

variable {w : Watch}

/-- A new watch is coherent. -/
theorem isCoherent_ofCondition (c : Condition) : (ofCondition c).IsCoherent where
  triggers_le := Nat.le_refl 0
  lastTriggered_iff := by simp [ofCondition]
  memory := by simp [ofCondition]
  status := Condition.Record.permits_atRest _ c.active
  statusBefore _ := Condition.Record.permits_atRest _ c.active

/-- To switch a watch leaves it coherent. -/
theorem IsCoherent.setActive (h : w.IsCoherent) (active : Bool) :
    (w.setActive active).IsCoherent := by
  unfold Watch.setActive
  split
  next => exact h
  next =>
    refine ⟨h.triggers_le, h.lastTriggered_iff, h.memory,
      Condition.Record.permits_atRest _ active, fun hstatus => ?_⟩
    -- the new status is no mark of a pass
    cases active <;> simp [Condition.Status.atRest] at hstatus

/-- A pass takes up active conditions only, so that its mark is not on a disabled one. -/
theorem IsCoherent.begin (h : w.IsCoherent) (hactive : w.condition.active = true) :
    w.begin.IsCoherent where
  triggers_le := h.triggers_le
  lastTriggered_iff := h.lastTriggered_iff
  memory := h.memory
  status := ⟨by simp [Watch.begin, hactive], nofun, nofun⟩
  statusBefore _ := h.status.congr rfl rfl

/-- The cancellation of a pass leaves a watch coherent. -/
theorem IsCoherent.abort (h : w.IsCoherent) : w.abort.IsCoherent := by
  unfold Watch.abort
  split
  next hstatus =>
    have hbefore := h.statusBefore hstatus
    exact ⟨h.triggers_le, h.lastTriggered_iff, h.memory, hbefore.congr rfl rfl,
      fun _ => hbefore.congr rfl rfl⟩
  next => exact h

/-- An outcome leaves the watch of an active condition coherent. -/
theorem IsCoherent.apply (h : w.IsCoherent) (hactive : w.condition.active = true) (now : Instant)
    (next : Option Instant) (o : Outcome) : (w.apply now next o).IsCoherent := by
  have htriggers := h.triggers_le
  cases o with
  | evaluated reading memory =>
    -- a satisfied reading counts twice, any other once
    cases hsatisfied : reading.satisfied with
    | true =>
      constructor <;>
        simp [Watch.apply, Condition.Record.count, hsatisfied, htriggers]
      exact ⟨by simp [hactive], by simp, nofun⟩
    | false =>
      constructor <;>
        simp [Watch.apply, Condition.Record.count, hsatisfied, h.lastTriggered_iff]
      · omega
      · exact ⟨by simp [hactive], nofun, nofun⟩
  | failed id message =>
    refine ⟨htriggers, h.lastTriggered_iff, h.memory, ⟨?_, nofun, fun _ => rfl⟩, nofun⟩
    simp [Watch.apply, Condition.Record.fail, hactive]

end IsCoherent

namespace Turns

variable {w v : Watch}

theorem id_eq (h : Turns w v) : v.id = w.id := by
  cases h <;> simp

/-- Whatever becomes of a condition, its parts go together as before. -/
theorem isCoherent (h : Turns w v) (hw : w.IsCoherent) : v.IsCoherent := by
  cases h with
  | setActive active => exact hw.setActive active
  | begin hactive => exact hw.begin hactive
  | apply hactive now next o => exact hw.apply hactive now next o
  | abort => exact hw.abort

/-- Counts go up with an outcome, and nothing else touches them. -/
theorem counts_le (h : Turns w v) :
    w.condition.record.triggers ≤ v.condition.record.triggers ∧
      w.condition.record.evaluations ≤ v.condition.record.evaluations := by
  cases h with
  | setActive active =>
    unfold Watch.setActive
    split <;> exact ⟨Nat.le_refl _, Nat.le_refl _⟩
  | begin hactive => exact ⟨Nat.le_refl _, Nat.le_refl _⟩
  | apply hactive now next o =>
    cases o with
    | evaluated reading memory =>
      refine ⟨?_, Nat.le_succ _⟩
      simp only [Watch.apply, Condition.Record.count]
      split
      · exact Nat.le_succ _
      · exact Nat.le_refl _
    | failed id message => exact ⟨Nat.le_refl _, Nat.le_refl _⟩
  | abort =>
    unfold Watch.abort
    split <;> exact ⟨Nat.le_refl _, Nat.le_refl _⟩

end Turns

end Watch

end MarketAlerts
