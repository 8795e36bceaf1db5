import MarketAlerts.Proofs.Evaluation.Runs
import MarketAlerts.Proofs.Indicator.Lengths

/-!
# Warming up

A technical condition has no value while it remembers fewer prices than its indicator needs. Every
evaluation that succeeds adds a price, up to the limit of the history.

- `length_history_memory`: how many prices there are after an evaluation;
- `isWarmUp_evaluate_iff`: an evaluation is a warm-up exactly if there are too few prices with the
  one of its snapshot;
- `isWarmUp_verdicts_iff`: the same for evaluations in a row, by how many of them succeeded.
-/

namespace MarketAlerts.Evaluation

variable {limit : Nat} {c : Condition} {m : Memory} {s : Snapshot} {indicator : Indicator}

/-- As many prices are kept as the limit allows, and one at least. -/
theorem length_keepLast {α : Type} (limit : Nat) (xs : List α) :
    (keepLast limit xs).length = min xs.length (max limit 1) := by
  rw [keepLast, List.length_drop]
  omega

/-- One more price is kept, up to the limit. -/
theorem length_history_remember (limit : Nat) (m : Memory) (price : Decimal) :
    (remember limit m price).history.length = min (m.history.length + 1) (max limit 1) := by
  rw [remember, length_keepLast, List.length_append, List.length_singleton]

/-- While parameters make sense, there is no value exactly if there are too few prices. -/
theorem technicalValue_eq_none_iff (hcheck : indicator.check = .ok ()) (id : String)
    (history : List Float) : technicalValue id indicator history = .ok none ↔
      history.length < indicator.requiredHistory := by
  unfold technicalValue
  rw [hcheck]
  dsimp only
  split
  next hlt => exact iff_of_true rfl hlt
  next hge =>
    refine iff_of_false (fun h => ?_) hge
    cases hvalues : indicator.calculate history with
    | error cause => simp [hvalues] at h
    | ok values =>
      -- there are values, and the newest one counts
      obtain ⟨latest, hlatest⟩ := Option.ne_none_iff_exists'.1
        (mt List.getLast?_eq_none_iff.1 (Indicator.ne_nil_of_calculate hcheck hvalues))
      simp only [hvalues, hlatest] at h
      split at h <;> simp at h

section Technical

variable (htechnical : c.observable = .technical indicator) (hcheck : indicator.check = .ok ())

include htechnical

/-- A technical condition compares the value of its indicator, once there are enough prices. -/
theorem evaluate_technical (limit : Nat) (m : Memory) (s : Snapshot) :
    let seen := remember limit m s.price
    evaluate limit c m s = (technicalValue c.id indicator seen.history).map fun
      | none => (warmingUp c seen.history.length, seen)
      | some value => (compareValue c m.previous value, { seen with previous := some value }) := by
  simp only [evaluate, observe, htechnical]
  cases technicalValue c.id indicator (remember limit m s.price).history with
  | error e => rfl
  | ok value => cases value <;> rfl

/-- An evaluation that succeeds remembers one price more. -/
theorem length_history_memory (limit : Nat) (m : Memory) (s : Snapshot) :
    (Verdict.memory m (evaluate limit c m s)).history.length =
      if (evaluate limit c m s).isOk then min (m.history.length + 1) (max limit 1)
      else m.history.length := by
  rw [evaluate_technical htechnical]
  cases technicalValue c.id indicator (remember limit m s.price).history with
  | error e => rfl
  | ok value => cases value <;> exact length_history_remember limit m s.price

include hcheck

/-- An evaluation has no value exactly if there are too few prices with the one of its snapshot. -/
theorem isWarmUp_evaluate_iff (limit : Nat) (m : Memory) (s : Snapshot) :
    Verdict.isWarmUp c (evaluate limit c m s) = true ↔
      min (m.history.length + 1) (max limit 1) < indicator.requiredHistory := by
  rw [← length_history_remember limit m s.price,
    ← technicalValue_eq_none_iff hcheck c.id, evaluate_technical htechnical]
  cases technicalValue c.id indicator (remember limit m s.price).history with
  | error e => simp [Except.map, Verdict.isWarmUp]
  | ok value => cases value <;> simp [Except.map, Verdict.isWarmUp, compareValue_ne_warmingUp]

/-- Among evaluations in a row, one has no value exactly if too few have succeeded before it, or if
the history is limited to too few prices. -/
theorem isWarmUp_verdicts_iff {ss : List Snapshot} (hm : m.history.length ≤ max limit 1) {k : Nat}
    {v : Verdict} (hv : (verdicts limit c m ss)[k]? = some v) :
    v.isWarmUp c = true ↔
      min (m.history.length + ((verdicts limit c m ss).take k).countP Except.isOk + 1)
        (max limit 1) < indicator.requiredHistory := by
  induction ss generalizing m k with
  | nil => cases hv
  | cons s ss ih =>
    cases k with
    | zero =>
      cases hv
      exact isWarmUp_evaluate_iff htechnical hcheck limit m s
    | succ k =>
      -- the first evaluation adds a price to the memory of the others exactly if it succeeds
      have hlength := length_history_memory htechnical limit m s
      rw [verdicts, List.take_succ_cons, List.countP_cons]
      cases hok : (evaluate limit c m s).isOk with
      | true =>
        rw [hok, if_pos rfl] at hlength
        rw [ih (by omega) hv, hlength, if_pos rfl]
        -- the limit has been reached already, or it makes no difference to this price
        refine iff_of_eq (congrArg (· < _) ?_)
        omega
      | false =>
        rw [hok, if_neg Bool.false_ne_true] at hlength
        rw [ih (by omega) hv, hlength, if_neg Bool.false_ne_true]
        exact Iff.rfl

end Technical

end MarketAlerts.Evaluation
