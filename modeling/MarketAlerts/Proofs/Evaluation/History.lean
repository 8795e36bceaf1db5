import Mathlib.Data.List.DropRight
import MarketAlerts.Proofs.Evaluation.WarmUp

/-!
# What a condition remembers of prices

Evaluations in a row collect the prices of the snapshots on which they succeed. Only the newest of
them are kept, and an evaluation sees nothing but these and the price of its own snapshot.

## Main definitions

- `memoryAfter`: the memory after evaluations in a row;
- `succeeding`: the snapshots on which they succeed.

## Main results

- `history_memory`: what one evaluation adds to the prices;
- `history_memoryAfter`: the prices that are kept after evaluations in a row;
- `evaluate_of_lt`, `value_evaluate_of_le`: what an evaluation comes to while there are too few
  prices, and later;
- `history_window`: both of these in a run.
-/

namespace MarketAlerts.Evaluation

/-- The memory after the evaluations of a condition on snapshots in a row. A failure keeps
nothing. -/
def memoryAfter (limit : Nat) (c : Condition) (m : Memory) : List Snapshot → Memory
  | [] => m
  | s :: rest => memoryAfter limit c (Verdict.memory m (evaluate limit c m s)) rest

/-- The snapshots on which the evaluations of a condition in a row succeed. -/
def succeeding (limit : Nat) (c : Condition) (m : Memory) : List Snapshot → List Snapshot
  | [] => []
  | s :: rest =>
    let v := evaluate limit c m s
    let later := succeeding limit c (Verdict.memory m v) rest
    if v.isOk then s :: later else later

variable {limit : Nat} {c : Condition} {m : Memory} {s : Snapshot} {indicator : Indicator}

/-! ## The newest elements -/

/-- To keep the last ones is to take them from the end. -/
theorem keepLast_eq_rtake {α : Type} (hlimit : 0 < limit) (xs : List α) :
    keepLast limit xs = xs.rtake limit := by
  rw [keepLast, List.rtake, Nat.max_eq_left hlimit]

/-- From the end there are as many as asked for, or all there are. -/
theorem length_rtake {α : Type} (limit : Nat) (xs : List α) :
    (xs.rtake limit).length = min xs.length limit := by
  rw [List.rtake, List.length_drop]
  omega

/-- What was let go of earlier would be let go of now. -/
theorem rtake_rtake_append {α : Type} (limit : Nat) (xs : List α) (x : α) :
    (xs.rtake limit ++ [x]).rtake limit = (xs ++ [x]).rtake limit := by
  cases limit with
  | zero => rw [List.rtake_zero, List.rtake_zero]
  | succ n =>
    -- beside the new element there is room for one less than before
    rw [List.rtake_concat_succ, List.rtake_concat_succ, List.append_cancel_right_eq]
    simp only [List.rtake_eq_reverse_take_reverse, List.reverse_reverse, List.take_take]
    rw [Nat.min_eq_left n.le_succ]

/-! ## One evaluation -/

/-- An evaluation of a condition that is not technical leaves the prices alone. -/
theorem history_memory_of_not_technical (h : ∀ indicator, c.observable ≠ .technical indicator)
    (limit : Nat) (m : Memory) (s : Snapshot) :
    (Verdict.memory m (evaluate limit c m s)).history = m.history := by
  rw [evaluate, observe]
  cases hobservable : c.observable with
  | price | volume | time => rfl
  | market metric =>
    dsimp only
    cases marketValue metric s.toQuote <;> rfl
  | technical indicator => exact absurd hobservable (h indicator)

section Technical

variable (htechnical : c.observable = .technical indicator)

include htechnical

/-- An evaluation of a technical condition that succeeds adds its price to those that are kept. -/
theorem history_memory (hlimit : 0 < limit) (m : Memory) (s : Snapshot) :
    (Verdict.memory m (evaluate limit c m s)).history =
      if (evaluate limit c m s).isOk then (m.history ++ [s.price.toFloat]).rtake limit
      else m.history := by
  rw [evaluate_technical htechnical]
  cases technicalValue c.id indicator (remember limit m s.price).history with
  | error e => rfl
  | ok value => cases value <;> exact keepLast_eq_rtake hlimit _

/-- While there are too few prices, the reading says how many there are. -/
theorem evaluate_of_lt (hcheck : indicator.check = .ok ())
    (h : (remember limit m s.price).history.length < indicator.requiredHistory) :
    evaluate limit c m s = .ok
      ({ conditionId := c.id
         satisfied := false
         value := .zero
         details := c.observable.metricName ++ " warming up: " ++
          toString (remember limit m s.price).history.length ++ "/" ++
          toString indicator.requiredHistory ++ " samples" },
        remember limit m s.price) := by
  rw [evaluate_technical htechnical, (technicalValue_eq_none_iff hcheck c.id _).2 h]
  rw [Except.map, warmingUp, htechnical]
  rfl

/-- Once there are enough prices, an evaluation has the value of its indicator over these. -/
theorem value_evaluate_of_le (hcheck : indicator.check = .ok ())
    (h : indicator.requiredHistory ≤ (remember limit m s.price).history.length) :
    (evaluate limit c m s).map (fun x => some x.1.value) =
      technicalValue c.id indicator (remember limit m s.price).history := by
  have hsome := mt (technicalValue_eq_none_iff hcheck c.id _).1 (Nat.not_lt.2 h)
  rw [evaluate_technical htechnical]
  cases hvalue : technicalValue c.id indicator (remember limit m s.price).history with
  | error e => rfl
  | ok value =>
    cases value with
    | none => exact absurd hvalue hsome
    | some value => rfl

/-! ## Evaluations in a row -/

/-- After evaluations in a row there are the newest of the prices on which they succeeded, and of
those from before. -/
theorem history_memoryAfter (hlimit : 0 < limit) {earlier : List Float}
    (hm : m.history = earlier.rtake limit) (ss : List Snapshot) :
    (memoryAfter limit c m ss).history =
      (earlier ++ (succeeding limit c m ss).map fun s => s.price.toFloat).rtake limit := by
  -- each success moves its price from the snapshots to those from before
  induction ss generalizing m earlier with
  | nil => rw [memoryAfter, succeeding, List.map_nil, List.append_nil, hm]
  | cons s ss ih =>
    have hstep := history_memory htechnical hlimit m s
    rw [memoryAfter, succeeding]
    cases hok : (evaluate limit c m s).isOk with
    | true =>
      rw [hok, if_pos rfl, hm, rtake_rtake_append] at hstep
      rw [ih hstep, if_pos rfl, List.map_cons, List.append_assoc, List.singleton_append]
    | false =>
      rw [hok, if_neg Bool.false_ne_true] at hstep
      rw [ih (hstep.trans hm), if_neg Bool.false_ne_true]

end Technical

/-- What is not technical remembers no prices. -/
theorem history_memoryAfter_of_not_technical
    (h : ∀ indicator, c.observable ≠ .technical indicator) (m : Memory) (ss : List Snapshot) :
    (memoryAfter limit c m ss).history = m.history := by
  induction ss generalizing m with
  | nil => rfl
  | cons s ss ih => exact (ih _).trans (history_memory_of_not_technical h limit m s)

/-- What a condition remembers of prices in a run from nothing.

- For a technical condition whose parameters make sense, these are the newest of the prices on
  which evaluations succeeded, as many as there are and the limit allows. The next evaluation sees
  the newest of these prices and its own. While its indicator needs more of them, it says how many
  there are; otherwise it has the value of the indicator over them, or fails as that does.
- For other conditions evaluations never change them.
-/
theorem history_window (hlimit : 0 < limit) (c : Condition) (ss : List Snapshot) :
    (∀ indicator, c.observable = .technical indicator → indicator.check = .ok () →
      let m := memoryAfter limit c {} ss
      let past := (succeeding limit c {} ss).map fun s => s.price.toFloat
      m.history = past.rtake limit ∧ m.history.length = min past.length limit ∧
      ∀ s : Snapshot,
        let kept := (past ++ [s.price.toFloat]).rtake limit
        let count := min (past.length + 1) limit
        kept.length = count ∧
        (Verdict.isWarmUp c (evaluate limit c m s) = true ↔ count < indicator.requiredHistory) ∧
        (count < indicator.requiredHistory → evaluate limit c m s = .ok
          ({ conditionId := c.id
             satisfied := false
             value := .zero
             details := c.observable.metricName ++ " warming up: " ++ toString count ++ "/" ++
              toString indicator.requiredHistory ++ " samples" },
            { m with history := kept })) ∧
        (indicator.requiredHistory ≤ count →
          (evaluate limit c m s).map (fun x => some x.1.value) =
            technicalValue c.id indicator kept)) ∧
    ((∀ indicator, c.observable ≠ .technical indicator) →
      ∀ m : Memory, (memoryAfter limit c m ss).history = m.history) := by
  refine ⟨fun indicator htechnical hcheck => ?_,
    fun h m => history_memoryAfter_of_not_technical h m ss⟩
  intro m past
  have hempty : ({} : Memory).history = ([] : List Float).rtake limit := (List.rtake_nil limit).symm
  have hhistory : m.history = past.rtake limit := history_memoryAfter htechnical hlimit hempty ss
  refine ⟨hhistory, by rw [hhistory, length_rtake], fun s => ?_⟩
  intro kept count
  have hkept : kept.length = count := by
    rw [length_rtake, List.length_append, List.length_singleton]
  -- what the evaluation sees is what it would keep
  have hseen : remember limit m s.price = { m with history := kept } := by
    rw [remember, keepLast_eq_rtake hlimit, hhistory, rtake_rtake_append]
  have hlength : (remember limit m s.price).history.length = count := hseen ▸ hkept
  refine ⟨hkept, ?_, fun hlt => ?_, fun hle => ?_⟩
  · rw [isWarmUp_evaluate_iff htechnical hcheck, ← length_history_remember limit m s.price, hlength]
  · rw [evaluate_of_lt htechnical hcheck (hlength ▸ hlt), hlength, hseen]
  · rw [value_evaluate_of_le htechnical hcheck (hlength ▸ hle), hseen]

/-- The average of two prices, of which one is kept, never has a value. That of one price has one
from the first evaluation on. A condition on the price itself remembers no prices. -/
theorem history_window_ofAverages :
    let paid (price : Int64) : Snapshot :=
      (Quote.ofPrice "BTCUSDT" (.ofInt64 price)).atTime ⟨0, 0⟩
    let average (period : Nat) : Condition :=
      { (default : Condition) with id := "c1", observable := .technical (.sma period) }
    let price : Condition := { (default : Condition) with id := "c2", observable := .price }
    let ss := [paid 100, paid 110]
    let m := memoryAfter 1 (average 2) {} ss
    succeeding 1 (average 2) {} ss = ss ∧
      m.history = [(paid 110).price.toFloat] ∧
      evaluate 1 (average 2) m (paid 120) = .ok
        (⟨"c1", false, .zero, "sma warming up: 1/2 samples"⟩,
          { m with history := [(paid 120).price.toFloat] }) ∧
      (evaluate 1 (average 1) {} (paid 100)).map (fun x => some x.1.value) =
        technicalValue "c1" (.sma 1) [(paid 100).price.toFloat] ∧
      (memoryAfter 1 price {} ss).history = [] := by
  intro paid average price ss m
  have hlimit : 0 < 1 := by decide
  have hss : succeeding 1 (average 2) {} ss = ss := by decide +kernel
  have hdetails : "sma" ++ " warming up: " ++ toString 1 ++ "/" ++ toString 2 ++ " samples" =
      "sma warming up: 1/2 samples" := by decide
  obtain ⟨hm, -, hnext⟩ := (history_window hlimit (average 2) ss).1 (.sma 2) rfl rfl
  obtain ⟨-, -, hfirst⟩ := (history_window hlimit (average 1) []).1 (.sma 1) rfl rfl
  rw [hss] at hm hnext
  refine ⟨hss, hm, ?_, (hfirst (paid 100)).2.2.2 (by decide),
    (history_window hlimit price ss).2 nofun {}⟩
  rw [← hdetails]
  exact (hnext (paid 120)).2.2.1 (by decide)

end MarketAlerts.Evaluation
