import MarketAlerts.Evaluation
import MarketAlerts.Proofs.Decimal.Order

/-!
# Evaluations of a condition in a row

A condition is evaluated on one snapshot after the other. Each evaluation that does not fail hands
its memory on to the next one, and a failure leaves the memory as it was.

## Main definitions

- `Verdict`: what comes of an evaluation, and `Verdict.reading?`: its reading, if it has a value;
- `verdicts`, `readings`: what comes of evaluations in a row;
- `Compares`: each reading compares its value with that of the reading before.

## Main results

- `evaluate_cases`: what an evaluation can come to;
- `compares_readings`: failures and readings without a value do not come between two values;
- `Compares.satisfied_iff_crosses`: when a reading of an operator for crossings is satisfied;
- `Compares.exists_isShort_between`: between two crossings there was a value on the other side;
- `not_isSatisfied_verdicts`: crossings of one threshold in opposite directions are not seen on the
  same snapshot.
-/

namespace MarketAlerts

/-- A condition without a record and switched on. Evaluations do not look at these. -/
def Condition.rule (c : Condition) : Condition := { c with active := true, record := {} }

namespace Evaluation

/-- What comes of an evaluation: a reading with the memory to keep, or a failure. -/
abbrev Verdict := Except EvaluationError (Reading × Memory)

namespace Verdict

/-- The memory after an evaluation. -/
def memory (m : Memory) : Verdict → Memory
  | .ok (_, seen) => seen
  | .error _ => m

/-- Whether it is the reading while there are too few prices. -/
def isWarmUp (c : Condition) : Verdict → Bool
  | .ok (r, seen) => r = warmingUp c seen.history.length
  | .error _ => false

/-- The reading, if it has a value. -/
def reading? (c : Condition) (v : Verdict) : Option Reading :=
  if v.isWarmUp c then none else v.toOption.map Prod.fst

end Verdict

/-- What comes of the evaluations of a condition on snapshots in a row. -/
def verdicts (limit : Nat) (c : Condition) (m : Memory) : List Snapshot → List Verdict
  | [] => []
  | s :: rest =>
    let v := evaluate limit c m s
    v :: verdicts limit c (Verdict.memory m v) rest

/-- The readings with values of the evaluations of a condition on snapshots in a row. -/
def readings (limit : Nat) (c : Condition) (m : Memory) (ss : List Snapshot) : List Reading :=
  (verdicts limit c m ss).filterMap (Verdict.reading? c)

/-- Each reading compares its value with that of the reading before, the first one with
`previous`. -/
def Compares (c : Condition) : Option Decimal → List Reading → Prop
  | _, [] => True
  | previous, r :: rest =>
    r.satisfied = c.operator.holds r.value previous c.threshold ∧ Compares c (some r.value) rest

variable {limit : Nat} {c : Condition} {m : Memory} {s : Snapshot}

/-! ## One evaluation -/

/-- An observation does not touch the value before. -/
theorem previous_of_observe {value : Option Decimal} {seen : Memory}
    (h : observe limit c m s = .ok (value, seen)) : seen.previous = m.previous := by
  unfold observe at h
  cases hobservable : c.observable with
  | price | volume | time =>
    rw [hobservable] at h
    cases h
    rfl
  | market metric =>
    rw [hobservable] at h
    cases hvalue : marketValue metric s.toQuote with
    | error e => simp [hvalue, Except.map] at h
    | ok v =>
      simp only [hvalue, Except.map, Except.ok.injEq, Prod.mk.injEq] at h
      rw [← h.2]
  -- an indicator lengthens the history, and leaves the last value read
  | technical indicator =>
    rw [hobservable] at h
    dsimp only at h
    cases hvalue : technicalValue c.id indicator (remember limit m s.price).history with
    | error e => simp [hvalue, Except.map] at h
    | ok v =>
      simp only [hvalue, Except.map, Except.ok.injEq, Prod.mk.injEq] at h
      rw [← h.2]
      rfl

/-- An evaluation fails, or it has no value yet, or it compares a value with the one before. Only
in the last case there is another value before the next one. -/
theorem evaluate_cases (limit : Nat) (c : Condition) (m : Memory) (s : Snapshot) :
    (∃ e, evaluate limit c m s = .error e) ∨
    (∃ seen, evaluate limit c m s = .ok (warmingUp c seen.history.length, seen) ∧
      seen.previous = m.previous) ∨
    ∃ value seen, evaluate limit c m s = .ok (compareValue c m.previous value, seen) ∧
      seen.previous = some value := by
  unfold evaluate
  cases hobserved : observe limit c m s with
  | error e => exact .inl ⟨e, rfl⟩
  | ok observed =>
    obtain ⟨value, seen⟩ := observed
    cases value with
    | none => exact .inr (.inl ⟨seen, rfl, previous_of_observe hobserved⟩)
    | some value => exact .inr (.inr ⟨value, _, rfl, rfl⟩)

/-- A text ends as its last part does. -/
theorem getLast?_toList_append (a : String) {b : String} {letter : Char}
    (h : b.toList.getLast? = some letter) : (a ++ b).toList.getLast? = some letter := by
  rw [String.toList_append, List.getLast?_append, h, Option.some_or]

/-- A comparison tells of a value and not of how many prices there are. -/
theorem compareValue_ne_warmingUp (c : Condition) (previous : Option Decimal) (value : Decimal)
    (samples : Nat) : compareValue c previous value ≠ warmingUp c samples := by
  intro h
  -- the texts differ in their last letters
  have hlast : (compareValue c previous value).details.toList.getLast? = some 's' := by
    rw [h]
    exact getLast?_toList_append _ (by decide)
  unfold compareValue at hlast
  dsimp only at hlast
  split at hlast
  · have hg : "; no previous value to detect a crossing".toList.getLast? = some 'g' := by decide
    cases hlast.symm.trans (getLast?_toList_append _ hg)
  · have hparenthesis : (if c.operator.holds value previous c.threshold then " (satisfied)"
        else " (not satisfied)").toList.getLast? = some ')' := by split <;> decide
    cases hlast.symm.trans (getLast?_toList_append _ hparenthesis)

section Verdict

/-- A failure has no reading. -/
theorem reading?_error (c : Condition) (e : EvaluationError) :
    Verdict.reading? c (.error e) = none := rfl

/-- An evaluation during the warm-up has no reading. -/
theorem reading?_warmingUp (c : Condition) (seen : Memory) :
    Verdict.reading? c (.ok (warmingUp c seen.history.length, seen)) = none := by
  simp [Verdict.reading?, Verdict.isWarmUp]

/-- A comparison is a reading. -/
theorem reading?_compareValue (c : Condition) (previous : Option Decimal) (value : Decimal)
    (seen : Memory) : Verdict.reading? c (.ok (compareValue c previous value, seen)) =
      some (compareValue c previous value) := by
  simp [Verdict.reading?, Verdict.isWarmUp, compareValue_ne_warmingUp, Except.toOption]

/-- A reading that is satisfied has a value. -/
theorem filter_reading? (c : Condition) (r : Reading) (seen : Memory) :
    (Verdict.reading? c (.ok (r, seen))).toList.filter (·.satisfied) =
      [r].filter (·.satisfied) := by
  unfold Verdict.reading?
  split
  next hwarm =>
    have hr : r = warmingUp c seen.history.length := of_decide_eq_true hwarm
    rw [hr]
    rfl
  next => rfl

end Verdict

/-! ## Evaluations in a row -/

/-- Evaluations look at nothing but the rule. -/
theorem evaluate_rule (limit : Nat) (c : Condition) (m : Memory) (s : Snapshot) :
    evaluate limit c.rule m s = evaluate limit c m s := rfl

/-- The first reading comes from the memory at the beginning, and the others from what it leaves. -/
theorem readings_cons (limit : Nat) (c : Condition) (m : Memory) (s : Snapshot)
    (ss : List Snapshot) : readings limit c m (s :: ss) =
      (Verdict.reading? c (evaluate limit c m s)).toList ++
        readings limit c (Verdict.memory m (evaluate limit c m s)) ss := by
  rw [readings, verdicts, List.filterMap_cons]
  cases Verdict.reading? c (evaluate limit c m s) <;> rfl

/-- Failures and readings without a value do not come between two values. -/
theorem compares_readings (limit : Nat) (c : Condition) (m : Memory) (ss : List Snapshot) :
    Compares c m.previous (readings limit c m ss) := by
  induction ss generalizing m with
  | nil => trivial
  | cons s ss ih =>
    rw [readings_cons]
    rcases evaluate_cases limit c m s with
      ⟨e, h⟩ | ⟨seen, h, hprevious⟩ | ⟨value, seen, h, hprevious⟩
    · rw [h, reading?_error]
      exact ih m
    · rw [h, reading?_warmingUp, ← hprevious]
      exact ih seen
    · rw [h, reading?_compareValue]
      refine ⟨rfl, ?_⟩
      have hrest := ih seen
      rwa [hprevious] at hrest

/-! ## Crossings -/

section Crossings

variable {rs : List Reading} {k : Nat} {r : Reading}

/-- The value before the reading at a place. -/
def valueBefore (previous : Option Decimal) (rs : List Reading) : Nat → Option Decimal
  | 0 => previous
  | k + 1 => rs[k]?.map (·.value)

/-- A reading says whether its value compares with the one before as its operator demands. -/
theorem Compares.satisfied_eq {previous : Option Decimal} (h : Compares c previous rs)
    (hr : rs[k]? = some r) :
    r.satisfied = c.operator.holds r.value (valueBefore previous rs k) c.threshold := by
  induction rs generalizing previous k with
  | nil => cases hr
  | cons first rest ih =>
    cases k with
    | zero =>
      cases hr
      exact h.1
    | succ k =>
      rw [ih h.2 hr]
      cases k <;> rfl

/-- The crossings among values that follow each other: the first value is none, and every other one
is compared with the one before. -/
theorem Compares.satisfied_iff_crosses (h : Compares c none rs) (hcrossing : c.operator.isCrossing)
    (hr : rs[k]? = some r) :
    r.satisfied = true ↔ ∃ j before, k = j + 1 ∧ rs[j]? = some before ∧
      c.operator.Crosses before.value.toRat r.value.toRat c.threshold.toRat := by
  rw [h.satisfied_eq hr, Operator.holds_iff_crosses hcrossing]
  cases k with
  | zero => simp [valueBefore]
  | succ k => simp [valueBefore]

/-- Between two crossings there was a value from which the threshold can be crossed. -/
theorem Compares.exists_isShort_between (h : Compares c none rs)
    (hcrossing : c.operator.isCrossing) {i j : Nat} (hij : i < j) {r' : Reading}
    (hr : rs[i]? = some r) (hr' : rs[j]? = some r') (hsatisfied : r.satisfied = true)
    (hsatisfied' : r'.satisfied = true) :
    ∃ k between, i < k ∧ k < j ∧ rs[k]? = some between ∧
      c.operator.IsShort between.value.toRat c.threshold.toRat := by
  obtain ⟨_, _, -, -, hcrosses⟩ := (h.satisfied_iff_crosses hcrossing hr).1 hsatisfied
  obtain ⟨k, between, rfl, hbetween, hcrosses'⟩ :=
    (h.satisfied_iff_crosses hcrossing hr').1 hsatisfied'
  refine ⟨k, between, ?_, Nat.lt_succ_self k, hbetween, hcrosses'.isShort.1⟩
  -- the value of the first crossing is beyond the threshold
  refine Nat.lt_of_le_of_ne (Nat.le_of_lt_succ hij) fun hik => ?_
  rw [hik, hbetween, Option.some.injEq] at hr
  exact hcrosses.isShort.2 (hr ▸ hcrosses'.isShort.1)

end Crossings

/-! ## Two conditions -/

/-- Whether an evaluation satisfies its condition. -/
def Verdict.isSatisfied : Verdict → Bool
  | .ok (r, _) => r.satisfied
  | .error _ => false

section TwoConditions

variable {c' : Condition}

/-- Conditions that observe the same observe the same value or both none. -/
theorem evaluate_congr (hobservable : c'.observable = c.observable) (limit : Nat) (m : Memory)
    (s : Snapshot) :
    (∃ e e', evaluate limit c m s = .error e ∧ evaluate limit c' m s = .error e') ∨
    (∃ r r' seen, evaluate limit c m s = .ok (r, seen) ∧ evaluate limit c' m s = .ok (r', seen) ∧
      r.satisfied = false ∧ r'.satisfied = false) ∨
    ∃ value seen, evaluate limit c m s = .ok (compareValue c m.previous value, seen) ∧
      evaluate limit c' m s = .ok (compareValue c' m.previous value, seen) := by
  have hobserve : (∃ e e', observe limit c m s = .error e ∧ observe limit c' m s = .error e') ∨
      observe limit c' m s = observe limit c m s := by
    unfold observe
    rw [hobservable]
    cases c.observable with
    | price | volume | time | market => exact .inr rfl
    | technical indicator =>
      -- a failure names its condition
      dsimp only
      unfold technicalValue
      cases indicator.check with
      | error cause => exact .inl ⟨_, _, rfl, rfl⟩
      | ok _ =>
        dsimp only
        split
        · exact .inr rfl
        · cases indicator.calculate _ with
          | error cause => exact .inl ⟨_, _, rfl, rfl⟩
          | ok values => exact .inr rfl
  unfold evaluate
  rcases hobserve with ⟨e, e', he, he'⟩ | hsame
  · rw [he, he']
    exact .inl ⟨e, e', rfl, rfl⟩
  · rw [hsame]
    cases observe limit c m s with
    | error e => exact .inl ⟨e, e, rfl, rfl⟩
    | ok observed =>
      obtain ⟨value, seen⟩ := observed
      cases value with
      | none => exact .inr (.inl ⟨_, _, seen, rfl, rfl, rfl, rfl⟩)
      | some value => exact .inr (.inr ⟨value, _, rfl, rfl⟩)

/-- Conditions that observe the same keep the same memory. -/
theorem memory_congr (hobservable : c'.observable = c.observable) (limit : Nat) (m : Memory)
    (s : Snapshot) : Verdict.memory m (evaluate limit c' m s) =
      Verdict.memory m (evaluate limit c m s) := by
  rcases evaluate_congr hobservable limit m s with
    ⟨e, e', h, h'⟩ | ⟨r, r', seen, h, h', -, -⟩ | ⟨value, seen, h, h'⟩ <;> rw [h, h'] <;> rfl

section Opposite

variable (hopposite : c.operator.IsOpposite c'.operator)
  (hobservable : c'.observable = c.observable)
  (hthreshold : c'.threshold.toRat = c.threshold.toRat)

include hopposite hobservable hthreshold

/-- After the same values, one value does not cross a threshold in both directions. -/
theorem not_isSatisfied_evaluate (limit : Nat) (m : Memory) (s : Snapshot) :
    ¬(Verdict.isSatisfied (evaluate limit c m s) = true ∧
      Verdict.isSatisfied (evaluate limit c' m s) = true) := by
  rintro ⟨hsatisfied, hsatisfied'⟩
  rcases evaluate_congr hobservable limit m s with
    ⟨e, e', h, h'⟩ | ⟨r, r', seen, h, h', hr, hr'⟩ | ⟨value, seen, h, h'⟩
  all_goals
    rw [h] at hsatisfied
    rw [h'] at hsatisfied'
  · cases hsatisfied
  · cases hr.symm.trans hsatisfied
  · obtain ⟨hcrossing, hcrossing'⟩ := hopposite.isCrossing
    obtain ⟨before, hbefore, hcrosses⟩ :=
      (Operator.holds_iff_crosses hcrossing value m.previous c.threshold).1 hsatisfied
    obtain ⟨before', hbefore', hcrosses'⟩ :=
      (Operator.holds_iff_crosses hcrossing' value m.previous c'.threshold).1 hsatisfied'
    cases hbefore.symm.trans hbefore'
    rw [hthreshold] at hcrosses'
    exact hopposite.not_crosses hcrosses hcrosses'

/-- Two crossings of one threshold in opposite directions are never seen on the same snapshot, if
the same snapshots were seen before. -/
theorem not_isSatisfied_verdicts {ss : List Snapshot} {k : Nat} {v v' : Verdict}
    (hv : (verdicts limit c m ss)[k]? = some v) (hv' : (verdicts limit c' m ss)[k]? = some v') :
    ¬(v.isSatisfied = true ∧ v'.isSatisfied = true) := by
  induction ss generalizing m k with
  | nil => cases hv
  | cons s ss ih =>
    cases k with
    | zero =>
      cases hv
      cases hv'
      exact not_isSatisfied_evaluate hopposite hobservable hthreshold limit m s
    | succ k =>
      refine ih hv ?_
      rw [← memory_congr hobservable]
      exact hv'

end Opposite

end TwoConditions

end Evaluation

end MarketAlerts
