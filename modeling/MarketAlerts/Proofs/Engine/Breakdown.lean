import MarketAlerts.Proofs.Decimal.Range
import MarketAlerts.Proofs.Engine.Runs

/-!
# Passes that break off

A metric that has no value is a failure of its condition alone, with one exception: the span between
the highest and the lowest price, or its ratio in percent, may leave the range of decimals. Then a
pass from condition to condition breaks off, and its marks are left behind.

- `rangePercent_eq_overflow_iff`: when the range in percent leaves the range of decimals;
- `evaluate_eq_overflow_iff`: no other evaluation does;
- `evaluateAll_breaksOff_iff`: when a pass breaks off and what it leaves, and what every other pass
  does;
- `evaluateAll_breaks_off`: a pass that breaks off.
-/

namespace MarketAlerts

/-! ## The range in percent -/

namespace Quote

/-- The span, or the ratio in percent, is out of the range of decimals. -/
def RangeOverflows (q : Quote) : Prop :=
  (Decimal.limit : ℚ) - 1 / 2 ≤ |q.high.toRat - q.low.toRat| ∨
    ∃ span ratio, q.high.sub? q.low = some span ∧ span.div? q.low = some ratio ∧
      (Decimal.limit : ℚ) - 1 / 2 ≤ |ratio.toRat * 100|

/-- There is a span and no ratio. -/
def RangeUndefined (q : Quote) : Prop :=
  ∃ span, q.high.sub? q.low = some span ∧ span.div? q.low = none

/-- There is no ratio to a lowest price of zero. -/
theorem rangeUndefined_of_isZero {q : Quote} (h : q.low.isZero = true) : q.RangeUndefined := by
  have hsub : ∃ span, q.high.sub? q.low = some span := by
    unfold Decimal.sub?
    by_cases hhigh : q.high.isZero = true
    · exact ⟨_, if_pos hhigh⟩
    · exact ⟨q.high, by rw [if_neg hhigh, if_pos h]⟩
  obtain ⟨span, hspan⟩ := hsub
  refine ⟨span, hspan, ?_⟩
  rw [Decimal.div?, if_pos h]

end Quote

namespace Evaluation

/-- The range in percent overflows exactly where the span or the ratio does. -/
theorem rangePercent_eq_overflow_iff (q : Quote) :
    rangePercent q = .error .overflow ↔ q.RangeOverflows := by
  have hhundred : Decimal.hundred.toRat = 100 := by
    simp [Decimal.toRat, Decimal.hundred, Decimal.signedCoefficient, tenTo_zero]
  unfold rangePercent Quote.RangeOverflows
  rw [← Decimal.sub?_eq_none_iff]
  cases hspan : q.high.sub? q.low with
  | none => simp
  | some span =>
    dsimp only
    cases hratio : span.div? q.low with
    | none => simp [hratio]
    | some ratio =>
      have hmul := Decimal.mul?_eq_none_iff ratio .hundred
      rw [hhundred] at hmul
      dsimp only
      cases hpercent : ratio.mul? .hundred with
      | none =>
        rw [hpercent] at hmul
        exact iff_of_true rfl (.inr ⟨span, ratio, rfl, hratio, hmul.1 rfl⟩)
      | some percent =>
        rw [hpercent] at hmul
        refine iff_of_false (by simp) ?_
        rintro (hnone | ⟨span', ratio', hspan', hratio', hle⟩)
        · cases hnone
        · -- the span and the ratio are these
          cases hspan'
          rw [hratio] at hratio'
          cases hratio'
          cases hmul.2 hle

/-- Where there is no ratio the metric has no value, but the pass goes on. -/
theorem rangePercent_of_rangeUndefined {q : Quote} (h : q.RangeUndefined) :
    rangePercent q = .error (.notRepresentable "range_percent_24h") := by
  obtain ⟨span, hspan, hratio⟩ := h
  simp only [rangePercent, hspan, hratio, MarketMetric.name]

/-- An indicator fails as such, or has no value, or one that is not a decimal. -/
theorem technicalValue_ne_overflow (conditionId : String) (indicator : Indicator)
    (history : List Float) : technicalValue conditionId indicator history ≠ .error .overflow := by
  unfold technicalValue
  cases indicator.check with
  | error => simp
  | ok =>
    dsimp only
    split
    next => simp
    next =>
      cases indicator.calculate history with
      | error => simp
      | ok values =>
        dsimp only
        cases values.getLast? with
        | none => simp
        | some latest => cases hvalue : Decimal.ofFloat? latest <;> simp [hvalue]

/-- Only the range in percent leaves the range of decimals. -/
theorem observe_eq_overflow_iff (historyLimit : Nat) (c : Condition) (m : Memory) (s : Snapshot) :
    observe historyLimit c m s = .error .overflow ↔
      c.observable = .market .rangePercent ∧ s.toQuote.RangeOverflows := by
  unfold observe
  cases c.observable with
  | price | volume | time => simp
  -- every other error of an indicator is one of its own
  | technical indicator =>
    refine iff_of_false ?_ (by simp)
    have hne := technicalValue_ne_overflow c.id indicator (remember historyLimit m s.price).history
    cases hvalue : technicalValue c.id indicator (remember historyLimit m s.price).history with
    | ok value => simp [hvalue, Except.map]
    | error error =>
      rw [hvalue] at hne
      simpa [hvalue, Except.map] using hne
  | market metric =>
    rw [← rangePercent_eq_overflow_iff]
    cases metric with
    | rangePercent =>
      cases hrange : rangePercent s.toQuote with
      | ok value => simp [marketValue, hrange, Except.map]
      | error error => simp [marketValue, hrange, Except.map]
    | changePercent | change | high | low => simp [marketValue, Except.map]

end Evaluation

/-- The range in percent is the only observable whose evaluation overflows. -/
theorem evaluate_eq_overflow_iff (historyLimit : Nat) (c : Condition) (m : Memory) (s : Snapshot) :
    evaluate historyLimit c m s = .error .overflow ↔
      c.observable = .market .rangePercent ∧ s.toQuote.RangeOverflows := by
  rw [← Evaluation.observe_eq_overflow_iff historyLimit c m s, evaluate]
  cases Evaluation.observe historyLimit c m s <;> simp [Except.map]

namespace PassItem

/-! ## What a pass makes of a failure -/

/-- The condition after a failed evaluation. -/
def failed (next : Option Instant) (message : String) (x : PassItem) : PassItem :=
  { x with condition := { x.condition with record := x.condition.record.fail next message } }

variable {settings : Engine.Settings} {began now : Instant} {s : Snapshot} {x : PassItem}

/-- A condition whose evaluation fails keeps the message, and has no event. -/
theorem pass_of_error (happ : x.condition.appliesTo s.symbol = true) {error : EvaluationError}
    (heval : evaluate settings.historyLimit x.condition x.memory s = .error error) :
    x.pass settings began now s =
      (x.failed (Engine.dueAt? settings.interval now).join error.message, none) := by
  rw [pass, if_pos happ, heval]
  rfl

/-- A range in percent that has no value is a failure of its condition alone. -/
theorem pass_of_rangePercent_error (happ : x.condition.appliesTo s.symbol = true)
    (hobservable : x.condition.observable = .market .rangePercent) {error : EvaluationError}
    (herror : Evaluation.rangePercent s.toQuote = .error error) :
    x.pass settings began now s =
      (x.failed (Engine.dueAt? settings.interval now).join error.message, none) := by
  have hobserve : Evaluation.observe settings.historyLimit x.condition x.memory s =
      (Evaluation.rangePercent s.toQuote).map fun v => (some v, x.memory) := by
    rw [Evaluation.observe, hobservable]
    rfl
  refine pass_of_error happ ?_
  rw [evaluate, hobserve, herror]
  rfl

/-- A pass does not change to which snapshots a condition applies. -/
theorem appliesTo_pass (symbol : String) :
    (x.pass settings began now s).1.condition.appliesTo symbol =
      x.condition.appliesTo symbol := by
  unfold pass
  split
  · split <;> rfl
  · rfl

/-- A pass leaves none of its conditions marked. -/
theorem status_pass (happ : x.condition.appliesTo s.symbol = true) :
    (x.pass settings began now s).1.condition.record.status ≠ .evaluating := by
  rw [pass, if_pos happ]
  cases evaluate settings.historyLimit x.condition x.memory s with
  | error error => simp
  | ok result => cases hsatisfied : result.1.satisfied <;> simp [hsatisfied]

/-- A condition has no outcome exactly where its evaluation overflows. -/
theorem outcome?_eq_none_iff (historyLimit : Nat) (x : PassItem) (s : Snapshot) :
    x.outcome? historyLimit s = none ↔
      x.condition.observable = .market .rangePercent ∧ s.toQuote.RangeOverflows := by
  rw [← evaluate_eq_overflow_iff historyLimit x.condition x.memory s, outcome?]
  cases evaluate historyLimit x.condition x.memory s with
  | ok result => simp
  | error error => cases error <;> simp

end PassItem

namespace Engine

/-! ## When a pass breaks off -/

variable {e : Engine}

/-- The mark of the beginning of a pass is on all of its conditions. -/
theorem status_beginPass {l : Watchlist} {symbol id : String} {x : PassItem}
    (hx : (l.beginPass symbol).2.item? id = some x)
    (happ : x.condition.appliesTo symbol = true) : x.condition.record.status = .evaluating := by
  rw [Watchlist.item?, Watchlist.watch?_beginPass, Option.map_map, Option.map_eq_some_iff] at hx
  obtain ⟨w, -, rfl⟩ := hx
  unfold Function.comp Watchlist.markFor at happ ⊢
  split
  · rfl
  next hnot =>
    rw [if_neg hnot] at happ
    exact absurd happ hnot

/-- Only an evaluation of the range in percent breaks a pass off. -/
theorem outcomes?_eq_none_iff_rangePercent (settings : Settings) (s : Snapshot)
    (items : List PassItem) :
    outcomes? settings s items = none ↔
      settings.strategy = .sequential ∧ s.toQuote.RangeOverflows ∧
        ∃ x ∈ items, x.condition.observable = .market .rangePercent := by
  simp only [outcomes?_eq_none_iff, PassItem.outcome?_eq_none_iff]
  constructor
  · rintro ⟨hstrategy, x, hx, hobservable, hoverflow⟩
    exact ⟨hstrategy, hoverflow, x, hx, hobservable⟩
  · rintro ⟨hstrategy, hoverflow, x, hx, hobservable⟩
    exact ⟨hstrategy, x, hx, hobservable, hoverflow⟩

/-- When a pass of a running engine breaks off. There has to be a condition to evaluate. Then either
there is no date at which the conditions are due again, or the pass goes from condition to
condition, one of them is about the range in percent, and that leaves the range of decimals.

A pass that breaks off leaves all its conditions marked as being evaluated and changes nothing else.
Every other pass gives its events and treats each condition as if it were alone, so that none of its
conditions is left marked. A range in percent that is undefined, as when the lowest price is zero,
is a failure of its condition alone, and so is one that leaves the range of decimals. -/
theorem evaluateAll_breaksOff_iff (h : e.watchlist.Reachable) (hrunning : e.running = true)
    (now : Instant) (s : Snapshot) :
    let taken := (e.watchlist.beginPass s.symbol).1
    let next := (dueAt? e.settings.interval now).join
    let result := (e.evaluateAll now s).1
    let after := (e.evaluateAll now s).2.watchlist
    (result = .error .overflow ↔ taken ≠ [] ∧ (dueAt? e.settings.interval now = none ∨
      e.settings.strategy = .sequential ∧ s.toQuote.RangeOverflows ∧
        ∃ x ∈ taken, x.condition.observable = .market .rangePercent)) ∧
    (result = .error .overflow → after = (e.watchlist.beginPass s.symbol).2 ∧
      ∀ id x, after.item? id = some x → x.condition.appliesTo s.symbol = true →
        x.condition.record.status = .evaluating) ∧
    (result ≠ .error .overflow →
      (∃ events, result = .ok events ∧ ∀ id,
        (events.filter fun event => event.conditionId = id).map Event.unnumbered =
          ((e.watchlist.item? id).bind fun x => (x.pass e.settings now now s).2).toList) ∧
      (∀ id, after.item? id =
        (e.watchlist.item? id).map fun x => (x.pass e.settings now now s).1) ∧
      (∀ id x, after.item? id = some x → x.condition.appliesTo s.symbol = true →
        x.condition.record.status ≠ .evaluating) ∧
      ∀ id x, e.watchlist.item? id = some x → x.condition.appliesTo s.symbol = true →
        x.condition.observable = .market .rangePercent →
        (s.low.isZero = true ∨ s.toQuote.RangeUndefined → after.item? id =
          some (x.failed next "metric range_percent_24h is not representable as a decimal")) ∧
        (s.toQuote.RangeOverflows →
          after.item? id = some (x.failed next "evaluation task panicked"))) := by
  intro taken next result after
  have hran : Ran now now s e (result, (e.evaluateAll now s).2) := by
    have hran := ran_evaluateBetween e now now s
    rw [← evaluateAll_eq] at hran
    exact hran
  -- a pass with a result is the pass of every condition alone
  have hitems : ∀ hresult : result ≠ .error .overflow, ∀ id, after.item? id =
      (e.watchlist.item? id).map fun x => (x.pass e.settings now now s).1 := by
    intro hresult id
    obtain ⟨events, hevents⟩ := hran.exists_events hrunning hresult
    rw [hevents] at hran
    exact (hran.item? h.nodup id).1
  refine ⟨?_, fun hresult => ?_, fun hresult => ⟨?_, hitems hresult, fun id y hy happ => ?_,
    fun id x hx happ hobservable => ?_⟩⟩
  · rw [hran.eq_overflow_iff hrunning, outcomes?_eq_none_iff_rangePercent]
  · -- the marks of the beginning are all that the pass leaves
    rw [hresult] at hran
    have hafter := hran.watchlist_eq_of_overflow
    refine ⟨hafter, fun id x hx happ => ?_⟩
    have hx : (e.watchlist.beginPass s.symbol).2.item? id = some x := hafter ▸ hx
    exact status_beginPass hx happ
  · obtain ⟨events, hevents⟩ := hran.exists_events hrunning hresult
    rw [hevents] at hran
    exact ⟨events, hevents, fun id => (hran.item? h.nodup id).2⟩
  · rw [hitems hresult, Option.map_eq_some_iff] at hy
    obtain ⟨x, -, rfl⟩ := hy
    rw [PassItem.appliesTo_pass] at happ
    exact PassItem.status_pass happ
  · -- whichever the error is, the condition fails with its message
    have hfailed : ∀ error, Evaluation.rangePercent s.toQuote = .error error →
        after.item? id = some (x.failed next error.message) := by
      intro error herror
      rw [hitems hresult, hx, Option.map_some,
        PassItem.pass_of_rangePercent_error happ hobservable herror]
    refine ⟨fun hundefined => ?_, fun hoverflow => ?_⟩
    · have hrange : s.toQuote.RangeUndefined :=
        hundefined.elim Quote.rangeUndefined_of_isZero fun hrange => hrange
      exact hfailed _ (Evaluation.rangePercent_of_rangeUndefined hrange)
    · exact hfailed _ ((Evaluation.rangePercent_eq_overflow_iff _).2 hoverflow)

/-- The rule that the range in percent is above one hundred. -/
def rangeAbove (id symbol : String) : Condition :=
  { Condition.priceAbove id symbol with observable := .market .rangePercent }

/-- A started engine with a condition on the price and one on the range in percent. -/
def ofRange : Engine where
  watchlist := (({} : Watchlist).edit (.register (.priceAbove "c1" "BTCUSDT"))).edit
    (.register (rangeAbove "c2" "BTCUSDT"))
  running := true

/-- A snapshot with this highest and this lowest price. -/
def ofSpan (high low : Decimal) : Snapshot :=
  { Quote.ofPrice "BTCUSDT" (.ofInt64 101) with high, low }.atTime ⟨0, 0⟩

/-- With the largest decimal as the highest price and minus one as the lowest the pass breaks off,
and both conditions are left marked. -/
theorem evaluateAll_breaks_off :
    let s := ofSpan ⟨false, twoTo 96 - 1, 0, by decide, by decide⟩ (.ofInt64 (-1))
    (ofRange.evaluateAll ⟨0, 0⟩ s).1 = .error .overflow ∧
      (ofRange.evaluateAll ⟨0, 0⟩ s).2.watchlist.conditions.map (·.record.status) =
        [.evaluating, .evaluating] :=
  ⟨rfl, rfl⟩

/-- With a lowest price of zero the condition on the range fails and the other one is evaluated. -/
theorem evaluateAll_breaksOff_iff_ofRange :
    let s := ofSpan (.ofInt64 101) .zero
    ofRange.watchlist.Reachable ∧ ofRange.running = true ∧
      (ofRange.evaluateAll ⟨0, 0⟩ s).1 ≠ .error .overflow ∧ s.low.isZero = true ∧
      (((ofRange.evaluateAll ⟨0, 0⟩ s).2.watchlist.item? "c2").map fun x =>
        x.condition.record.lastError) =
          some (some "metric range_percent_24h is not representable as a decimal") ∧
      ((ofRange.evaluateAll ⟨0, 0⟩ s).2.watchlist.item? "c1").map
        (·.condition.record.evaluations) = some 1 := by
  intro s
  have hreach : ofRange.watchlist.Reachable :=
    .edit (.register (rangeAbove "c2" "BTCUSDT"))
      (.edit (.register (.priceAbove "c1" "BTCUSDT")) .empty)
  have hok : ∃ events, (ofRange.evaluateAll ⟨0, 0⟩ s).1 = .ok events := ⟨_, rfl⟩
  have hresult : (ofRange.evaluateAll ⟨0, 0⟩ s).1 ≠ .error .overflow := by
    obtain ⟨events, hevents⟩ := hok
    rw [hevents]
    nofun
  obtain ⟨-, -, hothers⟩ := evaluateAll_breaksOff_iff hreach rfl ⟨0, 0⟩ s
  obtain ⟨-, hitems, -, hfailures⟩ := hothers hresult
  have hfailed := (hfailures "c2" _ rfl rfl rfl).1 (.inl rfl)
  refine ⟨hreach, rfl, hresult, rfl, ?_, ?_⟩
  · rw [hfailed]
    rfl
  · rw [hitems]
    rfl

end Engine

end MarketAlerts
