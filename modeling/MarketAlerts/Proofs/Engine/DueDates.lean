import MarketAlerts.Proofs.Configuration.Validation
import MarketAlerts.Proofs.Engine.Breakdown

/-!
# When conditions are due again

At its end a pass adds the interval of the engine to the time, and there its conditions are due
again. Not every interval leads to a date. One that has too many milliseconds for a word is found
out before it is added, so that there is no such time; one that has not and yet leads past the last
year breaks the pass off.

- `dueAt?_eq_none_iff`: the intervals that break a pass off;
- `join_dueAt?`: after all others the time is that of the interval, if it is a date at all;
- `evaluateBetween_due`: what a pass makes of its conditions for every interval;
- `evaluateAll_breaks_off_of_interval`: an interval that is valid and breaks a pass off.
-/

namespace MarketAlerts

namespace PassItem

variable {settings : Engine.Settings} {began ended : Instant} {s : Snapshot} {x : PassItem}

/-- A pass dates its conditions, whether they are evaluated or fail. -/
theorem nextEvaluation_pass (happ : x.condition.appliesTo s.symbol = true) :
    (x.pass settings began ended s).1.condition.record.nextEvaluation =
      (Engine.dueAt? settings.interval ended).join := by
  rw [pass, if_pos happ]
  cases evaluate settings.historyLimit x.condition x.memory s <;> rfl

end PassItem

namespace Engine

variable {seconds : Nat} {now : Instant}

/-! ## Intervals -/

/-- A time cannot be moved beyond the last one. -/
theorem addSeconds?_eq_none_iff :
    now.addSeconds? seconds = none ↔ Instant.maxSeconds < now.seconds + seconds := by
  unfold Instant.addSeconds?
  split
  next h => exact iff_of_false (by nofun) (by omega)
  next h => exact iff_of_true rfl (by omega)

/-- An interval that is short enough to be added and leads past the last year has no answer. -/
theorem dueAt?_eq_none_iff :
    dueAt? (some seconds) now = none ↔
      seconds ≤ maxInterval ∧ Instant.maxSeconds < now.seconds + seconds := by
  rw [← addSeconds?_eq_none_iff, dueAt?]
  split
  next h => exact iff_of_false (by nofun) (by omega)
  next h => rw [Option.map_eq_none_iff, and_iff_right (Nat.not_lt.1 h)]

/-- An interval that is too long to be added leads from no date to another one. -/
theorem addSeconds?_of_maxInterval_lt (hnow : Instant.minSeconds ≤ now.seconds)
    (h : maxInterval < seconds) : now.addSeconds? seconds = none := by
  have hlow : Instant.minSeconds = -8334601228800 := by decide
  have hhigh : Instant.maxSeconds = 8210266876799 := by decide
  have hmax : maxInterval = 9223372036854775 := by decide
  rw [addSeconds?_eq_none_iff]
  omega

/-- Where there is an answer, it is the time after the interval, if that is a date. -/
theorem join_dueAt? (hnow : Instant.minSeconds ≤ now.seconds) :
    (dueAt? (some seconds) now).join = now.addSeconds? seconds := by
  rw [dueAt?]
  split
  next h => exact (addSeconds?_of_maxInterval_lt hnow h).symm
  next h => cases now.addSeconds? seconds <;> rfl

/-! ## Passes -/

/-- What a pass of a running engine with an interval does that finds conditions, at whatever date it
ends. It breaks off if the evaluation of a condition does, or if the interval, being short enough to
be added to a date, leads past the last year. Then its conditions are left marked as being evaluated
and nothing else is changed. In every other case it gives its events and leaves none of its
conditions marked, and they are due again after the interval, or never if there is no such date. -/
theorem evaluateBetween_due {e : Engine} (h : e.watchlist.Reachable) (hrunning : e.running = true)
    (began : Instant) {ended : Instant} (hended : Instant.minSeconds ≤ ended.seconds) {s : Snapshot}
    (htaken : (e.watchlist.beginPass s.symbol).1 ≠ [])
    (hinterval : e.settings.interval = some seconds) :
    let result := (e.evaluateBetween began ended s).1
    let after := (e.evaluateBetween began ended s).2.watchlist
    (result = .error .overflow ↔
      outcomes? e.settings s (e.watchlist.beginPass s.symbol).1 = none ∨
        seconds ≤ maxInterval ∧ Instant.maxSeconds < ended.seconds + seconds) ∧
    (result = .error .overflow → after = (e.watchlist.beginPass s.symbol).2 ∧
      ∀ id x, after.item? id = some x → x.condition.appliesTo s.symbol = true →
        x.condition.record.status = .evaluating) ∧
    (result ≠ .error .overflow → (∃ events, result = .ok events) ∧
      ∀ id x, e.watchlist.item? id = some x → x.condition.appliesTo s.symbol = true →
        ∃ y, after.item? id = some y ∧
          y.condition.record.nextEvaluation = ended.addSeconds? seconds ∧
          y.condition.record.status ≠ .evaluating) := by
  intro result after
  have hran : Ran began ended s e (result, (e.evaluateBetween began ended s).2) :=
    ran_evaluateBetween e began ended s
  refine ⟨?_, fun hresult => ?_, fun hresult => ?_⟩
  · rw [hran.eq_overflow_iff hrunning, hinterval, dueAt?_eq_none_iff, and_iff_right htaken, or_comm]
  · -- the marks of the beginning are all that the pass leaves
    rw [hresult] at hran
    have hafter : after = (e.watchlist.beginPass s.symbol).2 := hran.watchlist_eq_of_overflow
    refine ⟨hafter, fun id x hx happ => ?_⟩
    rw [hafter] at hx
    exact status_beginPass hx happ
  · obtain ⟨events, hevents⟩ := hran.exists_events hrunning hresult
    refine ⟨⟨events, hevents⟩, fun id x hx happ => ?_⟩
    rw [hevents] at hran
    -- the pass does to the condition what a pass of its own does
    have hitem : after.item? id = some (x.pass e.settings began ended s).1 := by
      rw [(hran.item? h.nodup id).1, hx, Option.map_some]
    refine ⟨_, hitem, ?_, PassItem.status_pass happ⟩
    rw [PassItem.nextEvaluation_pass happ, hinterval, join_dueAt? hended]

/-- A configuration with an interval. -/
def ofInterval (seconds : Nat) : Configuration where
  general := { interval := some seconds }
  conditions := []
  channels := []
  templates := []

/-- A started engine of this configuration with a condition on the price. -/
def dating (seconds : Nat) : Engine where
  settings := (ofInterval seconds).engineSettings
  watchlist := ({} : Watchlist).edit (.register (.priceAbove "c1" "BTCUSDT"))
  running := true

/-- A snapshot of the symbol of that condition. -/
def priced : Snapshot := (Quote.ofPrice "BTCUSDT" (.ofInt64 101)).atTime ⟨0, 0⟩

/-- After an hour the condition is due again; after so many seconds that their milliseconds are too
many for a word it never is. -/
theorem evaluateBetween_due_ofHour :
    (dating 3600).watchlist.Reachable ∧ (dating 3600).running = true ∧
      Instant.minSeconds ≤ Instant.epoch.seconds ∧
      ((dating 3600).watchlist.beginPass priced.symbol).1 ≠ [] ∧
      (dating 3600).settings.interval = some 3600 ∧
      (((dating 3600).evaluateBetween .epoch .epoch priced).2.watchlist.item? "c1").map
        (·.condition.record.nextEvaluation) = some (some ⟨3600, 0⟩) ∧
      (((dating (twoTo 63)).evaluateBetween .epoch .epoch priced).2.watchlist.item? "c1").map
        (·.condition.record.nextEvaluation) = some none := by
  have hreach : ∀ seconds, (dating seconds).watchlist.Reachable := fun seconds =>
    .edit (.register (.priceAbove "c1" "BTCUSDT")) .empty
  have htaken : ∀ seconds, ((dating seconds).watchlist.beginPass priced.symbol).1 ≠ [] :=
    fun seconds => by nofun
  have hepoch : Instant.minSeconds ≤ Instant.epoch.seconds := by decide
  -- neither interval breaks the pass off
  have hdue : ∀ seconds, ¬(seconds ≤ maxInterval ∧
      Instant.maxSeconds < Instant.epoch.seconds + seconds) →
      (((dating seconds).evaluateBetween .epoch .epoch priced).2.watchlist.item? "c1").map
        (·.condition.record.nextEvaluation) = some (Instant.epoch.addSeconds? seconds) := by
    intro seconds hseconds
    obtain ⟨hiff, -, hothers⟩ :=
      evaluateBetween_due (hreach seconds) rfl .epoch hepoch (htaken seconds) rfl
    have hresult := mt hiff.1 (by
      rintro (hnone | hinterval)
      · cases hnone
      · exact hseconds hinterval)
    obtain ⟨y, hy, hnext, -⟩ := (hothers hresult).2 "c1" _ rfl rfl
    rw [hy, Option.map_some, hnext]
  refine ⟨hreach 3600, rfl, hepoch, htaken 3600, rfl, ?_, ?_⟩
  · exact hdue 3600 (by decide)
  · exact hdue (twoTo 63) (by decide)

/-- A hundred thousand billion seconds are an interval of a valid configuration. They lead past the
last year, and the pass leaves its condition marked as being evaluated. -/
theorem evaluateAll_breaks_off_of_interval :
    let e := dating 100000000000000
    (ofInterval 100000000000000).validate = .ok () ∧
      e.settings = (ofInterval 100000000000000).engineSettings ∧
      (e.watchlist.beginPass priced.symbol).1 ≠ [] ∧
      (e.evaluateAll .epoch priced).1 = .error .overflow ∧
      (e.evaluateAll .epoch priced).2.watchlist.conditions.map (·.record.status) =
        [.evaluating] ∧
      Instant.epoch.addSeconds? 100000000000000 = none :=
  ⟨Configuration.validate_eq_ok_of_isOk (by decide +kernel), rfl, nofun, rfl, rfl, by decide⟩

end Engine

end MarketAlerts
