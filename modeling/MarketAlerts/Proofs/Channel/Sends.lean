import MarketAlerts.Channel.Basic
import MarketAlerts.Proofs.Except

/-!
# What a send does to its channel

A send is refused at its beginning, or its delivery ends in one of three ways.

- `Settings.errand_delivery_ne`: usable settings have an address;
- `begin_eq_error_iff`, `begin_eq_ok_iff`: which messages are refused, and why;
- `finish_fst`: how a delivery ends that has begun;
- `name_finish`, `settings_finish`, `tally_finish`: a delivery that ends leaves the name and the
  settings as they are, and is counted once.
-/

namespace MarketAlerts.Channel

/-! ## Usable settings -/

/-- What is not unset is there. -/
theorem exists_of_isUnset_eq_false {s : Option String} (h : isUnset s = false) :
    ∃ text, s = some text := by
  cases s with
  | none => cases h
  | some text => exact ⟨text, rfl⟩

/-- Where a bot has nothing missing, its delivery has somewhere to go. -/
theorem ChatbotSettings.errand_delivery_ne {s : ChatbotSettings} (h : s.problem? = none)
    (m : Message) : (s.delivery m).errand ≠ .unaddressed := by
  have hset : isUnset s.botToken = false ∧ isUnset s.chatId = false := by
    unfold problem? at h
    split at h
    case h_4 htoken hchat => exact ⟨htoken, hchat⟩
    all_goals cases h
  obtain ⟨token, htoken⟩ := exists_of_isUnset_eq_false hset.1
  obtain ⟨chatId, hchat⟩ := exists_of_isUnset_eq_false hset.2
  simp [delivery, methodUrl?, htoken, hchat]

/-- Where mail has nothing missing, its delivery has somewhere to go. -/
theorem EmailSettings.errand_delivery_ne {s : EmailSettings} (h : s.problem? = none)
    (m : Message) : (s.delivery m).errand ≠ .unaddressed := by
  have hmissing : s.missing = [] := by
    unfold problem? at h
    split at h
    next hempty => exact List.isEmpty_iff.1 hempty
    next => cases h
  -- each setting has its place in the list of what is missing
  have hset : isUnset s.apiUrl = false ∧ isUnset s.apiKey = false ∧ isUnset s.sender = false := by
    rw [missing, List.filterMap_eq_nil_iff] at hmissing
    simp only [List.forall_mem_cons, ite_eq_right_iff, reduceCtorEq, imp_false,
      Bool.not_eq_true] at hmissing
    exact ⟨hmissing.1, hmissing.2.1, hmissing.2.2.1⟩
  obtain ⟨url, hurl⟩ := exists_of_isUnset_eq_false hset.1
  obtain ⟨key, hkey⟩ := exists_of_isUnset_eq_false hset.2.1
  obtain ⟨sender, hsender⟩ := exists_of_isUnset_eq_false hset.2.2
  simp [delivery, hurl, hkey, hsender]

/-- A delivery under usable settings has an address. -/
theorem Settings.errand_delivery_ne {s : Settings} (h : s.problem? = none) (m : Message) :
    (s.delivery m).errand ≠ .unaddressed := by
  cases s with
  | popup s => nofun
  | desktop s => nofun
  | chatbot s => exact ChatbotSettings.errand_delivery_ne h m
  | email s => exact EmailSettings.errand_delivery_ne h m
  | rehearsal s => nofun

/-! ## Refusals -/

section Begin

variable {c : Channel} {m : Message}

/-- A delivery is refused in two cases: the channel is switched off, or something is missing in its
settings. -/
theorem begin_eq_error_iff {fault : Error} : c.begin m = .error fault ↔
    (c.enabled = false ∧ fault = .disabled c.name) ∨
      (c.enabled = true ∧ ∃ reason, c.settings.problem? = some reason ∧
        fault = .misconfigured c.name reason) := by
  rw [begin]
  cases c.enabled with
  | false => simp [eq_comm]
  | true =>
    cases hproblem : c.settings.problem? with
    | some reason => simp [Settings.prepare, hproblem, eq_comm]
    | none => simp [Settings.prepare, hproblem]

/-- A delivery is begun, as the settings say, if the channel is switched on and nothing is missing.
-/
theorem begin_eq_ok_iff {d : Delivery} : c.begin m = .ok d ↔
    c.enabled = true ∧ c.settings.problem? = none ∧ d = c.settings.delivery m := by
  rw [begin]
  cases c.enabled with
  | false => simp
  | true =>
    cases hproblem : c.settings.problem? with
    | some reason => simp [Settings.prepare, hproblem]
    | none => simp [Settings.prepare, hproblem, eq_comm]

end Begin

/-! ## Ends -/

/-- A delivery that has begun is not refused any more. -/
theorem finish_fst (c : Channel) (d : Delivery) (ending : Ending) :
    (c.finish d ending).1 = .ok () ∨ (c.finish d ending).1 = .error (.undelivered c.name) ∨
      (c.finish d ending).1 = .error (.timedOut c.name) := by
  cases ending with
  | delivered => exact .inl rfl
  | failed => exact .inr (.inl rfl)
  | late => exact .inr (.inr rfl)

theorem name_finish (c : Channel) (d : Delivery) (ending : Ending) :
    (c.finish d ending).2.name = c.name := by
  cases ending with
  | delivered =>
    unfold finish afterErrand
    cases d.errand <;> rfl
  | failed => rfl
  | late => rfl

theorem name_send (c : Channel) (w : World) (m : Message) : (c.send w m).2.name = c.name := by
  unfold send
  cases c.begin m with
  | error e => rfl
  | ok d => exact name_finish c d (d.ending w)

theorem settings_finish (c : Channel) (d : Delivery) (ending : Ending) :
    (c.finish d ending).2.settings = c.settings := by
  cases ending with
  | delivered =>
    have herrand : (c.afterErrand d.errand).settings = c.settings := by
      unfold afterErrand
      split <;> rfl
    exact herrand
  | failed => rfl
  | late => rfl

/-- An errand alone is not counted. -/
theorem tally_afterErrand (c : Channel) (e : Errand) : (c.afterErrand e).tally = c.tally := by
  unfold afterErrand
  split <;> rfl

/-- A delivery is counted once, by how it ended. -/
theorem tally_finish (c : Channel) (d : Delivery) (ending : Ending) :
    (c.finish d ending).2.tally = c.tally.count (c.finish d ending).1.isOk := by
  cases ending with
  | delivered => exact congrArg (Tally.count · true) (c.tally_afterErrand d.errand)
  | failed => rfl
  | late => rfl

/-- Other settings leave the name and what was counted. -/
theorem name_tally_update {c c' : Channel} {patch : Json} (h : c.update patch = .ok c') :
    c'.name = c.name ∧ c'.tally = c.tally := by
  unfold update at h
  split at h <;> cases h <;> exact ⟨rfl, rfl⟩

end MarketAlerts.Channel
