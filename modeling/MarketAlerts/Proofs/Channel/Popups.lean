import MarketAlerts.Proofs.Channel.Sends

/-!
# What a popup keeps

A popup shows a message as soon as its send has begun, so that a send is refused or arrives. What it
shows it also keeps, among so many messages as its settings allow at that time. The settings change
from time to time, and then it lets go of what they have no room for any more.

`Showing` is a channel with the messages that it has shown since it was cleaned up last. A `Deed` is
done to the channel before the next one begins.

## Main results

- `popup_of_merge?`: settings of a popup become settings of a popup;
- `send_popup`: what a send of a popup does;
- `Keeps.perform`, `Keeps.after`: what is kept is the end of what was shown, and there is room for
  it;
- `popup_history`: all of this after any deeds.
-/

namespace MarketAlerts.Channel

/-! ## The newest elements -/

section Newest

variable {α : Type}

/-- The newest ones stand at the end. -/
theorem newest_suffix (n : Nat) (xs : List α) : newest n xs <:+ xs :=
  List.drop_suffix _ _

/-- There are as many of the newest ones as asked for, or all there are. -/
theorem length_newest (n : Nat) (xs : List α) : (newest n xs).length = min n xs.length := by
  rw [newest, List.length_drop]
  omega

/-- There are never more of the newest ones than asked for. -/
theorem length_newest_le (n : Nat) (xs : List α) : (newest n xs).length ≤ n := by
  rw [length_newest]
  exact Nat.min_le_left ..

end Newest

/-! ## Deeds -/

/-- The message that was shown, if one was. -/
def Attempt.shown? (a : Attempt) : Option Message :=
  match a.errand, a.result with
  | some (.present shown _), .ok () => some shown
  | _, _ => none

/-- The message as a popup shows it: nothing but its body is cut. -/
def PopupSettings.cut (s : PopupSettings) (m : Message) : Message :=
  { m with content := Text.ellipsize s.maxLength.toNat m.content }

/-- Something that is done to a channel. -/
inductive Deed where
  /-- A message is sent. -/
  | send (w : World) (m : Message)
  /-- The settings change. -/
  | update (patch : Json)
  /-- What the channel keeps is let go. -/
  | cleanup
  /-- The channel is switched on or off. -/
  | setEnabled (enabled : Bool)

/-- A channel with what it has shown since it was cleaned up last, the newest at the end. -/
structure Showing where
  /-- The channel. -/
  channel : Channel
  /-- The messages that it has shown. -/
  shown : List Message := []

namespace Showing

/-- The channel after a deed, with what it has shown until then. -/
def perform (r : Showing) : Deed → Showing
  | .send w m =>
    let (attempt, channel) := r.channel.send w m
    ⟨channel, r.shown ++ attempt.shown?.toList⟩
  | .update patch =>
    match r.channel.update patch with
    | .ok channel => { r with channel }
    | .error _ => r
  | .cleanup => ⟨r.channel.cleanup, []⟩
  | .setEnabled enabled => { r with channel := r.channel.setEnabled enabled }

/-- The channel after deeds, one after another. -/
def after (r : Showing) (deeds : List Deed) : Showing := deeds.foldl perform r

end Showing

/-! ## One deed -/

section Popup

variable {c : Channel} {s : PopupSettings}

/-- The settings of a popup stay settings of a popup. -/
theorem popup_of_merge? {patch : Json} {s' : Settings}
    (h : (Settings.popup s).merge? patch = some s') : ∃ s'', s' = .popup s'' := by
  obtain ⟨s'', -, rfl⟩ := Option.map_eq_some_iff.1 h
  exact ⟨s'', rfl⟩

/-- A popup that takes an update lets go of the messages for which there is no room any more. -/
theorem update_popup {c' : Channel} {patch : Json} (hc : c.settings = .popup s)
    (h : c.update patch = .ok c') : ∃ s' : PopupSettings,
      c' = { c with settings := .popup s', history := newest s'.maxHistory.toNat c.history } := by
  rw [update, hc] at h
  cases hmerge : (Settings.popup s).merge? patch with
  | none =>
    rw [hmerge] at h
    cases h
  | some merged =>
    obtain ⟨s', rfl⟩ := popup_of_merge? hmerge
    rw [hmerge] at h
    cases h
    exact ⟨s', rfl⟩

/-- A send of a popup that is switched on and may show something arrives, and any other is
refused. -/
theorem send_popup (hc : c.settings = .popup s) (w : World) (m : Message) :
    (c.enabled = true ∧ s.maxLength ≠ 0 ∧
      c.send w m = (⟨some (.present (s.cut m) s.maxHistory.toNat), .ok ()⟩,
        (c.afterErrand (.present (s.cut m) s.maxHistory.toNat)).count true)) ∨
    (¬(c.enabled = true ∧ s.maxLength ≠ 0) ∧
      ∃ fault, c.send w m = (⟨none, .error fault⟩, c.count false)) := by
  rw [send]
  cases hbegin : c.begin m with
  | ok d =>
    obtain ⟨henabled, hproblem, rfl⟩ := begin_eq_ok_iff.1 hbegin
    rw [hc] at hproblem ⊢
    refine .inl ⟨henabled, fun hzero => ?_, rfl⟩
    simp [Settings.problem?, PopupSettings.problem?, hzero] at hproblem
  | error fault =>
    refine .inr ⟨?_, fault, rfl⟩
    rintro ⟨henabled, hlength⟩
    rcases begin_eq_error_iff.1 hbegin with ⟨hoff, -⟩ | ⟨-, reason, hproblem, -⟩
    · rw [henabled] at hoff
      cases hoff
    · rw [hc] at hproblem
      simp [Settings.problem?, PopupSettings.problem?, hlength] at hproblem

/-- A popup that is cleaned up keeps none of its messages. -/
theorem cleanup_popup (hc : c.settings = .popup s) : c.cleanup = { c with history := [] } := by
  unfold cleanup
  split
  next => rfl
  next hother => exact absurd hc (hother s)

/-- The last so many messages are at the end of those that are kept. -/
theorem recent_suffix (c : Channel) (limit : Nat) :
    c.recent limit <:+ c.history ∧ (c.recent limit).length = min limit c.history.length :=
  ⟨newest_suffix limit c.history, length_newest limit c.history⟩

end Popup

/-! ## Deeds in a row -/

/-- A popup keeps the end of what it has shown, and no more messages than its settings allow. -/
structure Keeps (r : Showing) (s : PopupSettings) : Prop where
  settings : r.channel.settings = .popup s
  suffix : r.channel.history <:+ r.shown
  length_le : r.channel.history.length ≤ s.maxHistory.toNat

namespace Keeps

variable {r : Showing} {s : PopupSettings}

/-- A send keeps the end of what was shown, with the new message in it. -/
theorem send (h : Keeps r s) (w : World) (m : Message) : Keeps (r.perform (.send w m)) s := by
  rw [Showing.perform]
  rcases send_popup h.settings w m with ⟨-, -, hsend⟩ | ⟨-, fault, hsend⟩
  · rw [hsend]
    refine ⟨h.settings, ?_, ?_⟩
    · -- what is shown stands at the end of both
      obtain ⟨earlier, hearlier⟩ := h.suffix
      have hsuffix : r.channel.history ++ [s.cut m] <:+ r.shown ++ [s.cut m] :=
        ⟨earlier, by rw [← hearlier, List.append_assoc]⟩
      exact (newest_suffix s.maxHistory.toNat _).trans hsuffix
    · exact length_newest_le s.maxHistory.toNat _
  · rw [hsend]
    exact ⟨h.settings, by simpa [Attempt.shown?, count] using h.suffix, h.length_le⟩

/-- An update keeps the end of what was shown, and its settings hold from then on. -/
theorem update (h : Keeps r s) (patch : Json) : ∃ s', Keeps (r.perform (.update patch)) s' := by
  rw [Showing.perform]
  cases hupdate : r.channel.update patch with
  | error fault => exact ⟨s, h⟩
  | ok c =>
    obtain ⟨s', rfl⟩ := update_popup h.settings hupdate
    exact ⟨s', rfl, (newest_suffix s'.maxHistory.toNat _).trans h.suffix,
      length_newest_le s'.maxHistory.toNat _⟩

/-- Any deed keeps the end of what was shown. -/
theorem perform (h : Keeps r s) (deed : Deed) : ∃ s', Keeps (r.perform deed) s' := by
  cases deed with
  | send w m => exact ⟨s, h.send w m⟩
  | update patch => exact h.update patch
  | cleanup =>
    rw [Showing.perform, cleanup_popup h.settings]
    exact ⟨s, h.settings, List.suffix_refl _, Nat.zero_le _⟩
  | setEnabled enabled => exact ⟨s, h.settings, h.suffix, h.length_le⟩

/-- Any deeds, one after the other, keep the end of what was shown. -/
theorem after (h : Keeps r s) (deeds : List Deed) : ∃ s', Keeps (r.after deeds) s' := by
  induction deeds generalizing r s with
  | nil => exact ⟨s, h⟩
  | cons deed deeds ih =>
    obtain ⟨s', h'⟩ := h.perform deed
    exact ih h'

end Keeps

/-- What a popup keeps, whatever messages were sent through it, however its settings were changed,
and however often it was cleaned up and switched on and off, one after another.

- It keeps the end of what it has shown since it was cleaned up last, and no more messages than its
  settings allow now.
- The last `k` messages are the end of what it keeps, and there are `k` of them if it keeps so many.
- A message arrives if and only if the popup is on and may show something. Then it is shown, with
  its body cut to the length of the settings and otherwise as it was sent, and it is kept behind the
  others as far as there is room. Any other message is not shown, and what is kept stays.
- An update that is taken lets go of the messages for which there is no room any more, from the
  oldest on. One that is refused leaves everything.
- A popup that is cleaned up keeps nothing.
-/
theorem popup_history (name : String) (s₀ : PopupSettings) (enabled : Bool) (tally : Tally)
    (listener : Option Listener) (deeds : List Deed) :
    let new : Channel := { name, settings := .popup s₀, enabled, tally, listener }
    let r := Showing.after { channel := new } deeds
    ∃ s : PopupSettings, r.channel.settings = .popup s ∧
      r.channel.history <:+ r.shown ∧
      r.channel.history.length ≤ s.maxHistory.toNat ∧
      (∀ k, r.channel.recent k <:+ r.channel.history ∧
        (r.channel.recent k).length = min k r.channel.history.length) ∧
      (∀ w m,
        let (attempt, c) := r.channel.send w m
        (attempt.result = .ok () ↔ r.channel.enabled = true ∧ s.maxLength ≠ 0) ∧
        (attempt.result = .ok () → ∃ shown : Message,
          shown = { m with content := Text.ellipsize s.maxLength.toNat m.content } ∧
          (r.perform (.send w m)).shown = r.shown ++ [shown] ∧
          c.history = newest s.maxHistory.toNat (r.channel.history ++ [shown])) ∧
        (attempt.result ≠ .ok () →
          (r.perform (.send w m)).shown = r.shown ∧ c.history = r.channel.history)) ∧
      (∀ patch,
        (∀ c, r.channel.update patch = .ok c → ∃ s' : PopupSettings, c.settings = .popup s' ∧
          c.history = newest s'.maxHistory.toNat r.channel.history) ∧
        (∀ fault, r.channel.update patch = .error fault → r.perform (.update patch) = r)) ∧
      r.channel.cleanup.history = [] := by
  intro new r
  -- a new popup has shown nothing and keeps nothing
  have hnew : Keeps { channel := new } s₀ := ⟨rfl, List.suffix_refl _, Nat.zero_le _⟩
  obtain ⟨s, hs⟩ : ∃ s, Keeps r s := hnew.after deeds
  refine ⟨s, hs.settings, hs.suffix, hs.length_le, r.channel.recent_suffix, fun w m => ?_,
    fun patch => ⟨fun c hupdate => ?_, fun fault hupdate => ?_⟩, by rw [cleanup_popup hs.settings]⟩
  · -- a message arrives and is the last one shown, or it is refused and nothing changes
    rcases send_popup hs.settings w m with ⟨henabled, hlength, hsend⟩ | ⟨hrefused, fault, hsend⟩
    · rw [Showing.perform, hsend]
      exact ⟨iff_of_true rfl ⟨henabled, hlength⟩, fun _ => ⟨s.cut m, rfl, rfl, rfl⟩,
        fun hne => absurd rfl hne⟩
    · rw [Showing.perform, hsend]
      exact ⟨iff_of_false nofun hrefused, nofun, fun _ => ⟨List.append_nil _, rfl⟩⟩
  · obtain ⟨s', rfl⟩ := update_popup hs.settings hupdate
    exact ⟨s', rfl, rfl⟩
  · rw [Showing.perform, hupdate]

/-- A popup that shows five characters and keeps two messages shows three, is told to keep one, and
shows another. Then it is told a length that is no length. -/
theorem popup_history_ofFour :
    let w : World :=
      { searchPath := [], isFile := fun _ => false, run := fun _ _ _ => none
        fetch := fun _ _ => none }
    let m (content : String) : Message := { (default : Message) with content }
    let new : Channel := { name := "popup", settings := .popup { maxLength := 5, maxHistory := 2 } }
    let r := Showing.after { channel := new } [.send w (m "abcdefghij"), .send w (m "b"),
      .send w (m "c"), .update (.obj [("max_history", .nat 1)])]
    let bad : Json := .obj [("max_length", .str "long")]
    r.shown = [m "ab...", m "b", m "c"] ∧ r.channel.history = [m "c"] ∧
      r.channel.history <:+ r.shown ∧
      (r.channel.send w (m "hello world")).1.result = .ok () ∧
      (r.channel.send w (m "hello world")).2.history = [m "he..."] ∧
      r.channel.update bad = .error (.unreadable "popup") ∧ r.perform (.update bad) = r := by
  intro w m new r bad
  have hsettings : r.channel.settings = .popup { maxLength := 5, maxHistory := 1 } := by
    decide +kernel
  have hresult : (r.channel.send w (m "hello world")).1.result = .ok () := rfl
  have hbad : r.channel.update bad = .error (.unreadable "popup") := rfl
  obtain ⟨s, hs, hsuffix, -, -, hsend, hupdate, -⟩ := popup_history "popup" _ true {} none
    [.send w (m "abcdefghij"), .send w (m "b"), .send w (m "c"),
      .update (.obj [("max_history", .nat 1)])]
  -- the settings of the theorem are those after the update
  obtain rfl : ({ maxLength := 5, maxHistory := 1 } : PopupSettings) = s :=
    Settings.popup.inj (hsettings.symm.trans hs)
  obtain ⟨shown, rfl, -, hhistory⟩ := (hsend w (m "hello world")).2.1 hresult
  refine ⟨by decide +kernel, by decide +kernel, hsuffix, hresult, hhistory.trans ?_, hbad,
    (hupdate bad).2 _ hbad⟩
  decide +kernel

end MarketAlerts.Channel
