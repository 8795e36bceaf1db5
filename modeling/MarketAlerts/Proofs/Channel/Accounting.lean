import MarketAlerts.Proofs.Channel.Sends

/-!
# What a channel counts

A channel serves many sends at once. While one is under way, others begin, end or are given up, the
channel is switched on and off, its settings change, and what it has counted is forgotten. `Traffic`
is a channel with its deliveries under way, and a `Move` is anything that can happen to them.

- `Traffic.step_cases`: what a move can do;
- `Traffic.Sound.after`: what is counted adds up after any moves;
- `Traffic.accounting`: a send that ends is counted once, whatever happens while it is under way,
  and it is refused if and only if the channel is off or has no use for its settings.
-/

namespace MarketAlerts.Channel

/-- An error that a send gives at its beginning. -/
def Error.IsRefusal : Error → Prop
  | .disabled _ | .misconfigured _ _ => True
  | _ => False

/-! ## Tallies -/

namespace Tally

/-- Every message came to one of the two ends. -/
def IsBalanced (t : Tally) : Prop := t.total = t.successful + t.failed

/-- Nothing was counted yet. -/
theorem isBalanced_empty : ({} : Tally).IsBalanced := rfl

/-- A result counts once. -/
theorem total_count (t : Tally) (succeeded : Bool) : (t.count succeeded).total = t.total + 1 := by
  cases succeeded <;> rfl

/-- A message that arrived counts as such, and only that. -/
theorem successful_count (t : Tally) (succeeded : Bool) :
    (t.count succeeded).successful = t.successful + (if succeeded then 1 else 0) := by
  cases succeeded <;> rfl

/-- A message that did not arrive counts as such, and only that. -/
theorem failed_count (t : Tally) (succeeded : Bool) :
    (t.count succeeded).failed = t.failed + (if succeeded then 0 else 1) := by
  cases succeeded <;> rfl

/-- One more result leaves a tally balanced. -/
theorem IsBalanced.count {t : Tally} (h : t.IsBalanced) (succeeded : Bool) :
    (t.count succeeded).IsBalanced := by
  unfold IsBalanced at h ⊢
  rw [total_count, successful_count, failed_count, h]
  cases succeeded with
  | true => exact Nat.add_right_comm ..
  | false => rfl

end Tally

/-! ## Traffic -/

/-- A channel with its deliveries under way. -/
structure Traffic where
  /-- The channel. -/
  channel : Channel
  /-- The deliveries that have begun and not ended. -/
  underway : List Delivery := []

/-- What can happen to a channel. -/
inductive Move where
  /-- A send begins. -/
  | begin (m : Message)
  /-- A delivery ends as the world has it. -/
  | finish (place : Nat) (w : World)
  /-- A delivery is given up. -/
  | giveUp (place : Nat)
  /-- The channel is switched on or off. -/
  | setEnabled (enabled : Bool)
  /-- The settings change. -/
  | update (patch : Json)
  /-- What was counted is forgotten. -/
  | resetTally
  /-- What the channel keeps is let go. -/
  | cleanup
  /-- Someone listens. -/
  | subscribe
  /-- Nobody listens any more. -/
  | unsubscribe
  /-- The listener takes what waits. -/
  | drain

namespace Traffic

/-- The traffic after a move, and how the send ended, if the move ended one. -/
def step (t : Traffic) : Move → Option (Except Error Unit) × Traffic
  | .begin m =>
    match t.channel.begin m with
    | .error fault => (some (.error fault), { t with channel := t.channel.count false })
    | .ok d => (none, { t with underway := t.underway ++ [d] })
  | .finish place w =>
    match t.underway[place]? with
    | none => (none, t)
    | some d =>
      let (result, channel) := t.channel.finish d (d.ending w)
      (some result, ⟨channel, t.underway.eraseIdx place⟩)
  | .giveUp place => (none, { t with underway := t.underway.eraseIdx place })
  | .setEnabled enabled => (none, { t with channel := t.channel.setEnabled enabled })
  | .update patch =>
    match t.channel.update patch with
    | .error _ => (none, t)
    | .ok channel => (none, { t with channel })
  | .resetTally => (none, { t with channel := t.channel.resetTally })
  | .cleanup => (none, { t with channel := t.channel.cleanup })
  | .subscribe => (none, { t with channel := t.channel.subscribe })
  | .unsubscribe => (none, { t with channel := t.channel.unsubscribe })
  | .drain => (none, { t with channel := t.channel.drain.2.2 })

/-- The traffic after moves. -/
def after (t : Traffic) (moves : List Move) : Traffic :=
  moves.foldl (fun t move => (t.step move).2) t

/-- A send that ran to its end. -/
structure Passage where
  /-- The channel at the end of the send. -/
  last : Channel
  /-- What was done, and how it ended. -/
  attempt : Attempt
  /-- The channel after the end. -/
  next : Channel

/-- A send that runs to its end, with moves while it is under way, which do not touch it. One that
is refused ends at its beginning. -/
def send (t : Traffic) (w : World) (m : Message) (moves : List Move) : Passage :=
  match t.channel.begin m with
  | .error fault => ⟨t.channel, ⟨none, .error fault⟩, t.channel.count false⟩
  | .ok d =>
    let last := (t.after moves).channel
    let (result, next) := last.finish d (d.ending w)
    ⟨last, ⟨some d.errand, result⟩, next⟩

variable {t : Traffic}

/-- Without moves in between, it is a send of the channel. -/
theorem send_nil (t : Traffic) (w : World) (m : Message) :
    t.channel.send w m = ((t.send w m []).attempt, (t.send w m []).next) := by
  rw [send, Channel.send]
  cases t.channel.begin m <;> rfl

/-- A move begins a delivery and does nothing else, or it begins none, leaves the name, and counts
the send that it ends, if it ends one. -/
theorem step_cases (t : Traffic) (move : Move) :
    (∃ m d, t.channel.begin m = .ok d ∧
      t.step move = (none, { t with underway := t.underway ++ [d] })) ∨
    (t.step move).2.underway ⊆ t.underway ∧ (t.step move).2.channel.name = t.channel.name ∧
      match (t.step move).1 with
      | some result => (t.step move).2.channel.tally = t.channel.tally.count result.isOk
      | none => (t.step move).2.channel.tally = t.channel.tally ∨
        (t.step move).2.channel.tally = {} := by
  cases move with
  | begin m =>
    cases hbegin : t.channel.begin m with
    -- a send that is refused ends at once, and counts as failed
    | error fault => simp [step, hbegin, Channel.count, Except.isOk, Except.toBool]
    | ok d => exact .inl ⟨m, d, hbegin, by simp [step, hbegin]⟩
  | finish place w =>
    refine .inr ?_
    cases hd : t.underway[place]? with
    | none => simp [step, hd]
    | some d =>
      -- what was under way is so no more, and is counted
      simp only [step, hd]
      exact ⟨(List.eraseIdx_sublist _ _).subset, name_finish .., tally_finish ..⟩
  | giveUp place => exact .inr ⟨(List.eraseIdx_sublist _ _).subset, rfl, .inl rfl⟩
  | update patch =>
    refine .inr ?_
    cases hupdate : t.channel.update patch with
    | error fault => simp [step, hupdate]
    | ok c =>
      obtain ⟨hname, htally⟩ := name_tally_update hupdate
      simp only [step, hupdate]
      exact ⟨List.Subset.refl _, hname, .inl htally⟩
  -- the only move that takes something back
  | resetTally => exact .inr ⟨List.Subset.refl _, rfl, .inr rfl⟩
  | cleanup =>
    have hcleanup : t.channel.cleanup.name = t.channel.name ∧
        t.channel.cleanup.tally = t.channel.tally := by
      unfold cleanup
      split <;> exact ⟨rfl, rfl⟩
    exact .inr ⟨List.Subset.refl _, hcleanup.1, .inl hcleanup.2⟩
  | drain =>
    have hdrain : t.channel.drain.2.2.name = t.channel.name ∧
        t.channel.drain.2.2.tally = t.channel.tally := by
      unfold drain
      split <;> exact ⟨rfl, rfl⟩
    exact .inr ⟨List.Subset.refl _, hdrain.1, .inl hdrain.2⟩
  | setEnabled enabled => exact .inr ⟨List.Subset.refl _, rfl, .inl rfl⟩
  | subscribe => exact .inr ⟨List.Subset.refl _, rfl, .inl rfl⟩
  | unsubscribe => exact .inr ⟨List.Subset.refl _, rfl, .inl rfl⟩

/-- How the traffic of a channel of a name stands after any moves. -/
structure Sound (t : Traffic) (name : String) : Prop where
  name : t.channel.name = name
  balanced : t.channel.tally.IsBalanced
  addressed : ∀ d ∈ t.underway, d.errand ≠ .unaddressed

/-- What is begun has somewhere to go. -/
theorem errand_ne_of_begin {c : Channel} {m : Message} {d : Delivery} (h : c.begin m = .ok d) :
    d.errand ≠ .unaddressed := by
  obtain ⟨-, hproblem, rfl⟩ := begin_eq_ok_iff.1 h
  exact Settings.errand_delivery_ne hproblem m

/-- A move keeps a traffic sound. -/
theorem Sound.step {name : String} (h : t.Sound name) (move : Move) :
    (t.step move).2.Sound name := by
  rcases t.step_cases move with ⟨m, d, hbegin, hstep⟩ | ⟨hunderway, hname, htally⟩
  · rw [hstep]
    refine ⟨h.name, h.balanced, ?_⟩
    -- only here a delivery is added, and it has begun under usable settings
    intro d' hd'
    rcases List.mem_append.1 hd' with hold | hnew
    · exact h.addressed d' hold
    · rw [List.mem_singleton.1 hnew]
      exact errand_ne_of_begin hbegin
  · refine ⟨hname.trans h.name, ?_, fun d hd => h.addressed d (hunderway hd)⟩
    split at htally
    next => rw [htally]; exact h.balanced.count _
    next =>
      rcases htally with hsame | hreset
      · rw [hsame]; exact h.balanced
      · rw [hreset]; exact Tally.isBalanced_empty

/-- Any moves keep a traffic sound. -/
theorem Sound.after {name : String} (h : t.Sound name) (moves : List Move) :
    (t.after moves).Sound name := by
  induction moves generalizing t with
  | nil => exact h
  | cons move moves ih => exact ih (h.step move)

/-- The channel counts a send at its end, by how it ended. -/
theorem tally_send (t : Traffic) (w : World) (m : Message) (moves : List Move) :
    (t.send w m moves).next.tally =
      (t.send w m moves).last.tally.count (t.send w m moves).attempt.result.isOk := by
  rw [send]
  cases t.channel.begin m with
  | error fault => rfl
  | ok d => exact tally_finish ..

/-- A refused send, and nothing else, gives its refusal. -/
theorem result_send_eq_iff {fault : Error} (h : fault.IsRefusal) (t : Traffic) (w : World)
    (m : Message) (moves : List Move) :
    (t.send w m moves).attempt.result = .error fault ↔ t.channel.begin m = .error fault := by
  rw [send]
  cases t.channel.begin m with
  | error other => simp
  | ok d =>
    -- none of the ends of a delivery is a refusal
    have hresult := finish_fst (t.after moves).channel d (d.ending w)
    constructor
    · intro hfault
      rw [show ((t.after moves).channel.finish d (d.ending w)).1 = .error fault from hfault]
        at hresult
      rcases hresult with hok | hundelivered | hlate
      · cases hok
      · cases hundelivered
        exact h.elim
      · cases hlate
        exact h.elim
    · nofun

/-- What is done for a message has an address. -/
theorem errand_send_ne (t : Traffic) (w : World) (m : Message) (moves : List Move) :
    (t.send w m moves).attempt.errand ≠ some .unaddressed := by
  rw [send]
  cases hbegin : t.channel.begin m with
  | error fault => nofun
  | ok d => exact fun herrand => errand_ne_of_begin hbegin (Option.some.inj herrand)

/-- What is counted and what is refused, for a channel of any kind with any settings, after any
moves, and for any message in any world:

- all messages that were counted came to one of the two ends, and nothing is under way without an
  address;
- a send that runs to its end is counted once at its end, among the successful ones if and only if
  it gives no error, whatever moves are made while it is under way; without any it is the send of
  the channel;
- it is refused because the channel is off if and only if that is so when it begins, and because of
  a problem of the settings if and only if the channel is on and the settings have that problem;
- if it is refused, nothing is done, and nothing changes but what is counted;
- what is done has an address. -/
theorem accounting (name : String) (settings : Settings) (earlier : List Move) :
    let t := Traffic.after { channel := { name, settings } } earlier
    t.channel.tally.total = t.channel.tally.successful + t.channel.tally.failed ∧
    (∀ d ∈ t.underway, d.errand ≠ .unaddressed) ∧
    ∀ (w : World) (m : Message) (moves : List Move),
      let p := t.send w m moves
      (moves = [] → t.channel.send w m = (p.attempt, p.next)) ∧
      p.next.tally.total = p.last.tally.total + 1 ∧
      p.next.tally.successful = p.last.tally.successful + (if p.attempt.result.isOk then 1 else 0) ∧
      p.next.tally.failed = p.last.tally.failed + (if p.attempt.result.isOk then 0 else 1) ∧
      (∀ n, p.attempt.result = .error (.disabled n) ↔ t.channel.enabled = false ∧ n = name) ∧
      (∀ n reason, p.attempt.result = .error (.misconfigured n reason) ↔
        t.channel.enabled = true ∧ t.channel.settings.problem? = some reason ∧ n = name) ∧
      (t.channel.enabled = false ∨ t.channel.settings.problem? ≠ none →
        p.attempt.errand = none ∧ p.last = t.channel ∧
        p.next = { t.channel with tally := p.next.tally }) ∧
      p.attempt.errand ≠ some .unaddressed := by
  intro t
  have hsound : t.Sound name :=
    Sound.after ⟨rfl, Tally.isBalanced_empty, List.forall_mem_nil _⟩ earlier
  refine ⟨hsound.balanced, hsound.addressed, fun w m moves => ?_⟩
  intro p
  have htally : p.next.tally = p.last.tally.count p.attempt.result.isOk := t.tally_send w m moves
  -- so a refusal is read off the channel as it is when the send begins
  have hrefusal (fault : Error) (h : fault.IsRefusal) :
      p.attempt.result = .error fault ↔ _ :=
    (result_send_eq_iff h t w m moves).trans begin_eq_error_iff
  refine ⟨?_, by rw [htally, Tally.total_count], by rw [htally, Tally.successful_count],
    by rw [htally, Tally.failed_count], ?_, ?_, ?_, t.errand_send_ne w m moves⟩
  · rintro rfl
    exact t.send_nil w m
  · intro n
    rw [hrefusal (.disabled n) trivial, hsound.name]
    simp
  · intro n reason
    rw [hrefusal (.misconfigured n reason) trivial, hsound.name]
    simp
  · intro hrefused
    cases hbegin : t.channel.begin m with
    | ok d =>
      obtain ⟨henabled, hproblem, -⟩ := begin_eq_ok_iff.1 hbegin
      simp [henabled, hproblem] at hrefused
    | error fault =>
      have hp : p = ⟨t.channel, ⟨none, .error fault⟩, t.channel.count false⟩ := by
        simp only [p, send, hbegin]
      rw [hp]
      exact ⟨rfl, rfl, rfl⟩

end Traffic

end MarketAlerts.Channel
