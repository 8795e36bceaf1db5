import MarketAlerts.Proofs.Dispatch.Lanes
import MarketAlerts.Proofs.Except

/-!
# The turns of a dispatch

While a dispatch is under way, its lanes make steps in any order, at any time and in any world,
channels are switched on and off and get other settings, the dispatcher is shut down, and the
dispatch breaks off. A `Turn` is any of these.

- `Run.step_outcome`: a step brings an event to a later stage and leaves its channel as it is, or it
  ends in a result that the channel counts once;
- `Session.Account`: what is known of a lane, and what its channel has counted since;
- `Session.Underway.after`: whatever the turns, every lane has an account.
-/

namespace MarketAlerts

/-- Two lists are related when what stands at a place of one is related to what stands there in the
other. -/
theorem forall₂_iff_getElem? {α β : Type*} {R : α → β → Prop} {xs : List α} {ys : List β} :
    List.Forall₂ R xs ys ↔ xs.length = ys.length ∧
      ∀ (i : Nat) (x : α), xs[i]? = some x → ∃ y, ys[i]? = some y ∧ R x y := by
  rw [List.forall₂_iff_get]
  refine and_congr_right fun hlength => ⟨fun h i x hx => ?_, fun h i hlt hlt' => ?_⟩
  · obtain ⟨hlt, rfl⟩ := List.getElem?_eq_some_iff.1 hx
    have hlt' : i < ys.length := hlength ▸ hlt
    exact ⟨ys[i], List.getElem?_eq_getElem hlt', h i hlt hlt'⟩
  · obtain ⟨y, hy, hR⟩ := h i xs[i] (List.getElem?_eq_getElem hlt)
    obtain ⟨_, rfl⟩ := List.getElem?_eq_some_iff.1 hy
    exact hR

/-- Two states of an outlet between which its channel has counted nothing. -/
structure Outlet.Kept (o o' : Outlet) : Prop where
  name : o'.channel.name = o.channel.name
  tally : o'.channel.tally = o.channel.tally

theorem Outlet.kept_refl (os : List Outlet) : List.Forall₂ Outlet.Kept os os :=
  List.forall₂_same.2 fun _ _ => ⟨rfl, rfl⟩

namespace Dispatcher

/-- What a channel counts for these results. -/
def tallyOf (results : List Sent) : Channel.Tally where
  total := results.length
  successful := (results.filter (·.success)).length
  failed := (results.filter (!·.success)).length

/-- The results that carry the name of a channel. -/
def ofChannel (name : String) (results : List Sent) : List Sent :=
  results.filter fun sent => sent.channel = name

theorem add_tallyOf_append (t : Channel.Tally) (xs ys : List Sent) :
    t.add (tallyOf (xs ++ ys)) = (t.add (tallyOf xs)).add (tallyOf ys) := by
  simp [tallyOf, Channel.Tally.add, Nat.add_assoc]

/-- One result is counted by itself. -/
theorem add_tallyOf_single (t : Channel.Tally) (sent : Sent) :
    t.add (tallyOf [sent]) = t.count sent.success := by
  cases hsuccess : sent.success <;>
    simp [tallyOf, Channel.Tally.add, Channel.Tally.count, hsuccess]

/-- Two states of an outlet between which its channel has counted those of these results that carry
its name. -/
structure Counted (results : List Sent) (o o' : Outlet) : Prop where
  name : o'.channel.name = o.channel.name
  tally : o'.channel.tally = o.channel.tally.add (tallyOf (ofChannel o.channel.name results))

/-- A result tells of a success where the attempt ended well. -/
theorem success_ofAttempt (e : Event) (name : String) (m : Message) (a : Channel.Attempt) :
    (Sent.ofAttempt e name m a).success = a.result.isOk := by
  rw [Sent.success, Sent.ofAttempt]
  cases a.result <;> rfl

/-- A step brings an event to a later stage and leaves its outlet as it is, or it ends in a result
of the event that the channel counts once. -/
theorem Run.step_outcome (r : Run) (lib : Template.Library) (now : Instant) (w : World) (lane : Nat)
    (o : Outlet) (c : Current) :
    (∃ stage : Stage, 0 < stage.rank ∧
      r.step lib now w lane o c = (r.setStage lane stage, o)) ∨
    ∃ (sent : Sent) (channel : Channel),
      r.step lib now w lane o c = (r.settle lane c sent, { o with channel }) ∧
      sent.eventId = c.event.id ∧ sent.channel = o.channel.name ∧
      channel.name = o.channel.name ∧ channel.tally = o.channel.tally.count sent.success := by
  unfold step
  cases c.stage with
  -- the message is written, or it cannot be
  | queued =>
    dsimp only
    cases o.write lib now (messageId r.supply r.lanes.length c.position lane) c.event with
    | error fault => exact .inr ⟨_, _, rfl, rfl, rfl, rfl, rfl⟩
    | ok m => exact .inl ⟨.written m, Nat.one_pos, rfl⟩
  -- the delivery is begun, or refused
  | written m =>
    dsimp only
    cases o.channel.begin m with
    | error fault => exact .inr ⟨_, _, rfl, rfl, rfl, rfl, rfl⟩
    | ok d => exact .inl ⟨.begun m d, Nat.two_pos, rfl⟩
  -- the delivery ends, and is counted
  | begun m d =>
    refine .inr ⟨_, _, rfl, rfl, rfl, Channel.name_finish .., ?_⟩
    rw [success_ofAttempt]
    exact Channel.tally_finish ..

/-! ## Edits of channels -/

section Edits

variable {d d' : Dispatcher} {name : String} {c c' : Channel}

/-- A channel that is found is there, under its name. -/
theorem mem_of_channel?_eq_some (h : d.channel? name = some c) : c ∈ d.channels ∧ c.name = name :=
  ⟨List.mem_of_find?_eq_some h, by simpa using List.find?_some h⟩

/-- To ask for a channel is to look it up. -/
theorem channel_eq_ok_iff : d.channel name = .ok c ↔ d.channel? name = some c := by
  unfold channel
  cases d.channel? name <;> simp

/-- One channel is replaced by one of the same name that has counted the same. -/
def Adjusted (d d' : Dispatcher) : Prop :=
  ∃ name c c', d.channel name = .ok c ∧ c'.name = c.name ∧ c'.tally = c.tally ∧
    d' = d.setChannel name c'

/-- A channel that is switched is there, and is replaced by itself as it is then. -/
theorem setEnabled_eq_ok {enabled : Bool} (h : d.setEnabled name enabled = .ok d') :
    ∃ c, d.channel name = .ok c ∧ d' = d.setChannel name (c.setEnabled enabled) := by
  obtain ⟨c, hc, hd'⟩ := exists_of_bind_eq_ok h
  cases hd'
  exact ⟨c, hc, rfl⟩

/-- A channel that is updated is there, and is replaced by what the update makes of it. -/
theorem update_eq_ok {patch : Json} (h : d.update name patch = .ok d') :
    ∃ c c', d.channel name = .ok c ∧ c.update patch = .ok c' ∧ d' = d.setChannel name c' := by
  obtain ⟨c, hc, h⟩ := exists_of_bind_eq_ok h
  obtain ⟨c', hupdate, hd'⟩ := exists_of_bind_eq_ok h
  cases hd'
  exact ⟨c, c', hc, mapError_eq_ok_iff.1 hupdate, rfl⟩

/-- To switch a channel is to adjust it. -/
theorem adjusted_of_setEnabled {enabled : Bool} (h : d.setEnabled name enabled = .ok d') :
    d.Adjusted d' := by
  obtain ⟨c, hc, hd'⟩ := setEnabled_eq_ok h
  exact ⟨name, c, c.setEnabled enabled, hc, rfl, rfl, hd'⟩

theorem adjusted_of_update {patch : Json} (h : d.update name patch = .ok d') : d.Adjusted d' := by
  obtain ⟨c, c', hc, hupdate, hd'⟩ := update_eq_ok h
  obtain ⟨hname, htally⟩ := Channel.name_tally_update hupdate
  exact ⟨name, c, c', hc, hname, htally, hd'⟩

/-- Where names are distinct, the channel that is replaced is the one that was asked for. -/
theorem Adjusted.kept (h : d.Adjusted d') (hnames : (d.channels.map (·.name)).Nodup) :
    List.Forall₂ Outlet.Kept d.outlets d'.outlets := by
  obtain ⟨name, c, c', hc, hname, htally, rfl⟩ := h
  rw [channel_eq_ok_iff] at hc
  obtain ⟨hmem, rfl⟩ := mem_of_channel?_eq_some hc
  refine List.forall₂_map_right_iff.2 (List.forall₂_same.2 fun o ho => ?_)
  split
  next hsame =>
    -- no other channel has the name
    have hchannel : o.channel ∈ d.channels := List.mem_map_of_mem ho
    obtain rfl : o.channel = c := List.inj_on_of_nodup_map hnames hchannel hmem hsame
    exact ⟨hname, htally⟩
  next => exact ⟨rfl, rfl⟩

/-- What stays while a dispatch is under way. A dispatcher that is shut down stays so. -/
structure Continues (d d' : Dispatcher) : Prop where
  templates : d'.templates = d.templates
  audit : d'.audit = d.audit
  supply : d'.supply = d.supply
  closed : d.closed = true → d'.closed = true

theorem Continues.refl (d : Dispatcher) : d.Continues d := ⟨rfl, rfl, rfl, id⟩

theorem Continues.trans {d'' : Dispatcher} (h : d.Continues d') (h' : d'.Continues d'') :
    d.Continues d'' where
  templates := h'.templates.trans h.templates
  audit := h'.audit.trans h.audit
  supply := h'.supply.trans h.supply
  closed hclosed := h'.closed (h.closed hclosed)

/-- A dispatcher goes on when a channel is adjusted. -/
theorem Adjusted.continues (h : d.Adjusted d') : d.Continues d' := by
  obtain ⟨name, c, c', -, -, -, rfl⟩ := h
  exact ⟨rfl, rfl, rfl, id⟩

end Edits

/-! ## Turns -/

/-- What can happen while a dispatch is under way. -/
inductive Turn where
  /-- The event that is up in a lane makes its next step. -/
  | step (lane : Nat) (w : World)
  /-- The dispatcher is shut down. -/
  | shutdown
  /-- The dispatch sees that the dispatcher is shut down. -/
  | breakOff
  /-- A channel is switched on or off. -/
  | setEnabled (channel : String) (enabled : Bool)
  /-- The settings of a channel are changed. -/
  | update (channel : String) (patch : Json)

/-- What it is to a session with this call. -/
def Turn.action (call : Nat) : Turn → Action
  | .step lane w => .step call lane w
  | .shutdown => .shutdown
  | .breakOff => .breakOff call
  | .setEnabled channel enabled => .setEnabled channel enabled
  | .update channel patch => .update channel patch

/-- The position of an event that has made no step yet: the next one starts its send. -/
def Current.start? (c : Current) : Option Nat :=
  match c.stage with
  | .queued => some c.position
  | _ => none

namespace Session

/-- The session after turns of the dispatch of a call, each at its time. -/
def after (s : Session) (call : Nat) (turns : List (Instant × Turn)) : Session :=
  turns.foldl (fun s (now, t) => s.apply now (t.action call)) s

/-- The send that a turn starts, by lane and position. -/
def start? (s : Session) (call : Nat) : Turn → Option (Nat × Nat)
  | .step lane _ =>
    ((s.run? call).bind fun r => s.up? r lane).bind fun (_, c) =>
      c.start?.map fun position => (lane, position)
  | _ => none

/-- The sends that are started in turns, in the order in which they are. -/
def starts (s : Session) (call : Nat) : List (Instant × Turn) → List (Nat × Nat)
  | [] => []
  | (now, t) :: turns =>
    (s.start? call t).toList ++ (s.apply now (t.action call)).starts call turns

theorem after_append (s : Session) (call : Nat) (xs ys : List (Instant × Turn)) :
    s.after call (xs ++ ys) = (s.after call xs).after call ys :=
  List.foldl_append

/-- Later turns start sends from where the first ones have led. -/
theorem starts_append (s : Session) (call : Nat) (xs ys : List (Instant × Turn)) :
    s.starts call (xs ++ ys) = s.starts call xs ++ (s.after call xs).starts call ys := by
  induction xs generalizing s with
  | nil => rfl
  | cons x xs ih =>
    obtain ⟨now, t⟩ := x
    rw [List.cons_append, starts, starts, ih, List.append_assoc]
    rfl

/-! ## What is known of a lane -/

/-- The lane of events of which the first one is at a stage; without a stage none is up, and none
comes up any more. -/
def laneAt (rest : List (Nat × Event)) : Option Stage → Lane
  | some stage => (Lane.ofEvents rest).setStage stage
  | none => ⟨none, []⟩

/-- The event that has left the queue and has no result yet. -/
def pending (rest : List (Nat × Event)) : Option Stage → List (Nat × Event)
  | none | some .queued => []
  | some _ => rest.take 1

/-- A result tells of an event and of a channel. -/
structure Tells (name : String) (x : Nat × Event) (result : Nat × Sent) : Prop where
  position : result.1 = x.1
  eventId : result.2.eventId = x.2.id
  channel : result.2.channel = name

/-- How the lane of an outlet `o` stands whose events were `es`: those of `done` have results, each
of which its channel has counted once, and the first one of `rest` is up at a stage. The sends
that were started are those of `done` and that of the event at a later stage than the first. -/
structure Account (s : Session) (r : Run) (lane : Nat) (o : Outlet) (started : List Nat)
    (es done rest : List (Nat × Event)) (stage : Option Stage) : Prop where
  events : es = done ++ rest
  results : List.Forall₂ (Tells o.channel.name) done (r.resultsOf lane)
  outlet : ∃ o' : Outlet, s.dispatcher.outlets[lane]? = some o' ∧
    o'.channel.name = o.channel.name ∧
    o'.channel.tally = o.channel.tally.add (tallyOf ((r.resultsOf lane).map Prod.snd))
  current : r.lanes[lane]? = some (laneAt rest stage)
  broken : stage = none → r.broken = true
  started : started = (done ++ pending rest stage).map Prod.fst

/-- The positions of sends in a lane. -/
def inLane (lane : Nat) (started : List (Nat × Nat)) : List Nat :=
  (started.filter fun x => x.1 = lane).map Prod.snd

theorem inLane_append (lane : Nat) (xs ys : List (Nat × Nat)) :
    inLane lane (xs ++ ys) = inLane lane xs ++ inLane lane ys := by
  rw [inLane, List.filter_append, List.map_append]
  rfl

/-- A send that is started in a lane is one of this lane. -/
theorem inLane_map_self (lane : Nat) (position : Option Nat) :
    inLane lane (position.map fun position => (lane, position)).toList = position.toList := by
  cases position <;> simp [inLane]

theorem inLane_map_ne {lane other : Nat} (h : lane ≠ other) (position : Option Nat) :
    inLane other (position.map fun position => (lane, position)).toList = [] := by
  cases position <;> simp [inLane, h]

/-- How a session stands in which the dispatch of a call is under way and has started sends. -/
structure Underway (d : Dispatcher) (events : List Event) (call : Nat) (started : List (Nat × Nat))
    (s : Session) (r : Run) : Prop where
  run : s.calls[call]? = some (.running r)
  outlets : s.dispatcher.outlets.length = d.outlets.length
  lanes : r.lanes.length = d.outlets.length
  placed : ∀ p ∈ r.placed, p.lane < d.outlets.length
  each : ∀ (lane : Nat) (o : Outlet), d.outlets[lane]? = some o → ∃ done rest stage,
    s.Account r lane o (inLane lane started) (accepted o.route events) done rest stage

variable {d : Dispatcher} {events : List Event} {call : Nat} {started : List (Nat × Nat)}
  {s : Session} {r : Run}

/-- A dispatch is under way as soon as it is called for, and has started nothing. -/
theorem underway_call (hopen : d.closed = false) (calls : List Call) (events : List Event) :
    ∃ r, ((Session.mk d calls).call events).Underway d events calls.length [] r := by
  rw [Session.call, hopen, if_neg Bool.false_ne_true]
  refine ⟨_, {
    run := List.getElem?_concat_length
    outlets := rfl
    lanes := List.length_map _
    placed := fun p hp => by simp at hp
    each := fun lane o ho => ⟨[], accepted o.route events, some .queued, {
      events := rfl
      results := .nil
      outlet := ⟨o, ho, rfl, rfl⟩
      current := ?_
      broken := fun h => by cases h
      started := rfl }⟩ }⟩
  rw [laneAt, Lane.setStage_queued_ofEvents, List.getElem?_map, ho]
  rfl

/-- The run of the dispatch is found under its call. -/
theorem Underway.run?_eq (h : s.Underway d events call started r) : s.run? call = some r := by
  simp [run?, h.run]

/-- The channels have the same names as before the dispatch. -/
theorem Underway.names (h : s.Underway d events call started r) :
    s.dispatcher.channels.map (·.name) = d.channels.map (·.name) := by
  refine List.ext_getElem? fun lane => ?_
  simp only [channels, List.getElem?_map]
  cases ho : d.outlets[lane]? with
  | some o =>
    obtain ⟨done, rest, stage, haccount⟩ := h.each lane o ho
    obtain ⟨o', ho', hname, -⟩ := haccount.outlet
    simp [ho', hname]
  | none =>
    have hlane : s.dispatcher.outlets.length ≤ lane := by
      rw [h.outlets]
      exact List.getElem?_eq_none_iff.1 ho
    rw [List.getElem?_eq_none hlane]

section Account

variable {lane : Nat} {o : Outlet} {sends : List Nat} {es done rest : List (Nat × Event)}
  {stage : Option Stage}

/-- The account of a lane stays as it is where nothing of the lane changes, and its channel counts
nothing. -/
theorem Account.frame (h : s.Account r lane o sends es done rest stage) {s' : Session} {r' : Run}
    (houtlet : ∀ o', s.dispatcher.outlets[lane]? = some o' →
      ∃ o'', s'.dispatcher.outlets[lane]? = some o'' ∧ o'.Kept o'')
    (hcurrent : r'.lanes[lane]? = r.lanes[lane]?)
    (hresults : r'.resultsOf lane = r.resultsOf lane)
    (hbroken : r.broken = true → r'.broken = true) :
    s'.Account r' lane o sends es done rest stage := by
  obtain ⟨o', ho', hname, htally⟩ := h.outlet
  obtain ⟨o'', ho'', hkept⟩ := houtlet o' ho'
  exact { h with
    results := hresults ▸ h.results
    outlet := ⟨o'', ho'', hkept.name.trans hname, hresults ▸ hkept.tally.trans htally⟩
    current := hcurrent.trans h.current
    broken := fun hstage => hbroken (h.broken hstage) }

/-- The event that is up in a lane is the first of those without a result. -/
theorem Account.exists_of_up? (h : s.Account r lane o sends es done rest stage) {o' : Outlet}
    {c : Current} (hup : s.up? r lane = some (o', c)) :
    s.dispatcher.outlets[lane]? = some o' ∧ ∃ others,
      rest = (c.position, c.event) :: others ∧ stage = some c.stage := by
  simp only [up?, h.current, Option.bind_eq_bind, Option.bind_eq_some_iff, Option.pure_def,
    Option.some.injEq, Prod.mk.injEq, exists_eq_left'] at hup
  obtain ⟨o'', ho'', c', hc', rfl, rfl⟩ := hup
  refine ⟨ho'', ?_⟩
  cases stage with
  | none => cases hc'
  | some stage =>
    cases rest with
    | nil => cases hc'
    | cons x others =>
      cases hc'
      exact ⟨others, rfl, rfl⟩

section Step

variable {o' : Outlet} {c : Current} {others : List (Nat × Event)}
  (h : s.Account r lane o sends es done ((c.position, c.event) :: others) (some c.stage))

include h

/-- Once an event has made a step, its send is one of those that were started. -/
theorem Account.started_append_start? :
    sends ++ c.start?.toList = (done ++ [(c.position, c.event)]).map Prod.fst := by
  rw [h.started, Current.start?]
  cases c.stage <;> simp [pending]

/-- An event that comes to a later stage. -/
theorem Account.setStage {stage : Stage} (hstage : 0 < stage.rank) {s' : Session}
    (houtlet : s'.dispatcher.outlets[lane]? = s.dispatcher.outlets[lane]?) :
    s'.Account (r.setStage lane stage) lane o (sends ++ c.start?.toList) es done
      ((c.position, c.event) :: others) (some stage) where
  events := h.events
  results := h.results
  outlet := houtlet ▸ h.outlet
  current := by
    rw [Run.setStage, List.getElem?_modify_eq, h.current]
    simp [laneAt]
  broken hnone := by cases hnone
  started := by
    rw [h.started_append_start?]
    cases stage with
    | queued => cases hstage
    | written m => rfl
    | begun m d => rfl

/-- An event that ends in a result. -/
theorem Account.settle (ho' : s.dispatcher.outlets[lane]? = some o') {sent : Sent}
    {channel : Channel} (heventId : sent.eventId = c.event.id)
    (hchannel : sent.channel = o'.channel.name) (hname : channel.name = o'.channel.name)
    (htally : channel.tally = o'.channel.tally.count sent.success) {s' : Session}
    (houtlet : s'.dispatcher.outlets[lane]? = some { o' with channel }) :
    s'.Account (r.settle lane c sent) lane o (sends ++ c.start?.toList) es
      (done ++ [(c.position, c.event)]) others (if r.broken then none else some .queued) := by
  obtain ⟨_, ho, hname', htally'⟩ := h.outlet
  obtain rfl := Option.some.inj (ho'.symm.trans ho)
  refine {
    events := by rw [h.events, List.append_assoc, List.singleton_append]
    results := ?_
    outlet := ⟨_, houtlet, hname.trans hname', ?_⟩
    current := ?_
    broken := fun hnone => ?_
    started := ?_ }
  · rw [Run.resultsOf_settle_self]
    exact List.rel_append h.results
      (.cons ⟨rfl, heventId, hchannel.trans hname'⟩ .nil)
  · rw [Run.resultsOf_settle_self, List.map_append, List.map_singleton, add_tallyOf_append,
      add_tallyOf_single, htally, htally']
  · -- the next event comes up, unless the dispatch has broken off
    rw [Run.settle, List.getElem?_modify_eq, h.current]
    cases hbroken : r.broken with
    | true => rfl
    | false =>
      change some (Lane.ofEvents others) = _
      rw [if_neg Bool.false_ne_true, laneAt, Lane.setStage_queued_ofEvents]
  · -- without a stage the next event has not come up, so that the dispatch has broken off
    by_contra hbroken
    simp [Run.settle] at hbroken
    simp [hbroken] at hnone
  · rw [h.started_append_start?]
    split <;> simp [pending]

end Step

end Account

/-! ## What turns preserve -/

/-- The channels are changed without counting anything; what the run knows and does stays. -/
theorem Underway.frame (h : s.Underway d events call started r) {s' : Session} {r' : Run}
    (hrun : s'.calls[call]? = some (.running r'))
    (hkept : List.Forall₂ Outlet.Kept s.dispatcher.outlets s'.dispatcher.outlets)
    (hlanes : r'.lanes = r.lanes) (hplaced : r'.placed = r.placed)
    (hbroken : r.broken = true → r'.broken = true) : s'.Underway d events call started r' where
  run := hrun
  outlets := hkept.length_eq.symm.trans h.outlets
  lanes := hlanes ▸ h.lanes
  placed := hplaced ▸ h.placed
  each lane o ho := by
    obtain ⟨done, rest, stage, haccount⟩ := h.each lane o ho
    refine ⟨done, rest, stage, haccount.frame (fun o' => (forall₂_iff_getElem?.1 hkept).2 lane o')
      (by rw [hlanes]) (by rw [Run.resultsOf, hplaced]; rfl) hbroken⟩

/-- An event is up in an outlet that is there. -/
theorem outlet_of_up?_eq_some {lane : Nat} {o : Outlet} {c : Current}
    (hup : s.up? r lane = some (o, c)) : s.dispatcher.outlets[lane]? = some o := by
  simp only [up?, Option.bind_eq_bind, Option.bind_eq_some_iff, Option.pure_def, Option.some.injEq,
    Prod.mk.injEq] at hup
  obtain ⟨o', ho', l, -, c', -, rfl, rfl⟩ := hup
  exact ho'

/-- A step of a lane in which an event is up. -/
theorem step_of_up? {now : Instant} {lane : Nat} {w : World} {o : Outlet} {c : Current}
    (hrun : s.run? call = some r) (hup : s.up? r lane = some (o, c)) :
    s.step now call lane w =
      let result := r.step s.dispatcher.templates now w lane o c
      { dispatcher := { s.dispatcher with outlets := s.dispatcher.outlets.set lane result.2 }
        calls := s.calls.set call (.running result.1) } := by
  rw [Session.step, hrun]
  dsimp only
  rw [hup]

/-- Where no event is up a step changes nothing. -/
theorem step_of_up?_eq_none {now : Instant} {lane : Nat} {w : World}
    (hrun : s.run? call = some r) (hup : s.up? r lane = none) : s.step now call lane w = s := by
  rw [Session.step, hrun]
  dsimp only
  rw [hup]

/-- A step starts the send of the event that is up, if it has made no step yet. -/
theorem start?_step {lane : Nat} {w : World} (hrun : s.run? call = some r) :
    s.start? call (.step lane w) =
      (s.up? r lane).bind fun (_, c) => c.start?.map fun position => (lane, position) := by
  rw [start?, hrun, Option.bind_some]

/-- A step of a lane. -/
theorem Underway.step (h : s.Underway d events call started r) (now : Instant) (lane : Nat)
    (w : World) : ∃ r', (s.step now call lane w).Underway d events call
      (started ++ (s.start? call (.step lane w)).toList) r' ∧ r'.broken = r.broken := by
  rw [start?_step h.run?_eq]
  cases hup : s.up? r lane with
  | none =>
    rw [step_of_up?_eq_none h.run?_eq hup]
    exact ⟨r, by simpa using h, rfl⟩
  | some x =>
    obtain ⟨o', c⟩ := x
    rw [step_of_up? h.run?_eq hup, Option.bind_some]
    have hagree := r.agreeBut_step lane c s.dispatcher.templates now w o'
    have houtcome := r.step_outcome s.dispatcher.templates now w lane o' c
    generalize r.step s.dispatcher.templates now w lane o' c = result at hagree houtcome
    have ho' := outlet_of_up?_eq_some hup
    have hlane : lane < s.dispatcher.outlets.length := (List.getElem?_eq_some_iff.1 ho').1
    -- a step puts one result in its place at most, and that in its own lane
    refine ⟨result.1, {
      run := List.getElem?_set_self (List.getElem?_eq_some_iff.1 h.run).1
      outlets := (List.length_set ..).trans h.outlets
      lanes := hagree.length.trans h.lanes
      placed := fun p hp => ?_
      each := fun other o ho => ?_ }, hagree.broken⟩
    · rcases hagree.placed p hp with hp | rfl
      · exact h.placed p hp
      · exact h.outlets ▸ hlane
    · obtain ⟨done, rest, stage, haccount⟩ := h.each other o ho
      rw [inLane_append]
      by_cases hother : lane = other
      · -- the lane of the step
        subst hother
        obtain ⟨-, others, rfl, rfl⟩ := haccount.exists_of_up? hup
        rw [inLane_map_self]
        have hset {o'' : Outlet} : (s.dispatcher.outlets.set lane o'')[lane]? = some o'' :=
          List.getElem?_set_self hlane
        rcases houtcome with ⟨later, hlater, rfl⟩ |
          ⟨sent, channel, rfl, heventId, hchannel, hname, htally⟩
        · exact ⟨done, _, some later, haccount.setStage hlater (hset.trans ho'.symm)⟩
        · exact ⟨_, others, _,
            haccount.settle ho' heventId hchannel hname htally hset⟩
      · -- another lane
        rw [inLane_map_ne hother, List.append_nil]
        exact ⟨done, rest, stage, haccount.frame
          (fun o'' ho'' => ⟨o'', (List.getElem?_set_ne hother).trans ho'', rfl, rfl⟩)
          (hagree.lanes other hother) (hagree.results other hother)
          fun hbroken => hagree.broken.trans hbroken⟩

section Change

variable {f : Dispatcher → Except Error Dispatcher}
  (hf : ∀ d', f s.dispatcher = .ok d' → s.dispatcher.Adjusted d')

include hf

/-- A change that adjusts a channel, or is refused, counts nothing. -/
theorem kept_change (hnames : (s.dispatcher.channels.map (·.name)).Nodup) :
    List.Forall₂ Outlet.Kept s.dispatcher.outlets (s.change f).dispatcher.outlets := by
  rw [Session.change]
  cases hd' : f s.dispatcher with
  | error e => exact Outlet.kept_refl _
  | ok d' => exact (hf d' hd').kept hnames

/-- A dispatcher goes on when a channel is changed. -/
theorem continues_change : s.dispatcher.Continues (s.change f).dispatcher := by
  rw [Session.change]
  cases hd' : f s.dispatcher with
  | error e => exact .refl _
  | ok d' => exact (hf d' hd').continues

/-- A dispatch that is under way does not notice that a channel is changed. -/
theorem Underway.change (h : s.Underway d events call started r)
    (hnames : (d.channels.map (·.name)).Nodup) :
    (s.change f).Underway d events call started r :=
  h.frame h.run (kept_change hf (h.names ▸ hnames)) rfl rfl id

end Change

/-- A dispatch that sees a shutdown breaks off. -/
theorem Underway.breakOff (h : s.Underway d events call started r)
    (hclosed : s.dispatcher.closed = true) :
    (s.breakOff call).Underway d events call started { r with broken := true } := by
  rw [Session.breakOff, h.run?_eq]
  dsimp only
  rw [if_pos hclosed]
  exact h.frame (List.getElem?_set_self (List.getElem?_eq_some_iff.1 h.run).1)
    (Outlet.kept_refl _) rfl rfl fun _ => rfl

/-- What a turn preserves. A dispatch that has broken off stays so. -/
theorem Underway.turn (h : s.Underway d events call started r)
    (hnames : (d.channels.map (·.name)).Nodup) (now : Instant) (t : Turn) :
    ∃ r', (s.apply now (t.action call)).Underway d events call
      (started ++ (s.start? call t).toList) r' ∧ (r.broken = true → r'.broken = true) := by
  cases t with
  | step lane w =>
    obtain ⟨r', h', hbroken⟩ := h.step now lane w
    exact ⟨r', h', fun hr => hbroken.trans hr⟩
  -- the outlets stay as they are
  | shutdown =>
    refine ⟨r, ?_, id⟩
    change Underway d events call (started ++ []) _ r
    rw [List.append_nil]
    exact h.frame h.run (Outlet.kept_refl _) rfl rfl id
  | breakOff =>
    change ∃ r', Underway d events call (started ++ []) (s.breakOff call) r' ∧ _
    rw [List.append_nil]
    by_cases hclosed : s.dispatcher.closed = true
    · exact ⟨_, h.breakOff hclosed, fun _ => rfl⟩
    · -- there is no shutdown to be seen
      have hsame : s.breakOff call = s := by
        rw [Session.breakOff, h.run?_eq]
        exact if_neg hclosed
      exact ⟨r, hsame.symm ▸ h, id⟩
  -- edits count nothing, so that the accounts stay
  | setEnabled name enabled =>
    refine ⟨r, ?_, id⟩
    change Underway d events call (started ++ []) (s.change (·.setEnabled name enabled)) r
    rw [List.append_nil]
    exact h.change (fun d' => adjusted_of_setEnabled) hnames
  | update name patch =>
    refine ⟨r, ?_, id⟩
    change Underway d events call (started ++ []) (s.change (·.update name patch)) r
    rw [List.append_nil]
    exact h.change (fun d' => adjusted_of_update) hnames

/-- Whatever the turns of a dispatch, every lane has an account. -/
theorem Underway.after (h : s.Underway d events call started r)
    (hnames : (d.channels.map (·.name)).Nodup) (turns : List (Instant × Turn)) :
    ∃ r', (s.after call turns).Underway d events call (started ++ s.starts call turns) r' ∧
      (r.broken = true → r'.broken = true) := by
  -- `Underway` is the invariant, and the sends of each turn are added at the end
  induction turns generalizing s started r with
  | nil => exact ⟨r, by simpa [starts, Session.after] using h, id⟩
  | cons x turns ih =>
    obtain ⟨now, t⟩ := x
    obtain ⟨r', h', hbroken'⟩ := h.turn hnames now t
    obtain ⟨r'', h'', hbroken''⟩ := ih h'
    rw [List.append_assoc] at h''
    exact ⟨r'', h'', fun hr => hbroken'' (hbroken' hr)⟩

/-- A dispatcher goes on in every turn. -/
theorem continues_turn (s : Session) (call : Nat) (now : Instant) (t : Turn) :
    s.dispatcher.Continues (s.apply now (t.action call)).dispatcher := by
  cases t with
  -- a step writes the outlets of a dispatcher, and nothing else of it
  | step lane w =>
    simp only [Turn.action, apply, Session.step]
    split
    next => exact .refl _
    next =>
      split
      next => exact .refl _
      next => exact ⟨rfl, rfl, rfl, id⟩
  | shutdown => exact ⟨rfl, rfl, rfl, fun _ => rfl⟩
  | breakOff =>
    simp only [Turn.action, apply, Session.breakOff]
    split
    next =>
      split
      next => exact ⟨rfl, rfl, rfl, id⟩
      next => exact .refl _
    next => exact .refl _
  | setEnabled name enabled => exact continues_change fun d' => adjusted_of_setEnabled
  | update name patch => exact continues_change fun d' => adjusted_of_update

/-- What turns of a dispatch leave. -/
theorem continues_after (s : Session) (call : Nat) (turns : List (Instant × Turn)) :
    s.dispatcher.Continues (s.after call turns).dispatcher := by
  induction turns generalizing s with
  | nil => exact .refl _
  | cons x turns ih => exact (continues_turn s call x.1 x.2).trans (ih _)

/-- After a shutdown the dispatcher is shut down. -/
theorem closed_after_of_mem {turns : List (Instant × Turn)} {now : Instant}
    (h : (now, .shutdown) ∈ turns) : (s.after call turns).dispatcher.closed = true := by
  obtain ⟨before, later, rfl⟩ := List.append_of_mem h
  rw [after_append]
  exact (continues_after ((s.after call before).apply now .shutdown) call later).closed rfl

end Session

end Dispatcher

end MarketAlerts
