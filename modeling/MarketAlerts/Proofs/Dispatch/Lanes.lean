import MarketAlerts.Dispatch.Session
import MarketAlerts.Proofs.Channel.Sends
import MarketAlerts.Proofs.Dispatch.Arrangement
import MarketAlerts.Proofs.Keyed

/-!
# Lanes do not see each other

While a dispatch is under way, its lanes make their steps in any order. What a send meets, the time
at which its message is written and the world that answers it, may differ from send to send, but it
is given by the lane and the event (`Occasion`).

- `Run.step_cases`: a step brings an event to its next stage, or ends as `Outlet.send` does;
- `Run.agreeBut_step`: a step of a lane does not reach the other lanes;
- `Session.Dispatches.follow`: whatever the order of the steps, each lane has sent its first events
  as it would have done alone.
-/

namespace MarketAlerts

namespace Outlet

variable (o : Outlet) (lib : Template.Library) (now : Instant) (w : World) (id : Uuid) (e : Event)

theorem name_send : (o.send lib now w id e).2.channel.name = o.channel.name := by
  unfold send
  cases o.write lib now id e with
  | error fault => rfl
  | ok m => exact Channel.name_send o.channel w m

/-- The result of a send tells of the event. -/
theorem eventId_send : (o.send lib now w id e).1.eventId = e.id := by
  unfold send
  cases o.write lib now id e <;> rfl

/-- The result of a send tells of the channel. -/
theorem channel_send : (o.send lib now w id e).1.channel = o.channel.name := by
  unfold send
  cases o.write lib now id e <;> rfl

end Outlet

namespace Dispatcher

/-! ## One outlet alone -/

/-- What a send meets. -/
structure Occasion where
  /-- When its message is written. -/
  now : Instant
  /-- The world that answers it. -/
  world : World

/-- Sends events through an outlet, one after the other, each on the occasion of its position. -/
def sendEach (lib : Template.Library) (ids : Nat → Uuid) (occasions : Nat → Occasion) :
    List (Nat × Event) → Outlet → List (Nat × Sent) × Outlet
  | [], o => ([], o)
  | (position, e) :: rest, o =>
    let (sent, o) := o.send lib (occasions position).now (occasions position).world (ids position) e
    let (others, o) := sendEach lib ids occasions rest o
    ((position, sent) :: others, o)

section SendEach

variable {lib : Template.Library} {ids : Nat → Uuid} {occasions : Nat → Occasion}

/-- Where all sends meet the same, this is what `sendAll` does. -/
theorem sendEach_const (occasion : Occasion) (es : List (Nat × Event)) (o : Outlet) :
    sendEach lib ids (fun _ => occasion) es o =
      sendAll lib occasion.now occasion.world ids es o := by
  induction es generalizing o with
  | nil => rfl
  | cons e es ih => simp only [sendEach, sendAll, ih]

theorem sendEach_append (es fs : List (Nat × Event)) (o : Outlet) :
    sendEach lib ids occasions (es ++ fs) o =
      ((sendEach lib ids occasions es o).1 ++
          (sendEach lib ids occasions fs (sendEach lib ids occasions es o).2).1,
        (sendEach lib ids occasions fs (sendEach lib ids occasions es o).2).2) := by
  induction es generalizing o with
  | nil => rfl
  | cons e es ih => simp [sendEach, ih]

/-- There is a result for each event, at its position. -/
theorem map_fst_sendEach (es : List (Nat × Event)) (o : Outlet) :
    (sendEach lib ids occasions es o).1.map Prod.fst = es.map Prod.fst := by
  induction es generalizing o with
  | nil => rfl
  | cons e es ih => simp [sendEach, ih]

/-- Each result tells of the event at its position and of the channel. -/
theorem exists_of_mem_sendEach {es : List (Nat × Event)} {o : Outlet} {position : Nat} {sent : Sent}
    (h : (position, sent) ∈ (sendEach lib ids occasions es o).1) :
    ∃ e, (position, e) ∈ es ∧ sent.eventId = e.id ∧ sent.channel = o.channel.name := by
  induction es generalizing o with
  | nil => cases h
  | cons x es ih =>
    obtain ⟨p, e⟩ := x
    rcases List.mem_cons.1 h with hfirst | hrest
    · cases hfirst
      exact ⟨e, List.mem_cons_self, Outlet.eventId_send .., Outlet.channel_send ..⟩
    · obtain ⟨f, hf, hid, hchannel⟩ := ih hrest
      exact ⟨f, List.mem_cons_of_mem _ hf, hid, hchannel.trans (Outlet.name_send ..)⟩

end SendEach

section Accepted

variable (route : Route) (events : List Event)

/-- The events of an outlet are those that its route accepts. -/
theorem mem_accepted {position : Nat} {e : Event} :
    (position, e) ∈ accepted route events ↔
      events[position]? = some e ∧ route.accepts e = true := by
  simp only [accepted, List.mem_map, List.mem_filter, List.mem_zipIdx_iff_getElem?, Prod.mk.injEq]
  constructor
  · rintro ⟨⟨_, _⟩, hx, rfl, rfl⟩
    exact hx
  · intro hx
    exact ⟨(e, position), hx, rfl, rfl⟩

theorem nodup_accepted : ((accepted route events).map Prod.fst).Nodup := by
  have hpositions : (events.zipIdx.map Prod.snd).Nodup := by
    rw [List.zipIdx_map_snd]
    exact List.nodup_range'
  rw [accepted, List.map_map]
  exact hpositions.sublist (List.filter_sublist.map _)

end Accepted

/-- Sends events through the outlet of a lane as if it were alone. -/
def sendAlone (d : Dispatcher) (occasions : Nat → Nat → Occasion) (lane : Nat) :
    List (Nat × Event) → Outlet → List (Nat × Sent) × Outlet :=
  sendEach d.templates (messageId d.supply d.outlets.length · lane) (occasions lane)

/-- A lane has one result for each event, in the same order. -/
theorem map_fst_sendAlone (d : Dispatcher) (occasions : Nat → Nat → Occasion) (lane : Nat)
    (es : List (Nat × Event)) (o : Outlet) :
    (d.sendAlone occasions lane es o).1.map Prod.fst = es.map Prod.fst :=
  map_fst_sendEach es o

/-- A lane knows of each event once at most. -/
theorem nodup_sendAlone (d : Dispatcher) (occasions : Nat → Nat → Occasion) (lane : Nat)
    (route : Route) (events : List Event) (o : Outlet) :
    ((d.sendAlone occasions lane (accepted route events) o).1.map Prod.fst).Nodup := by
  rw [map_fst_sendAlone]
  exact nodup_accepted route events

/-! ## One step of an event -/

/-- How many steps an event has made. -/
def Stage.rank : Stage → Nat
  | .queued => 0
  | .written _ => 1
  | .begun _ _ => 2

/-- An event that is up has made two steps at most. -/
theorem Stage.rank_le (stage : Stage) : stage.rank ≤ 2 := by
  cases stage <;> simp [rank]

/-- Whether what has been done for an event is what the outlet does for it. -/
def Stage.Follows (o : Outlet) (lib : Template.Library) (now : Instant) (id : Uuid) (e : Event) :
    Stage → Prop
  | .queued => True
  | .written m => o.write lib now id e = .ok m
  | .begun m d => o.write lib now id e = .ok m ∧ o.channel.begin m = .ok d

/-- A step brings an event to a later stage, or it ends as the outlet's `send` does. -/
theorem Run.step_cases (r : Run) {lib : Template.Library} {now : Instant} (w : World) {lane : Nat}
    {o : Outlet} {c : Current}
    (h : c.stage.Follows o lib now (messageId r.supply r.lanes.length c.position lane) c.event) :
    let id := messageId r.supply r.lanes.length c.position lane
    (∃ stage : Stage, stage.Follows o lib now id c.event ∧ c.stage.rank < stage.rank ∧
      r.step lib now w lane o c = (r.setStage lane stage, o)) ∨
    r.step lib now w lane o c =
      (r.settle lane c (o.send lib now w id c.event).1, (o.send lib now w id c.event).2) := by
  intro id
  obtain ⟨position, e, stage⟩ := c
  cases stage with
  -- what a stage has so far is what a send at once would have, up to here
  | queued =>
    cases hwrite : o.write lib now id e with
    | error fault => exact .inr (by simp only [step, Outlet.send, hwrite, id])
    | ok m => exact .inl ⟨.written m, hwrite, Nat.zero_lt_one, by simp only [step, hwrite, id]⟩
  | written m =>
    have hwrite : o.write lib now id e = .ok m := h
    cases hbegin : o.channel.begin m with
    | error fault =>
      refine .inr ?_
      simp only [step, Outlet.send, hwrite, Channel.send, hbegin]
      rfl
    | ok d =>
      exact .inl ⟨.begun m d, ⟨hwrite, hbegin⟩, Nat.one_lt_two, by simp only [step, hbegin]⟩
  | begun m d =>
    obtain ⟨hwrite, hbegin⟩ : o.write lib now id e = .ok m ∧ o.channel.begin m = .ok d := h
    refine .inr ?_
    simp only [step, Outlet.send, hwrite, Channel.send, hbegin]

/-! ## The lanes of a run -/

/-- What is known of the events of a lane, in the order in which it came to be known. -/
def Run.resultsOf (r : Run) (lane : Nat) : List (Nat × Sent) :=
  (r.placed.filter fun p => p.lane = lane).map fun p => (p.position, p.sent)

/-- The results of a lane are those that were put in its places. -/
theorem Run.mem_resultsOf {r : Run} {lane position : Nat} {sent : Sent} :
    (position, sent) ∈ r.resultsOf lane ↔ ⟨position, lane, sent⟩ ∈ r.placed := by
  simp only [resultsOf, List.mem_map, List.mem_filter, decide_eq_true_eq, Prod.mk.injEq]
  constructor
  · rintro ⟨⟨_, _, _⟩, ⟨hp, rfl⟩, rfl, rfl⟩
    exact hp
  · intro hp
    exact ⟨_, ⟨hp, rfl⟩, rfl, rfl⟩

/-- Where no lane knows a result twice, no entry is there twice. -/
theorem Run.nodup_placed {r : Run} (h : ∀ p ∈ r.placed, (r.resultsOf p.lane).Nodup) :
    r.placed.Nodup := by
  rw [List.nodup_iff_sublist]
  intro p hp
  -- an entry that is there twice is twice among the results of its lane
  have hresults : [(p.position, p.sent), (p.position, p.sent)].Sublist (r.resultsOf p.lane) := by
    have hfilter := hp.filter fun q => decide (q.lane = p.lane)
    simpa [resultsOf] using hfilter.map fun q => (q.position, q.sent)
  exact List.nodup_iff_sublist.1 (h p (hp.subset List.mem_cons_self)) _ hresults

/-- Two runs that differ in one lane at most. -/
structure Run.AgreeBut (lane : Nat) (r r' : Run) : Prop where
  supply : r'.supply = r.supply
  broken : r'.broken = r.broken
  length : r'.lanes.length = r.lanes.length
  placed : ∀ p ∈ r'.placed, p ∈ r.placed ∨ p.lane = lane
  lanes : ∀ other, lane ≠ other → r'.lanes[other]? = r.lanes[other]?
  results : ∀ other, lane ≠ other → r'.resultsOf other = r.resultsOf other

section Run

variable (r : Run) (lane : Nat) (c : Current) (sent : Sent) (stage : Stage)

/-- A result that is settled is the last one of its lane. -/
theorem Run.resultsOf_settle_self :
    (r.settle lane c sent).resultsOf lane = r.resultsOf lane ++ [(c.position, sent)] := by
  simp [resultsOf, settle]

/-- A result that is settled leaves the other lanes as they are. -/
theorem Run.agreeBut_settle : AgreeBut lane r (r.settle lane c sent) where
  supply := rfl
  broken := rfl
  length := List.length_modify ..
  placed p hp := by
    rcases List.mem_append.1 hp with hp | hp
    · exact .inl hp
    · rw [List.mem_singleton.1 hp]
      exact .inr rfl
  lanes _ hother := List.getElem?_modify_ne _ _ hother
  results other hother := by simp [resultsOf, settle, hother]

/-- A later stage of an event leaves the other lanes as they are. -/
theorem Run.agreeBut_setStage : AgreeBut lane r (r.setStage lane stage) where
  supply := rfl
  broken := rfl
  length := List.length_modify ..
  placed _ hp := .inl hp
  lanes _ hother := List.getElem?_modify_ne _ _ hother
  results _ _ := rfl

/-- A step of a lane does not reach the others. -/
theorem Run.agreeBut_step (lib : Template.Library) (now : Instant) (w : World) (o : Outlet) :
    AgreeBut lane r (r.step lib now w lane o c).1 := by
  unfold step
  split
  next =>
    split
    next => exact agreeBut_settle ..
    next => exact agreeBut_setStage ..
  next =>
    split
    next => exact agreeBut_settle ..
    next => exact agreeBut_setStage ..
  next => exact agreeBut_settle ..

end Run

/-- Of two stages the later one holds. -/
@[simp]
theorem Lane.setStage_setStage (l : Lane) (stage stage' : Stage) :
    (l.setStage stage).setStage stage' = l.setStage stage' := by
  cases l with
  | mk current upcoming => cases current <;> rfl

/-- An event that comes up has not made a step. -/
theorem Lane.setStage_queued_ofEvents (es : List (Nat × Event)) :
    (ofEvents es).setStage .queued = ofEvents es := by
  cases es <;> rfl

/-! ## A dispatch -/

/-- How a lane stands: the events `done` of its outlet `o` are sent as the outlet alone would send
them, and the first one of `rest` is up. After so many steps of the lane, not more are left than the
three that each event makes. -/
structure Session.InLane (d : Dispatcher) (occasions : Nat → Nat → Occasion) (s : Session) (r : Run)
    (lane steps : Nat) (o : Outlet) (es : List (Nat × Event)) (done rest : List (Nat × Event))
    (stage : Stage) : Prop where
  events : es = done ++ rest
  outlet : s.dispatcher.outlets[lane]? = some (d.sendAlone occasions lane done o).2
  results : r.resultsOf lane = (d.sendAlone occasions lane done o).1
  current : r.lanes[lane]? = some ((Lane.ofEvents rest).setStage stage)
  follows : ∀ x ∈ rest.head?, stage.Follows (d.sendAlone occasions lane done o).2 d.templates
    (occasions lane x.1).now (messageId d.supply d.outlets.length x.1 lane) x.2
  bound : rest ≠ [] → 3 * rest.length + steps ≤ 3 * es.length + stage.rank

/-- How a session stands in which only the dispatch of a call makes steps, so many in each lane. -/
structure Session.Dispatches (d : Dispatcher) (events : List Event)
    (occasions : Nat → Nat → Occasion) (call : Nat) (steps : Nat → Nat) (s : Session) (r : Run) :
    Prop where
  run : s.calls[call]? = some (.running r)
  templates : s.dispatcher.templates = d.templates
  outlets : s.dispatcher.outlets.length = d.outlets.length
  supply : r.supply = d.supply
  lanes : r.lanes.length = d.outlets.length
  broken : r.broken = false
  placed : ∀ p ∈ r.placed, p.lane < d.outlets.length
  each : ∀ (lane : Nat) (o : Outlet), d.outlets[lane]? = some o → ∃ done rest stage,
    s.InLane d occasions r lane (steps lane) o (accepted o.route events) done rest stage

namespace Session

/-- The event that is up in a lane makes its next step, on the occasion of its send. -/
def stepOn (s : Session) (call : Nat) (occasions : Nat → Nat → Occasion) (lane : Nat) : Session :=
  match (s.run? call).bind fun r => s.up? r lane with
  | none => s
  | some (_, c) =>
    let occasion := occasions lane c.position
    s.step occasion.now call lane occasion.world

/-- Lanes make steps in this order. -/
def follow (s : Session) (call : Nat) (occasions : Nat → Nat → Occasion) (order : List Nat) :
    Session :=
  order.foldl (fun s lane => s.stepOn call occasions lane) s

variable {d : Dispatcher} {events : List Event} {occasions : Nat → Nat → Occasion} {call : Nat}
  {steps : Nat → Nat} {s : Session} {r : Run}

/-- A dispatch is under way as soon as it is called for. -/
theorem dispatches_call (hopen : d.closed = false) (calls : List Call) (events : List Event)
    (occasions : Nat → Nat → Occasion) :
    ∃ r, ((Session.mk d calls).call events).Dispatches d events occasions calls.length
      (fun _ => 0) r := by
  rw [Session.call, hopen, if_neg Bool.false_ne_true]
  refine ⟨_, {
    run := List.getElem?_concat_length
    templates := rfl
    outlets := rfl
    supply := rfl
    lanes := List.length_map _
    broken := rfl
    placed := fun p hp => by simp at hp
    each := fun lane o ho => ⟨[], accepted o.route events, .queued, {
      events := rfl
      outlet := ho
      results := rfl
      current := ?_
      follows := fun _ _ => trivial
      bound := fun _ => Nat.le_refl _ }⟩ }⟩
  -- the first event of each lane is up, and has made no step
  rw [Lane.setStage_queued_ofEvents, List.getElem?_map, ho]
  rfl

section InLane

variable {lane k : Nat} {o : Outlet} {es done rest : List (Nat × Event)} {stage : Stage}

/-- A lane stands as before where nothing of it changes. -/
theorem InLane.frame (h : s.InLane d occasions r lane k o es done rest stage) {s' : Session}
    {r' : Run} (houtlet : s'.dispatcher.outlets[lane]? = s.dispatcher.outlets[lane]?)
    (hcurrent : r'.lanes[lane]? = r.lanes[lane]?)
    (hresults : r'.resultsOf lane = r.resultsOf lane) :
    s'.InLane d occasions r' lane k o es done rest stage :=
  { h with
    outlet := houtlet.trans h.outlet
    results := hresults.trans h.results
    current := hcurrent.trans h.current }

/-- The event that is up in a lane is the first of those that are left, and its outlet is as those
before have left it. -/
theorem InLane.up?_eq (h : s.InLane d occasions r lane k o es done rest stage) :
    s.up? r lane = rest.head?.map fun x =>
      ((d.sendAlone occasions lane done o).2, ⟨x.1, x.2, stage⟩) := by
  simp only [up?, h.outlet, h.current]
  cases rest <;> rfl

/-- A step of a lane whose events are not all sent. -/
theorem InLane.step {position : Nat} {e : Event}
    (h : s.InLane d occasions r lane k o es done ((position, e) :: rest) stage)
    (hsupply : r.supply = d.supply) (hlanes : r.lanes.length = d.outlets.length)
    (hbroken : r.broken = false) {s' : Session} {r' : Run} {o' : Outlet}
    (hstep : r.step d.templates (occasions lane position).now (occasions lane position).world lane
      (d.sendAlone occasions lane done o).2 ⟨position, e, stage⟩ = (r', o'))
    (houtlet : s'.dispatcher.outlets[lane]? = some o') :
    ∃ done rest stage, s'.InLane d occasions r' lane (k + 1) o es done rest stage := by
  have hbound := h.bound (List.cons_ne_nil _ _)
  have hfollows := h.follows (position, e) rfl
  rw [← hsupply, ← hlanes] at hfollows
  rcases r.step_cases (c := ⟨position, e, stage⟩) (occasions lane position).world hfollows with
    ⟨later, hlater, hrank, hcase⟩ | hcase
  · -- the event stays up at a later stage
    rw [hcase, Prod.mk.injEq] at hstep
    obtain ⟨rfl, rfl⟩ := hstep
    refine ⟨done, (position, e) :: rest, later, {
      events := h.events
      outlet := houtlet
      results := h.results
      current := ?_
      follows := ?_
      bound := fun _ => ?_ }⟩
    · rw [Run.setStage, List.getElem?_modify_eq, h.current]
      simp
    · rintro x ⟨⟩
      rwa [hsupply, hlanes] at hlater
    · dsimp only at hrank
      omega
  · -- the event is sent, and the next one comes up
    rw [hcase, Prod.mk.injEq] at hstep
    obtain ⟨rfl, rfl⟩ := hstep
    refine ⟨done ++ [(position, e)], rest, .queued, {
      events := by rw [h.events, List.append_assoc, List.singleton_append]
      outlet := ?_
      results := ?_
      current := ?_
      follows := fun _ _ => trivial
      bound := fun _ => ?_ }⟩
    · rw [houtlet, sendAlone, sendEach_append, hsupply, hlanes]
      rfl
    · rw [Run.resultsOf_settle_self, h.results, sendAlone, sendEach_append, hsupply, hlanes]
      rfl
    · rw [Lane.setStage_queued_ofEvents, Run.settle, List.getElem?_modify_eq, h.current, hbroken]
      rfl
    · rw [List.length_cons] at hbound
      have hrank := stage.rank_le
      simp only [Stage.rank]
      omega

end InLane

/-- A lane without an event that is up makes no step. -/
theorem Dispatches.idle (h : s.Dispatches d events occasions call steps r) {lane : Nat}
    (hup : s.up? r lane = none) :
    s.Dispatches d events occasions call (Function.update steps lane (steps lane + 1)) r := by
  refine { h with each := fun other o ho => ?_ }
  obtain ⟨done, rest, stage, hin⟩ := h.each other o ho
  by_cases hother : other = lane
  · subst hother
    have hrest : rest = [] := by
      rw [hin.up?_eq] at hup
      simpa using hup
    exact ⟨done, rest, stage, { hin with bound := fun hne => absurd hrest hne }⟩
  · rw [Function.update_of_ne hother]
    exact ⟨done, rest, stage, hin⟩

/-- An event is up only where there was an outlet at the beginning. -/
theorem Dispatches.exists_outlet (h : s.Dispatches d events occasions call steps r) {lane : Nat}
    {o : Outlet} {c : Current} (hup : s.up? r lane = some (o, c)) :
    ∃ o₀, d.outlets[lane]? = some o₀ := by
  obtain ⟨o', ho', -⟩ := Option.bind_eq_some_iff.1 hup
  have hlane : lane < d.outlets.length := h.outlets ▸ (List.getElem?_eq_some_iff.1 ho').1
  exact ⟨d.outlets[lane], List.getElem?_eq_getElem hlane⟩

/-- What a step of a lane preserves. -/
theorem Dispatches.step (h : s.Dispatches d events occasions call steps r) (lane : Nat) :
    ∃ r', (s.stepOn call occasions lane).Dispatches d events occasions call
      (Function.update steps lane (steps lane + 1)) r' := by
  have hrun : s.run? call = some r := by simp [run?, h.run]
  rw [stepOn, hrun, Option.bind_some]
  cases hup : s.up? r lane with
  | none => exact ⟨r, h.idle hup⟩
  | some x =>
    obtain ⟨o, c⟩ := x
    have hstep : s.step (occasions lane c.position).now call lane
        (occasions lane c.position).world =
        let result := r.step s.dispatcher.templates (occasions lane c.position).now
          (occasions lane c.position).world lane o c
        { dispatcher := { s.dispatcher with outlets := s.dispatcher.outlets.set lane result.2 }
          calls := s.calls.set call (.running result.1) } := by
      rw [Session.step, hrun]
      dsimp only
      rw [hup]
    dsimp only
    rw [hstep]
    have hagree := r.agreeBut_step lane c s.dispatcher.templates (occasions lane c.position).now
      (occasions lane c.position).world o
    -- of the step itself only its effect on other lanes and its result matter
    generalize hresult : r.step s.dispatcher.templates (occasions lane c.position).now
      (occasions lane c.position).world lane o c = result at hagree
    refine ⟨result.1, {
      run := List.getElem?_set_self (List.getElem?_eq_some_iff.1 h.run).1
      templates := h.templates
      outlets := (List.length_set ..).trans h.outlets
      supply := hagree.supply.trans h.supply
      lanes := hagree.length.trans h.lanes
      broken := hagree.broken.trans h.broken
      placed := fun p hp => ?_
      each := fun other o₀ ho₀ => ?_ }⟩
    · rcases hagree.placed p hp with hp | rfl
      · exact h.placed p hp
      · obtain ⟨o₀, ho₀⟩ := h.exists_outlet hup
        exact (List.getElem?_eq_some_iff.1 ho₀).1
    · obtain ⟨done, rest, stage, hin⟩ := h.each other o₀ ho₀
      by_cases hother : lane = other
      · -- the lane that makes the step
        subst hother
        rw [hin.up?_eq] at hup
        cases rest with
        | nil => cases hup
        | cons x rest =>
          cases hup
          rw [h.templates] at hresult
          rw [Function.update_self]
          refine hin.step h.supply h.lanes h.broken hresult (List.getElem?_set_self ?_)
          exact (List.getElem?_eq_some_iff.1 hin.outlet).1
      · -- any other lane stands as before
        rw [Function.update_of_ne (Ne.symm hother)]
        exact ⟨done, rest, stage, hin.frame (List.getElem?_set_ne hother)
          (hagree.lanes other hother) (hagree.results other hother)⟩

/-- What lanes preserve, whatever the order of their steps. -/
theorem Dispatches.follow (h : s.Dispatches d events occasions call steps r) (order : List Nat) :
    ∃ r', (s.follow call occasions order).Dispatches d events occasions call
      (fun lane => steps lane + order.count lane) r' := by
  induction order generalizing s r steps with
  | nil => exact ⟨r, h⟩
  | cons lane order ih =>
    obtain ⟨r', hr'⟩ := h.step lane
    obtain ⟨r'', hr''⟩ := ih hr'
    -- the step counts for its lane only
    have hsteps : (fun other => Function.update steps lane (steps lane + 1) other +
        order.count other) = fun other => steps other + (lane :: order).count other := by
      funext other
      rw [List.count_cons]
      by_cases hother : other = lane
      · subst hother
        simp [Nat.add_comm, Nat.add_left_comm]
      · rw [Function.update_of_ne hother]
        simp [Ne.symm hother]
    exact ⟨r'', hsteps ▸ hr''⟩

end Session

end Dispatcher

end MarketAlerts
