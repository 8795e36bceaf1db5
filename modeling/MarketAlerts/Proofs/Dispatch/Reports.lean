import MarketAlerts.Proofs.Dispatch.Lanes

/-!
# The report of a dispatch

- `follow_close`: the report of a dispatch that nothing interrupts, and its outlets after it, do
  not depend on the order in which its lanes make their steps.
-/

namespace MarketAlerts.Dispatcher

/-- What becomes of the events that go through the outlet of a lane, if it were alone, and the
outlet after them. -/
def laneAlone? (d : Dispatcher) (events : List Event) (occasions : Nat → Nat → Occasion)
    (lane : Nat) : Option (List (Nat × Sent) × Outlet) :=
  d.outlets[lane]?.map fun o => d.sendAlone occasions lane (accepted o.route events) o

/-- What becomes of the event at a position in the outlet at a position, if that were alone. -/
def sent? (d : Dispatcher) (events : List Event) (occasions : Nat → Nat → Occasion)
    (lane position : Nat) : Option Sent :=
  (d.laneAlone? events occasions lane).bind fun run => run.1.lookup position

variable {d : Dispatcher} {events : List Event} {occasions : Nat → Nat → Occasion}

/-- The result for an event is that which its outlet has when it is alone. -/
theorem sent?_eq_some_iff {lane position : Nat} {sent : Sent} :
    d.sent? events occasions lane position = some sent ↔
      ∃ o, d.outlets[lane]? = some o ∧
        (position, sent) ∈ (d.sendAlone occasions lane (accepted o.route events) o).1 := by
  simp only [sent?, laneAlone?, Option.bind_map, Option.bind_eq_some_iff, Function.comp_apply]
  exact exists_congr fun o => and_congr_right fun _ =>
    Keyed.lookup_eq_some_iff_mem (d.nodup_sendAlone occasions lane o.route events o)

/-- There is a result for an event and an outlet exactly if the route accepts the event. -/
theorem isSome_sent?_iff {lane position : Nat} {o : Outlet} (ho : d.outlets[lane]? = some o) :
    (d.sent? events occasions lane position).isSome ↔
      ∃ e, events[position]? = some e ∧ o.route.accepts e = true := by
  have hpositions : position ∈ (d.sendAlone occasions lane (accepted o.route events) o).1.map
      Prod.fst ↔ position ∈ (accepted o.route events).map Prod.fst := by
    rw [map_fst_sendAlone]
  simp only [List.mem_map, Prod.exists, exists_and_right, exists_eq_right, mem_accepted]
    at hpositions
  rw [← hpositions, Option.isSome_iff_exists]
  simp [sent?_eq_some_iff, ho]

/-- A result tells of its event and of its channel. -/
theorem of_sent?_eq_some {lane position : Nat} {sent : Sent}
    (h : d.sent? events occasions lane position = some sent) :
    ∃ o e, d.outlets[lane]? = some o ∧ events[position]? = some e ∧ o.route.accepts e = true ∧
      sent.eventId = e.id ∧ sent.channel = o.channel.name := by
  obtain ⟨o, ho, hmem⟩ := sent?_eq_some_iff.1 h
  obtain ⟨e, he, hid, hchannel⟩ := exists_of_mem_sendEach hmem
  obtain ⟨hposition, haccepts⟩ := (mem_accepted o.route events).1 he
  exact ⟨o, e, ho, hposition, haccepts, hid, hchannel⟩

namespace Session

variable {call : Nat} {steps : Nat → Nat} {s : Session} {r : Run}

/-- In a lane without an event that is up, all events are sent. -/
theorem InLane.rest_eq_nil {lane k : Nat} {o : Outlet} {es done rest : List (Nat × Event)}
    {stage : Stage} (h : s.InLane d occasions r lane k o es done rest stage)
    (hidle : r.isIdle = true) : rest = [] := by
  have hcurrent := List.all_eq_true.1 hidle _ (List.mem_of_getElem? h.current)
  cases rest with
  | nil => rfl
  | cons x rest => cases hcurrent

/-- Once nothing is left to do, each lane has sent its events as it would have done alone. -/
theorem Dispatches.of_isIdle (h : s.Dispatches d events occasions call steps r)
    (hidle : r.isIdle = true) {lane : Nat} {o : Outlet} (ho : d.outlets[lane]? = some o) :
    r.resultsOf lane = (d.sendAlone occasions lane (accepted o.route events) o).1 ∧
      s.dispatcher.outlets[lane]? =
        some (d.sendAlone occasions lane (accepted o.route events) o).2 := by
  obtain ⟨done, rest, stage, hin⟩ := h.each lane o ho
  have hevents := hin.events
  rw [hin.rest_eq_nil hidle, List.append_nil] at hevents
  rw [hevents]
  exact ⟨hin.results, hin.outlet⟩

/-- When nothing is left to do, the results in their places are those of the lanes alone. -/
theorem Dispatches.mem_placed (h : s.Dispatches d events occasions call steps r)
    (hidle : r.isIdle = true) (p : Placed) :
    p ∈ r.placed ↔ p.position < events.length ∧ p.lane < d.outlets.length ∧
      d.sent? events occasions p.lane p.position = some p.sent := by
  rw [sent?_eq_some_iff]
  constructor
  · intro hp
    have hlane := h.placed p hp
    have ho : d.outlets[p.lane]? = some d.outlets[p.lane] := List.getElem?_eq_getElem hlane
    have hmem : (p.position, p.sent) ∈ r.resultsOf p.lane := Run.mem_resultsOf.2 hp
    rw [(h.of_isIdle hidle ho).1] at hmem
    obtain ⟨e, he, -⟩ := exists_of_mem_sendEach hmem
    have hposition := ((mem_accepted _ events).1 he).1
    exact ⟨(List.getElem?_eq_some_iff.1 hposition).1, hlane, _, ho, hmem⟩
  · rintro ⟨-, -, o, ho, hmem⟩
    rw [← (h.of_isIdle hidle ho).1] at hmem
    exact Run.mem_resultsOf.1 hmem

theorem Dispatches.nodup_placed (h : s.Dispatches d events occasions call steps r)
    (hidle : r.isIdle = true) : r.placed.Nodup := by
  refine Run.nodup_placed fun p hp => ?_
  have hlane := h.placed p hp
  have ho : d.outlets[p.lane]? = some d.outlets[p.lane] := List.getElem?_eq_getElem hlane
  rw [(h.of_isIdle hidle ho).1]
  exact List.Nodup.of_map Prod.fst (d.nodup_sendAlone occasions p.lane _ events _)

/-- A lane that makes three steps for each of its events has nothing left to do. -/
theorem Dispatches.isIdle (h : s.Dispatches d events occasions call steps r)
    (hsteps : ∀ lane o, d.outlets[lane]? = some o →
      3 * (accepted o.route events).length ≤ steps lane) : r.isIdle = true := by
  refine List.all_eq_true.2 fun l hl => ?_
  obtain ⟨lane, hlane, rfl⟩ := List.getElem_of_mem hl
  have ho : d.outlets[lane]? = some (d.outlets.get ⟨lane, h.lanes ▸ hlane⟩) :=
    List.getElem?_eq_getElem _
  obtain ⟨done, rest, stage, hin⟩ := h.each lane _ ho
  have hbound := hsteps lane _ ho
  -- an event that is left has at most two steps behind it, so that the lane has steps left
  have hrest : rest = [] := by
    by_contra hne
    have hleft := hin.bound hne
    have hpos := List.length_pos_iff.2 hne
    have hrank := stage.rank_le
    omega
  have hcurrent := hin.current
  rw [hrest, List.getElem?_eq_getElem hlane, Option.some.injEq] at hcurrent
  rw [hcurrent]
  rfl

/-- The run of the dispatch is found under its call. -/
theorem Dispatches.run?_eq (h : s.Dispatches d events occasions call steps r) :
    s.run? call = some r := by
  simp [run?, h.run]

/-- The report of a dispatch that has nothing left to do, and the outlets after it. -/
theorem Dispatches.close (h : s.Dispatches d events occasions call steps r)
    (hidle : r.isIdle = true) (filed : Nat → Instant) :
    (s.close filed call).report? call = some {
      deliveries := (List.range events.length).flatMap fun position =>
        (List.range d.outlets.length).filterMap fun lane => d.sent? events occasions lane position
      cancelled := false } ∧
    ∀ lane, (s.close filed call).dispatcher.outlets[lane]? =
      (d.laneAlone? events occasions lane).map Prod.snd := by
  have hcall : call < s.calls.length := (List.getElem?_eq_some_iff.1 h.run).1
  rw [Session.close, h.run?_eq]
  simp only [hidle, Bool.or_true, if_pos]
  constructor
  · rw [report?, List.getElem?_set_self hcall,
      arrange_eq (h.nodup_placed hidle) (h.mem_placed hidle), h.broken]
  · intro lane
    rw [laneAlone?]
    cases ho : d.outlets[lane]? with
    | some o => exact (h.of_isIdle hidle ho).2
    | none =>
      -- there is no such outlet, before or after
      have hlane : s.dispatcher.outlets.length ≤ lane := by
        rw [h.outlets]
        exact List.getElem?_eq_none_iff.1 ho
      exact List.getElem?_eq_none hlane

end Session

/-- The lanes of a dispatch do not see each other. For every dispatcher that is not shut down, all
events, every occasion of each send and every order in which lanes make their steps:

- at every moment each outlet has sent the first of its events, one after the other, and it stands
  as if it alone had sent them;
- a lane that makes three steps for each of its events has nothing left to do;
- once nothing is left to do, the report is not cancelled, it lists the results by event and then by
  outlet, and every outlet is as if it alone had sent all its events;
- in that list there is exactly one result for each event and each outlet that accepts it. -/
theorem follow_close {d : Dispatcher} (hopen : d.closed = false) (calls : List Call)
    (events : List Event) (occasions : Nat → Nat → Occasion) (order : List Nat) :
    let call := calls.length
    let s := ((Session.mk d calls).call events).follow call occasions order
    (∀ (lane : Nat) (o : Outlet), d.outlets[lane]? = some o → ∃ r done rest,
      s.run? call = some r ∧ accepted o.route events = done ++ rest ∧
      r.resultsOf lane = (d.sendAlone occasions lane done o).1 ∧
      s.dispatcher.outlets[lane]? = some (d.sendAlone occasions lane done o).2) ∧
    ((∀ (lane : Nat) (o : Outlet), d.outlets[lane]? = some o →
        3 * (accepted o.route events).length ≤ order.count lane) →
      ∃ r, s.run? call = some r ∧ r.isIdle = true) ∧
    (∀ (r : Run) (filed : Nat → Instant), s.run? call = some r → r.isIdle = true →
      (s.close filed call).report? call = some {
        deliveries := (List.range events.length).flatMap fun position =>
          (List.range d.outlets.length).filterMap fun lane => d.sent? events occasions lane position
        cancelled := false } ∧
      ∀ lane, (s.close filed call).dispatcher.outlets[lane]? =
        (d.laneAlone? events occasions lane).map Prod.snd) ∧
    ∀ (lane position : Nat) (o : Outlet), d.outlets[lane]? = some o →
      ((d.sent? events occasions lane position).isSome ↔
        ∃ e, events[position]? = some e ∧ o.route.accepts e = true) ∧
      ∀ sent, d.sent? events occasions lane position = some sent →
        ∃ e, events[position]? = some e ∧ sent.eventId = e.id ∧ sent.channel = o.channel.name := by
  intro call s
  -- the lanes stand after any steps as each would alone
  obtain ⟨r₀, hstart⟩ := Session.dispatches_call hopen calls events occasions
  obtain ⟨r, hr⟩ := hstart.follow order
  have hrun : s.run? call = some r := hr.run?_eq
  refine ⟨fun lane o ho => ?_, fun hsteps => ?_, fun r' filed hr' hidle => ?_,
    fun lane position o ho => ⟨isSome_sent?_iff ho, fun sent hsent => ?_⟩⟩
  · obtain ⟨done, rest, stage, hin⟩ := hr.each lane o ho
    exact ⟨r, done, rest, hrun, hin.events, hin.results, hin.outlet⟩
  · exact ⟨r, hrun, hr.isIdle fun lane o ho => by simpa using hsteps lane o ho⟩
  · -- there is one run under the call, and it is the one with nothing left to do
    rw [hrun, Option.some.injEq] at hr'
    subst hr'
    exact hr.close hidle filed
  · obtain ⟨o', e, ho', he, -, hid, hchannel⟩ := of_sent?_eq_some hsent
    rw [ho, Option.some.injEq] at ho'
    subst ho'
    exact ⟨e, he, hid, hchannel⟩

/-- The results of all lanes, lane by lane. -/
def laneByLane (d : Dispatcher) (events : List Event) (occasions : Nat → Nat → Occasion) :
    List Placed :=
  d.outlets.zipIdx.flatMap fun (o, lane) =>
    (d.sendAlone occasions lane (accepted o.route events) o).1.map fun (position, sent) =>
      ⟨position, lane, sent⟩

/-- Lane by lane, the results are those for the events and outlets there are. -/
theorem mem_laneByLane {p : Placed} : p ∈ d.laneByLane events occasions ↔
    p.position < events.length ∧ p.lane < d.outlets.length ∧
      d.sent? events occasions p.lane p.position = some p.sent := by
  rw [sent?_eq_some_iff]
  simp only [laneByLane, List.mem_flatMap, List.mem_map, List.mem_zipIdx_iff_getElem?]
  constructor
  · rintro ⟨⟨o, lane⟩, ho, ⟨position, sent⟩, hmem, rfl⟩
    obtain ⟨e, he, -⟩ := exists_of_mem_sendEach hmem
    have hposition := ((mem_accepted o.route events).1 he).1
    exact ⟨(List.getElem?_eq_some_iff.1 hposition).1, (List.getElem?_eq_some_iff.1 ho).1, o, ho,
      hmem⟩
  · rintro ⟨-, -, o, ho, hmem⟩
    exact ⟨(o, p.lane), ho, (p.position, p.sent), hmem, rfl⟩

theorem nodup_laneByLane : (d.laneByLane events occasions).Nodup := by
  have hlanes : (d.outlets.zipIdx.map Prod.snd).Nodup := by
    rw [List.zipIdx_map_snd]
    exact List.nodup_range'
  rw [laneByLane, List.nodup_flatMap]
  constructor
  · rintro ⟨o, lane⟩ _
    refine List.Nodup.of_map Placed.position ?_
    rw [List.map_map]
    exact d.nodup_sendAlone occasions lane o.route events o
  · -- entries of distinct lanes are distinct
    refine (List.pairwise_map.1 hlanes).imp fun {x y} hxy p hx hy => ?_
    obtain ⟨_, _, rfl⟩ := List.mem_map.1 hx
    obtain ⟨_, _, hp⟩ := List.mem_map.1 hy
    exact hxy (congrArg Placed.lane hp).symm

/-- A dispatch that goes through its lanes one after the other comes to the same report, and leaves
the same outlets. -/
theorem dispatch_eq (hopen : d.closed = false) (occasion : Occasion) :
    let result := d.dispatch occasion.now occasion.world events
    result.1 = {
      deliveries := (List.range events.length).flatMap fun position =>
        (List.range d.outlets.length).filterMap fun lane =>
          d.sent? events (fun _ _ => occasion) lane position
      cancelled := false } ∧
    ∀ lane, result.2.outlets[lane]? =
      (d.laneAlone? events (fun _ _ => occasion) lane).map Prod.snd := by
  rw [dispatch, hopen, if_neg Bool.false_ne_true]
  simp only [← sendEach_const]
  constructor
  · -- lane by lane is another order of the same entries
    rw [← arrange_eq nodup_laneByLane fun p => mem_laneByLane, List.flatMap_map]
    rfl
  · intro lane
    simp only [List.map_map, List.getElem?_map, List.getElem?_zipIdx, laneAlone?, Option.map_map,
      Nat.zero_add]
    rfl

/-- A popup and one that is switched off. -/
def ofTwo : Dispatcher where
  outlets := [
    ⟨{ name := "a", settings := .popup {} }, {}⟩,
    ⟨{ name := "b", settings := .popup {}, enabled := false }, {}⟩]

/-- An occasion in a world where nothing answers. -/
def Occasion.silent : Occasion where
  now := ⟨0, 0⟩
  world := ⟨[], fun _ => false, fun _ _ _ => none, fun _ _ => none⟩

/-- Two events go through two outlets whose lanes take turns. -/
theorem follow_close_ofTwo :
    let s := ((Session.mk ofTwo []).call [default, default]).follow 0 (fun _ _ => .silent)
      [1, 0, 1, 0, 1, 0, 1, 0, 1, 0, 1, 0]
    ofTwo.closed = false ∧
      ((s.close (fun _ => ⟨0, 0⟩) 0).report? 0).map
        (fun report => report.deliveries.map (·.success)) = some [true, false, true, false] := by
  intro s
  have hopen : ofTwo.closed = false := rfl
  obtain ⟨-, hidle, hclose, -⟩ := follow_close hopen [] [default, default] (fun _ _ => .silent)
    [1, 0, 1, 0, 1, 0, 1, 0, 1, 0, 1, 0]
  obtain ⟨r, hr, hr'⟩ := hidle fun lane o ho => by
    match lane, ho with
    | 0, ho => cases ho; decide +kernel
    | 1, ho => cases ho; decide +kernel
  have hreport : (s.close (fun _ => ⟨0, 0⟩) 0).report? 0 = _ := (hclose r _ hr hr').1
  refine ⟨hopen, ?_⟩
  rw [hreport]
  decide +kernel

end MarketAlerts.Dispatcher
