import MarketAlerts.Proofs.Dispatch.Reports
import MarketAlerts.Proofs.Dispatch.Turns

/-!
# Dispatches that break off

However a dispatch ends, its report and what the channels have counted agree.

- `Underway.close`: every channel has counted the results of the report that carry its name;
- `after_close_of_breakOff`: a dispatch that breaks off has, in each lane, results for the first
  events of the lane, and at most one more send was started, which is dropped.
-/

namespace MarketAlerts.Dispatcher

/-- The events of an outlet come in their order. -/
theorem pairwise_accepted (route : Route) (events : List Event) :
    ((accepted route events).map Prod.fst).Pairwise (· < ·) := by
  have hpositions : (events.zipIdx.map Prod.snd).Pairwise (· < ·) := by
    rw [List.zipIdx_map_snd]
    exact List.pairwise_lt_range'
  rw [accepted, List.map_map]
  exact hpositions.sublist (List.filter_sublist.map _)

/-- What a report says of a channel is what is known of its lane, in the same order. -/
theorem ofChannel_arrange {placed : List Placed} {name : String} {lane : Nat}
    (hlane : ∀ p ∈ placed, p.sent.channel = name ↔ p.lane = lane)
    (hsorted : (placed.filter (·.lane = lane)).Pairwise fun p q => p.position < q.position) :
    ofChannel name (arrange placed) =
      (placed.filter (·.lane = lane)).map (·.sent) := by
  have hperm : (placed.mergeSort Placed.le).Perm placed := List.mergeSort_perm ..
  -- the sort leaves what is in order already
  have hle : (placed.filter (·.lane = lane)).Pairwise fun p q => p.le q = true :=
    hsorted.imp fun hlt => Placed.le_iff.2 (.inl (.inl hlt))
  have hsublist : (placed.filter (·.lane = lane)).Sublist (placed.mergeSort Placed.le) :=
    @List.sublist_mergeSort _ Placed.le _ (fun _ _ _ => Placed.le_trans) Placed.le_total _ hle
      List.filter_sublist
  have hfilter : placed.filter (·.lane = lane) =
      (placed.mergeSort Placed.le).filter (·.lane = lane) := by
    have hsub := hsublist.filter fun p => decide (p.lane = lane)
    rw [List.filter_filter] at hsub
    simp only [Bool.and_self] at hsub
    exact hsub.eq_of_length (hperm.filter _).length_eq.symm
  rw [ofChannel, arrange, List.filter_map, hfilter]
  refine congrArg _ (List.filter_congr fun p hp => ?_)
  exact decide_eq_decide.2 (hlane p (hperm.mem_iff.1 hp))

namespace Session

variable {d : Dispatcher} {events : List Event} {call : Nat} {started : List (Nat × Nat)}
  {s : Session} {r : Run}

/-! ## The results of a dispatch under way -/

section Account

variable {lane : Nat} {o : Outlet} {sends : List Nat} {es done rest : List (Nat × Event)}
  {stage : Option Stage}

/-- The results of a lane are at the positions of the events that are done. -/
theorem Account.map_fst_resultsOf (h : s.Account r lane o sends es done rest stage) :
    (r.resultsOf lane).map Prod.fst = done.map Prod.fst := by
  rw [← List.forall₂_eq_eq_eq, List.forall₂_map_left_iff, List.forall₂_map_right_iff]
  exact h.results.flip.imp fun _ _ htells => htells.position

/-- Results come in the order of the events. -/
theorem Account.pairwise (h : s.Account r lane o sends (accepted o.route events) done rest stage) :
    ((r.resultsOf lane).map Prod.fst).Pairwise (· < ·) := by
  have hpairwise := pairwise_accepted o.route events
  rw [h.events, List.map_append] at hpairwise
  rw [h.map_fst_resultsOf]
  exact (List.pairwise_append.1 hpairwise).1

/-- The results of a lane carry the name of its channel. -/
theorem Account.channel_of_mem (h : s.Account r lane o sends es done rest stage) :
    ∀ x ∈ r.resultsOf lane, x.2.channel = o.channel.name :=
  ((List.forall₂_and_left _ _).1 (h.results.flip.imp fun _ _ htells => ⟨htells.channel, htells⟩)).1

/-- No result is at a position where there is no event. -/
theorem Account.position_lt_of_mem
    (h : s.Account r lane o sends (accepted o.route events) done rest stage) :
    ∀ x ∈ r.resultsOf lane, x.1 < events.length := by
  intro x hx
  have hmem : x.1 ∈ (accepted o.route events).map Prod.fst := by
    rw [h.events, List.map_append, ← h.map_fst_resultsOf]
    exact List.mem_append_left _ (List.mem_map_of_mem hx)
  obtain ⟨⟨position, e⟩, he, hposition⟩ := List.mem_map.1 hmem
  have hget := ((mem_accepted o.route events).1 he).1
  exact hposition ▸ (List.getElem?_eq_some_iff.1 hget).1

end Account

section Underway

variable (h : s.Underway d events call started r)

include h

/-- A result that was put in its place is one of an account. -/
theorem Underway.exists_of_mem_placed {p : Placed} (hp : p ∈ r.placed) :
    ∃ o done rest stage, d.outlets[p.lane]? = some o ∧
      s.Account r p.lane o (inLane p.lane started) (accepted o.route events) done rest stage ∧
      (p.position, p.sent) ∈ r.resultsOf p.lane := by
  have hlane := h.placed p hp
  obtain ⟨done, rest, stage, haccount⟩ := h.each p.lane _ (List.getElem?_eq_getElem hlane)
  exact ⟨_, done, rest, stage, List.getElem?_eq_getElem hlane, haccount, Run.mem_resultsOf.2 hp⟩

/-- The results in their places are those of the lanes. -/
theorem Underway.mem_placed (p : Placed) :
    p ∈ r.placed ↔ p.position < events.length ∧ p.lane < d.outlets.length ∧
      (r.resultsOf p.lane).lookup p.position = some p.sent := by
  constructor
  · intro hp
    obtain ⟨o, done, rest, stage, -, haccount, hmem⟩ := h.exists_of_mem_placed hp
    exact ⟨haccount.position_lt_of_mem _ hmem, h.placed p hp,
      (Keyed.lookup_eq_some_iff_mem (haccount.pairwise.imp Nat.ne_of_lt)).2 hmem⟩
  · -- a lane has one result for an event, so that looking it up finds it
    rintro ⟨-, hlane, hlookup⟩
    obtain ⟨done, rest, stage, haccount⟩ := h.each p.lane _ (List.getElem?_eq_getElem hlane)
    exact Run.mem_resultsOf.1
      ((Keyed.lookup_eq_some_iff_mem (haccount.pairwise.imp Nat.ne_of_lt)).1 hlookup)

theorem Underway.nodup_placed : r.placed.Nodup := by
  refine Run.nodup_placed fun p hp => ?_
  obtain ⟨o, done, rest, stage, -, haccount, -⟩ := h.exists_of_mem_placed hp
  exact List.Nodup.of_map Prod.fst (haccount.pairwise.imp Nat.ne_of_lt)

/-- The results so far, event by event and for each event outlet by outlet. -/
theorem Underway.arrange_placed :
    arrange r.placed = (List.range events.length).flatMap fun position =>
      (List.range d.outlets.length).filterMap fun lane => (r.resultsOf lane).lookup position :=
  arrange_eq h.nodup_placed h.mem_placed

/-- A result carries the name of the channel of its lane. -/
theorem Underway.channel_of_mem_placed {p : Placed} (hp : p ∈ r.placed) :
    (d.channels.map (·.name))[p.lane]? = some p.sent.channel := by
  obtain ⟨o, done, rest, stage, ho, haccount, hmem⟩ := h.exists_of_mem_placed hp
  have hchannel : p.sent.channel = o.channel.name := haccount.channel_of_mem _ hmem
  simp [channels, ho, hchannel]

/-- What the results so far say of a channel is what is known of its lane. -/
theorem Underway.ofChannel_arrange_placed (hnames : (d.channels.map (·.name)).Nodup) {lane : Nat}
    {o : Outlet} (ho : d.outlets[lane]? = some o) :
    ofChannel o.channel.name (arrange r.placed) =
      (r.resultsOf lane).map Prod.snd := by
  have hname : (d.channels.map (·.name))[lane]? = some o.channel.name := by simp [channels, ho]
  obtain ⟨done, rest, stage, haccount⟩ := h.each lane o ho
  have hpairwise := haccount.pairwise
  rw [Run.resultsOf, List.map_map, List.pairwise_map] at hpairwise
  rw [ofChannel_arrange (fun p hp => ?_) hpairwise, Run.resultsOf, List.map_map]
  · rfl
  · -- names are distinct, so that a lane is known by the name of its channel
    have hp' := h.channel_of_mem_placed hp
    constructor
    · intro hchannel
      refine (List.getElem?_inj (List.getElem?_eq_some_iff.1 hp').1 hnames).1 ?_
      rw [hp', hname, hchannel]
    · intro hlane
      rw [hlane, hname] at hp'
      exact (Option.some.inj hp').symm

end Underway

/-! ## The end of a dispatch -/

/-- A dispatch that has broken off, or has nothing left to do, can be closed. -/
theorem close_of_over (hrun : s.run? call = some r) (hover : (r.broken || r.isIdle) = true)
    (filed : Nat → Instant) :
    s.close filed call = {
      dispatcher := { s.dispatcher with
        audit := s.dispatcher.audit.map (recordDeliveries · (stamped filed (arrange r.placed))) }
      calls := s.calls.set call
        (.done { deliveries := arrange r.placed, cancelled := r.broken }) } := by
  rw [Session.close, hrun]
  exact if_pos hover

/-- What the report of a dispatch says, and what its channels have counted for it. -/
theorem Underway.close (h : s.Underway d events call started r)
    (hnames : (d.channels.map (·.name)).Nodup) (hover : (r.broken || r.isIdle) = true)
    (filed : Nat → Instant) :
    (s.close filed call).report? call =
      some { deliveries := arrange r.placed, cancelled := r.broken } ∧
    List.Forall₂ (Counted (arrange r.placed)) d.outlets
      (s.close filed call).dispatcher.outlets := by
  rw [close_of_over h.run?_eq hover]
  constructor
  · rw [report?, List.getElem?_set_self (List.getElem?_eq_some_iff.1 h.run).1]
  · refine forall₂_iff_getElem?.2 ⟨h.outlets.symm, fun lane o ho => ?_⟩
    obtain ⟨done, rest, stage, haccount⟩ := h.each lane o ho
    obtain ⟨o', ho', hname, htally⟩ := haccount.outlet
    exact ⟨o', ho', hname, (h.ofChannel_arrange_placed hnames ho).symm ▸ htally⟩

/-- Of the events without a result, the first one at most has left the queue. -/
theorem exists_pending (rest : List (Nat × Event)) (stage : Option Stage) :
    ∃ further others, rest = further ++ others ∧ pending rest stage = further ∧
      further.length ≤ 1 := by
  -- no event is up, one is queued, or one is at a later stage
  rcases stage with _ | _ | _ | _
  · exact ⟨[], rest, rfl, rfl, Nat.zero_le 1⟩
  · exact ⟨[], rest, rfl, rfl, Nat.zero_le 1⟩
  all_goals exact ⟨rest.take 1, rest.drop 1, (List.take_append_drop 1 rest).symm, rfl,
    List.length_take_le 1 rest⟩

section Over

variable {report : Report} (h : s.report? call = some report)

include h

/-- A dispatch that has its report is not under way. -/
theorem run?_of_report? : s.run? call = none := by
  rw [report?] at h
  rw [run?]
  split at h
  next hcall => rw [hcall]
  next => cases h

/-- Once a dispatch is over, none of its lanes makes a step. -/
theorem step_of_report? (now : Instant) (lane : Nat) (w : World) : s.step now call lane w = s := by
  rw [Session.step, run?_of_report? h]

theorem breakOff_of_report? : s.breakOff call = s := by
  rw [Session.breakOff, run?_of_report? h]

theorem close_of_report? (filed : Nat → Instant) : s.close filed call = s := by
  rw [Session.close, run?_of_report? h]

end Over

end Session

/-- A dispatch that breaks off. For every dispatcher that is not shut down, all events, and all
turns up to the moment at which the dispatch sees that it is shut down (steps of its lanes in any
order, at any time and in any world, and edits of its channels) and from then on until it is closed:

- the report is cancelled, and lists its results by event and then by outlet;
- in each lane, the events with results are the first ones of the lane, in their order, and these
  are the results of the report that carry the name of the channel;
- the channel has counted these results, and nothing else;
- the sends that were started in the lane are those with results and at most one more, that of the
  next event, which is dropped: no lane makes a step any more. -/
theorem after_close_of_breakOff {d : Dispatcher} (hopen : d.closed = false)
    (hnames : (d.channels.map (·.name)).Nodup) (calls : List Call) (events : List Event)
    (before drain : List (Instant × Turn)) {shut : Instant} (hshut : (shut, .shutdown) ∈ before)
    (broke : Instant) (filed : Nat → Instant) :
    let call := calls.length
    let s := (Session.mk d calls).call events
    let turns := before ++ (broke, .breakOff) :: drain
    let ended := (s.after call turns).close filed call
    ∃ (results : Nat → List (Nat × Sent)) (deliveries : List Sent),
      ended.report? call = some { deliveries, cancelled := true } ∧
      (deliveries = (List.range events.length).flatMap fun position =>
        (List.range d.outlets.length).filterMap fun lane => (results lane).lookup position) ∧
      (∀ (lane : Nat) (o : Outlet), d.outlets[lane]? = some o → ∃ done further rest,
        accepted o.route events = done ++ further ++ rest ∧
        List.Forall₂ (Session.Tells o.channel.name) done (results lane) ∧
        ofChannel o.channel.name deliveries = (results lane).map Prod.snd ∧
        (∃ o', ended.dispatcher.outlets[lane]? = some o' ∧ o'.channel.name = o.channel.name ∧
          o'.channel.tally = o.channel.tally.add (tallyOf ((results lane).map Prod.snd))) ∧
        Session.inLane lane (s.starts call turns) = (done ++ further).map Prod.fst ∧
        further.length ≤ 1) ∧
      ∀ (later : Instant) (lane : Nat) (w : World), ended.step later call lane w = ended := by
  intro call s turns ended
  -- a dispatch that has broken off makes turns as before, but no further event comes up
  obtain ⟨r₀, hstart⟩ := Session.underway_call hopen calls events
  obtain ⟨r₁, hbefore, -⟩ := hstart.after hnames before
  have hbroke := hbefore.breakOff (Session.closed_after_of_mem hshut)
  obtain ⟨r, hdrain, hbroken⟩ := hbroke.after hnames drain
  replace hbroken : r.broken = true := hbroken rfl
  have hr : (s.after call turns).Underway d events call (s.starts call turns) r := by
    rw [Session.after_append, Session.starts_append]
    exact hdrain
  have hover : (r.broken || r.isIdle) = true := by rw [hbroken, Bool.true_or]
  obtain ⟨hreport, hcounted⟩ := hr.close hnames hover filed
  refine ⟨r.resultsOf, arrange r.placed, hbroken ▸ hreport, hr.arrange_placed,
    fun lane o ho => ?_, fun later lane w => Session.step_of_report? hreport later lane w⟩
  obtain ⟨done, rest, stage, haccount⟩ := hr.each lane o ho
  have hfilter := hr.ofChannel_arrange_placed hnames ho
  obtain ⟨further, others, hrest, hfurther, hlength⟩ := Session.exists_pending rest stage
  obtain ⟨o', ho', hname, htally⟩ := (forall₂_iff_getElem?.1 hcounted).2 lane o ho
  refine ⟨done, further, others, ?_, haccount.results, hfilter, ⟨o', ho', hname, hfilter ▸ htally⟩,
    ?_, hlength⟩
  · rw [haccount.events, hrest, List.append_assoc]
  · rw [haccount.started, hfurther]

/-- A popup waits for its message to be shown when the dispatch breaks off; a channel that is
switched off has refused its first event. -/
theorem after_close_of_breakOff_ofTwo :
    let now : Instant := ⟨0, 0⟩
    let w := Occasion.silent.world
    let before := [(now, .step 0 w), (now, .step 0 w), (now, .step 1 w), (now, .step 1 w),
      (now, .shutdown)]
    let s := (Session.mk ofTwo []).call [default, default]
    let ended := (s.after 0 (before ++ [(now, .breakOff)])).close (fun _ => now) 0
    (ended.report? 0).map (fun report => (report.cancelled, report.deliveries.map (·.channel))) =
        some (true, ["b"]) ∧
      s.starts 0 (before ++ [(now, .breakOff)]) = [(0, 0), (1, 0)] ∧
      ∀ (later : Instant) (lane : Nat) (w : World), ended.step later 0 lane w = ended := by
  intro now w before s ended
  have hopen : ofTwo.closed = false := rfl
  have hnames : (ofTwo.channels.map (·.name)).Nodup := by decide
  have hshut : (now, Turn.shutdown) ∈ before := by simp [before]
  obtain ⟨results, deliveries, hreport, -, -, hdropped⟩ :=
    after_close_of_breakOff hopen hnames [] [default, default] before [] hshut now _
  -- lane 1 has its result before the shutdown, and lane 0 is dropped on the way
  obtain ⟨hchannels, hstarts⟩ :
      (ended.report? 0).map (fun report => report.deliveries.map (·.channel)) = some ["b"] ∧
        s.starts 0 (before ++ [(now, .breakOff)]) = [(0, 0), (1, 0)] := by decide +kernel
  refine ⟨?_, hstarts, hdropped⟩
  change ended.report? 0 = _ at hreport
  rw [hreport] at hchannels ⊢
  simpa using hchannels

end MarketAlerts.Dispatcher
