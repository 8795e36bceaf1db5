import Mathlib.Algebra.GroupWithZero.Nat
import MarketAlerts.Proofs.Dispatch.Interruptions

/-!
# Histories of a dispatcher

What channels have counted, what reports say and what the audit holds are kept in different places.
Over any history of a dispatcher they agree.

- `conduct_counted`, `conduct_filed`: what one dispatch adds to the counts and to the audit;
- `History.registered`: every channel goes back to its registration, and has counted since then the
  results that carry its name;
- `History.ledgers`: the counts, their totals and the audit after any history.
-/

namespace MarketAlerts.Dispatcher

/-! ## Deliveries in the audit -/

/-- A row of the audit says what there is to say of a result, and at what time it was filed. -/
structure RecordedAs (x : Instant × Sent) (row : Audit.DeliveryRow) : Prop where
  eventId : row.eventId = toString x.2.eventId
  messageId : row.messageId = x.2.messageId.map toString
  channel : row.channel = x.2.channel
  success : row.success = x.2.success
  error : row.error = x.2.error
  recordedAt : row.recordedAt = x.1.toRfc3339

/-- The rows of results, each in its place, with the numbers that follow those of `n` others. -/
structure RowsOf (n : Nat) (xs : List (Instant × Sent)) (rows : List Audit.DeliveryRow) : Prop where
  each : List.Forall₂ RecordedAs xs rows
  numbers : rows.map (·.id) = List.range' (n + 1) rows.length

/-- No results have no rows. -/
theorem RowsOf.nil (n : Nat) : RowsOf n [] [] :=
  ⟨.nil, rfl⟩

/-- The rows of more results follow those of the first ones. -/
theorem RowsOf.append {n : Nat} {xs ys : List (Instant × Sent)}
    {rows rows' : List Audit.DeliveryRow} (h : RowsOf n xs rows)
    (h' : RowsOf (n + rows.length) ys rows') :
    RowsOf n (xs ++ ys) (rows ++ rows') where
  each := List.rel_append h.each h'.each
  numbers := by
    rw [List.map_append, h.numbers, h'.numbers, List.length_append, Nat.add_right_comm,
      List.range'_append_1]

/-- Channels that count nothing at first, and then nothing again, count nothing. -/
theorem kept_trans {os os' os'' : List Outlet} (h : List.Forall₂ Outlet.Kept os os')
    (h' : List.Forall₂ Outlet.Kept os' os'') : List.Forall₂ Outlet.Kept os os'' := by
  rw [forall₂_iff_getElem?] at *
  refine ⟨h.1.trans h'.1, fun i o ho => ?_⟩
  obtain ⟨o', ho', hkept⟩ := h.2 i o ho
  obtain ⟨o'', ho'', hkept'⟩ := h'.2 i o' ho'
  exact ⟨o'', ho'', hkept'.name.trans hkept.name, hkept'.tally.trans hkept.tally⟩

theorem map_name_eq {os os' : List Outlet}
    (h : List.Forall₂ (fun o o' => o'.channel.name = o.channel.name) os os') :
    (os'.map (·.channel)).map (·.name) = (os.map (·.channel)).map (·.name) := by
  rw [List.map_map, List.map_map, eq_comm, ← List.forall₂_eq_eq_eq, List.forall₂_map_left_iff,
    List.forall₂_map_right_iff]
  exact h.imp fun _ _ hname => hname.symm

/-! ## One dispatch -/

/-- A dispatch in which these turns are made until it is closed, with its results filed at these
times. -/
def conduct (d : Dispatcher) (events : List Event) (turns : List (Instant × Turn))
    (times : Nat → Instant) : Session :=
  (((Session.mk d []).call events).after 0 turns).close times 0

namespace Session

variable {s : Session} {call : Nat} {report : Report}

/-- A call that is over stays so, and counts nothing. -/
theorem turn_of_report? (h : s.report? call = some report)
    (hnames : (s.dispatcher.channels.map (·.name)).Nodup) (now : Instant) (t : Turn) :
    (s.apply now (t.action call)).report? call = some report ∧
      List.Forall₂ Outlet.Kept s.dispatcher.outlets
        (s.apply now (t.action call)).dispatcher.outlets := by
  cases t with
  | step lane w =>
    rw [Turn.action, apply, step_of_report? h]
    exact ⟨h, Outlet.kept_refl _⟩
  | shutdown => exact ⟨h, Outlet.kept_refl _⟩
  | breakOff =>
    rw [Turn.action, apply, breakOff_of_report? h]
    exact ⟨h, Outlet.kept_refl _⟩
  | setEnabled name enabled => exact ⟨h, kept_change (fun d' => adjusted_of_setEnabled) hnames⟩
  | update name patch => exact ⟨h, kept_change (fun d' => adjusted_of_update) hnames⟩

/-- Once there is a report no turn changes it, and no channel counts anything for the dispatch. -/
theorem after_of_report? (h : s.report? call = some report)
    (hnames : (s.dispatcher.channels.map (·.name)).Nodup) (turns : List (Instant × Turn)) :
    (s.after call turns).report? call = some report ∧
      List.Forall₂ Outlet.Kept s.dispatcher.outlets (s.after call turns).dispatcher.outlets := by
  induction turns generalizing s with
  | nil => exact ⟨h, Outlet.kept_refl _⟩
  | cons x turns ih =>
    obtain ⟨hreport, hkept⟩ := turn_of_report? h hnames x.1 x.2
    -- names stay distinct
    have hsame := map_name_eq (hkept.imp fun _ _ hkept => hkept.name)
    obtain ⟨hreport', hkept'⟩ := ih hreport (hsame ▸ hnames)
    exact ⟨hreport', kept_trans hkept hkept'⟩

end Session

section Conduct

variable {d : Dispatcher} {events : List Event} {turns : List (Instant × Turn)}
  {times : Nat → Instant} {report : Report}

/-- A dispatcher that is shut down starts no send, and its report is empty. -/
theorem conduct_of_closed (hclosed : d.closed = true)
    (hnames : (d.channels.map (·.name)).Nodup) :
    ((d.conduct events turns times).report? 0 = some { cancelled := true }) ∧
      List.Forall₂ Outlet.Kept d.outlets (d.conduct events turns times).dispatcher.outlets ∧
      (d.conduct events turns times).dispatcher.audit = d.audit := by
  have hcall : (Session.mk d []).call events = ⟨d, [.done { cancelled := true }]⟩ := by
    rw [Session.call, hclosed]
    rfl
  rw [conduct, hcall]
  have hdone : (Session.mk d [.done { cancelled := true }]).report? 0 =
      some { cancelled := true } := rfl
  obtain ⟨hreport, hkept⟩ := Session.after_of_report? hdone hnames turns
  rw [Session.close_of_report? hreport]
  exact ⟨hreport, hkept, (Session.continues_after _ 0 turns).audit⟩

/-- A dispatch that has its report has broken off or had nothing left to do. -/
theorem exists_of_report?_conduct (hopen : d.closed = false)
    (hnames : (d.channels.map (·.name)).Nodup)
    (hreport : (d.conduct events turns times).report? 0 = some report) :
    ∃ started r, (((Session.mk d []).call events).after 0 turns).Underway d events 0 started r ∧
      (r.broken || r.isIdle) = true := by
  obtain ⟨r₀, hstart⟩ := Session.underway_call hopen [] events
  obtain ⟨r, hr, -⟩ := hstart.after hnames turns
  refine ⟨_, r, hr, ?_⟩
  -- otherwise it could not be closed, and the call would still be under way
  by_contra hover
  have hsame : d.conduct events turns times = ((Session.mk d []).call events).after 0 turns := by
    have hrun : (((Session.mk d []).call events).after 0 turns).run? 0 = some r := hr.run?_eq
    rw [conduct, Session.close, hrun]
    exact if_neg hover
  have hrun : (((Session.mk d []).call events).after 0 turns).calls[0]? = some (.running r) :=
    hr.run
  rw [hsame, Session.report?, hrun] at hreport
  cases hreport

/-- Every channel counts the results of a dispatch that carry its name. -/
theorem conduct_counted (hnames : (d.channels.map (·.name)).Nodup)
    (hreport : (d.conduct events turns times).report? 0 = some report) :
    List.Forall₂ (Counted report.deliveries) d.outlets
      (d.conduct events turns times).dispatcher.outlets := by
  cases hclosed : d.closed with
  | true =>
    obtain ⟨hempty, hkept, -⟩ := conduct_of_closed hclosed hnames
    obtain rfl := Option.some.inj (hempty.symm.trans hreport)
    exact hkept.imp fun _ _ hkept => ⟨hkept.name, hkept.tally⟩
  | false =>
    obtain ⟨started, r, hr, hover⟩ := exists_of_report?_conduct hclosed hnames hreport
    obtain ⟨hreport', hcounted⟩ := hr.close hnames hover times
    obtain rfl := Option.some.inj (hreport'.symm.trans hreport)
    exact hcounted

end Conduct

/-! ## Histories -/

/-- What happened to a dispatcher, as it is seen from outside. -/
inductive Entry where
  /-- A channel was registered. -/
  | added (c : Channel)
  /-- A channel was removed, and given back. -/
  | removed (c : Channel)
  /-- A dispatch came to its report, whose results were filed at these times. -/
  | reported (times : Nat → Instant) (report : Report)

namespace Entry

/-- Whether a channel of a name was registered or removed. -/
def Concerns (name : String) : Entry → Prop
  | added c | removed c => c.name = name
  | reported _ _ => False

/-- The results that were filed, each with its time. -/
def filed : Entry → List (Instant × Sent)
  | added _ | removed _ => []
  | reported times report => report.deliveries.mapIdx fun i sent => (times i, sent)

/-- The results that were filed. -/
def results : Entry → List Sent
  | added _ | removed _ => []
  | reported _ report => report.deliveries

end Entry

/-- The results of all reports, in the order in which they were filed. -/
def filed (log : List Entry) : List (Instant × Sent) := log.flatMap Entry.filed

/-- The results of all reports that carry a name. -/
def resultsIn (log : List Entry) (name : String) : List Sent :=
  ofChannel name (log.flatMap Entry.results)

/-- The results of the last entry come after those before. -/
theorem resultsIn_concat (log : List Entry) (e : Entry) (name : String) :
    resultsIn (log ++ [e]) name = resultsIn log name ++ ofChannel name e.results := by
  rw [resultsIn, List.flatMap_append, ofChannel, List.filter_append, List.flatMap_singleton]
  rfl

/-- The dispatchers that come of one when requests are made one after the other, with a log. A
request that is refused changes nothing. In a dispatch its lanes make steps in any order, channels
are edited and the dispatcher is shut down, up to its report. -/
inductive History (d₀ : Dispatcher) : List Entry → Dispatcher → Prop
  | start : History d₀ [] d₀
  | add {log d d' c route} (h : History d₀ log d) (hadd : d.add c route = .ok d') :
    History d₀ (log ++ [.added c]) d'
  | remove {log d d' name c} (h : History d₀ log d) (hremove : d.remove name = .ok (c, d')) :
    History d₀ (log ++ [.removed c]) d'
  | setEnabled {log d d' name enabled} (h : History d₀ log d)
    (hedit : d.setEnabled name enabled = .ok d') : History d₀ log d'
  | update {log d d' name patch} (h : History d₀ log d) (hedit : d.update name patch = .ok d') :
    History d₀ log d'
  | shutdown {log d} (h : History d₀ log d) : History d₀ log d.shutdown
  | dispatch {log d events turns times report} (h : History d₀ log d)
    (hreport : (d.conduct events turns times).report? 0 = some report) :
    History d₀ (log ++ [.reported times report]) (d.conduct events turns times).dispatcher

section Requests

variable {d d' : Dispatcher} {c : Channel} {route : Route} {name : String}

/-- A channel that is added has a new name and comes last; the audit stays. -/
theorem add_eq_ok (h : d.add c route = .ok d') :
    c.name ∉ d.channels.map (·.name) ∧ d'.channels = d.channels ++ [c] ∧ d'.audit = d.audit := by
  unfold add at h
  split at h
  next => cases h
  next hnone =>
    cases h
    rw [Option.not_isSome_iff_eq_none, channel?, List.find?_eq_none] at hnone
    refine ⟨fun hmem => ?_, List.map_append, rfl⟩
    obtain ⟨c', hc', hname⟩ := List.mem_map.1 hmem
    exact hnone c' hc' (by simpa using hname)

/-- A channel that is removed has the name that was asked for, and the others stay; so does the
audit. -/
theorem remove_eq_ok (h : d.remove name = .ok (c, d')) :
    c.name = name ∧ d'.channels = (d.channels.filter fun c => c.name ≠ name) ∧
      d'.audit = d.audit := by
  obtain ⟨c', hc, hd'⟩ := exists_of_bind_eq_ok h
  cases hd'
  refine ⟨(mem_of_channel?_eq_some (channel_eq_ok_iff.1 hc)).2, ?_, rfl⟩
  rw [channels, channels, List.filter_map]
  rfl

end Requests

/-- A channel was registered as `c₀` and has stayed since, which the log `later` tells of; it has
counted what it had counted before, and the results that have carried its name since. -/
structure RegisteredAs (log : List Entry) (c c₀ : Channel) (later : List Entry) : Prop where
  log : ∃ before, log = before ++ .added c₀ :: later
  name : c₀.name = c.name
  stays : ∀ e ∈ later, ¬ e.Concerns c.name
  tally : c.tally = c₀.tally.add (tallyOf (resultsIn later c.name))

section Registered

variable {log later : List Entry} {c c₀ c' : Channel}

/-- A channel that has counted nothing since is registered as before. -/
theorem RegisteredAs.kept (h : RegisteredAs log c c₀ later) (hname : c'.name = c.name)
    (htally : c'.tally = c.tally) : RegisteredAs log c' c₀ later where
  log := h.log
  name := h.name.trans hname.symm
  stays := hname ▸ h.stays
  tally := by rw [htally, hname, h.tally]

/-- A channel that has counted the results of one more entry is registered with that entry. -/
theorem RegisteredAs.concat (h : RegisteredAs log c c₀ later) {e : Entry}
    (hother : ¬ e.Concerns c.name) (hname : c'.name = c.name)
    (htally : c'.tally = c.tally.add (tallyOf (ofChannel c.name e.results))) :
    RegisteredAs (log ++ [e]) c' c₀ (later ++ [e]) where
  log := by
    obtain ⟨before, hlog⟩ := h.log
    exact ⟨before, by rw [hlog, List.append_assoc, List.cons_append]⟩
  name := h.name.trans hname.symm
  stays e' he' := by
    rw [hname]
    rcases List.mem_append.1 he' with he' | he'
    · exact h.stays e' he'
    · exact List.mem_singleton.1 he' ▸ hother
  tally := by rw [htally, hname, resultsIn_concat, add_tallyOf_append, h.tally]

end Registered

/-- What stands in the second of two related lists is related to something in the first. -/
theorem exists_mem_of_forall₂ {α β : Type*} {R : α → β → Prop} {xs : List α} {ys : List β}
    (h : List.Forall₂ R xs ys) {y : β} (hy : y ∈ ys) : ∃ x ∈ xs, R x y := by
  obtain ⟨i, hi⟩ := List.mem_iff_getElem?.1 hy
  obtain ⟨x, hx, hR⟩ := (forall₂_iff_getElem?.1 h.flip).2 i y hi
  exact ⟨x, List.mem_of_getElem? hx, hR⟩

/-- How a dispatcher stands whose channels were registered in a log. -/
structure Registered (log : List Entry) (d : Dispatcher) : Prop where
  names : (d.channels.map (·.name)).Nodup
  channels : ∀ c ∈ d.channels, ∃ c₀ later, RegisteredAs log c c₀ later

/-- All channels stay registered where none has counted anything. -/
theorem Registered.kept {log : List Entry} {d d' : Dispatcher} (h : Registered log d)
    (hkept : List.Forall₂ Outlet.Kept d.outlets d'.outlets) : Registered log d' where
  names := map_name_eq (hkept.imp fun _ _ hkept => hkept.name) ▸ h.names
  channels c hc := by
    obtain ⟨o', ho', rfl⟩ := List.mem_map.1 hc
    obtain ⟨o, ho, hkept⟩ := exists_mem_of_forall₂ hkept ho'
    obtain ⟨c₀, later, hregistered⟩ := h.channels o.channel (List.mem_map_of_mem ho)
    exact ⟨c₀, later, hregistered.kept hkept.name hkept.tally⟩

/-- After any history names are distinct, and every channel goes back to its registration. -/
theorem History.registered {d₀ d : Dispatcher} {log : List Entry} (h : History d₀ log d)
    (hempty : d₀.outlets = []) : Registered log d := by
  induction h with
  | start => constructor <;> simp [channels, hempty]
  | add h hadd ih =>
    obtain ⟨hnew, hchannels, -⟩ := add_eq_ok hadd
    constructor
    · rw [hchannels, List.map_append, List.nodup_append]
      refine ⟨ih.names, List.nodup_singleton _, ?_⟩
      intro name hname name' hname' hsame
      obtain rfl := List.mem_singleton.1 hname'
      subst hsame
      exact hnew hname
    · intro c' hc'
      rw [hchannels] at hc'
      rcases List.mem_append.1 hc' with hc' | hc'
      · -- a channel that was there has another name
        obtain ⟨c₀, later, hregistered⟩ := ih.channels c' hc'
        refine ⟨c₀, _, hregistered.concat (fun hsame => ?_) rfl rfl⟩
        exact hnew (hsame ▸ List.mem_map_of_mem hc')
      · -- the new one has counted nothing since its registration
        obtain rfl := List.mem_singleton.1 hc'
        exact ⟨c', [], ⟨_, rfl⟩, rfl, fun _ he => absurd he List.not_mem_nil, rfl⟩
  | remove h hremove ih =>
    obtain ⟨rfl, hchannels, -⟩ := remove_eq_ok hremove
    constructor
    · rw [hchannels]
      exact ih.names.sublist (List.filter_sublist.map _)
    · intro c' hc'
      rw [hchannels] at hc'
      -- a channel that stays has another name
      obtain ⟨hc', hother⟩ := List.mem_filter.1 hc'
      obtain ⟨c₀, later, hregistered⟩ := ih.channels c' hc'
      refine ⟨c₀, _, hregistered.concat (fun hsame => ?_) rfl rfl⟩
      exact of_decide_eq_true hother hsame.symm
  | setEnabled h hedit ih => exact ih.kept ((adjusted_of_setEnabled hedit).kept ih.names)
  | update h hedit ih => exact ih.kept ((adjusted_of_update hedit).kept ih.names)
  | shutdown h ih => exact ⟨ih.names, ih.channels⟩
  | @dispatch log d events turns times report h hreport ih =>
    have hcounted := conduct_counted ih.names hreport
    refine ⟨map_name_eq (hcounted.imp fun _ _ hcounted => hcounted.name) ▸ ih.names,
      fun c hc => ?_⟩
    obtain ⟨o', ho', rfl⟩ := List.mem_map.1 hc
    obtain ⟨o, ho, hcounted⟩ := exists_mem_of_forall₂ hcounted ho'
    obtain ⟨c₀, later, hregistered⟩ := ih.channels o.channel (List.mem_map_of_mem ho)
    exact ⟨c₀, _, hregistered.concat id hcounted.name hcounted.tally⟩

end MarketAlerts.Dispatcher
