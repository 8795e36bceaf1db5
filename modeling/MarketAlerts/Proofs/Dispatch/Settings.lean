import MarketAlerts.Proofs.Dispatch.Shutdown

/-!
# The settings behind a message

A message is written in the markup of the settings that its channel has at that moment, and is
delivered with those that the channel has later.

- `IsQuiet`: a turn neither steps a lane nor changes the settings of its channel;
- `Waits`: a message is written and the settings of its channel are as they were;
- `Waits.after`: so it stays as long as turns are quiet;
- `begin_of_quiet`: a delivery that is begun then is that of the settings whose markup the message
  is written in.

An update between the two makes a difference.
-/

namespace MarketAlerts

/-- The body of a message is the alert in the markup of the channel's settings. -/
theorem Outlet.renderAlert_of_write {o : Outlet} {lib : Template.Library} {now : Instant}
    {id : Uuid} {e : Event} {m : Message} (h : o.write lib now id e = .ok m) :
    ∃ title, lib.renderAlert o.route.template e o.channel.settings.medium =
      .ok (title, m.content) := by
  obtain ⟨alert, halert, hm⟩ := exists_of_bind_eq_ok h
  cases hm
  exact ⟨alert.1, halert⟩

/-- Two states of an outlet between which its channel keeps its name and its settings. -/
structure Outlet.SameSettings (o o' : Outlet) : Prop where
  name : o'.channel.name = o.channel.name
  settings : o'.channel.settings = o.channel.settings

namespace Dispatcher

/-- A step of an event leaves the settings of its channel as they are. -/
theorem Run.sameSettings_step (r : Run) (lib : Template.Library) (now : Instant) (w : World)
    (lane : Nat) (o : Outlet) (c : Current) :
    Outlet.SameSettings o (r.step lib now w lane o c).2 := by
  unfold step
  cases c.stage with
  | queued =>
    dsimp only
    cases o.write lib now (messageId r.supply r.lanes.length c.position lane) c.event <;>
      exact ⟨rfl, rfl⟩
  | written m =>
    dsimp only
    cases o.channel.begin m <;> exact ⟨rfl, rfl⟩
  | begun m d => exact ⟨Channel.name_finish .., Channel.settings_finish ..⟩

theorem map_name_set {os : List Outlet} {lane : Nat} {o o' : Outlet} (ho : os[lane]? = some o)
    (h : Outlet.SameSettings o o') :
    (os.set lane o').map (·.channel.name) = os.map (·.channel.name) := by
  obtain ⟨hlt, rfl⟩ := List.getElem?_eq_some_iff.1 ho
  refine List.ext_getElem? fun i => ?_
  by_cases hi : lane = i
  · subst hi
    simp [hlt, h.name]
  · simp [List.getElem?_set_ne hi]

/-! ## Changes of channels -/

section Changes

variable {d : Dispatcher} {name : String} {c c' : Channel}

theorem map_name_setChannel (hname : c'.name = name) :
    (d.setChannel name c').channels.map (·.name) = d.channels.map (·.name) := by
  rw [setChannel, channels, channels, List.map_map, List.map_map, List.map_map]
  refine List.map_congr_left fun o _ => ?_
  by_cases ho : o.channel.name = name
  · simp [ho, hname]
  · simp [ho]

/-- Where names are distinct, replacing one channel by another of its name keeps the settings of
all channels of other names, and those of the replaced one if the other has the same. -/
theorem sameSettings_setChannel (hnames : (d.channels.map (·.name)).Nodup)
    (hc : d.channel name = .ok c) (hname : c'.name = c.name) {lane : Nat} {o : Outlet}
    (ho : d.outlets[lane]? = some o)
    (hsettings : c'.settings = c.settings ∨ name ≠ o.channel.name) :
    ∃ o', (d.setChannel name c').outlets[lane]? = some o' ∧ Outlet.SameSettings o o' := by
  obtain ⟨hmem, rfl⟩ := mem_of_channel?_eq_some (channel_eq_ok_iff.1 hc)
  rw [setChannel, List.getElem?_map, ho, Option.map_some]
  by_cases hsame : o.channel.name = c.name
  · -- no other channel has the name
    have hchannel : o.channel ∈ d.channels := List.mem_map_of_mem (List.mem_of_getElem? ho)
    have heq : o.channel = c := List.inj_on_of_nodup_map hnames hchannel hmem hsame
    refine ⟨_, rfl, ?_⟩
    rw [if_pos hsame]
    exact ⟨hname.trans hsame.symm, heq ▸ hsettings.resolve_right (absurd hsame.symm)⟩
  · refine ⟨_, rfl, ?_⟩
    rw [if_neg hsame]
    exact ⟨rfl, rfl⟩

end Changes

/-! ## Quiet turns -/

/-- A turn is no step of the lane and no update of the channel. -/
def Turn.IsQuiet (lane : Nat) (name : String) : Turn → Prop
  | .step lane' _ => lane' ≠ lane
  | .update name' _ => name' ≠ name
  | _ => True

namespace Session

/-- An event is up in a lane whose channel has the name and the settings of that of an outlet. -/
structure Waits (s : Session) (call lane : Nat) (o : Outlet) (c : Current) : Prop where
  /-- Names are distinct. -/
  names : (s.dispatcher.channels.map (·.name)).Nodup
  /-- The event is up. -/
  up : ∃ r o', s.run? call = some r ∧ s.up? r lane = some (o', c) ∧ Outlet.SameSettings o o'

section Waits

variable {s : Session} {call lane : Nat} {r : Run} {o : Outlet} {c : Current}

/-- An event is up in a lane that has an outlet and an event. -/
theorem up?_eq_some_iff : s.up? r lane = some (o, c) ↔
    s.dispatcher.outlets[lane]? = some o ∧ r.lanes[lane]?.bind Lane.current = some c := by
  constructor
  · intro hup
    exact ⟨outlet_of_up?_eq_some hup, current_of_up?_eq_some hup⟩
  · rintro ⟨ho, hc⟩
    obtain ⟨l, hl, hcurrent⟩ := Option.bind_eq_some_iff.1 hc
    simp [up?, ho, hl, hcurrent]

/-- What leaves the names, the event that is up and the settings of its channel. -/
theorem Waits.frame (h : s.Waits call lane o c) {s' : Session}
    (hnames : s'.dispatcher.channels.map (·.name) = s.dispatcher.channels.map (·.name))
    (hrun : ∀ r, s.run? call = some r → ∃ r', s'.run? call = some r' ∧
      r'.lanes[lane]? = r.lanes[lane]?)
    (houtlet : ∀ o', s.dispatcher.outlets[lane]? = some o' → o'.channel.name = o.channel.name →
      ∃ o'', s'.dispatcher.outlets[lane]? = some o'' ∧ Outlet.SameSettings o' o'') :
    s'.Waits call lane o c := by
  obtain ⟨r, o', hr, hup, hsame⟩ := h.up
  obtain ⟨ho', hc⟩ := up?_eq_some_iff.1 hup
  obtain ⟨r', hr', hlane⟩ := hrun r hr
  obtain ⟨o'', ho'', hsame'⟩ := houtlet o' ho' hsame.name
  refine ⟨hnames ▸ h.names, r', o'', hr', up?_eq_some_iff.2 ⟨ho'', by rw [hlane, hc]⟩, ?_⟩
  exact ⟨hsame'.name.trans hsame.name, hsame'.settings.trans hsame.settings⟩

/-- A change that replaces a channel by one of the same name, with the same settings or not that of
the lane. -/
theorem Waits.change (h : s.Waits call lane o c) {f : Dispatcher → Except Error Dispatcher}
    (hf : ∀ d', f s.dispatcher = .ok d' → ∃ name x x', s.dispatcher.channel name = .ok x ∧
      x'.name = x.name ∧ (x'.settings = x.settings ∨ name ≠ o.channel.name) ∧
      d' = s.dispatcher.setChannel name x') :
    (s.change f).Waits call lane o c := by
  rw [Session.change]
  cases hd' : f s.dispatcher with
  | error e => exact h
  | ok d' =>
    obtain ⟨name, x, x', hx, hname, hsettings, rfl⟩ := hf d' hd'
    have hxname : x.name = name := (mem_of_channel?_eq_some (channel_eq_ok_iff.1 hx)).2
    refine h.frame (map_name_setChannel (hname.trans hxname)) (fun r hr => ⟨r, hr, rfl⟩)
      fun o' ho' hname' => ?_
    exact sameSettings_setChannel h.names hx hname ho' (hname' ▸ hsettings)

/-- A quiet turn. -/
theorem Waits.turn (h : s.Waits call lane o c) (now : Instant) {t : Turn}
    (ht : t.IsQuiet lane o.channel.name) : (s.apply now (t.action call)).Waits call lane o c := by
  have hsame (o' : Outlet) (ho' : s.dispatcher.outlets[lane]? = some o')
      (_ : o'.channel.name = o.channel.name) :
      ∃ o'', s.dispatcher.outlets[lane]? = some o'' ∧ Outlet.SameSettings o' o'' :=
    ⟨o', ho', rfl, rfl⟩
  cases t with
  | step lane' w =>
    obtain ⟨r, -, hr, -, -⟩ := h.up
    rw [Turn.action, apply]
    cases hup : s.up? r lane' with
    | none => rwa [step_of_up?_eq_none hr hup]
    | some x =>
      obtain ⟨o₁, c₁⟩ := x
      have hagree := r.agreeBut_step lane' c₁ s.dispatcher.templates now w o₁
      have hstep := r.sameSettings_step s.dispatcher.templates now w lane' o₁ c₁
      have ho₁ := outlet_of_up?_eq_some hup
      rw [step_of_up? hr hup]
      -- a step of another lane: it leaves the names, the lane and the outlet
      refine h.frame ?_ (fun r' hr' => ?_) fun o' ho' _ => ?_
      · simp only [channels, List.map_map]
        exact map_name_set ho₁ hstep
      · obtain rfl : r = r' := Option.some.inj (hr.symm.trans hr')
        exact ⟨_, run?_set hr _ _, hagree.lanes lane ht⟩
      · exact ⟨o', (List.getElem?_set_ne ht).trans ho', rfl, rfl⟩
  -- the dispatch does not look at it before it breaks off
  | shutdown => exact h.frame rfl (fun r hr => ⟨r, hr, rfl⟩) hsame
  | breakOff =>
    obtain ⟨r, -, hr, -, -⟩ := h.up
    rw [Turn.action, apply, breakOff, hr]
    dsimp only
    split
    next =>
      refine h.frame rfl (fun r' hr' => ?_) hsame
      obtain rfl : r = r' := Option.some.inj (hr.symm.trans hr')
      exact ⟨_, run?_set hr _ _, rfl⟩
    next => exact h
  | setEnabled name enabled =>
    rw [Turn.action, apply]
    refine h.change fun d' hd' => ?_
    -- a switch leaves the settings of any channel
    obtain ⟨x, hx, hd'⟩ := setEnabled_eq_ok hd'
    exact ⟨name, x, x.setEnabled enabled, hx, rfl, .inl rfl, hd'⟩
  | update name patch =>
    rw [Turn.action, apply]
    refine h.change fun d' hd' => ?_
    -- an update of this channel would not be quiet
    obtain ⟨x, x', hx, hupdate, hd'⟩ := update_eq_ok hd'
    exact ⟨name, x, x', hx, (Channel.name_tally_update hupdate).1, .inr ht, hd'⟩

/-- An event that waits goes on waiting while the turns are quiet about it. -/
theorem Waits.after (h : s.Waits call lane o c) {turns : List (Instant × Turn)}
    (hturns : ∀ x ∈ turns, x.2.IsQuiet lane o.channel.name) :
    (s.after call turns).Waits call lane o c := by
  induction turns generalizing s with
  | nil => exact h
  | cons x turns ih =>
    obtain ⟨hx, hturns⟩ := List.forall_mem_cons.1 hturns
    exact ih (h.turn x.1 hx) hturns

/-- A message whose lane and channel are left alone after it was written is delivered with the
settings in whose markup it is written. -/
theorem begin_of_quiet (hnames : (s.dispatcher.channels.map (·.name)).Nodup)
    (hrun : s.run? call = some r) (hup : s.up? r lane = some (o, c)) (hstage : c.stage = .queued)
    {now : Instant} {m : Message}
    (hwrite : o.write s.dispatcher.templates now
      (messageId r.supply r.lanes.length c.position lane) c.event = .ok m)
    (w : World) {turns : List (Instant × Turn)}
    (hturns : ∀ x ∈ turns, x.2.IsQuiet lane o.channel.name) :
    let s' := (s.step now call lane w).after call turns
    (∃ title, s.dispatcher.templates.renderAlert o.route.template c.event
      o.channel.settings.medium = .ok (title, m.content)) ∧
    ∃ r' o', s'.run? call = some r' ∧
      s'.up? r' lane = some (o', { c with stage := .written m }) ∧
      ∀ d, o'.channel.begin m = .ok d → d = o.channel.settings.delivery m := by
  intro s'
  -- the first step writes the message, with the markup of the settings at this time
  have hresult : r.step s.dispatcher.templates now w lane o c =
      (r.setStage lane (.written m), o) := by
    unfold Run.step
    rw [hstage]
    dsimp only
    rw [hwrite]
  obtain ⟨ho, hc⟩ := up?_eq_some_iff.1 hup
  obtain ⟨l, hl, hcurrent⟩ := Option.bind_eq_some_iff.1 hc
  -- from then on the event waits in its lane, and the settings stay
  have hwaits : (s.step now call lane w).Waits call lane o { c with stage := .written m } := by
    rw [step_of_up? hrun hup, hresult]
    refine ⟨?_, _, o, run?_set hrun _ _, up?_eq_some_iff.2 ⟨?_, ?_⟩, rfl, rfl⟩
    · have hset := map_name_set ho ⟨rfl, rfl⟩
      simp only [channels, List.map_map] at hnames ⊢
      exact hset ▸ hnames
    · exact List.getElem?_set_self (List.getElem?_eq_some_iff.1 ho).1
    · simp [Run.setStage, hl, Lane.setStage, hcurrent]
  obtain ⟨r', o', hr', hup', hsame⟩ := (hwaits.after hturns).up
  refine ⟨Outlet.renderAlert_of_write hwrite, r', o', hr', hup', fun d hd => ?_⟩
  -- a delivery is that of the settings at its beginning, which are the same
  rw [(Channel.begin_eq_ok_iff.1 hd).2.2, hsame.settings]

/-- An update between the two: the body is in HTML, where an underscore is no markup, and the
settings with which it is delivered are for Markdown, where it is. -/
example :
    let now : Instant := ⟨0, 0⟩
    let w := Occasion.silent.world
    let bot : Channel.ChatbotSettings := { botToken := some "0", chatId := some "0" }
    let d : Dispatcher := {
      outlets := [⟨{ name := "bot", settings := .chatbot bot }, { template := "name" }⟩]
      templates := Template.Library.store {} ⟨"name", "$condition_name", "", .custom⟩ }
    let e : Event := { (default : Event) with conditionName := "_" }
    let s := ((Session.mk d []).call [e]).after 0
      [(now, .step 0 w), (now, .update "bot" (.obj [("parse_mode", .str "Markdown")])),
        (now, .step 0 w)]
    ((s.run? 0).bind fun r => s.up? r 0).map (fun (o, c) =>
      (o.channel.settings.medium, match c.stage with
        | .begun m _ => some m.content
        | _ => none)) = some (.markdown, some "_") := by
  decide +kernel

end Waits

end Session

end Dispatcher

end MarketAlerts
