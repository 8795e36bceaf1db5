import MarketAlerts.Proofs.Engine.Cancellation
import MarketAlerts.Proofs.Engine.Flights

/-!
# Each condition follows its own course

Whatever becomes of a condition in a course of happenings can be found out without the other
conditions: the edits of its identifier and the completed passes that apply to it are followed one
by one, each pass being that of `PassItem.pass`.

- `Deed.onAll`: the course of one condition on its own;
- `Session.Tracks.happen`: what one happening preserves;
- `Session.course_isolation`: every condition of a session follows its own course, if edits come
  between passes and no evaluation overflows.
-/

namespace MarketAlerts.Engine

/-! ## The course of one condition -/

/-- What conditions notice of a course of happenings. -/
inductive Deed where
  /-- An edit of the watchlist. -/
  | edit (d : Watchlist.Edit)
  /-- A completed pass over a snapshot, with the times of its beginning and its end. -/
  | pass (began ended : Instant) (snapshot : Snapshot)

namespace Deed

/-- What a deed makes of the condition with an identifier, if there is one, and its events. -/
def on (settings : Settings) (id : String) (x : Option PassItem) :
    Deed → Option PassItem × List Event
  | edit d => (d.on id x, [])
  | pass began ended s =>
    (x.map fun x => (x.pass settings began ended s).1,
      (x.bind fun x => (x.pass settings began ended s).2).toList)

/-- What deeds in a row make of the condition with an identifier, and all its events. -/
def onAll (settings : Settings) (id : String) :
    Option PassItem → List Deed → Option PassItem × List Event
  | x, [] => (x, [])
  | x, d :: ds =>
    let (y, events) := d.on settings id x
    let (z, others) := onAll settings id y ds
    (z, events ++ others)

/-- Whether a deed is about the condition with an identifier: an edit of it, or a pass over a
snapshot of its symbol while it is registered and active. -/
def isAbout (id : String) (x : Option PassItem) : Deed → Bool
  | edit d => d.id = id
  | pass _ _ s => x.any fun x => x.condition.appliesTo s.symbol

/-- The deeds that are about the condition with an identifier. -/
def about (settings : Settings) (id : String) : Option PassItem → List Deed → List Deed
  | _, [] => []
  | x, d :: ds =>
    let rest := about settings id (d.on settings id x).1 ds
    if d.isAbout id x then d :: rest else rest

variable {settings : Settings} {id : String}

theorem onAll_append (x : Option PassItem) (ds es : List Deed) :
    onAll settings id x (ds ++ es) =
      ((onAll settings id (onAll settings id x ds).1 es).1,
        (onAll settings id x ds).2 ++ (onAll settings id (onAll settings id x ds).1 es).2) := by
  induction ds generalizing x with
  | nil => rfl
  | cons d ds ih => simp [onAll, ih]

/-- A deed that is not about a condition leaves it and has no event of it. -/
theorem on_of_not_isAbout (settings : Settings) {x : Option PassItem} {d : Deed}
    (h : d.isAbout id x = false) : d.on settings id x = (x, []) := by
  cases d with
  | edit d =>
    have hid : d.id ≠ id := of_decide_eq_false h
    cases d with
    | register c => simp [on, Watchlist.Edit.on, show c.id ≠ id from hid]
    | unregister other => simp [on, Watchlist.Edit.on, show other ≠ id from hid]
    | setActive other active => simp [on, Watchlist.Edit.on, show other ≠ id from hid]
  | pass began ended s =>
    cases x with
    | none => rfl
    | some x =>
      have happ : ¬ x.condition.appliesTo s.symbol = true := by simpa [isAbout] using h
      simp [on, PassItem.pass_of_not_appliesTo happ]

/-- Deeds that are not about a condition leave it alone. -/
theorem onAll_about (x : Option PassItem) (ds : List Deed) :
    onAll settings id x (about settings id x ds) = onAll settings id x ds := by
  induction ds generalizing x with
  | nil => rfl
  | cons d ds ih =>
    cases h : d.isAbout id x with
    | true => simp [about, h, onAll, ih]
    | false =>
      -- the deed is left out, and it does nothing
      have hon := on_of_not_isAbout settings h
      rw [about, h]
      simp [onAll, hon, ih]

end Deed

/-! ## The deeds of a session -/

/-- The events that an answer brings. -/
def Answer.events : Answer → List Event
  | .pass (.ok events) => events
  | _ => []

/-- Whether an answer tells of a pass that broke off: a step of it left the range of decimals or
dates. -/
def Answer.breaksOff : Answer → Bool
  | .pass (.error .overflow) => true
  | _ => false

namespace Session

/-- The pass of the first call, if the call is answered with its events. -/
def completed? (now : Instant) : Option (Nat × Answer) → Option Call → Option Deed
  | some (_, .pass (.ok _)), some (.pass _ _ snapshot flight) =>
    some (.pass ((flight.map (·.context.timestamp)).getD now) now snapshot)
  | _, _ => none

/-- What conditions notice of a happening. -/
def deed? (s : Session) (now : Instant) : Happening → Option Deed
  | .edit d => some (.edit d)
  | .act a => completed? now (s.apply now a).1 s.queue.head?

/-- What conditions notice of a course of happenings. -/
def deeds (s : Session) : List (Instant × Happening) → List Deed
  | [] => []
  | (now, x) :: rest => (s.deed? now x).toList ++ (s.happen now x).2.deeds rest

/-- The events with an identifier that answers bring, but for what is drawn at random. -/
def eventsOf (id : String) (answers : List (Nat × Answer)) : List Event :=
  ((answers.flatMap fun a => a.2.events).filter fun e => e.conditionId = id).map Event.unnumbered

theorem eventsOf_append (id : String) (as bs : List (Nat × Answer)) :
    eventsOf id (as ++ bs) = eventsOf id as ++ eventsOf id bs := by
  simp [eventsOf]

/-- Whether in a course of happenings edits come only while no pass is in flight. -/
def EditsBetweenPasses (s : Session) : List (Instant × Happening) → Prop
  | [] => True
  | (now, x) :: rest =>
    (x.edit?.isSome → s.flight? = none) ∧ (s.happen now x).2.EditsBetweenPasses rest

/-- A course of whole passes: edits come between them, none breaks off, and none is in flight in
the end. -/
structure IsWhole (s : Session) (steps : List (Instant × Happening)) : Prop where
  edits : s.EditsBetweenPasses steps
  answers : ∀ a ∈ (s.course steps).1, a.2.breaksOff = false
  flight : (s.course steps).2.flight? = none

end Session

/-! ## A pass in flight -/

/-- How a pass in flight stands to the watchlist without its marks: it has taken up the conditions
of the symbol, and its results are outcomes of theirs. -/
structure Flight.Evaluates (f : Flight) (settings : Settings) (l : Watchlist) (s : Snapshot) :
    Prop extends f.Records settings s where
  items : f.items = (l.beginPass s.symbol).1
  strategy : f.context.strategy = settings.strategy

namespace Flight

variable {f : Flight} {settings : Settings} {l : Watchlist} {s : Snapshot}

/-- At its beginning a pass has nothing but its conditions. -/
theorem evaluates_ofItems {context : PassContext} (hstrategy : context.strategy = settings.strategy)
    {items : List PassItem} (hitems : items = (l.beginPass s.symbol).1) :
    (ofItems context items).Evaluates settings l s :=
  ⟨records_ofItems context items, hitems, hstrategy⟩

/-- A pass goes on to evaluate its conditions with each further result. -/
theorem Evaluates.set (h : f.Evaluates settings l s) {i : Nat} {item : PassItem}
    (hitem : f.items[i]? = some item)
    (houtcome : settings.strategy = .sequential →
      (item.outcome? settings.historyLimit s).isSome) :
    { f with results := f.results.set i (some (item.outcome? settings.historyLimit s)) }.Evaluates
      settings l s :=
  ⟨h.toRecords.set hitem houtcome, h.items, h.strategy⟩

/-- Once nothing is pending, the outcomes are those of a pass over the watchlist. -/
theorem Evaluates.outcomes_eq (h : f.Evaluates settings l s) (hpending : f.pending = []) :
    f.outcomes = l.outcomes settings.historyLimit s := by
  rw [h.toRecords.outcomes_eq hpending, h.items, Watchlist.outcomes]

/-- Only what the conditions are and remember matters to it. -/
theorem Evaluates.of_items_eq (h : f.Evaluates settings l s) {k : Watchlist}
    (hitems : k.items = l.items) : f.Evaluates settings k s :=
  ⟨h.toRecords, h.items.trans (Watchlist.beginPass_fst_eq_of_items_eq hitems s.symbol).symm,
    h.strategy⟩

end Flight

/-! ## Whole passes -/

namespace Session

/-- The watchlist of a session is `l` but for the marks of the pass in flight, which evaluates the
conditions of `l`. -/
structure Tracks (l : Watchlist) (s : Session) : Prop extends Follows l s where
  flight : ∀ (ticket start : Nat) (snapshot : Snapshot) (f : Flight),
    s.queue.head? = some (.pass ticket start snapshot (some f)) →
    f.Evaluates s.engine.settings l snapshot

section Tracks

variable {l : Watchlist} {s : Session}

/-- Without a pass in flight there is nothing to evaluate. -/
theorem tracks_of_waiting {e : Engine} {rest : List Call} {n : Nat}
    (hshadowed : Watchlist.Shadowed [] l e.watchlist) (hrest : ∀ c ∈ rest, c.flight? = none) :
    Tracks l ⟨e, rest, n⟩ := by
  refine ⟨follows_of_waiting hshadowed hrest, fun ticket start snapshot f hhead => ?_⟩
  have hnone := hrest _ (List.mem_of_mem_head? hhead)
  cases hnone

/-- Only the conditions and memories without the marks matter. -/
theorem Tracks.of_items_eq (h : Tracks l s) {k : Watchlist} (hitems : k.items = l.items) :
    Tracks k s :=
  ⟨⟨h.shadowed.of_items_eq hitems, h.waiting⟩, fun ticket start snapshot f hhead =>
    (h.flight ticket start snapshot f hhead).of_items_eq hitems⟩

/-- What one step makes of the watchlist without marks and of the events is what it makes of each
condition on its own. -/
def Explains (l l' : Watchlist) (settings : Settings) (answer : Option (Nat × Answer))
    (deed? : Option Deed) : Prop :=
  l'.ids.Nodup ∧ ∀ id, Deed.onAll settings id (l.item? id) deed?.toList =
    (l'.item? id, eventsOf id answer.toList)

/-- Without events nothing is to be explained. -/
theorem explains_self (hnodup : l.ids.Nodup) (settings : Settings)
    {answer : Option (Nat × Answer)} (hanswer : ∀ a ∈ answer, a.2.events = []) :
    Explains l l settings answer none := by
  refine ⟨hnodup, fun id => ?_⟩
  cases answer with
  | none => rfl
  | some a =>
    have hevents : a.2.events = [] := hanswer a rfl
    simp [Deed.onAll, eventsOf, hevents]

section Calls

variable {e : Engine} {n ticket start : Nat} {snapshot : Snapshot} {rest : List Call}

/-- A pass without conditions has nothing to do with any condition. -/
theorem Tracks.empty (h : Tracks l ⟨e, .pass ticket start snapshot none :: rest, n⟩)
    (hnodup : l.ids.Nodup) (now : Instant)
    (hitems : (e.watchlist.beginPass snapshot.symbol).1 = []) :
    Tracks l ⟨(e.beginPass now snapshot.symbol).2.2, rest, n⟩ ∧
      Explains l l e.settings (some (ticket, .pass (.ok []))) (some (.pass now now snapshot)) := by
  have hshadowed : Watchlist.Shadowed [] l e.watchlist := h.shadowed
  -- a pass that takes up nothing marks nothing
  have hmarked : Watchlist.Shadowed [] l (e.watchlist.beginPass snapshot.symbol).2 := by
    simpa [hitems] using hshadowed.beginPass hnodup snapshot.symbol
  refine ⟨tracks_of_waiting hmarked h.waiting, hnodup, fun id => ?_⟩
  rw [Watchlist.beginPass_fst_eq_of_items_eq hshadowed.items_eq] at hitems
  have hon : (Deed.pass now now snapshot).on e.settings id (l.item? id) = (l.item? id, []) :=
    Deed.on_of_not_isAbout e.settings
      (Watchlist.any_appliesTo_of_beginPass_eq_nil hnodup hitems id)
  simp [Deed.onAll, hon, eventsOf, Answer.events]

/-- A pass that begins evaluates the conditions of the watchlist without its marks. -/
theorem Tracks.begun (h : Tracks l ⟨e, .pass ticket start snapshot none :: rest, n⟩)
    (hnodup : l.ids.Nodup) (now : Instant) :
    Tracks l ⟨(e.beginPass now snapshot.symbol).2.2,
      .pass ticket start snapshot (some (.ofItems (e.beginPass now snapshot.symbol).1
        (e.watchlist.beginPass snapshot.symbol).1)) :: rest, n⟩ := by
  have hshadowed : Watchlist.Shadowed [] l e.watchlist := h.shadowed
  refine ⟨⟨hshadowed.beginPass hnodup snapshot.symbol, h.waiting⟩, ?_⟩
  intro ticket' start' snapshot' f hhead
  cases hhead
  exact Flight.evaluates_ofItems rfl
    (Watchlist.beginPass_fst_eq_of_items_eq hshadowed.items_eq snapshot.symbol)

/-- A pass whose outcomes are committed does to each condition what a pass of its own does. -/
theorem Tracks.committed {f : Flight}
    (h : Tracks l ⟨e, .pass ticket start snapshot (some f) :: rest, n⟩) (hnodup : l.ids.Nodup)
    {now : Instant} (hpending : f.pending = [])
    (hanswer : (Answer.pass (e.commitPass f.context now f.outcomes).1).breaksOff = false) :
    ∃ l', Tracks l' ⟨(e.commitPass f.context now f.outcomes).2, rest, n⟩ ∧
      (e.commitPass f.context now f.outcomes).2.settings = e.settings ∧
      let answer := some (ticket, .pass (e.commitPass f.context now f.outcomes).1)
      Explains l l' e.settings answer
        (completed? now answer (some (.pass ticket start snapshot (some f)))) := by
  have hevaluates := h.flight ticket start snapshot f rfl
  have hmarked : Watchlist.Shadowed
      ((l.beginPass snapshot.symbol).1.map (·.condition.id)) l e.watchlist := by
    rw [← hevaluates.items]
    exact h.shadowed
  rw [hevaluates.outcomes_eq hpending] at hanswer ⊢
  cases hdue : dueAt? e.settings.interval now with
  | none => simp [commitPass, hdue, Answer.breaksOff] at hanswer
  | some next =>
    -- what is committed is from now on the watchlist without marks
    simp only [commitPass, hdue]
    refine ⟨_, tracks_of_waiting (.refl _) h.waiting, trivial, ?_, fun id => ?_⟩
    · rw [Watchlist.ids_commitPass, hmarked.ids_eq]
      exact hnodup
    · have hitem := Watchlist.item?_commitPass hnodup hmarked hdue f.context.timestamp id
      have hevents := Watchlist.events_commitPass hnodup hmarked hevaluates.strategy now next
        e.supply id
      simp [completed?, Deed.onAll, Deed.on, hitem, eventsOf, Answer.events, hevents]

end Calls

/-- What a step preserves. -/
theorem Tracks.step (h : Tracks l s) (hnodup : l.ids.Nodup) {now : Instant}
    {answer : Option (Nat × Answer)} {s' : Session} (hstep : Step now s answer s')
    (hanswer : ∀ a ∈ answer, a.2.breaksOff = false) :
    ∃ l', Tracks l' s' ∧ s'.engine.settings = s.engine.settings ∧
      Explains l l' s.engine.settings answer (completed? now answer s.queue.head?) := by
  cases hstep with
  | idle => exact ⟨l, h, rfl, explains_self hnodup _ (by rintro a ⟨⟩)⟩
  | drained =>
    exact ⟨l, tracks_of_waiting h.shadowed h.waiting, rfl,
      explains_self hnodup _ (by rintro a ⟨⟩; rfl)⟩
  | refused hcancelled =>
    exact ⟨l, tracks_of_waiting h.shadowed h.waiting, rfl,
      explains_self hnodup _ (by rintro a ⟨⟩; rfl)⟩
  | empty hcancelled hitems =>
    have hempty := h.empty hnodup now hitems
    exact ⟨l, hempty.1, rfl, hempty.2⟩
  | begun hcancelled hitems =>
    exact ⟨l, h.begun hnodup now, rfl, explains_self hnodup _ (by rintro a ⟨⟩)⟩
  | aborted hcancelled =>
    exact ⟨l, tracks_of_waiting h.shadowed.abortPass h.waiting, rfl,
      explains_self hnodup _ (by rintro a ⟨⟩; rfl)⟩
  | committed hcancelled hpending => exact h.committed hnodup hpending (hanswer _ rfl)
  -- only the flight changes, and it still holds what each condition gives alone
  | evaluated hcancelled hi hitem houtcome =>
    refine ⟨l, ⟨⟨h.shadowed, h.waiting⟩, ?_⟩, rfl, explains_self hnodup _ (by rintro a ⟨⟩)⟩
    intro ticket start snapshot f hhead
    cases hhead
    exact (h.flight _ _ _ _ rfl).set hitem houtcome
  | broken hcancelled hstrategy hi hitem houtcome => cases hanswer _ rfl

/-- A new call is not in flight, and conditions do not notice it. -/
theorem Tracks.requested (h : Tracks l s) (hnodup : l.ids.Nodup)
    {answer : Option (Nat × Answer)} {s' : Session} (hrequested : Requested s answer s')
    (now : Instant) :
    Tracks l s' ∧
      Explains l l s.engine.settings answer (completed? now answer s.queue.head?) := by
  constructor
  · refine ⟨h.toFollows.requested hrequested, fun ticket start snapshot f hhead => ?_⟩
    rw [hrequested.settings]
    exact h.flight ticket start snapshot f (hrequested.head?_eq hhead rfl)
  · have hevents : ∀ a ∈ answer, a.2.events = [] := by
      intro a ha
      rcases hrequested.answer a ha with ha | ha <;> rw [ha] <;> rfl
    have hcompleted : completed? now answer s.queue.head? = none := by
      cases answer with
      | none => rfl
      | some a =>
        obtain ⟨ticket, answer⟩ := a
        rcases hrequested.answer _ rfl with ha | ha <;> cases ha <;> rfl
    rw [hcompleted]
    exact explains_self hnodup _ hevents

/-- What a happening preserves. -/
theorem Tracks.happen (h : Tracks l s) (hnodup : l.ids.Nodup) (now : Instant) (x : Happening)
    (hedit : x.edit?.isSome → s.flight? = none)
    (hanswer : ∀ a ∈ (s.happen now x).1, a.2.breaksOff = false) :
    ∃ l', Tracks l' (s.happen now x).2 ∧
      (s.happen now x).2.engine.settings = s.engine.settings ∧
      Explains l l' s.engine.settings (s.happen now x).1 (s.deed? now x) := by
  cases x with
  | edit d =>
    refine ⟨l.edit d, ⟨⟨h.shadowed.edit d, h.waiting⟩, ?_⟩, rfl,
      Watchlist.nodup_ids_edit hnodup d, fun id => ?_⟩
    · -- edits come between passes, so that no pass is in flight
      intro ticket start snapshot f hhead
      have hnone := hedit rfl
      rw [flight?, show s.queue.head? = _ from hhead] at hnone
      cases hnone
    · rw [Watchlist.item?_edit]
      rfl
  | act a =>
    rcases requested_or_step s now a with hrequested | hstep
    · obtain ⟨htracks, hexplains⟩ := h.requested hnodup hrequested now
      exact ⟨l, htracks, hrequested.settings, hexplains⟩
    · exact h.step hnodup hstep hanswer

/-- What a course of happenings preserves. -/
theorem Tracks.course (h : Tracks l s) (hnodup : l.ids.Nodup) (steps : List (Instant × Happening))
    (hedits : s.EditsBetweenPasses steps)
    (hanswers : ∀ a ∈ (s.course steps).1, a.2.breaksOff = false) :
    ∃ l', Tracks l' (s.course steps).2 ∧ l'.ids.Nodup ∧
      ∀ id, Deed.onAll s.engine.settings id (l.item? id) (s.deeds steps) =
        (l'.item? id, eventsOf id (s.course steps).1) := by
  induction steps generalizing l s with
  | nil => exact ⟨l, h, hnodup, fun id => rfl⟩
  | cons step steps ih =>
    obtain ⟨now, x⟩ := step
    obtain ⟨hedit, hedits⟩ := hedits
    obtain ⟨m, hm, hsettings, hmnodup, hfirst⟩ := h.happen hnodup now x hedit fun a ha =>
      hanswers a (List.mem_append_left _ (Option.mem_toList.2 ha))
    obtain ⟨l', hl', hl'nodup, hrest⟩ := ih hm hmnodup hedits fun a ha =>
      hanswers a (List.mem_append_right _ ha)
    refine ⟨l', hl', hl'nodup, fun id => ?_⟩
    have hrest := hrest id
    rw [hsettings] at hrest
    rw [deeds, Deed.onAll_append, hfirst, hrest]
    exact Prod.ext rfl (eventsOf_append id _ _).symm

/-- The events of a step come in the order of registration. -/
theorem Tracks.sublist_events (h : Tracks l s) (hnodup : l.ids.Nodup) {now : Instant}
    {answer : Option (Nat × Answer)} {s' : Session} (hstep : Step now s answer s') :
    ∀ a ∈ answer, (a.2.events.map (·.conditionId)).Sublist s.engine.watchlist.ids := by
  cases hstep with
  | @committed e n ticket start snapshot rest f hcancelled hpending =>
    rintro a ⟨⟩
    have hevaluates := h.flight _ _ _ _ rfl
    rw [hevaluates.outcomes_eq hpending]
    cases hdue : dueAt? e.settings.interval now with
    | none => simp [commitPass, hdue, Answer.events]
    | some next =>
      have hsublist := Watchlist.sublist_emit_commitPass hnodup h.shadowed.ids_eq f.context
        now next e.supply e.settings.historyLimit snapshot
      simpa [commitPass, hdue, Answer.events] using hsublist
  | idle | begun | evaluated => rintro a ⟨⟩
  | drained | refused | empty | aborted | broken => rintro a ⟨⟩; exact List.nil_sublist _

/-- The events of an answer come in the order of registration. -/
theorem Tracks.sublist_events_happen (h : Tracks l s) (hnodup : l.ids.Nodup) (now : Instant)
    (x : Happening) : ∀ a ∈ (s.happen now x).1,
      (a.2.events.map (·.conditionId)).Sublist s.engine.watchlist.ids := by
  cases x with
  | edit d => rintro a ⟨⟩
  | act a =>
    rcases requested_or_step s now a with hrequested | hstep
    · -- what is turned away has no events
      intro b hb
      rcases hrequested.answer b hb with hb | hb <;> rw [hb] <;> exact List.nil_sublist _
    · exact h.sublist_events hnodup hstep

end Tracks

/-! ## Isolation -/

theorem course_append (s : Session) (xs ys : List (Instant × Happening)) :
    s.course (xs ++ ys) =
      ((s.course xs).1 ++ ((s.course xs).2.course ys).1, ((s.course xs).2.course ys).2) := by
  induction xs generalizing s with
  | nil => rfl
  | cons step xs ih => simp [course, ih]

/-- If edits come between passes all along, they do so at first. -/
theorem EditsBetweenPasses.of_append {s : Session} {xs ys : List (Instant × Happening)}
    (h : s.EditsBetweenPasses (xs ++ ys)) : s.EditsBetweenPasses xs := by
  induction xs generalizing s with
  | nil => trivial
  | cons step xs ih => exact ⟨h.1, ih h.2⟩

/-- A session without calls is that of its watchlist. -/
theorem tracks_mk (e : Engine) (n : Nat) : Tracks e.watchlist (Session.mk e [] n) :=
  tracks_of_waiting (.refl _) fun c hc => by cases hc

/-- In a course of whole passes every condition follows its own course. -/
theorem onAll_deeds {e : Engine} (h : e.watchlist.Reachable) {n : Nat}
    {steps : List (Instant × Happening)} (hwhole : (Session.mk e [] n).IsWhole steps)
    (id : String) :
    Deed.onAll e.settings id (e.watchlist.item? id) ((Session.mk e [] n).deeds steps) =
      (((Session.mk e [] n).course steps).2.engine.watchlist.item? id,
        eventsOf id ((Session.mk e [] n).course steps).1) := by
  obtain ⟨l, hl, -, hcourse⟩ :=
    (tracks_mk e n).course h.nodup steps hwhole.edits hwhole.answers
  have hshadowed := hl.shadowed
  -- in the end no pass is in flight, so that there are no marks
  rw [marked, hwhole.flight] at hshadowed
  rw [Watchlist.item?_eq_of_items_eq hshadowed.items_eq]
  exact hcourse id

/-- Conditions do not see each other. For every engine, whatever its strategy, and every course of
whole passes, completed or cancelled, over snapshots of any symbols, with edits between them: what
becomes of a condition, and the sequence of its events, is what its own edits make of it and the
passes that completed over snapshots of its symbol while it was registered and active, followed one
by one. In another course, be it with other conditions, the same is made of the same. The events of
one pass come in the order of registration. -/
theorem course_isolation {e : Engine} (h : e.watchlist.Reachable) (n : Nat)
    {steps : List (Instant × Happening)} (hwhole : (Session.mk e [] n).IsWhole steps) :
    let s := Session.mk e [] n
    (∀ id, Deed.onAll e.settings id (e.watchlist.item? id)
        (Deed.about e.settings id (e.watchlist.item? id) (s.deeds steps)) =
      ((s.course steps).2.engine.watchlist.item? id, eventsOf id (s.course steps).1)) ∧
    (∀ (e' : Engine) (n' : Nat) (steps' : List (Instant × Happening)) (id : String),
      e'.watchlist.Reachable → (Session.mk e' [] n').IsWhole steps' →
      e'.settings = e.settings → e'.watchlist.item? id = e.watchlist.item? id →
      Deed.about e'.settings id (e'.watchlist.item? id) ((Session.mk e' [] n').deeds steps') =
        Deed.about e.settings id (e.watchlist.item? id) (s.deeds steps) →
      ((Session.mk e' [] n').course steps').2.engine.watchlist.item? id =
          (s.course steps).2.engine.watchlist.item? id ∧
        eventsOf id ((Session.mk e' [] n').course steps').1 = eventsOf id (s.course steps).1) ∧
    ∀ (before : List (Instant × Happening)) (now : Instant) (x : Happening)
      (after : List (Instant × Happening)), steps = before ++ (now, x) :: after →
      ∀ a ∈ ((s.course before).2.happen now x).1,
        (a.2.events.map (·.conditionId)).Sublist (s.course before).2.engine.watchlist.ids := by
  intro s
  refine ⟨fun id => ?_, fun e' n' steps' id h' hwhole' hsettings hitem habout => ?_,
    fun before now x after hsteps => ?_⟩
  · rw [Deed.onAll_about]
    exact onAll_deeds h hwhole id
  · -- both courses are the same function of the same deeds
    have hcourse := onAll_deeds h hwhole id
    have hcourse' := onAll_deeds h' hwhole' id
    rw [← Deed.onAll_about, habout, hsettings, hitem, Deed.onAll_about, hcourse] at hcourse'
    exact ⟨(congrArg Prod.fst hcourse').symm, (congrArg Prod.snd hcourse').symm⟩
  · -- the course so far is a course of whole passes, but for the one that may be in flight
    subst hsteps
    obtain ⟨l, hl, hnodup, -⟩ := (tracks_mk e n).course h.nodup before hwhole.edits.of_append
      fun a ha => hwhole.answers a (by
        rw [course_append]
        exact List.mem_append_left _ ha)
    exact hl.sublist_events_happen hnodup now x

/-- A started engine with conditions of two symbols. -/
def ofTwo : Session where
  engine := {
    watchlist := (({} : Watchlist).edit (.register (.priceAbove "c1" "BTCUSDT"))).edit
      (.register (.priceAbove "c2" "ETHUSDT"))
    running := true }

/-- A completed pass over the first symbol, the removal of the second condition, and a pass that is
cancelled. -/
def passTwice : List (Instant × Happening) :=
  let pass := Action.pass ((Quote.ofPrice "BTCUSDT" (.ofInt64 101)).atTime ⟨0, 0⟩)
  let happenings : List Happening :=
    [.act pass, .act (.advance 0), .act (.advance 0), .act (.advance 0), .edit (.unregister "c2"),
      .act pass, .act (.advance 0), .act .stop, .act (.advance 0)]
  happenings.map fun x => (⟨0, 0⟩, x)

/-- The first condition has the record and the event of one pass, whatever became of the other. -/
theorem course_isolation_ofTwo :
    ofTwo.engine.watchlist.Reachable ∧ ofTwo.IsWhole passTwice ∧
      ((ofTwo.course passTwice).2.engine.watchlist.item? "c1").map
        (·.condition.record.triggers) = some 1 ∧
      (eventsOf "c1" (ofTwo.course passTwice).1).length = 1 := by
  have hreach : ofTwo.engine.watchlist.Reachable :=
    .edit (.register (.priceAbove "c2" "ETHUSDT"))
      (.edit (.register (.priceAbove "c1" "BTCUSDT")) .empty)
  have hanswers : (ofTwo.course passTwice).1.all (fun a => !a.2.breaksOff) = true := by
    decide +kernel
  have hwhole : ofTwo.IsWhole passTwice :=
    ⟨⟨nofun, nofun, nofun, nofun, fun _ => Option.isNone_iff_eq_none.1 (by decide +kernel),
        nofun, nofun, nofun, nofun, trivial⟩,
      fun a ha => by simpa using List.all_eq_true.1 hanswers a ha,
      Option.isNone_iff_eq_none.1 (by decide +kernel)⟩
  have hcourse := (course_isolation hreach 0 hwhole).1 "c1"
  refine ⟨hreach, hwhole, ?_, ?_⟩
  · refine (congrArg (Option.map _) (congrArg Prod.fst hcourse).symm).trans ?_
    decide +kernel
  · refine (congrArg List.length (congrArg Prod.snd hcourse).symm).trans ?_
    decide +kernel

end Session

end MarketAlerts.Engine
