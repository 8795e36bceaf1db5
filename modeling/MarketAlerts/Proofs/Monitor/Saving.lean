import MarketAlerts.Proofs.Audit.Writes
import MarketAlerts.Proofs.Engine.Firings
import MarketAlerts.Proofs.Monitor.SideBySide

/-!
# What a run saves

A run saves the conditions of the events of each pass, each as it is when its turn comes. Meanwhile
the engine makes its steps, it is stopped and started again, batches are dispatched, and others use
the dispatcher as well. Still the rows of the conditions that fired are up to date in the end, since
nothing fires between a pass and the saves after it.

## Main definitions

- `Turn`, `Session.turn`, `Session.after`: what happens in a run and around it;
- `Session.passes`, `lastFiring`: the passes that gave their events, and the last one in which a
  condition fired;
- `Saves`: the invariant, with the conditions that are still to be saved left out.

## Main results

- `Saves.quiet`, `Saves.advance`, `Saves.after`: what a turn preserves, and what all turns do;
- `after_saved`: the rows at the end of a run.
-/

namespace MarketAlerts

/-! ## The table of conditions -/

namespace Audit

/-- The row of the condition with an identifier. -/
def row? (a : Audit) (id : String) : Option ConditionRow :=
  a.conditions.find? fun row => row.conditionId = id

/-- A row that is inserted is found under its identifier, and other rows are found as before. -/
theorem find?_insertCondition (row : ConditionRow) (rows : List ConditionRow) (id : String) :
    ((insertCondition row rows).find? fun row' => row'.conditionId = id) =
      if row.conditionId = id then some row else rows.find? fun row' => row'.conditionId = id := by
  induction rows with
  | nil => by_cases hid : row.conditionId = id <;> simp [insertCondition, hid]
  | cons first rest ih =>
    rw [insertCondition]
    split
    next => by_cases hid : row.conditionId = id <;> simp [hid]
    next =>
      split
      next heq => by_cases hid : row.conditionId = id <;> simp [hid, ← heq]
      next hne =>
        rw [List.find?_cons, ih]
        by_cases hid : row.conditionId = id
        · simp [hid, hid ▸ Ne.symm hne]
        · simp [hid, List.find?_cons]

/-- A condition that is saved gets its row, and the other rows stay. -/
theorem row?_saveCondition (a : Audit) (now : Instant) (c : Condition) (id : String) :
    (a.saveCondition now c).row? id =
      if c.id = id then some (.ofCondition now c) else a.row? id :=
  find?_insertCondition (.ofCondition now c) a.conditions id

end Audit

namespace Dispatcher

theorem conditions_recordEvents (a : Audit) (events : List Event) :
    (recordEvents a events).conditions = a.conditions := by
  induction events generalizing a with
  | nil => rfl
  | cons e events ih => exact (ih _).trans (a.conditions_attempt (.event e))

theorem conditions_recordDeliveries (a : Audit) (xs : List (Instant × Sent)) :
    (recordDeliveries a xs).conditions = a.conditions := by
  induction xs generalizing a with
  | nil => rfl
  | cons x xs ih =>
    exact (ih _).trans (a.conditions_attempt (.delivery (deliveryRecord x.1 x.2)))

namespace Session

variable (s : Session)

theorem conditions_call (events : List Event) :
    (s.call events).dispatcher.audit.map Audit.conditions =
      s.dispatcher.audit.map Audit.conditions := by
  unfold call
  dsimp only
  split
  next => rfl
  next =>
    rw [Option.map_map]
    exact congrArg (s.dispatcher.audit.map ·) (funext fun a => conditions_recordEvents a events)

theorem conditions_close (filed : Nat → Instant) (call : Nat) :
    (s.close filed call).dispatcher.audit.map Audit.conditions =
      s.dispatcher.audit.map Audit.conditions := by
  unfold close
  split
  next => rfl
  next r _ =>
    split
    next =>
      dsimp only
      rw [Option.map_map]
      exact congrArg (s.dispatcher.audit.map ·)
        (funext fun a => conditions_recordDeliveries a (stamped filed (arrange r.placed)))
    next => rfl

/-- The dispatcher saves no conditions. -/
theorem conditions_apply (now : Instant) (x : Action) :
    (s.apply now x).dispatcher.audit.map Audit.conditions =
      s.dispatcher.audit.map Audit.conditions := by
  cases x with
  | call events => exact s.conditions_call events
  | close call filed => exact s.conditions_close filed call
  | step call lane w => exact congrArg _ (continues_turn s call now (.step lane w)).audit
  | breakOff call => exact congrArg _ (continues_turn s call now .breakOff).audit
  | shutdown => rfl
  | setEnabled name enabled =>
    exact congrArg _ (continues_turn s 0 now (.setEnabled name enabled)).audit
  | update name patch => exact congrArg _ (continues_turn s 0 now (.update name patch)).audit

end Session

end Dispatcher

namespace Monitor

/-! ## Runs among others -/

/-- What can happen in a run and around it. -/
inductive Turn where
  /-- A step of the run. -/
  | act (a : Action)
  /-- The engine is started by others. -/
  | start
  /-- The evaluating side ends early. -/
  | leave
  /-- The dispatcher is used by others. -/
  | around (a : Dispatcher.Action)

namespace Evaluator

/-- The events whose conditions are still to be saved. -/
def unsaved : Evaluator → List Event
  | .saving _ left => left
  | _ => []

/-- The number of the pass whose answer is awaited. -/
def awaited : Evaluator → List Nat
  | .waiting ticket => [ticket]
  | _ => []

variable {e : Evaluator}

/-- There is one answer to wait for at most. -/
theorem eq_waiting_of_awaited {ticket : Nat} {others : List Nat}
    (h : e.awaited = ticket :: others) : e = .waiting ticket ∧ others = [] := by
  cases e with
  | waiting =>
    cases h
    exact ⟨rfl, rfl⟩
  | ready | saving | offering | ended => cases h

/-- While conditions are saved, no answer is awaited. -/
theorem awaited_eq_nil (h : e.unsaved ≠ []) : e.awaited = [] := by
  cases e with
  | saving => rfl
  | ready | waiting | offering | ended => exact absurd rfl h

end Evaluator

/-- A pass that gave its events. -/
structure Pass where
  /-- Its events. -/
  events : List Event
  /-- The conditions after it. -/
  watchlist : Watchlist

/-- Whether a condition fired in a pass. -/
def Pass.fires (p : Pass) (id : String) : Bool := p.events.any fun e => e.conditionId = id

/-- The last of some passes in which a condition fired. -/
def lastFiring (passes : List Pass) (id : String) : Option Pass :=
  passes.reverse.find? fun p => p.fires id

namespace Session

/-- The evaluating side ends early: it takes no more snapshots, or its batch is not taken any
more. -/
def leave (s : Session) : Session :=
  match s.evaluator with
  | .ready => { s with evaluator := .ended }
  | .offering _ => { s with evaluator := .ended }
  | _ => s

/-- The run after a turn. -/
def turn (s : Session) (now : Instant) : Turn → Session
  | .act a => s.apply now a
  | .start => { s with engine := s.engine.start }
  | .leave => s.leave
  | .around a => { s with dispatcher := s.dispatcher.apply now a }

/-- The run after turns, each at its time. -/
def after (s : Session) (turns : List (Instant × Turn)) : Session :=
  turns.foldl (fun s (now, x) => s.turn now x) s

/-- The pass that gives its events in a turn. -/
def pass? (s : Session) (now : Instant) : Turn → Option Pass
  | .act (.advance pick) =>
    ((s.engine.advance now pick).1.bind fun answer => answer.2.passed?).map fun events =>
      ⟨events, (s.engine.advance now pick).2.engine.watchlist⟩
  | _ => none

/-- The passes that give their events in turns. -/
def passes (s : Session) : List (Instant × Turn) → List Pass
  | [] => []
  | (now, x) :: turns => (s.pass? now x).toList ++ (s.turn now x).passes turns

end Session

/-- A condition fires in a pass if there is an event of it. -/
theorem Pass.fires_eq_true_iff {p : Pass} {id : String} :
    p.fires id = true ↔ ∃ e ∈ p.events, e.conditionId = id := by
  simp [fires]

/-- The last pass is the last firing of a condition that fires in it, and matters to no other. -/
theorem lastFiring_concat (passes : List Pass) (p : Pass) (id : String) :
    lastFiring (passes ++ [p]) id = if p.fires id then some p else lastFiring passes id := by
  cases h : p.fires id <;> simp [lastFiring, h]

/-- Without a last firing there is none at all. -/
theorem lastFiring_eq_none_iff {passes : List Pass} {id : String} :
    lastFiring passes id = none ↔ ∀ p ∈ passes, p.fires id = false := by
  simp [lastFiring]

/-- A condition that fires has a last firing. -/
theorem exists_lastFiring {passes : List Pass} {id : String}
    (h : ∃ p ∈ passes, p.fires id = true) : ∃ p, lastFiring passes id = some p := by
  obtain ⟨p, hp, hfires⟩ := h
  exact Option.isSome_iff_exists.1 (List.find?_isSome.2 ⟨p, List.mem_reverse.2 hp, hfires⟩)

/-- The last firing is a pass in which the condition fires. -/
theorem mem_of_lastFiring {passes : List Pass} {id : String} {p : Pass}
    (h : lastFiring passes id = some p) : p ∈ passes ∧ p.fires id = true := by
  rw [lastFiring] at h
  have hfires := List.find?_some h
  exact ⟨List.mem_reverse.1 (List.mem_of_find?_eq_some h), hfires⟩

/-- Whether this is the row that the condition with an identifier has as soon as it is saved after
passes: that of the condition after the last of them in which it fired, saved at some time. -/
def IsRowAfter (a : Audit) (passes : List Pass) (id : String) (row? : Option Audit.ConditionRow) :
    Prop :=
  match lastFiring passes id with
  | none => row? = a.row? id
  | some p => ∃ now c, p.watchlist.get? id = some c ∧ row? = some (.ofCondition now c)

/-! ## What a turn preserves -/

/-- How a run stands after passes, if it began with the conditions of `l` and the audit `a`. -/
structure Saves (l : Watchlist) (a : Audit) (passes : List Pass) (s : Session) : Prop where
  /-- There are no passes but the one that the evaluating side waits for. -/
  awaited : s.engine.awaited = s.evaluator.awaited
  /-- What is still to be saved fired in the last pass, and nothing has changed since. -/
  current : s.evaluator.unsaved ≠ [] → ∃ earlier p, passes = earlier ++ [p] ∧
    s.engine.engine.watchlist = p.watchlist ∧ ∀ e ∈ s.evaluator.unsaved, e ∈ p.events
  /-- The conditions that fire are registered. -/
  registered : ∀ p ∈ passes, ∀ e ∈ p.events, e.conditionId ∈ p.watchlist.ids
  /-- A condition has its last trigger from the last pass in which it fired. -/
  firings : ∀ id, s.engine.engine.watchlist.firings id =
    ((lastFiring passes id).elim l Pass.watchlist).firings id
  /-- All rows are up to date but those that are still to be saved. -/
  rows : ∃ a', s.dispatcher.dispatcher.audit = some a' ∧
    ∀ id, (∀ e ∈ s.evaluator.unsaved, e.conditionId ≠ id) → IsRowAfter a passes id (a'.row? id)

section Turns

variable {l : Watchlist} {a : Audit} {passes : List Pass} {s s' : Session} {now : Instant}
  {pick : Nat}

/-- At the beginning there is nothing to save. -/
theorem saves_start {m : Monitor} (haudit : m.dispatcher.audit = some a) (feed : List Snapshot) :
    Saves m.engine.watchlist a [] (Session.start m feed) where
  awaited := rfl
  current h := absurd rfl h
  registered := List.forall_mem_nil _
  firings _ := rfl
  rows := ⟨a, haudit, fun _ _ => rfl⟩

/-- A turn in which nothing fires and nothing is saved. -/
theorem Saves.frame (h : Saves l a passes s)
    (hawaited : s'.engine.awaited = s'.evaluator.awaited)
    (hunsaved : s'.evaluator.unsaved = s.evaluator.unsaved)
    (hfirings : ∀ id, s'.engine.engine.watchlist.firings id = s.engine.engine.watchlist.firings id)
    (hwatchlist : s.evaluator.unsaved ≠ [] →
      s'.engine.engine.watchlist = s.engine.engine.watchlist)
    (haudit : s'.dispatcher.dispatcher.audit.map Audit.conditions =
      s.dispatcher.dispatcher.audit.map Audit.conditions) : Saves l a passes s' where
  awaited := hawaited
  current hne := by
    -- what is still to be saved is the same, and the watchlist has not changed meanwhile
    rw [hunsaved] at hne ⊢
    rw [hwatchlist hne]
    exact h.current hne
  registered := h.registered
  firings id := (hfirings id).trans (h.firings id)
  rows := by
    obtain ⟨a', ha', hrows⟩ := h.rows
    rw [ha', Option.map_some] at haudit
    obtain ⟨a'', ha'', hconditions⟩ := Option.map_eq_some_iff.1 haudit
    refine ⟨a'', ha'', fun id hid => ?_⟩
    rw [Audit.row?, hconditions]
    exact hrows id (hunsaved ▸ hid)

/-- A turn that no condition takes notice of. -/
theorem Saves.same (h : Saves l a passes s) (hawaited : s'.engine.awaited = s'.evaluator.awaited)
    (hunsaved : s'.evaluator.unsaved = s.evaluator.unsaved)
    (hwatchlist : s'.engine.engine.watchlist = s.engine.engine.watchlist)
    (haudit : s'.dispatcher.dispatcher.audit.map Audit.conditions =
      s.dispatcher.dispatcher.audit.map Audit.conditions) : Saves l a passes s' :=
  h.frame hawaited hunsaved (fun id => by rw [hwatchlist]) (fun _ => hwatchlist) haudit

/-- A turn of the evaluating side alone. -/
theorem Saves.proceed (h : Saves l a passes s) (hengine : s'.engine = s.engine)
    (hdispatcher : s'.dispatcher = s.dispatcher)
    (hawaited : s'.evaluator.awaited = s.evaluator.awaited)
    (hunsaved : s'.evaluator.unsaved = s.evaluator.unsaved) : Saves l a passes s' :=
  h.same (by rw [hengine, hawaited, h.awaited]) hunsaved (by rw [hengine]) (by rw [hdispatcher])

/-- A turn of the dispatching side. -/
theorem Saves.of_front (h : Saves l a passes s) (hfront : s'.front = s.front)
    (haudit : s'.dispatcher.dispatcher.audit.map Audit.conditions =
      s.dispatcher.dispatcher.audit.map Audit.conditions) : Saves l a passes s' := by
  have hengine : s'.engine = s.engine := congrArg Session.Front.engine hfront
  have hevaluator : s'.evaluator = s.evaluator := congrArg Session.Front.evaluator hfront
  refine h.same ?_ (by rw [hevaluator]) (by rw [hengine]) haudit
  rw [hengine, hevaluator]
  exact h.awaited

/-! ### The dispatching side -/

theorem Session.conditions_take (s : Session) :
    s.take.dispatcher.dispatcher.audit.map Audit.conditions =
      s.dispatcher.dispatcher.audit.map Audit.conditions := by
  unfold take
  split
  next batch _ _ _ => exact s.dispatcher.conditions_call batch
  next => rfl

theorem Session.conditions_deliver (s : Session) (now : Instant) (lane : Nat) (w : World) :
    (s.deliver now lane w).dispatcher.dispatcher.audit.map Audit.conditions =
      s.dispatcher.dispatcher.audit.map Audit.conditions := by
  unfold deliver
  split
  next call _ => exact s.dispatcher.conditions_apply now (.step call lane w)
  next => rfl

theorem Session.conditions_takeReport (s : Session) (filed : Nat → Instant) :
    (s.takeReport filed).dispatcher.dispatcher.audit.map Audit.conditions =
      s.dispatcher.dispatcher.audit.map Audit.conditions := by
  unfold takeReport
  split
  next => rfl
  next call _ =>
    dsimp only
    split
    next => rfl
    next => exact s.dispatcher.conditions_close filed call

/-! ### The evaluating side -/

/-- A pass is called for. -/
theorem Saves.callPass (h : Saves l a passes s) (hready : s.evaluator = .ready)
    (snapshot : Snapshot) (feed : List Snapshot) : Saves l a passes (s.callPass snapshot feed) := by
  have hawaited : s.engine.awaited = [] := by
    rw [h.awaited, hready]
    rfl
  have hunsaved : s.evaluator.unsaved = [] := by
    rw [hready]
    rfl
  have hwatchlist := s.engine.watchlist_requestPass snapshot
  rcases s.engine.requestPass_cases snapshot with ⟨hanswer, hcalls⟩ | ⟨hanswer, hcalls⟩
  · rw [Session.callPass_of_none hanswer]
    rw [hawaited] at hcalls
    exact h.same hcalls hunsaved.symm hwatchlist rfl
  · rw [Session.callPass_of_pass hanswer]
    rw [hawaited] at hcalls
    exact h.same hcalls hunsaved.symm hwatchlist rfl

/-- The condition of an event is saved. It is still as it was after the last pass. -/
theorem Saves.saveCondition {batch left : List Event} {e : Event} (h : Saves l a passes s)
    (hevaluator : s.evaluator = .saving batch (e :: left)) (now : Instant) :
    Saves l a passes { s.saveCondition now e with evaluator := .saving batch left } := by
  have hunsaved : s.evaluator.unsaved = e :: left := by
    rw [hevaluator]
    rfl
  obtain ⟨earlier, p, hpasses, hwatchlist, hevents⟩ := h.current (by simp [hunsaved])
  rw [hunsaved] at hevents
  have he : e ∈ p.events := hevents e List.mem_cons_self
  have hp : p ∈ passes := by simp [hpasses]
  obtain ⟨c, hc⟩ := Watchlist.exists_get?_of_mem_ids (h.registered p hp e he)
  refine ⟨?_, fun _ => ?_, h.registered, h.firings, ?_⟩
  · have hawaited := h.awaited
    rw [hevaluator] at hawaited
    exact hawaited
  · exact ⟨earlier, p, hpasses, hwatchlist, fun e' he' => hevents e' (List.mem_cons_of_mem e he')⟩
  · obtain ⟨a', ha', hrows⟩ := h.rows
    refine ⟨a'.saveCondition now c, ?_, fun id hid => ?_⟩
    · simp only [Session.saveCondition, saveCondition_eq, Session.monitor, hwatchlist, hc,
        Dispatcher.save, ha']
      rfl
    · rw [Audit.row?_saveCondition, Watchlist.id_of_get? hc]
      split
      next heq =>
        -- the last pass is the last one in which the condition fired
        have hfires : p.fires id = true := Pass.fires_eq_true_iff.2 ⟨e, he, heq⟩
        rw [IsRowAfter, hpasses, lastFiring_concat, if_pos hfires]
        exact ⟨now, c, heq ▸ hc, rfl⟩
      next hne =>
        refine hrows id fun e' he' => ?_
        rw [hunsaved] at he'
        rcases List.mem_cons.1 he' with rfl | he'
        · exact hne
        · exact hid e' he'

/-- A step of the evaluating side, whether or not it saves something. -/
theorem Saves.evaluate (h : Saves l a passes s) (now : Instant) :
    Saves l a passes (s.evaluate now) := by
  unfold Session.evaluate
  split
  next hevaluator =>
    split
    next => exact h.proceed rfl rfl (by rw [hevaluator]; rfl) (by rw [hevaluator]; rfl)
    next snapshot feed _ => exact h.callPass hevaluator snapshot feed
  next => exact h
  next hevaluator => exact h.proceed rfl rfl (by rw [hevaluator]; rfl) (by rw [hevaluator]; rfl)
  next hevaluator => exact h.saveCondition hevaluator now
  next hevaluator =>
    split
    next => exact h.proceed rfl rfl (by rw [hevaluator]; rfl) (by rw [hevaluator]; rfl)
    next => exact h
  next => exact h

/-- The evaluating side leaves only where nothing is to be saved. -/
theorem Saves.leave (h : Saves l a passes s) : Saves l a passes s.leave := by
  unfold Session.leave
  split
  next hevaluator => exact h.proceed rfl rfl (by rw [hevaluator]; rfl) (by rw [hevaluator]; rfl)
  next hevaluator => exact h.proceed rfl rfl (by rw [hevaluator]; rfl) (by rw [hevaluator]; rfl)
  next => exact h

/-- Any turn but a step of the engine. -/
theorem Saves.quiet (h : Saves l a passes s) (now : Instant) {x : Turn}
    (hx : ∀ pick, x ≠ .act (.advance pick)) : Saves l a passes (s.turn now x) := by
  cases x with
  | act x =>
    cases x with
    | evaluate => exact h.evaluate now
    | advance pick => exact absurd rfl (hx pick)
    | stop =>
      exact h.same (s.engine.awaited_requestStop.trans h.awaited) rfl
        s.engine.watchlist_requestStop rfl
    | take => exact h.of_front s.front_take s.conditions_take
    | deliver lane w =>
      exact h.of_front (s.front_deliver now lane w) (s.conditions_deliver now lane w)
    | report filed => exact h.of_front (s.front_takeReport filed) (s.conditions_takeReport filed)
  | start => exact h.same h.awaited rfl s.engine.watchlist_start rfl
  | leave => exact h.leave
  | around x => exact h.same h.awaited rfl rfl (s.dispatcher.conditions_apply now x)

/-! ### Steps of the engine -/

/-- Only a step of the engine ends a pass. -/
theorem Session.pass?_of_ne {x : Turn} (hx : ∀ pick, x ≠ .act (.advance pick)) :
    s.pass? now x = none := by
  unfold pass?
  split
  next pick => exact absurd rfl (hx pick)
  next => rfl

section NoPass

variable (h : ∀ ticket result, (s.engine.advance now pick).1 ≠ some (ticket, .pass result))

include h

/-- Without the answer to a pass none ends. -/
theorem Session.pass?_eq_none : s.pass? now (.act (.advance pick)) = none := by
  rw [pass?]
  cases hanswer : (s.engine.advance now pick).1 with
  | none => rfl
  | some answer =>
    obtain ⟨ticket, answer⟩ := answer
    cases answer with
    | pass result => exact absurd hanswer (h ticket result)
    | stopped => rfl

/-- Without the answer to a pass only the engine has changed. -/
theorem Session.advance_of_ne_pass :
    s.advance now pick = { s with engine := (s.engine.advance now pick).2 } := by
  unfold advance
  dsimp only
  split
  next hanswer => exact absurd hanswer (h _ _)
  next => rfl

end NoPass

/-- A step of the engine without the answer to a pass. -/
theorem Saves.advance_of_ne_pass (h : Saves l a passes s)
    (hnone : ∀ ticket result, (s.engine.advance now pick).1 ≠ some (ticket, .pass result))
    (hawaited : (s.engine.advance now pick).2.awaited = s.engine.awaited) :
    Saves l a passes (s.advance now pick) := by
  have hstep := Engine.Session.step_advance s.engine now pick
  rw [Session.advance_of_ne_pass hnone]
  refine h.frame (hawaited.trans h.awaited) rfl (fun id => ?_) (fun hunsaved => ?_) rfl
  · rcases hstep.firings_cases id with hfirings | ⟨ticket, events, hanswer, -⟩
    · exact hfirings
    · exact absurd hanswer (hnone ticket _)
  · exact hstep.watchlist_eq (h.awaited.trans (Evaluator.awaited_eq_nil hunsaved))

/-- Once an answer is taken none is waited for. -/
theorem Session.awaited_receive (s : Session) (result : Except Engine.Error (List Event)) :
    (s.receive result).evaluator.awaited = [] := by
  rcases result with _ | _ | _ <;> rfl

/-- The conditions of all events of a pass are to be saved. -/
theorem Session.unsaved_receive (s : Session) (events : List Event) :
    (s.receive (.ok events)).evaluator.unsaved = events := by
  cases events <;> rfl

/-- The end of a pass: the conditions of its events are to be saved now. -/
theorem Saves.receive (h : Saves l a passes s) {ticket : Nat}
    (hwaiting : s.evaluator = .waiting ticket) {engine : Engine.Session} {events : List Event}
    (hawaited : engine.awaited = [])
    (hregistered : ∀ e ∈ events, e.conditionId ∈ engine.engine.watchlist.ids)
    (hfirings : ∀ id, engine.engine.watchlist.firings id = s.engine.engine.watchlist.firings id ∨
      ∃ e ∈ events, e.conditionId = id) :
    Saves l a (passes ++ [⟨events, engine.engine.watchlist⟩])
      (Session.receive { s with engine } (.ok events)) := by
  refine ⟨?_, fun _ => ⟨passes, _, rfl, rfl, fun e he => ?_⟩, fun p hp => ?_, fun id => ?_, ?_⟩
  · rw [Session.awaited_receive]
    exact hawaited
  · rwa [Session.unsaved_receive] at he
  · rcases List.mem_append.1 hp with hp | hp
    · exact h.registered p hp
    · rw [List.mem_singleton.1 hp]
      exact hregistered
  · rw [lastFiring_concat]
    split
    next => rfl
    next hfires =>
      rcases hfirings id with hsame | hevent
      · exact hsame.trans (h.firings id)
      · exact absurd (Pass.fires_eq_true_iff.2 hevent) hfires
  · obtain ⟨a', ha', hrows⟩ := h.rows
    refine ⟨a', ha', fun id hid => ?_⟩
    rw [Session.unsaved_receive] at hid
    -- nothing was to be saved before
    have hquiet : ¬Pass.fires ⟨events, engine.engine.watchlist⟩ id = true := fun hfires => by
      obtain ⟨e, he, heq⟩ := Pass.fires_eq_true_iff.1 hfires
      exact hid e he heq
    rw [IsRowAfter, lastFiring_concat, if_neg hquiet]
    refine hrows id ?_
    rw [hwaiting]
    exact List.forall_mem_nil _

/-- A step of the engine. -/
theorem Saves.advance (h : Saves l a passes s) (now : Instant) (pick : Nat) :
    Saves l a (passes ++ (s.pass? now (.act (.advance pick))).toList) (s.advance now pick) := by
  have hstep := Engine.Session.step_advance s.engine now pick
  rcases hstep.awaited_cases with ⟨hawaited, hnone⟩ | ⟨ticket, result, hanswer, hawaited⟩
  · -- no pass ends
    rw [Session.pass?_eq_none hnone, Option.toList_none, List.append_nil]
    exact h.advance_of_ne_pass hnone hawaited
  · -- the evaluating side waits for the pass, since there is no other
    obtain ⟨hwaiting, hnothing⟩ := Evaluator.eq_waiting_of_awaited (h.awaited.symm.trans hawaited)
    rw [Session.advance_of_pass hwaiting hanswer, Session.pass?, hanswer]
    cases result with
    | error e =>
      change Saves l a (passes ++ []) _
      rw [List.append_nil]
      -- a pass that is cancelled or breaks off fires nothing
      refine h.frame ?_ ?_ (fun id => ?_) (fun hunsaved => ?_) rfl
      · exact (Session.awaited_receive _ _).symm ▸ hnothing
      · rw [hwaiting]
        rfl
      · rcases hstep.firings_cases id with hfirings | ⟨_, _, hok, -⟩
        · exact hfirings
        · cases hanswer.symm.trans hok
      · rw [hwaiting] at hunsaved
        exact absurd rfl hunsaved
    | ok events =>
      refine h.receive hwaiting hnothing (hstep.conditionId_mem hanswer) fun id => ?_
      rcases hstep.firings_cases id with hfirings | ⟨_, _, hok, hevent⟩
      · exact .inl hfirings
      · cases hanswer.symm.trans hok
        exact .inr hevent

/-- What any turns preserve. -/
theorem Saves.after (h : Saves l a passes s) (turns : List (Instant × Turn)) :
    Saves l a (passes ++ s.passes turns) (s.after turns) := by
  induction turns generalizing s passes with
  | nil => exact (List.append_nil passes).symm ▸ h
  | cons step turns ih =>
    obtain ⟨now, x⟩ := step
    have hturn : Saves l a (passes ++ (s.pass? now x).toList) (s.turn now x) := by
      by_cases hx : ∃ pick, x = .act (.advance pick)
      · obtain ⟨pick, rfl⟩ := hx
        exact h.advance now pick
      · have hne : ∀ pick, x ≠ .act (.advance pick) := fun pick hpick => hx ⟨pick, hpick⟩
        rw [Session.pass?_of_ne hne, Option.toList_none, List.append_nil]
        exact h.quiet now hne
    rw [Session.passes, ← List.append_assoc]
    exact ih hturn

end Turns

/-! ## The rows in the end -/

/-- The rows of conditions when the evaluating side of a run has ended, as it has once the run is
over. For every monitor with an audit, every feed and whatever happens in the run and around it, as
long as others neither call for passes nor edit conditions:

- a condition that fired has a row. The number of its triggers and the time of the last one are
  those in the watchlist now, and the number of its evaluations is that in the watchlist after the
  last pass in which it fired;
- the row of a condition that did not fire is what it was, and so are its triggers. -/
theorem after_saved {m : Monitor} {a : Audit} (haudit : m.dispatcher.audit = some a)
    (feed : List Snapshot) (turns : List (Instant × Turn))
    (hended : ((Session.start m feed).after turns).evaluator = .ended) :
    let s := (Session.start m feed).after turns
    let passes := (Session.start m feed).passes turns
    ∃ a', s.dispatcher.dispatcher.audit = some a' ∧ ∀ id,
      ((∃ p ∈ passes, p.fires id = true) → ∃ p row c c', lastFiring passes id = some p ∧
        p.watchlist.get? id = some c ∧ s.engine.engine.watchlist.get? id = some c' ∧
        a'.row? id = some row ∧ row.triggers = .ofNat c'.record.triggers ∧
        row.lastTriggered = c'.record.lastTriggered.map (·.toRfc3339) ∧
        row.evaluations = .ofNat c.record.evaluations) ∧
      ((∀ p ∈ passes, p.fires id = false) → a'.row? id = a.row? id ∧
        s.engine.engine.watchlist.firings id = m.engine.watchlist.firings id) := by
  intro s passes
  have h : Saves m.engine.watchlist a passes s := (saves_start haudit feed).after turns
  obtain ⟨a', ha', hrows⟩ := h.rows
  have hunsaved : s.evaluator.unsaved = [] := congrArg Evaluator.unsaved hended
  rw [hunsaved] at hrows
  refine ⟨a', ha', fun id => ⟨fun hfired => ?_, fun hquiet => ?_⟩⟩
  · obtain ⟨p, hp⟩ := exists_lastFiring hfired
    obtain ⟨hmem, hfires⟩ := mem_of_lastFiring hp
    obtain ⟨e, he, rfl⟩ := Pass.fires_eq_true_iff.1 hfires
    -- the row is that of the condition after this pass, and it has not triggered since
    have hrow := hrows e.conditionId (List.forall_mem_nil _)
    rw [IsRowAfter, hp] at hrow
    obtain ⟨saved, c, hc, hrow⟩ := hrow
    have hfirings := h.firings e.conditionId
    rw [hp, Option.elim_some, Watchlist.firings, Watchlist.firings, hc, Option.map_some] at hfirings
    obtain ⟨c', hc', hsame⟩ := Option.map_eq_some_iff.1 hfirings
    obtain ⟨htriggers, hlast⟩ := Prod.mk.inj hsame
    refine ⟨p, .ofCondition saved c, c, c', hp, hc, hc', hrow, ?_, ?_, rfl⟩
    · rw [htriggers]
      rfl
    · rw [hlast]
      rfl
  · have hnone := lastFiring_eq_none_iff.2 hquiet
    have hrow := hrows id (List.forall_mem_nil _)
    have hfirings := h.firings id
    rw [IsRowAfter, hnone] at hrow
    rw [hnone] at hfirings
    exact ⟨hrow, hfirings⟩

/-- Two conditions fire in the first of two passes, whose events are saved then. After the second
pass they were evaluated once more, but not saved. -/
theorem after_saved_ofPair :
    let m : Monitor := ⟨.ofPair .sequential, { audit := some {} }⟩
    let feed := [(Quote.ofPrice "BTCUSDT" (.ofInt64 101)).atTime ⟨0, 0⟩,
      (Quote.ofPrice "BTCUSDT" (.ofInt64 99)).atTime ⟨0, 0⟩]
    let pass : List Turn := .act .evaluate :: List.replicate 4 (.act (.advance 0))
    let save : List Turn := List.replicate 4 (.act .evaluate)
    let rest : List Turn := [.act .take, .around .shutdown, .act .evaluate,
      .act (.report fun _ => ⟨0, 0⟩)]
    let turns := (pass ++ save ++ pass ++ rest).map fun x => (Instant.mk 0 0, x)
    let s := (Session.start m feed).after turns
    s.isOver = true ∧ ∃ a' row c', s.dispatcher.dispatcher.audit = some a' ∧
      a'.row? "c1" = some row ∧ s.engine.engine.watchlist.get? "c1" = some c' ∧
      row.triggers = 1 ∧ row.evaluations = 1 ∧ c'.record.evaluations = 2 := by
  intro m feed pass save rest turns
  have hover : ((Session.start m feed).after turns).isOver = true := by decide +kernel
  have hended := (Session.isOver_iff.1 hover).1
  obtain ⟨a', ha', hrows⟩ := after_saved rfl feed turns hended
  have hfired : ((Session.start m feed).passes turns).any (·.fires "c1") = true := by
    decide +kernel
  obtain ⟨p, row, c, c', hp, hc, hc', hrow, htriggers, -, hevaluations⟩ :=
    (hrows "c1").1 (List.any_eq_true.1 hfired)
  -- the pass that fired was the first evaluation, and there has been another since
  have hthen : ((lastFiring ((Session.start m feed).passes turns) "c1").bind fun p =>
      (p.watchlist.get? "c1").map (·.record.evaluations)) = some 1 := by decide +kernel
  have hnow : (((Session.start m feed).after turns).engine.engine.watchlist.get? "c1").map
      (fun c => (c.record.triggers, c.record.evaluations)) = some (1, 2) := by decide +kernel
  rw [hp, Option.bind_some, hc, Option.map_some, Option.some.injEq] at hthen
  rw [hc', Option.map_some, Option.some.injEq, Prod.mk.injEq] at hnow
  refine ⟨hover, a', row, c', ha', hrow, hc', ?_, ?_, hnow.2⟩
  · rw [htriggers, hnow.1]
    rfl
  · rw [hevaluations, hthen]
    rfl

end Monitor

end MarketAlerts
