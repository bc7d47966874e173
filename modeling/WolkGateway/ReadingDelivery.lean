import WolkGateway.BacklogDrain

/-!
# From the call to the message

A reading or an alarm that the user adds goes through the command buffer, the checks of its
command and persistence before it is sent. Each of these keeps the order and loses nothing
but what it refuses: what was asked for is at any time what has started and what waits;
what started and passed its checks is what was put; and what was put is what was sent or
thrown away, and what is still stored.
-/

namespace WolkGateway.Wolk
open DeviceModel DataService DataLedger GuardedRuns Transcripts
open DataServiceCalls DataServiceConservation

/-- The commands that add a reading or an alarm, without the time. -/
def addCommand : Command → Option Command
  | .addSensorReading d r values _ => some (.addSensorReading d r values 0)
  | .addAlarm d r active _ => some (.addAlarm d r active 0)
  | _ => none

def addAsked : Event → Option Command
  | .api call => (call.command 0).bind addCommand
  | _ => none

/-- An item without the time. -/
def untimed : Item → Item
  | .sensorReading reading => .sensorReading ⟨reading.values, reading.reference, 0⟩
  | .alarm alarm => .alarm ⟨alarm.active, alarm.reference, 0⟩
  | item => item

/-- The put of an add command that passes its checks: the names and the item. -/
def putDue : Command × Registry → Option (Str × Str × Item)
  | (.addSensorReading d r values _, devices) =>
    if deviceExists devices d && sensorDefinedForDevice devices d r then
      some (d, r, .sensorReading ⟨values, r, 0⟩)
    else none
  | (.addAlarm d r active _, devices) =>
    if deviceExists devices d && alarmDefinedForDevice devices d r then
      some (d, r, .alarm ⟨active, r, 0⟩)
    else none
  | _ => none

def putMade : Effect → Option (Str × Str × Item)
  | .added d r item => if keepsAll item.family then some (d, r, untimed item) else none
  | _ => none

variable {P : Persistence} {cfg : Config} {s : State P}

theorem addCommand_leaves {devices : Registry} {c c' : Command}
    (h : Leaves devices c (.enqueue c')) : addCommand c' = none := by
  cases h with
  | refresh _ _ _ h => cases h <;> rfl
  | acknowledged _ _ _ _ h _ =>
    rcases h with h | rfl
    · cases h <;> rfl
    · rfl
  | _ => rfl

theorem addCommand_command (call : ApiCall) (now : ℕ) :
    (call.command now).bind addCommand = addAsked (.api call) := by
  cases call with
  | addSensorReadings d r values rtc =>
    cases values <;> rfl
  | _ => rfl

theorem addCommand_requested {e : Event} {c : Command} (h : Requested cfg s e c) :
    addCommand c = addAsked e := by
  cases h with
  | api call _ h =>
    rw [← addCommand_command call s.clock, h]
    rfl
  | data _ _ _ _ h => cases received_of_messageReceived h <;> rfl
  | _ => rfl

/-- What was asked for is what has started, and then what waits. -/
structure AddsInOrder (asked : List Command) (s : State P) : Prop where
  order : asked = (started s.trace).filterMap (fun c => addCommand c.1) ++
    s.queue.filterMap addCommand
  running : ∀ c, .enqueue c ∈ s.running → addCommand c = none

theorem addAsked_of_queue {e : Event} (h : (step cfg s e).queue = s.queue) :
    addAsked e = none := by
  cases e with
  | api call =>
    rw [← addCommand_command call s.clock]
    simp only [step] at h
    cases hc : call.command s.clock with
    | none => rfl
    | some c => simp [hc, enqueueAll, addToCommandBuffer] at h
  | _ => rfl

/-- A step that starts no command, and puts these in the buffer. -/
theorem AddsInOrder.of_idle {asked : List Command} {t : State P} (h : AddsInOrder asked s)
    {u : Trace} (ht : t.trace = s.trace ++ u) (hu : StartsNone u) {more : List Command}
    (hq : t.queue = s.queue ++ more) (hr : ∀ c, .enqueue c ∈ t.running → addCommand c = none) :
    AddsInOrder (asked ++ more.filterMap addCommand) t := by
  refine ⟨?_, hr⟩
  rw [ht, started_startsNone hu, hq, List.filterMap_append, ← List.append_assoc, ← h.order]

theorem addsInOrder_step (cfg : Config) {asked : List Command} (s : State P) (e : Event)
    (h : AddsInOrder asked s) :
    AddsInOrder (asked ++ (addAsked e).toList) (step cfg s e) := by
  rcases stepped cfg s e with ⟨c, hc, hsame, hq, hdata, -⟩ | ⟨c, queue, rfl, hr, hq, ht⟩ |
    ⟨a, rest, rfl, hr, ht⟩ | ⟨rfl, -⟩ | ⟨-, hsame, hq, hm⟩
  · have hasked : (addAsked e).toList = [c].filterMap addCommand := by
      rw [← addCommand_requested hc]
      cases hadd : addCommand c <;> simp [hadd]
    rw [hasked]
    refine h.of_idle (u := []) (by simp [State.trace, hdata]) (by simp [StartsNone]) hq ?_
    rw [hsame.running]
    exact h.running
  · have horder := h.order
    rw [hq] at horder
    refine ⟨?_, ?_⟩
    · rw [ht, started_begun, horder, List.filterMap_append]
      cases hadd : addCommand c <;> simp [addAsked, beginCommand, hadd]
    · rw [ht]
      exact fun c' hmem => addCommand_leaves (leaves_of_mem hmem)
  · obtain ⟨u, hu, hall⟩ := (runAtom_moves cfg a { s with running := rest }).trace_eq
    have hnone : a.enqueues.filterMap addCommand = [] := by
      cases a with
      | enqueue c =>
        have hc := h.running c (by simp [hr])
        simp [Atom.enqueues, hc]
      | _ => rfl
    rw [ht]
    have hnext := h.of_idle hu (startsNone_of_accesses hall) (runAtom_queue a _) fun c hmem => ?_
    · rwa [hnone] at hnext
    · rw [runAtom_running, List.mem_append] at hmem
      rcases hmem with hmem | hmem
      · cases a with
        | registerIfConnected | updateIfConnected =>
          simp only [Atom.expands] at hmem
          split_ifs at hmem
          · simp only [List.mem_cons, Atom.enqueue.injEq, reduceCtorEq, List.not_mem_nil,
              or_false] at hmem
            rw [hmem]
            rfl
          · simp at hmem
        | _ => simp [Atom.expands] at hmem
      · exact h.running c (by simp [hr, hmem])
  · exact h.of_idle (t := step cfg s .connectionLost) (u := [.connectionLost]) rfl
      (by simp [StartsNone, start]) (s.queue.append_nil).symm h.running
  · obtain ⟨u, hu, hall⟩ := hm.trace_eq
    rw [addAsked_of_queue hq]
    refine h.of_idle hu (startsNone_of_aside hall) (hq.trans (s.queue.append_nil).symm) ?_
    rw [hsame.running]
    exact h.running

theorem addsInOrder_run (cfg : Config) {asked : List Command} (s : State P)
    (h : AddsInOrder asked s) (events : List Event) :
    AddsInOrder (asked ++ events.filterMap addAsked) (run (step cfg) s events) := by
  induction events generalizing s asked with
  | nil => rwa [List.filterMap_nil, List.append_nil]
  | cons e events ih =>
    have hnext := ih (step cfg s e) (addsInOrder_step cfg s e h)
    rw [List.append_assoc] at hnext
    rw [run_cons]
    cases hadd : addAsked e <;> simpa [hadd] using hnext

/-- What started and passed its checks is what was put. -/
def PutsMade (s : State P) : Prop :=
  (started s.trace).filterMap putDue = s.trace.filterMap putMade

/-- Whoever else puts an item puts a status or a configuration. -/
theorem putMade_mayEmit {devices : Registry} {c : Command} {e : Effect}
    (h : MayEmit devices c e) (hc : addCommand c = none) : putMade e = none := by
  cases h with
  | sensorReading | alarm => cases hc
  | _ => rfl

/-- The add commands put what they are due, and the others put no reading and no alarm. -/
theorem execute_puts (cfg : Config) (devices : Registry) (now : ℕ) (s : DataState P)
    (c : Command) : ∃ u, (execute cfg devices now s c).data.trace = s.trace ++ u ∧
      u.filterMap putMade = (putDue (c, devices)).toList := by
  obtain ⟨u, hu, hall⟩ := (execute_moves cfg devices now s c).trace_eq
  cases c with
  | addSensorReading d r values rtc =>
    simp only [execute, runAddSensorReading, putDue]
    cases hd : deviceExists devices d with
    | false => exact ⟨[], (List.append_nil _).symm, rfl⟩
    | true =>
      cases hr : sensorDefinedForDevice devices d r with
      | false => exact ⟨[], (List.append_nil _).symm, rfl⟩
      | true => exact ⟨[_], rfl, rfl⟩
  | addAlarm d r active rtc =>
    simp only [execute, runAddAlarm, putDue]
    cases hd : deviceExists devices d with
    | false => exact ⟨[], (List.append_nil _).symm, rfl⟩
    | true =>
      cases hr : alarmDefinedForDevice devices d r with
      | false => exact ⟨[], (List.append_nil _).symm, rfl⟩
      | true => exact ⟨[_], rfl, rfl⟩
  | _ =>
    refine ⟨u, hu, List.filterMap_eq_nil_iff.mpr fun e he => ?_⟩
    exact putMade_mayEmit (hall e he) rfl

theorem PutsMade.of_idle {t : State P} (h : PutsMade s) {u : Trace}
    (ht : t.trace = s.trace ++ u) (hu : ∀ e ∈ u, start e = none ∧ putMade e = none) :
    PutsMade t := by
  have hputs : u.filterMap putMade = [] := List.filterMap_eq_nil_iff.mpr fun e he => (hu e he).2
  rw [PutsMade, ht, started_startsNone fun e he => (hu e he).1, List.filterMap_append, hputs,
    List.append_nil]
  exact h

theorem putsMade_step (cfg : Config) (s : State P) (e : Event) (h : PutsMade s) :
    PutsMade (step cfg s e) := by
  rcases stepped cfg s e with ⟨c, -, -, -, hdata, -⟩ | ⟨c, queue, rfl, hr, hq, ht⟩ |
    ⟨a, rest, rfl, hr, ht⟩ | ⟨rfl, -⟩ | ⟨-, -, -, hm⟩
  · exact h.of_idle (u := []) (by simp [State.trace, hdata]) (by simp)
  · obtain ⟨u, hu, hputs⟩ := execute_puts cfg s.devices s.clock
      (s.data.log (.began c s.devices)) c
    have htrace : (beginCommand cfg c queue s).trace =
        s.trace ++ [Effect.began c s.devices] ++ u := hu
    have hbegan : [Effect.began c s.devices].filterMap putMade = [] := rfl
    rw [PutsMade] at h
    rw [ht, PutsMade, started_begun, List.filterMap_append, htrace, List.filterMap_append,
      List.filterMap_append, hbegan, List.append_nil, hputs, h]
    cases hdue : putDue (c, s.devices) <;> simp [hdue]
  · obtain ⟨u, hu, hall⟩ := (runAtom_moves cfg a { s with running := rest }).trace_eq
    rw [ht]
    refine h.of_idle hu fun e he => ?_
    cases hall e he <;> exact ⟨rfl, rfl⟩
  · exact h.of_idle (u := [.connectionLost]) rfl (by simp [start, putMade])
  · obtain ⟨u, hu, hall⟩ := hm.trace_eq
    refine h.of_idle hu fun effect he => ?_
    cases hall effect he <;> exact ⟨rfl, rfl⟩

/-- What the user asked to add has started or waits, in that order; what started and passed
its checks was put; and under each key what was put is what was sent or thrown away, block
by block and for one of the two reasons there are, followed by what is still stored. -/
structure Forwarded (cfg : Config) (asked : List Command) (s : State P) : Prop where
  asked : asked = (started s.trace).filterMap (fun c => addCommand c.1) ++
    s.queue.filterMap addCommand
  put : (started s.trace).filterMap putDue = s.trace.filterMap putMade
  kept : ∀ family key, keepsAll family = true → addedUnder family key s.trace =
    consumedItems family key s.trace ++ contentsOf s.data family key
  fate : ∀ family key, keepsAll family = true → ∀ b ∈ blocksConsumed family key s.trace,
    ∃ before after, s.trace = before ++
        .attempted family key (parsePersistenceKey key).1 b.items b.outcome :: after ∧
      Fate cfg.env family key before b

theorem addsInOrder_initial : AddsInOrder [] (State.initial P) :=
  ⟨rfl, fun c h => by simp [State.initial] at h⟩

theorem putsMade_initial : PutsMade (State.initial P) := rfl

/-- From the call to the message no reading and no alarm is lost, made up or reordered, in
any run of the module. -/
theorem readings_forwarded (P : Persistence) (cfg : Config) (events : List Event) :
    Forwarded cfg (events.filterMap addAsked) (reach cfg P events) := by
  have hasked : AddsInOrder ([] ++ events.filterMap addAsked) (reach cfg P events) :=
    addsInOrder_run cfg _ addsInOrder_initial events
  have haccounted := accounted_reach (P := P) cfg events
  refine ⟨hasked.order, invariant_of_step (putsMade_step cfg) putsMade_initial events,
    haccounted.fifo, fun family key hf b hb => ?_⟩
  have hconf : family ≠ .configurations := by
    rintro rfl
    cases hf
  obtain ⟨before, d, after, ht, hr⟩ := mem_blocksConsumed hb
  have haudit : Audited cfg.env before family key d b.items b.outcome :=
    haccounted.audited _ _ _ ht
  refine ⟨before, after, ?_, fate_of_audited hconf hr haudit⟩
  rw [ht, haudit.device, deviceOf_eq hconf]

end WolkGateway.Wolk
