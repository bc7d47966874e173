import WolkGateway.CommandHistory
import WolkGateway.TimedRuns

/-!
# Default timestamps

A reading or an alarm added without a time is to carry the time of the call. An alarm does:
`addAlarm` asks the clock before it puts its command in the buffer. A reading carries the
time at which its command starts, so it carries the time of the call only if none passes
while the command waits.
-/

namespace WolkGateway.Wolk
open DeviceModel DataService GuardedRuns TimedRuns

variable {P : Persistence}

def duration (s : State P) : Event → ℕ
  | .tick milliseconds => milliseconds
  | .worker =>
    match s.running with
    | .sleep milliseconds :: _ => milliseconds
    | _ => 0
  | _ => 0

/-- A call as it is made: the time, and the place its command gets in the buffer. -/
structure Call where
  call : ApiCall
  time : ℕ
  place : ℕ
  deriving DecidableEq

def called (s : State P) : Event → Option Call
  | .api call => some ⟨call, s.clock, (history s).length⟩
  | _ => none

def calls (cfg : Config) (P : Persistence) (events : List Event) : List Call :=
  sightings (step cfg) called (.initial P) events

namespace ApiCall

def timeOmitted : ApiCall → Bool
  | .addSensorReading _ _ _ rtc | .addSensorReadings _ _ _ rtc | .addAlarm _ _ _ rtc => rtc = 0
  | _ => false

def isReading : ApiCall → Bool
  | .addSensorReading .. | .addSensorReadings .. => true
  | _ => false

/-- The gates of an add: the first is passed in the call, the others as its command starts. -/
def passes (devices : Registry) : ApiCall → Bool
  | .addSensorReading d r _ _ => deviceExists devices d && sensorDefinedForDevice devices d r
  | .addSensorReadings d r values _ =>
    !values.isEmpty && (deviceExists devices d && sensorDefinedForDevice devices d r)
  | .addAlarm d r _ _ => deviceExists devices d && alarmDefinedForDevice devices d r
  | _ => false

def put (rtc : ℕ) : ApiCall → Option Effect
  | .addSensorReading d r value _ => some (.added d r (.sensorReading ⟨[value], r, rtc⟩))
  | .addSensorReadings d r values _ => some (.added d r (.sensorReading ⟨values, r, rtc⟩))
  | .addAlarm d r active _ => some (.added d r (.alarm ⟨active, r, rtc⟩))
  | _ => none

/-- The time an add stores when it has none of its own, of the time of the call and the time
at which its command starts. -/
def stamp (now started : ℕ) (call : ApiCall) : ℕ := if call.isReading then started else now

end ApiCall

/-- The registry in which the command in a place of the buffer starts, and what the trace has
behind the start. -/
def behindStart : ℕ → Trace → Option (Registry × Trace)
  | _, [] => none
  | 0, .began _ devices :: after => some (devices, after)
  | n + 1, .began _ _ :: after => behindStart n after
  | n, _ :: after => behindStart n after

def Passed (trace : Trace) (m : Call) : Prop :=
  ∃ start ∈ behindStart m.place trace, m.call.passes start.1 = true

/-- The command of the call has started and passed its gates, and stored its item with the
time. -/
def HasStamp (trace : Trace) (m : Call) (rtc : ℕ) : Prop :=
  ∃ start ∈ behindStart m.place trace,
    m.call.passes start.1 = true ∧ start.2.head? = m.call.put rtc

instance (trace : Trace) (m : Call) : Decidable (Passed trace m) :=
  inferInstanceAs (Decidable (∃ start ∈ behindStart m.place trace, m.call.passes start.1 = true))

instance (trace : Trace) (m : Call) (rtc : ℕ) : Decidable (HasStamp trace m rtc) :=
  inferInstanceAs (Decidable (∃ start ∈ behindStart m.place trace,
    m.call.passes start.1 = true ∧ start.2.head? = m.call.put rtc))

/-- Every add without a time that passes its gates stores the time of the call. -/
def StampedAtCall (trace : Trace) (calls : List Call) : Prop :=
  ∀ m ∈ calls, m.call.timeOmitted = true → Passed trace m → HasStamp trace m m.time

/-- Of two adds without a time, the later call does not store an earlier time. -/
def StampedInOrder (trace : Trace) (calls : List Call) : Prop :=
  calls.Pairwise fun m m' => m.call.timeOmitted = true → m'.call.timeOmitted = true →
    ∀ rtc rtc', HasStamp trace m rtc → HasStamp trace m' rtc' → rtc ≤ rtc'

def SameCalls (calls calls' : List Call) : Prop :=
  calls.map (fun m => (m.call, m.time)) = calls'.map fun m => (m.call, m.time)

/-- The same call, made without a time, stores the same time in two runs. -/
def SameStamps (trace trace' : Trace) (calls calls' : List Call) : Prop :=
  ∀ (n : ℕ) (m m' : Call), calls[n]? = some m → calls'[n]? = some m' →
    m.call.timeOmitted = true →
      ∀ rtc rtc', HasStamp trace m rtc → HasStamp trace' m' rtc' → rtc = rtc'

/-- In a run the adds without a time store the times of their calls, in order. -/
structure TimedByCalls (trace : Trace) (calls : List Call) : Prop where
  atCall : StampedAtCall trace calls
  inOrder : StampedInOrder trace calls

variable {cfg : Config}

def waited (cfg : Config) (s : State P) (call : ApiCall) (events : List Event) : State P :=
  run (step cfg) (step cfg s (.api call)) events

/-- The worker is about to take the command of a call made in `s`, and the call passes its
gates. -/
structure AboutToPass (cfg : Config) (s : State P) (call : ApiCall) (events : List Event) :
    Prop where
  idle : (waited cfg s call events).running = []
  turn : (started (waited cfg s call events).trace).length = (history s).length
  passes : call.passes (waited cfg s call events).devices = true

/-- No time passes between the call of a reading without a time and the step that takes its
command, if the command passes its gates. -/
def Undelayed (cfg : Config) (P : Persistence) (events : List Event) : Prop :=
  ∀ before call waiting after,
    events = before ++ Event.api call :: (waiting ++ Event.worker :: after) →
    call.isReading = true → call.timeOmitted = true →
    AboutToPass cfg (reach cfg P before) call waiting →
    elapsed (step cfg) duration (step cfg (reach cfg P before) (.api call)) waiting = 0

/-- No time passes while the command of a reading without a time waits. -/
def Prompt (s : State P) (e : Event) : Prop :=
  duration s e = 0 ∨ ∀ d r values, .addSensorReading d r values 0 ∉ s.queue

theorem deliver_clock (listener : Listener) (message : InboundMessage) (s : State P) :
    (deliver cfg listener message s).clock = s.clock := by
  cases listener <;> simp only [deliver, enqueueAll] <;> split <;> rfl

theorem step_clock (cfg : Config) (s : State P) (e : Event) :
    (step cfg s e).clock = s.clock + duration s e := by
  cases e with
  | api call =>
    simp only [step, duration]
    cases call.command s.clock <;> rfl
  | worker =>
    cases hr : s.running with
    | nil =>
      simp only [step, workerStep, duration, hr]
      cases s.queue <;> rfl
    | cons a rest =>
      simp only [step, workerStep, duration, hr]
      cases a with
      | registerIfConnected device =>
        simp only [runAtom]
        split <;> rfl
      | updateIfConnected request =>
        simp only [runAtom]
        split <;> rfl
      | storeAssets request =>
        simp only [runAtom]
        split <;> rfl
      | respond d result =>
        simp only [runAtom]
        split <;> rfl
      | _ => rfl
  | connectionLostConnects =>
    simp only [step]
    split <;> rfl
  | inbound channel payload =>
    simp only [step]
    split <;> rfl
  | inboundWorker =>
    simp only [step]
    split
    · rfl
    · rw [deliver_clock]
      rfl
  | firmwareWorker =>
    simp only [step]
    split <;> rfl
  | platformStatusWorker =>
    simp only [step]
    split <;> rfl
  | _ => rfl

theorem behindStart_append {c : Command} {devices : Registry} {after : Trace} (before : Trace) :
    behindStart (started before).length (before ++ Effect.began c devices :: after) =
      some (devices, after) := by
  induction before with
  | nil => rfl
  | cons e before ih => cases e <;> exact ih

theorem started_of_behindStart {n : ℕ} {trace : Trace} {start : Registry × Trace}
    (h : start ∈ behindStart n trace) : n < (started trace).length := by
  induction trace generalizing n with
  | nil => cases h
  | cons e trace ih =>
    cases e with
    | began c devices =>
      cases n with
      | zero => exact Nat.zero_lt_succ _
      | succ n => exact Nat.succ_lt_succ (ih h)
    | _ => cases n <;> exact ih h

theorem put_inj {call : ApiCall} {devices : Registry} (hp : call.passes devices = true)
    {rtc rtc' : ℕ} (h : call.put rtc = call.put rtc') : rtc = rtc' := by
  cases call with
  | addSensorReading | addSensorReadings | addAlarm => simpa [ApiCall.put] using h
  | _ => cases hp

theorem HasStamp.unique {trace : Trace} {m : Call} {rtc rtc' : ℕ} (h : HasStamp trace m rtc)
    (h' : HasStamp trace m rtc') : rtc = rtc' := by
  obtain ⟨start, hstart, hp, hput⟩ := h
  obtain ⟨start', hstart', -, hput'⟩ := h'
  obtain rfl : start = start' := Option.mem_unique hstart hstart'
  exact put_inj hp (hput.symm.trans hput')

theorem HasStamp.passed {trace : Trace} {m : Call} {rtc : ℕ} (h : HasStamp trace m rtc) :
    Passed trace m := by
  obtain ⟨start, hstart, hp, -⟩ := h
  exact ⟨start, hstart, hp⟩

theorem command_of_passes {call : ApiCall} {devices : Registry}
    (hp : call.passes devices = true) (now : ℕ) : ∃ c, call.command now = some c := by
  cases call with
  | addSensorReadings d r values rtc =>
    obtain ⟨hvalues, -⟩ := Bool.and_eq_true_iff.mp hp
    have hne : values.isEmpty = false := by simpa using hvalues
    simp [ApiCall.command, hne]
  | addSensorReading | addAlarm => exact ⟨_, rfl⟩
  | _ => cases hp

/-- As the command of an add without a time starts, and passes its gates, it stores its item:
a reading with the time at which the command starts, an alarm with the time of the call. -/
theorem beginCommand_put (cfg : Config) {call : ApiCall} {now : ℕ} {c : Command}
    (hc : call.command now = some c) (ho : call.timeOmitted = true) {s : State P}
    (hp : call.passes s.devices = true) (queue : List Command) :
    ∃ e, call.put (call.stamp now s.clock) = some e ∧
      (beginCommand cfg c queue s).trace = s.trace ++ Effect.began c s.devices :: [e] := by
  cases call with
  | addSensorReading d r value rtc =>
    obtain ⟨hd, hr⟩ := Bool.and_eq_true_iff.mp hp
    obtain rfl : rtc = 0 := by simpa [ApiCall.timeOmitted] using ho
    obtain rfl := Option.some.inj hc
    refine ⟨_, rfl, ?_⟩
    simp [beginCommand, execute, runAddSensorReading, hd, hr, addSensorReading, State.trace,
      DataState.log, ApiCall.stamp, ApiCall.isReading]
  | addSensorReadings d r values rtc =>
    obtain ⟨hvalues, hgates⟩ := Bool.and_eq_true_iff.mp hp
    obtain ⟨hd, hr⟩ := Bool.and_eq_true_iff.mp hgates
    obtain rfl : rtc = 0 := by simpa [ApiCall.timeOmitted] using ho
    have hne : values.isEmpty = false := by simpa using hvalues
    simp only [ApiCall.command, hne, Bool.false_eq_true, if_false] at hc
    obtain rfl := Option.some.inj hc
    refine ⟨_, rfl, ?_⟩
    simp [beginCommand, execute, runAddSensorReading, hd, hr, addSensorReading, State.trace,
      DataState.log, ApiCall.stamp, ApiCall.isReading]
  | addAlarm d r active rtc =>
    obtain ⟨hd, hr⟩ := Bool.and_eq_true_iff.mp hp
    obtain rfl : rtc = 0 := by simpa [ApiCall.timeOmitted] using ho
    obtain rfl := Option.some.inj hc
    refine ⟨_, rfl, ?_⟩
    simp [beginCommand, execute, runAddAlarm, hd, hr, addAlarm, State.trace, DataState.log,
      ApiCall.stamp, ApiCall.isReading]
  | _ => cases hp

theorem history_api (cfg : Config) {s : State P} {call : ApiCall} {c : Command}
    (hc : call.command s.clock = some c) :
    history (step cfg s (.api call)) = history s ++ [c] := by
  refine history_idle (u := []) ?_ (by simp [StartsNone]) ?_
  · simp [step, hc, enqueueAll, addToCommandBuffer, State.trace]
  · simp [step, hc, enqueueAll, addToCommandBuffer]

namespace AboutToPass

variable {s : State P} {call : ApiCall} {waiting : List Event}

theorem begins (h : AboutToPass cfg s call waiting) :
    ∃ c queue, call.command s.clock = some c ∧
      (waited cfg s call waiting).queue = c :: queue ∧
      step cfg (waited cfg s call waiting) .worker =
        beginCommand cfg c queue (waited cfg s call waiting) := by
  obtain ⟨c, hc⟩ := command_of_passes h.passes s.clock
  have hhistory : history s ++ [c] <+: history (waited cfg s call waiting) := by
    rw [← history_api cfg hc]
    exact history_run cfg _ waiting
  obtain ⟨queue, hq⟩ := queue_of_turn hhistory h.turn
  exact ⟨c, queue, hc, hq, step_begins h.idle hq⟩

theorem hasStamp (h : AboutToPass cfg s call waiting) (ho : call.timeOmitted = true)
    (after : List Event) :
    HasStamp (run (step cfg) (waited cfg s call waiting) (.worker :: after)).trace
      ⟨call, s.clock, (history s).length⟩
      (call.stamp s.clock (waited cfg s call waiting).clock) := by
  obtain ⟨c, queue, hc, -, hbegins⟩ := h.begins
  obtain ⟨e, hput, htrace⟩ := beginCommand_put cfg hc ho h.passes queue
  obtain ⟨more, hmore⟩ := run_trace cfg (step cfg (waited cfg s call waiting) .worker) after
  refine ⟨((waited cfg s call waiting).devices, e :: more), ?_, h.passes, hput.symm⟩
  rw [run_cons, ← hmore, hbegins, htrace, List.append_assoc, List.cons_append,
    List.singleton_append, ← h.turn]
  exact behindStart_append _

end AboutToPass

theorem aboutToPass_of_passed (cfg : Config) {s : State P} {call : ApiCall} {time : ℕ}
    {after : List Event}
    (h : Passed (run (step cfg) s (.api call :: after)).trace ⟨call, time, (history s).length⟩) :
    ∃ waiting rest, after = waiting ++ Event.worker :: rest ∧ AboutToPass cfg s call waiting := by
  obtain ⟨start, hstart, hp⟩ := h
  have hle : (started (step cfg s (.api call)).trace).length ≤ (history s).length := by
    have htrace : (step cfg s (.api call)).trace = s.trace := by
      simp only [step]
      cases call.command s.clock <;> rfl
    rw [htrace, history, List.length_append, List.length_map]
    exact Nat.le_add_right _ _
  obtain ⟨waiting, rest, rfl, hr, hq, hturn⟩ :=
    turn_of_started cfg _ after hle (started_of_behindStart hstart)
  refine ⟨waiting, rest, rfl, hr, hturn, ?_⟩
  obtain ⟨c, queue, hqueue⟩ := List.exists_cons_of_ne_nil hq
  have hbegins : step cfg (waited cfg s call waiting) .worker =
      beginCommand cfg c queue (waited cfg s call waiting) := step_begins hr hqueue
  obtain ⟨u, hu, -⟩ := beginCommand_trace cfg c queue (waited cfg s call waiting)
  obtain ⟨more, hmore⟩ := run_trace cfg (step cfg (waited cfg s call waiting) .worker) rest
  have htrace : (run (step cfg) s (.api call :: (waiting ++ Event.worker :: rest))).trace =
      (waited cfg s call waiting).trace ++
        Effect.began c (waited cfg s call waiting).devices :: (u ++ more) := by
    rw [run_cons, run_append, run_cons]
    refine hmore.symm.trans ?_
    rw [hbegins, hu, List.append_assoc, List.append_assoc]
    rfl
  rw [htrace, ← hturn] at hstart
  have heq := Option.mem_unique hstart (behindStart_append _)
  rw [heq] at hp
  exact hp

theorem mem_calls {events : List Event} {m : Call} :
    m ∈ calls cfg P events ↔ ∃ before call after, events = before ++ Event.api call :: after ∧
      m = ⟨call, (reach cfg P before).clock, (history (reach cfg P before)).length⟩ := by
  rw [calls, mem_sightings]
  constructor
  · rintro ⟨before, e, after, rfl, hm⟩
    cases e with
    | api call => exact ⟨before, call, after, rfl, (Option.some.inj hm).symm⟩
    | _ => cases hm
  · rintro ⟨before, call, after, rfl, rfl⟩
    exact ⟨before, .api call, after, rfl, rfl⟩

/-- Calls are made in the order of their times. -/
theorem calls_ordered (cfg : Config) (P : Persistence) (events : List Event) :
    (calls cfg P events).Pairwise fun m m' => m.time ≤ m'.time := by
  refine pairwise_sightings (fun s e m es e' m' hm hm' => ?_) _ _
  cases e with
  | api call =>
    cases e' with
    | api call' =>
      obtain rfl := Option.some.inj hm
      obtain rfl := Option.some.inj hm'
      have hstep : s.clock ≤ (step cfg s (.api call)).clock :=
        clock_le_run (step_clock cfg) s [.api call]
      exact Nat.le_trans hstep (clock_le_run (step_clock cfg) _ es)
    | _ => cases hm'
  | _ => cases hm

theorem waited_clock (cfg : Config) (s : State P) (call : ApiCall) (waiting : List Event) :
    (waited cfg s call waiting).clock =
      s.clock + elapsed (step cfg) duration (step cfg s (.api call)) waiting := by
  have hrun := clock_run (step_clock cfg) (step cfg s (.api call)) waiting
  rw [step_clock] at hrun
  exact hrun

theorem reach_waited (cfg : Config) (P : Persistence) (before : List Event) (call : ApiCall)
    (waiting after : List Event) :
    reach cfg P (before ++ Event.api call :: (waiting ++ Event.worker :: after)) =
      run (step cfg) (waited cfg (reach cfg P before) call waiting) (.worker :: after) := by
  rw [reach, run_append, run_cons, run_append]
  rfl

/-- The adds without a time store the times of their calls if and only if no time passes
while one that passes its gates waits. -/
theorem stampedAtCall_iff (cfg : Config) (P : Persistence) (events : List Event) :
    StampedAtCall (reach cfg P events).trace (calls cfg P events) ↔ Undelayed cfg P events := by
  constructor
  · rintro h before call waiting after rfl hreading ho hpass
    have hstamp := hpass.hasStamp ho after
    rw [← reach_waited] at hstamp
    have hcall := h _ (mem_calls.mpr ⟨before, call, _, rfl, rfl⟩) ho hstamp.passed
    have hclock : call.stamp (reach cfg P before).clock
        (waited cfg (reach cfg P before) call waiting).clock = (reach cfg P before).clock :=
      hstamp.unique hcall
    rw [ApiCall.stamp, if_pos hreading, waited_clock] at hclock
    omega
  · intro h m hm ho hpassed
    obtain ⟨before, call, after, rfl, rfl⟩ := mem_calls.mp hm
    have hreach : reach cfg P (before ++ Event.api call :: after) =
        run (step cfg) (reach cfg P before) (.api call :: after) := run_append _ _ _ _
    rw [hreach] at hpassed
    obtain ⟨waiting, rest, rfl, hpass⟩ := aboutToPass_of_passed cfg hpassed
    have hstamp := hpass.hasStamp ho rest
    rw [← reach_waited] at hstamp
    rw [ApiCall.stamp] at hstamp
    split_ifs at hstamp with hreading
    · have hzero := h before call waiting rest rfl hreading ho hpass
      rw [waited_clock, hzero, Nat.add_zero] at hstamp
      exact hstamp
    · exact hstamp

theorem StampedAtCall.inOrder {events : List Event}
    (h : StampedAtCall (reach cfg P events).trace (calls cfg P events)) :
    StampedInOrder (reach cfg P events).trace (calls cfg P events) := by
  refine (calls_ordered cfg P events).imp_of_mem ?_
  intro m m' hm hm' hle ho ho' rtc rtc' hstamp hstamp'
  have hrtc : rtc = m.time := hstamp.unique (h m hm ho hstamp.passed)
  have hrtc' : rtc' = m'.time := hstamp'.unique (h m' hm' ho' hstamp'.passed)
  rw [hrtc, hrtc']
  exact hle

theorem StampedAtCall.sameStamps {trace trace' : Trace} {calls calls' : List Call}
    (h : StampedAtCall trace calls) (h' : StampedAtCall trace' calls')
    (hsame : SameCalls calls calls') : SameStamps trace trace' calls calls' := by
  intro n m m' hm hm' ho rtc rtc' hstamp hstamp'
  have heq : (m.call, m.time) = (m'.call, m'.time) := by
    have hn := congrArg (·[n]?) hsame
    simpa [hm, hm'] using hn
  obtain ⟨hcall, htime⟩ := Prod.mk.inj heq
  have hrtc : rtc = m.time :=
    hstamp.unique (h m (List.mem_of_getElem? hm) ho hstamp.passed)
  have hrtc' : rtc' = m'.time :=
    hstamp'.unique (h' m' (List.mem_of_getElem? hm') (hcall ▸ ho) hstamp'.passed)
  rw [hrtc, hrtc', htime]

theorem reading_command {call : ApiCall} {now : ℕ} {c : Command}
    (hreading : call.isReading = true) (ho : call.timeOmitted = true)
    (hc : call.command now = some c) : ∃ d r values, c = .addSensorReading d r values 0 := by
  cases call with
  | addSensorReading d r value rtc =>
    obtain rfl : rtc = 0 := by simpa [ApiCall.timeOmitted] using ho
    exact ⟨d, r, [value], (Option.some.inj hc).symm⟩
  | addSensorReadings d r values rtc =>
    obtain rfl : rtc = 0 := by simpa [ApiCall.timeOmitted] using ho
    simp only [ApiCall.command] at hc
    split_ifs at hc
    exact ⟨d, r, values, (Option.some.inj hc).symm⟩
  | _ => cases hreading

theorem undelayed_of_prompt {events : List Event}
    (h : Guarded (step cfg) Prompt (.initial P) events) : Undelayed cfg P events := by
  rintro before call waiting after rfl hreading ho hpass
  rw [elapsed_eq_zero_iff, guarded_iff]
  rintro past e future rfl
  obtain ⟨c, hc⟩ := command_of_passes hpass.passes (reach cfg P before).clock
  obtain ⟨d, r, values, rfl⟩ := reading_command hreading ho hc
  have hguard := guarded_iff.mp h (before ++ Event.api call :: past) e
    (future ++ Event.worker :: after) (by simp)
  rw [run_append, run_cons] at hguard
  rcases hguard with hzero | hnone
  · exact hzero
  · refine absurd (mem_queue_of_turn (s := reach cfg P before) ?_ ?_) (hnone d r values)
    · rw [← history_api cfg hc]
      exact history_run cfg _ past
    · rw [← hpass.turn, waited, run_append]
      exact ((run_trace cfg _ (e :: future)).filterMap start).length_le

/-- The adds without a time store the times of their calls, also when two runs with the same
calls are compared, if and only if no time passes while a reading without a time waits. -/
theorem default_timestamps_iff (P P' : Persistence) (cfg cfg' : Config)
    (events events' : List Event) :
    ((TimedByCalls (reach cfg P events).trace (calls cfg P events) ∧
        TimedByCalls (reach cfg' P' events').trace (calls cfg' P' events') ∧
        (SameCalls (calls cfg P events) (calls cfg' P' events') →
          SameStamps (reach cfg P events).trace (reach cfg' P' events').trace
            (calls cfg P events) (calls cfg' P' events'))) ↔
      Undelayed cfg P events ∧ Undelayed cfg' P' events') ∧
    (Guarded (step cfg) Prompt (.initial P) events → Undelayed cfg P events) := by
  refine ⟨⟨fun ⟨h, h', _⟩ => ?_, fun ⟨h, h'⟩ => ?_⟩, undelayed_of_prompt⟩
  · exact ⟨(stampedAtCall_iff cfg P events).mp h.atCall,
      (stampedAtCall_iff cfg' P' events').mp h'.atCall⟩
  · have hcall := (stampedAtCall_iff cfg P events).mpr h
    have hcall' := (stampedAtCall_iff cfg' P' events').mpr h'
    exact ⟨⟨hcall, hcall.inOrder⟩, ⟨hcall', hcall'.inOrder⟩, hcall.sameStamps hcall'⟩

def monitoredDevice (key sensor alarm : Str) : Device :=
  ⟨key, key, ⟨[], [⟨sensor, []⟩], [⟨alarm, []⟩], []⟩⟩

/-- A reading and an alarm without times are added at the time 1, one after the other,
behind a `connect` that the worker has just tried. -/
def addedWhileConnecting : List Event :=
  [.tick 1, .api (.addDevice (monitoredDevice ['d'] ['s'] ['a'])), .worker, .worker,
    .api (.connect false), .worker, .api (.addSensorReading ['d'] ['s'] ['1'] 0),
    .api (.addAlarm ['d'] ['a'] true 0), .worker, .worker, .worker, .worker]

def unreachable : Environment := { Environment.obliging with connects := fun _ => false }

/-- The `connect` fails, and the worker sleeps in front of the reading: the reading is stored
as added after the alarm, and two seconds later than without the retry. -/
theorem reading_stamped_late :
    let s := reach (.bare unreachable) .inMemory addedWhileConnecting
    let t := reach (.bare .obliging) .inMemory addedWhileConnecting
    let calls := calls (.bare unreachable) .inMemory addedWhileConnecting
    let calls' := Wolk.calls (.bare .obliging) .inMemory addedWhileConnecting
    ¬ StampedAtCall s.trace calls ∧ ¬ StampedInOrder s.trace calls ∧
      SameCalls calls calls' ∧ ¬ SameStamps s.trace t.trace calls calls' := by
  intro s t calls calls'
  have hreading : calls[2]? = some ⟨.addSensorReading ['d'] ['s'] ['1'] 0, 1, 2⟩ := by
    decide +kernel
  have hreading' : calls'[2]? = some ⟨.addSensorReading ['d'] ['s'] ['1'] 0, 1, 2⟩ := by
    decide +kernel
  have halarm : calls[3]? = some ⟨.addAlarm ['d'] ['a'] true 0, 1, 3⟩ := by decide +kernel
  have hlate : HasStamp s.trace ⟨.addSensorReading ['d'] ['s'] ['1'] 0, 1, 2⟩ 2001 := by
    decide +kernel
  have hearly : HasStamp t.trace ⟨.addSensorReading ['d'] ['s'] ['1'] 0, 1, 2⟩ 1 := by
    decide +kernel
  have halarmed : HasStamp s.trace ⟨.addAlarm ['d'] ['a'] true 0, 1, 3⟩ 1 := by decide +kernel
  refine ⟨fun h => ?_, fun h => ?_, by unfold SameCalls; decide +kernel, fun h => ?_⟩
  · have hstamp := h _ (List.mem_of_getElem? hreading) rfl hlate.passed
    exact absurd (hlate.unique hstamp) (by decide)
  · obtain ⟨hlt, hget⟩ := List.getElem?_eq_some_iff.mp hreading
    obtain ⟨hlt', hget'⟩ := List.getElem?_eq_some_iff.mp halarm
    have hpair := List.pairwise_iff_getElem.mp h 2 3 hlt hlt' (by decide)
    rw [hget, hget'] at hpair
    exact absurd (hpair rfl rfl 2001 1 hlate halarmed) (by decide)
  · exact absurd (h 2 _ _ hreading hreading' rfl 2001 1 hlate hearly) (by decide)

end WolkGateway.Wolk
