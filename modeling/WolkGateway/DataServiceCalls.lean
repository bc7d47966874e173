import WolkGateway.DataLedger
import WolkGateway.Transcripts

/-!
# Runs of the data service

A run is any sequence of calls of the public `DataService` functions, over a persistence
that starts empty. What the ledger's moves preserve holds after every run.
-/

namespace WolkGateway.DataServiceCalls
open DeviceModel DataService DataLedger GuardedRuns Transcripts

inductive DataCall
  | addSensorReading (deviceKey reference value : Str) (rtc : ℕ)
  | addSensorReadings (deviceKey reference : Str) (values : List Str) (rtc : ℕ)
  | addAlarm (deviceKey reference : Str) (active : Bool) (rtc : ℕ)
  | addActuatorStatus (deviceKey reference value : Str) (state : ActuatorState)
  | addConfiguration (deviceKey : Str) (configuration : List ConfigurationItem)
  | publishSensorReadings
  | publishSensorReadingsOf (deviceKey : Str)
  | publishAlarms
  | publishAlarmsOf (deviceKey : Str)
  | publishActuatorStatuses
  | publishActuatorStatusesOf (deviceKey : Str)
  | publishConfiguration
  | publishConfigurationOf (deviceKey : Str)
  deriving DecidableEq

/-- The item a call puts into persistence, with the device key and reference it is for. -/
def DataCall.adds : DataCall → Option (Str × Str × Item)
  | .addSensorReading d r value rtc => some (d, r, .sensorReading ⟨[value], r, rtc⟩)
  | .addSensorReadings d r values rtc => some (d, r, .sensorReading ⟨values, r, rtc⟩)
  | .addAlarm d r active rtc => some (d, r, .alarm ⟨active, r, rtc⟩)
  | .addActuatorStatus d r value state => some (d, r, .actuatorStatus ⟨value, r, state⟩)
  | .addConfiguration d configuration => some (d, [], .configuration configuration)
  | _ => none

variable {P : Persistence} {env : Environment}

def perform (env : Environment) (s : DataState P) : DataCall → DataState P
  | .addSensorReading d r value rtc => addSensorReading d r [value] rtc s
  | .addSensorReadings d r values rtc => addSensorReading d r values rtc s
  | .addAlarm d r active rtc => addAlarm d r active rtc s
  | .addActuatorStatus d r value state => addActuatorStatus d r value state s
  | .addConfiguration d configuration => addConfiguration d configuration s
  | .publishSensorReadings => publishSensorReadings env s
  | .publishSensorReadingsOf d => publishSensorReadingsOf env d s
  | .publishAlarms => publishAlarms env s
  | .publishAlarmsOf d => publishAlarmsOf env d s
  | .publishActuatorStatuses => publishActuatorStatuses env s
  | .publishActuatorStatusesOf d => publishActuatorStatusesOf env d s
  | .publishConfiguration => publishConfiguration env s
  | .publishConfigurationOf d => publishConfigurationOf env d s

def runCalls (P : Persistence) (env : Environment) (calls : List DataCall) : DataState P :=
  run (perform env) (.initial P) calls

def IsAttempt (e : Effect) : Prop := ∃ family, AttemptAt family (fun _ => True) e

theorem AttemptAt.isAttempt {family : Family} {keys : Str → Prop} (e : Effect)
    (h : AttemptAt family keys e) : IsAttempt e := ⟨family, h.mono (fun _ _ => trivial) e⟩

/-- A call is one put, or attempts only. -/
theorem perform_moves (env : Environment) (s : DataState P) (c : DataCall) :
    (∃ d r x, c.adds = some (d, r, x) ∧ (perform env s c).trace = s.trace ++ [.added d r x] ∧
      Moves env (· = .added d r x) s (perform env s c)) ∨
    (c.adds = none ∧ Moves env IsAttempt s (perform env s c)) := by
  cases c with
  | addSensorReading d r value rtc =>
    exact .inl ⟨d, r, _, rfl, rfl, addSensorReading_moves d r [value] rtc s⟩
  | addSensorReadings d r values rtc =>
    exact .inl ⟨d, r, _, rfl, rfl, addSensorReading_moves d r values rtc s⟩
  | addAlarm d r active rtc => exact .inl ⟨d, r, _, rfl, rfl, addAlarm_moves d r active rtc s⟩
  | addActuatorStatus d r value state =>
    exact .inl ⟨d, r, _, rfl, rfl, addActuatorStatus_moves d r value state s⟩
  | addConfiguration d configuration =>
    exact .inl ⟨d, [], _, rfl, rfl, addConfiguration_moves d configuration s⟩
  | publishSensorReadings =>
    exact .inr ⟨rfl, (publishSensorReadings_moves s).mono AttemptAt.isAttempt⟩
  | publishSensorReadingsOf d =>
    exact .inr ⟨rfl, (publishSensorReadingsOf_moves d s).mono AttemptAt.isAttempt⟩
  | publishAlarms => exact .inr ⟨rfl, (publishAlarms_moves s).mono AttemptAt.isAttempt⟩
  | publishAlarmsOf d => exact .inr ⟨rfl, (publishAlarmsOf_moves d s).mono AttemptAt.isAttempt⟩
  | publishActuatorStatuses =>
    exact .inr ⟨rfl, (publishActuatorStatuses_moves s).mono AttemptAt.isAttempt⟩
  | publishActuatorStatusesOf d =>
    exact .inr ⟨rfl, (publishActuatorStatusesOf_moves d s).mono AttemptAt.isAttempt⟩
  | publishConfiguration =>
    exact .inr ⟨rfl, (publishConfiguration_moves s).mono AttemptAt.isAttempt⟩
  | publishConfigurationOf d =>
    exact .inr ⟨rfl, (publishConfigurationOf_moves d s).mono AttemptAt.isAttempt⟩

def emptyLedger : Ledger := ⟨fun _ _ => [], []⟩

theorem ledgerOf_initial : ledgerOf (DataState.initial P) = emptyLedger :=
  congrArg₂ Ledger.mk (by funext f k; exact contentsOf_initial f k) rfl

theorem perform_invariant {I : Ledger → Prop}
    (hstep : ∀ L e M, I L → Move env L e M → I M) (s : DataState P) (c : DataCall)
    (h : I (ledgerOf s)) : I (ledgerOf (perform env s c)) := by
  rcases perform_moves env s c with ⟨d, r, x, -, -, hm⟩ | ⟨-, hm⟩
  · exact hm.invariant (fun L e M hL _ => hstep L e M hL) h
  · exact hm.invariant (fun L e M hL _ => hstep L e M hL) h

/-- What every move of the ledger preserves holds after every run of calls. -/
theorem runCalls_invariant {I : Ledger → Prop}
    (hstep : ∀ L e M, I L → Move env L e M → I M) (h0 : I emptyLedger)
    (calls : List DataCall) : I (ledgerOf (runCalls P env calls)) :=
  invariant_of_step (I := fun s => I (ledgerOf s)) (perform_invariant hstep)
    (by rwa [ledgerOf_initial]) calls

def addedTo (family : Family) (key : Str) : Effect → Option Item
  | .added d r x => if x.family = family ∧ slotKey d r x = key then some x else none
  | _ => none

def addedUnder (family : Family) (key : Str) (trace : Trace) : List Item :=
  trace.filterMap (addedTo family key)

def itemsAdded (family : Family) (key : Str) (calls : List DataCall) : List Item :=
  calls.filterMap fun c => c.adds.bind fun (d, r, x) => addedTo family key (.added d r x)

@[simp] theorem addedUnder_append (family : Family) (key : Str) (t u : Trace) :
    addedUnder family key (t ++ u) = addedUnder family key t ++ addedUnder family key u :=
  List.filterMap_append

theorem addedTo_unrelated {before : Trace} {e : Effect} (he : Unrelated env before e)
    (family : Family) (key : Str) : addedTo family key e = none := by
  cases e <;> first | rfl | exact he.elim

theorem addedUnder_attempts {family : Family} {key : Str} {t : Trace}
    (h : ∀ e ∈ t, IsAttempt e) : addedUnder family key t = [] := by
  rw [addedUnder, List.filterMap_eq_nil_iff]
  intro e he
  obtain ⟨_, _, _, _, _, rfl, -⟩ := h e he
  rfl

theorem addedUnder_perform (family : Family) (key : Str) (s : DataState P) (c : DataCall) :
    addedUnder family key (perform env s c).trace =
      addedUnder family key s.trace ++ itemsAdded family key [c] := by
  rcases perform_moves env s c with ⟨d, r, x, hc, ht, -⟩ | ⟨hc, hm⟩
  · rw [ht, addedUnder_append, addedUnder, addedUnder, itemsAdded, List.filterMap_cons,
      List.filterMap_cons, hc]
    rfl
  · obtain ⟨es, ht, hes⟩ := hm.trace_eq
    rw [ht, addedUnder_append, addedUnder_attempts hes]
    simp [itemsAdded, hc]

/-- The trace of a run records exactly the puts its calls make. -/
theorem addedUnder_runCalls (env : Environment) (family : Family) (key : Str)
    (calls : List DataCall) :
    addedUnder family key (runCalls P env calls).trace = itemsAdded family key calls := by
  suffices h : ∀ s : DataState P, addedUnder family key (run (perform env) s calls).trace =
      addedUnder family key s.trace ++ itemsAdded family key calls from h (.initial P)
  intro s
  induction calls generalizing s with
  | nil => simp [itemsAdded]
  | cons c calls ih =>
    rw [run_cons, ih, addedUnder_perform, List.append_assoc]
    congr 1
    simp only [itemsAdded, ← List.filterMap_append, List.singleton_append]

/-- What the record of an attempt says about the calls before it. -/
structure Audited (env : Environment) (before : Trace) (family : Family) (key deviceKey : Str)
    (items : List Item) (outcome : Outcome) : Prop where
  device : deviceKey = deviceOf family key
  nonempty : 1 ≤ items.length
  bounded : items.length ≤ PUBLISH_BATCH_ITEMS_COUNT
  outcome : outcome = attemptOutcome env before family key items

def AuditedEffect (env : Environment) (before : Trace) : Effect → Prop
  | .attempted family key deviceKey items outcome =>
      Audited env before family key deviceKey items outcome
  | _ => True

theorem move_audited {L M : Ledger} {e : Effect} (hm : Move env L e M) :
    AuditedEffect env L.trace e := by
  cases hm with
  | add => trivial
  | attempt _ _ _ _ hitems hne hout =>
    refine ⟨rfl, List.length_pos_of_ne_nil hne, ?_, hout⟩
    rw [hitems]
    exact List.length_take_le _ _
  | other _ he => cases e <;> trivial

theorem runCalls_audited (env : Environment) (calls : List DataCall) :
    Justified (AuditedEffect env) (runCalls P env calls).trace := by
  refine runCalls_invariant (I := fun L => Justified (AuditedEffect env) L.trace) ?_
    justified_nil calls
  intro L e M h hm
  rw [hm.trace_eq]
  exact justified_snoc.mpr ⟨h, move_audited hm⟩

end WolkGateway.DataServiceCalls
