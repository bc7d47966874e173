import WolkGateway.RegistrationCoverage
import WolkGateway.DataAttribution

/-!
# The order of registrations

A registration is a command of its own, put in the buffer by `connect` and by `addDevice`.
What follows says when the connectivity service is connected, which commands send
something for a device, and which steps keep the registrations ahead of them.
-/

namespace WolkGateway.Wolk
open DeviceModel DataService DataLedger GuardedRuns Transcripts

def onlineStep (connected : Bool) : Effect → Bool
  | .connectCalled true | .reconnectCalled true => true
  | .disconnectCalled | .connectionLost => false
  | _ => connected

/-- Whether the connectivity service is connected, by the calls made so far. An attempt to
connect that fails is taken to change nothing. -/
def online (trace : Trace) : Bool := trace.foldl onlineStep false

/-- The device a sensor, alarm, actuator status, configuration, device status or firmware
version message is about. -/
def subject : OutboundMessage → Option Str
  | .data _ d _ | .statusResponse d _ | .statusUpdate d _ | .firmwareVersion d _ => some d
  | _ => none

/-- The connectivity service accepts such a message for the device. -/
def AcceptedFor (d : Str) (e : Effect) : Prop :=
  ∃ message, e.handed = some (message, true) ∧ subject message = some d

/-- What is accepted is an attempt at stored data, or a message sent past persistence. -/
theorem handed_accepted {e : Effect} {message : OutboundMessage}
    (h : e.handed = some (message, true)) :
    (∃ f key d items, e = .attempted f key d items .accepted ∧ message = .data f d items) ∨
      e = .sent message .accepted := by
  cases e with
  | attempted f key d items outcome =>
    cases outcome <;> simp only [Effect.handed, Option.some.injEq, Prod.mk.injEq, reduceCtorEq,
      and_true, and_false] at h
    exact .inl ⟨f, key, d, items, rfl, h.symm⟩
  | sent message' outcome =>
    cases outcome <;> simp only [Effect.handed, Option.some.injEq, Prod.mk.injEq, reduceCtorEq,
      and_true, and_false] at h
    rw [h]
    exact .inr rfl
  | _ => cases h

theorem acceptedFor_cases {d : Str} {e : Effect} (h : AcceptedFor d e) :
    (∃ f key items, e = .attempted f key d items .accepted) ∨
      ∃ message, e = .sent message .accepted ∧ subject message = some d := by
  obtain ⟨message, he, hsub⟩ := h
  rcases handed_accepted he with ⟨f, key, k, items, rfl, rfl⟩ | rfl
  · obtain rfl := Option.some.inj hsub
    exact .inl ⟨f, key, items, rfl⟩
  · exact .inr ⟨message, rfl, hsub⟩

/-- A registration request for the device was handed over. -/
def Registered (d : Str) (trace : Trace) : Prop := ∃ e ∈ trace, HandsRegistration d e

def registrationOf : OutboundMessage → Option Str
  | .registrationRequest device => some device.key
  | _ => none

theorem handsRegistration_iff {d : Str} {e : Effect} :
    (e.handed.bind fun p => registrationOf p.1) = some d ↔ HandsRegistration d e := by
  constructor
  · intro h
    obtain ⟨⟨message, accepted⟩, he, hm⟩ := Option.bind_eq_some_iff.mp h
    cases message with
    | registrationRequest device => exact ⟨device, accepted, Option.some.inj hm, he⟩
    | _ => cases hm
  · rintro ⟨device, accepted, rfl, he⟩
    rw [he]
    rfl

instance (d : Str) (e : Effect) : Decidable (HandsRegistration d e) :=
  decidable_of_iff _ handsRegistration_iff

instance (d : Str) (trace : Trace) : Decidable (Registered d trace) :=
  inferInstanceAs (Decidable (∃ e ∈ trace, HandsRegistration d e))

/-- The commands that can send a message about a device. -/
def transmits (c : Command) : Bool :=
  publishesData c || match c with
    | .addDeviceStatus .. | .publishDeviceStatus .. | .publishDeviceStatusOf _
    | .handleDeviceStatusRequest _ => true
    | _ => false

def statusAbout : Command → Option Str
  | .publishDeviceStatusOf device => some device.key
  | _ => none

variable {P : Persistence} {cfg : Config} {s t : State P} {d : Str}

/-- The device is in the registry, or was registered at some time. -/
def Known (s : State P) (d : Str) : Prop := d ∈ s.devices ∨ Registered d s.trace

instance (s : State P) (d : Str) : Decidable (Known s d) := inferInstanceAs (Decidable (_ ∨ _))

def storedKeys (s : DataState P) : List (Family × Str) :=
  (P.sensorReadings.keys s.sensorReadings).map (.sensorReadings, ·) ++
  (P.alarms.keys s.alarms).map (.alarms, ·) ++
  (P.actuatorStatuses.keys s.actuatorStatuses).map (.actuatorStatuses, ·) ++
  (P.configurations.keys s.configurations).map (.configurations, ·)

/-- Persistence holds nothing of the device, and no status command about it waits. -/
def NothingKept (d : Str) (s : State P) : Prop :=
  (∀ p ∈ storedKeys s.data, deviceOf p.1 p.2 ≠ d) ∧ ∀ c ∈ s.queue, statusAbout c ≠ some d

instance (d : Str) (s : State P) : Decidable (NothingKept d s) :=
  inferInstanceAs (Decidable (_ ∧ _))

/-- The worker may put a registration in the buffer if no command that sends waits there, or
if the devices were registered before. -/
def MayRegister (s : State P) (devices : List Str) : Prop :=
  (∀ c ∈ s.queue, transmits c = false) ∨ ∀ d ∈ devices, Registered d s.trace

instance (s : State P) (devices : List Str) : Decidable (MayRegister s devices) :=
  inferInstanceAs (Decidable (_ ∨ _))

def MayAccess (s : State P) : Atom → Prop
  | .enqueue .registerDevices => MayRegister s (getDeviceKeys s.devices)
  | .enqueue (.registerDevice device) => MayRegister s [device.key]
  | .registerIfConnected _ => online s.trace = true → s.connected = true
  | .enqueueFirmware (.publishFirmwareVersion d) => Registered d s.trace
  | _ => True

def MayName (s : State P) : Command → Prop
  | .publishActuatorStatus d _ _ | .publishConfiguration d _ | .publishDeviceStatus d _ =>
    Known s d
  | .removeDevice d => Registered d s.trace ∨ NothingKept d s
  | _ => True

def MayBegin (s : State P) (c : Command) : Prop :=
  MayName s c ∧ ∀ pair ∈ stores s.devices c, PERSISTENCE_KEY_DELIMITER ∉ pair.1

/-- The condition on a step. -/
def Orderly (s : State P) : Event → Prop
  | .worker =>
    match s.running with
    | a :: _ => MayAccess s a
    | [] => ∀ c ∈ s.queue.head?, MayBegin s c
  | .firmwareWorker =>
    ∀ c ∈ s.firmwareQueue.head?, ∀ d ∈ installsOn c, Registered d s.trace
  | .installCallback d success => success = true → Registered d s.trace
  | _ => True

instance (s : State P) (a : Atom) : Decidable (MayAccess s a) := by
  unfold MayAccess
  split <;> infer_instance

instance (s : State P) (c : Command) : Decidable (MayName s c) := by
  unfold MayName
  split <;> infer_instance

instance (s : State P) (c : Command) : Decidable (MayBegin s c) :=
  inferInstanceAs (Decidable (_ ∧ _))

instance (s : State P) (e : Event) : Decidable (Orderly s e) := by
  unfold Orderly
  split
  · split <;> infer_instance
  all_goals infer_instance

theorem mayBegin_of_orderly {c : Command} {queue : List Command} (hr : s.running = [])
    (hq : s.queue = c :: queue) (hg : Orderly s .worker) : MayBegin s c := by
  simp only [Orderly, hr, hq] at hg
  exact hg c rfl

theorem Registered.append {trace u : Trace} (h : Registered d trace) :
    Registered d (trace ++ u) := by
  obtain ⟨e, he, hd⟩ := h
  exact ⟨e, List.mem_append_left _ he, hd⟩

inductive Switches (s : State P) : Event → Prop
  | connect (b : Bool) (queue : List Command) (hr : s.running = [])
      (hq : s.queue = .connect b :: queue) : Switches s .worker
  | disconnect (rest : List Atom) (hr : s.running = .serviceDisconnect :: rest) :
      Switches s .worker
  | reconnect (rest : List Atom) (hr : s.running = .serviceReconnect :: rest) :
      Switches s .worker
  | lost : Switches s .connectionLost

theorem not_switches_of_head {c : Command} {queue : List Command} (hr : s.running = [])
    (hq : s.queue = c :: queue) (hc : ∀ b, c ≠ .connect b) : ¬ Switches s .worker := by
  rintro (⟨b, queue', -, hq'⟩ | ⟨rest, hr'⟩ | ⟨rest, hr'⟩)
  · exact hc b (List.cons.inj (hq.symm.trans hq')).1
  · simp [hr] at hr'
  · simp [hr] at hr'

theorem onlineStep_of_emits {event : Event} {e : Effect} (h : Emits s event e)
    (hs : ¬ Switches s event) (b : Bool) : onlineStep b e = b := by
  cases h with
  | began | lost => first | rfl | exact absurd .lost hs
  | command c queue _ hr hq h =>
    cases h with
    | connectCalled b' result => exact absurd (.connect b' queue hr hq) hs
    | _ => rfl
  | access a rest _ hr h =>
    cases h with
    | disconnected => exact absurd (.disconnect rest hr) hs
    | reconnected => exact absurd (.reconnect rest hr) hs
    | _ => rfl
  | aside _ _ h => cases h <;> rfl

theorem online_append {trace u : Trace} (h : ∀ e ∈ u, ∀ b, onlineStep b e = b) :
    online (trace ++ u) = online trace :=
  foldl_append_of_ignored h false

theorem online_step {event : Event} (hs : ¬ Switches s event) :
    online (step cfg s event).trace = online s.trace := by
  obtain ⟨u, hu, hall⟩ := step_trace cfg s event
  rw [hu, online_append fun e he b => onlineStep_of_emits (hall e he) hs b]

theorem transmits_of_registers {c : Command} (h : Registers d c) : transmits c = false := by
  cases h <;> rfl

theorem transmits_of_mayEmit {devices : Registry} {c : Command} {e : Effect}
    (h : MayEmit devices c e) (ha : AcceptedFor d e) : transmits c = true := by
  rcases acceptedFor_cases ha with ⟨f, key, items, rfl⟩ | ⟨message, rfl, hsub⟩
  · cases h with
    | attempted _ _ _ _ _ _ hp => simp [transmits, hp]
  · cases h with
    | sent _ _ _ hsend => cases hsend <;> first | rfl | cases hsub

/-- Everything stored is for a device with the property, and so is every attempt that was not
made before. -/
structure KeptFor (p : Str → Prop) (before : Trace) (L : Ledger) : Prop where
  stored : ∀ f key, L.contents f key ≠ [] → p (deviceOf f key)
  attempted : ∀ f key k items outcome, .attempted f key k items outcome ∈ L.trace →
    .attempted f key k items outcome ∈ before ∨ p k

theorem move_keptFor {env : Environment} {p : Str → Prop} {before : Trace} {L M : Ledger}
    {e : Effect} (h : KeptFor p before L)
    (ha : ∀ k r item, e = .added k r item → p (deviceOf item.family (slotKey k r item)))
    (hm : Move env L e M) : KeptFor p before M := by
  cases hm with
  | add k r item =>
    refine ⟨fun f key hne => ?_, fun f key k items outcome hmem => ?_⟩
    · simp only [setAt] at hne
      split_ifs at hne with hk
      · rw [hk.1, hk.2]
        exact ha k r item rfl
      · exact h.stored f key hne
    · exact h.attempted f key k items outcome (by simpa using hmem)
  | attempt family key items outcome hitems hne =>
    have hkey : p (deviceOf family key) := by
      refine h.stored family key fun hnil => hne ?_
      rw [hitems, hnil, List.take_nil]
    refine ⟨fun f k hstored => ?_, fun f k d items' outcome' hmem => ?_⟩
    · split_ifs at hstored with hr
      · exact h.stored f k hstored
      · simp only [setAt] at hstored
        split_ifs at hstored with hk
        · rw [hk.1, hk.2]
          exact hkey
        · exact h.stored f k hstored
    · rcases List.mem_append.mp hmem with hmem | hmem
      · exact h.attempted f k d items' outcome' hmem
      · right
        obtain ⟨rfl, rfl, rfl, -, -⟩ : f = family ∧ k = key ∧ d = deviceOf family key ∧ _ ∧ _ := by
          simpa using hmem
        exact hkey
  | other e he =>
    refine ⟨h.stored, fun f key k items outcome hmem => ?_⟩
    rcases List.mem_append.mp hmem with hmem | hmem
    · exact h.attempted f key k items outcome hmem
    · rw [← List.mem_singleton.mp hmem] at he
      exact he.elim

theorem mem_storedKeys {s : DataState P} {f : Family} {key : Str} (h : contentsOf s f key ≠ []) :
    (f, key) ∈ storedKeys s := by
  simp only [storedKeys, List.mem_append, List.mem_map, Prod.mk.injEq]
  cases f with
  | sensorReadings =>
    have hk := (P.sensorReadings.mem_keys s.sensorReadings key).mpr
      fun hnil => h (by simp [contentsOf, hnil])
    exact .inl (.inl (.inl ⟨key, hk, rfl, rfl⟩))
  | alarms =>
    have hk := (P.alarms.mem_keys s.alarms key).mpr fun hnil => h (by simp [contentsOf, hnil])
    exact .inl (.inl (.inr ⟨key, hk, rfl, rfl⟩))
  | actuatorStatuses =>
    have hk := (P.actuatorStatuses.mem_keys s.actuatorStatuses key).mpr <|
      Option.isSome_iff_ne_none.mpr fun hnone => h (by simp [contentsOf, hnone])
    exact .inl (.inr ⟨key, hk, rfl, rfl⟩)
  | configurations =>
    have hk := (P.configurations.mem_keys s.configurations key).mpr <|
      Option.isSome_iff_ne_none.mpr fun hnone => h (by simp [contentsOf, hnone])
    exact .inr ⟨key, hk, rfl, rfl⟩

/-- A put is for a device of the registry, or for the one a value was handed over for. -/
theorem put_known (hkeys : KeysAgree s.devices) {c : Command} {r : Str} {item : Item}
    (hname : MayName s c) (h : MayEmit s.devices c (.added d r item)) : Known s d := by
  have hrefresh : ∀ {c d r}, Refreshes s.devices c d r → d ∈ s.devices := by
    intro c d r h
    cases h with
    | set _ _ _ h | get _ _ h => exact mem_of_actuatorDefined h
    | broadcast key device _ hk =>
      rw [hkeys key device hk]
      exact mem_of_getElem? hk
  cases h with
  | sensorReading _ _ _ _ _ hd | alarm _ _ _ _ hd => exact .inl hd
  | actuatorStatusValue | configurationValue => exact hname
  | actuatorStatus _ _ _ _ h => exact .inl (hrefresh h)
  | configuration _ _ _ h => cases h <;> (left; assumption)

/-- What a command sends past persistence is about a device of the registry, or about the one
it names. -/
theorem sent_known {c : Command} {message : OutboundMessage} (hname : MayName s c)
    (hnested : ∀ device, c = .publishDeviceStatusOf device → Known s device.key)
    (h : Sends s.devices c message) (hsub : subject message = some d) : Known s d := by
  cases h with
  | addDeviceStatus _ _ hd | request _ _ hd =>
    rw [← Option.some.inj hsub]
    exact .inl hd
  | publishDeviceStatus =>
    rw [← Option.some.inj hsub]
    exact hname
  | nested device =>
    rw [← Option.some.inj hsub]
    exact hnested device rfl
  | _ => cases hsub

end WolkGateway.Wolk
