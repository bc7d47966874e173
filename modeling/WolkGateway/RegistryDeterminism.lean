import WolkGateway.WolkRegistry
import WolkGateway.AssetTemplates
import WolkGateway.Transcripts

/-!
# The registry and the calls that change it

A pure account of the registry: what the executed `addDevice`, `addAssetsToDevice` and
`removeDevice` commands make of it when no update is dropped. A run in which every update
finds the module connected has exactly that registry, whatever else happens in it.
-/

namespace WolkGateway.Wolk
open DeviceModel DataService DataLedger GuardedRuns Transcripts

def registryCommand : Effect → Option Command
  | .began (.addDevice device) _ => some (.addDevice device)
  | .began (.addAssetsToDevice request) _ => some (.addAssetsToDevice request)
  | .began (.removeDevice d) _ => some (.removeDevice d)
  | _ => none

def registryCommands (trace : Trace) : List Command := trace.filterMap registryCommand

/-- What a command makes of the registry when its update is not dropped. -/
def replayed (devices : Registry) : Command → Registry
  | .addAssetsToDevice request =>
    match devices[request.deviceKey]? with
    | none => devices
    | some device =>
      if validateAssetsToUpdate device request then registryStoring devices request else devices
  | c => registryAfter devices c

def replay (commands : List Command) : Registry := commands.foldl replayed ∅

/-- The assets an access is about to store, if the module is connected. -/
def storing (devices : Registry) : Atom → Registry
  | .updateIfConnected request | .storeAssets request => registryStoring devices request
  | _ => devices

/-- The registry once the worker has done what it has left to do. -/
def settled (running : List Atom) (devices : Registry) : Registry := running.foldl storing devices

/-- `if (m_connected)` in `addAssetsToDevice` finds the flag set. -/
def UpdateKept {P : Persistence} (s : State P) (e : Event) : Prop :=
  (match e, s.running with
    | .worker, .updateIfConnected _ :: _ => s.connected
    | _, _ => true) = true

instance {P : Persistence} (s : State P) (e : Event) : Decidable (UpdateKept s e) :=
  inferInstanceAs (Decidable (_ = true))

variable {P : Persistence} {cfg : Config} {s : State P}

theorem settled_eq_of_forall {running : List Atom} {devices : Registry}
    (h : ∀ a ∈ running, ∀ devices, storing devices a = devices) :
    settled running devices = devices := by
  induction running with
  | nil => rfl
  | cons a running ih =>
    rw [settled, List.foldl_cons, h a List.mem_cons_self]
    exact ih fun b hb => h b (List.mem_cons_of_mem _ hb)

theorem settled_expands (connected : Bool) {a : Atom} {rest : List Atom} {devices : Registry}
    (h : ∀ request, a = .updateIfConnected request → connected = true)
    (ha : ∀ request, a ≠ .storeAssets request) :
    settled (a.expands connected ++ rest) devices = settled (a :: rest) devices := by
  cases a with
  | updateIfConnected request =>
    simp [Atom.expands, h request rfl, settled, storing]
  | registerIfConnected device =>
    cases connected <;> simp [Atom.expands, settled, storing]
  | storeAssets request => exact absurd rfl (ha request)
  | _ => rfl

/-- What is left after a command completes what the command makes of the registry. -/
theorem settled_execute (devices : Registry) (now : ℕ) (data : DataState P) (c : Command) :
    settled (execute cfg devices now data c).rest (execute cfg devices now data c).devices =
      replayed devices c := by
  by_cases hc : ∃ request, c = .addAssetsToDevice request
  · obtain ⟨request, rfl⟩ := hc
    simp only [execute, replayed]
    cases devices[request.deviceKey]? with
    | none => rfl
    | some device =>
      dsimp only
      split_ifs <;> rfl
  · have hplain : replayed devices c = registryAfter devices c := by
      cases c <;> first | rfl | exact absurd ⟨_, rfl⟩ hc
    rw [hplain, execute_devices]
    refine settled_eq_of_forall fun a ha devices' => ?_
    cases leaves_of_mem ha with
    | updateIfConnected request => exact absurd ⟨request, rfl⟩ hc
    | _ => rfl

def recorded (c : Command) : List Command := registryCommands [.began c ∅]

theorem replayed_recorded (devices : Registry) (c : Command) :
    (recorded c).foldl replayed devices = replayed devices c := by
  cases c <;> rfl

theorem registryCommands_mayEmit {devices : Registry} {c : Command} {u : Trace}
    (h : ∀ x ∈ u, MayEmit devices c x) : registryCommands u = [] := by
  refine List.filterMap_eq_nil_iff.mpr fun x hx => ?_
  cases h x hx <;> rfl

/-- The registry, and the one every command started in, are what the commands make of it. -/
structure Replayed (s : State P) : Prop where
  registry : settled s.running s.devices = replay (registryCommands s.trace)
  snapshots : Justified (fun before e => ∀ c devices, e = .began c devices →
    devices = replay (registryCommands before)) s.trace

theorem Replayed.quiet {t : State P} (h : Replayed s) {u : Trace} (ht : t.trace = s.trace ++ u)
    (hu : StartsNone u)
    (hdev : settled t.running t.devices = settled s.running s.devices) : Replayed t := by
  have hcommands : registryCommands u = [] := by
    refine List.filterMap_eq_nil_iff.mpr fun x hx => ?_
    cases x with
    | began c devices => exact absurd hx (hu.began_notMem c devices)
    | _ => rfl
  constructor
  · rw [hdev, h.registry, ht, registryCommands, registryCommands, List.filterMap_append]
    rw [registryCommands] at hcommands
    rw [hcommands, List.append_nil]
  · rw [ht, justified_append]
    exact ⟨h.snapshots,
      justified_of_forall fun x hx _ c devices heq => absurd (heq ▸ hx) (hu.began_notMem c devices)⟩

theorem replayed_begun (h : Replayed s) {c : Command} {queue : List Command}
    (hr : s.running = []) : Replayed (beginCommand cfg c queue s) := by
  have hnow : s.devices = replay (registryCommands s.trace) := by
    have hreg := h.registry
    rwa [hr] at hreg
  obtain ⟨u, ht, hall⟩ := beginCommand_trace cfg c queue s
  have hnone : StartsNone u := startsNone_of_mayEmit hall
  constructor
  · have hcommands : registryCommands (beginCommand cfg c queue s).trace =
        registryCommands s.trace ++ recorded c := by
      rw [ht]
      simp only [registryCommands, List.filterMap_append]
      have hnil := registryCommands_mayEmit hall
      rw [registryCommands] at hnil
      rw [hnil, List.append_nil]
      cases c <;> rfl
    rw [hcommands, replay, List.foldl_append, replayed_recorded, ← replay, ← hnow]
    exact settled_execute _ _ _ _
  · rw [ht, justified_append, justified_snoc]
    refine ⟨⟨h.snapshots, ?_⟩, justified_of_forall fun x hx _ c devices heq =>
      absurd (heq ▸ hx) (hnone.began_notMem c devices)⟩
    intro c' devices heq
    rw [← (Effect.began.inj heq).2]
    exact hnow

theorem replayed_step (s : State P) (e : Event) (h : Replayed s) (hg : UpdateKept s e) :
    Replayed (step cfg s e) := by
  rcases stepped cfg s e with ⟨c, hc, hsame, -, hdata, -⟩ | ⟨c, queue, rfl, hr, hq, ht⟩ |
    ⟨a, rest, rfl, hr, ht⟩ | ⟨rfl, ht⟩ | ⟨-, hsame, -, hm⟩
  · refine h.quiet (u := []) (by simp [State.trace, hdata]) (by simp [StartsNone]) ?_
    rw [hsame.running, hsame.devices]
  · rw [ht]
    exact replayed_begun h hr
  · obtain ⟨u, hu, hall⟩ := (runAtom_moves cfg a { s with running := rest }).trace_eq
    rw [← ht] at hu
    refine h.quiet hu (startsNone_of_accesses hall) ?_
    rw [ht, runAtom_running, runAtom_devices, hr]
    by_cases ha : ∃ request, a = .storeAssets request
    · obtain ⟨request, rfl⟩ := ha
      rfl
    · rw [← settled_expands s.connected]
      · cases a with
        | storeAssets request => exact absurd ⟨request, rfl⟩ ha
        | _ => rfl
      · rintro request rfl
        simpa [UpdateKept, hr] using hg
      · exact fun request heq => ha ⟨request, heq⟩
  · exact h.quiet (u := [.connectionLost]) rfl (by simp [StartsNone, start]) rfl
  · obtain ⟨u, hu, hall⟩ := hm.trace_eq
    refine h.quiet hu (startsNone_of_aside hall) ?_
    rw [hsame.running, hsame.devices]

/-- In a run that drops no update the registry is what its commands make of it. -/
theorem replayed_reach {events : List Event}
    (hg : Guarded (step cfg) UpdateKept (.initial P) events) : Replayed (reach cfg P events) :=
  invariant_of_guarded (I := Replayed) replayed_step ⟨rfl, justified_nil⟩ hg

section Assets

variable {kind : AssetKind}

/-- No two of the passed templates share a reference and differ. -/
def Agree (passed : List (AssetTemplate kind)) : Prop :=
  ∀ t ∈ passed, ∀ t' ∈ passed, t.reference = t'.reference → t = t'

instance (passed : List (AssetTemplate kind)) : Decidable (Agree passed) :=
  inferInstanceAs (Decidable (∀ t ∈ passed, ∀ t' ∈ passed, _))

theorem conflictFree_iff {stored passed : List (AssetTemplate kind)} :
    conflictFree stored passed = true ↔
      ∀ t ∈ passed, ∀ e, templateWithReference stored t.reference = some e → e = t := by
  simp only [conflictFree, List.all_eq_true]
  refine forall₂_congr fun t _ => ?_
  cases templateWithReference stored t.reference <;> simp

/-- A validated template is found under its reference, if the passed ones agree. -/
theorem templateWithReference_addMissing_of_mem {stored passed : List (AssetTemplate kind)}
    (hfree : conflictFree stored passed = true) (hagree : Agree passed)
    {t : AssetTemplate kind} (ht : t ∈ passed) :
    templateWithReference (addMissing stored passed) t.reference = some t := by
  rw [templateWithReference_addMissing]
  cases hs : templateWithReference stored t.reference with
  | some e => rw [Option.some_or, conflictFree_iff.mp hfree t ht e hs]
  | none =>
    obtain ⟨e, he⟩ := Option.isSome_iff_exists.mp (isSome_templateWithReference ht)
    obtain ⟨hmem, href⟩ := templateWithReference_reference he
    rw [Option.none_or, he, hagree e hmem t ht href]

/-- Validated templates that agree with each other are all stored. -/
theorem passed_subset_addMissing {stored passed : List (AssetTemplate kind)}
    (hfree : conflictFree stored passed = true) (hagree : Agree passed) :
    passed ⊆ addMissing stored passed := by
  intro t ht
  have hlookup := templateWithReference_addMissing_of_mem hfree hagree ht
  exact (templateWithReference_reference hlookup).1

end Assets

structure Consistent (request : SubdeviceUpdateRequest) : Prop where
  configurations : Agree request.configurations
  sensors : Agree request.sensors
  alarms : Agree request.alarms
  actuators : Agree request.actuators

structure Includes (template : DeviceTemplate) (request : SubdeviceUpdateRequest) : Prop where
  configurations : request.configurations ⊆ template.configurations
  sensors : request.sensors ⊆ template.sensors
  alarms : request.alarms ⊆ template.alarms
  actuators : request.actuators ⊆ template.actuators

theorem includes_storeAssetsToDevice {device : Device} {request : SubdeviceUpdateRequest}
    (hv : validateAssetsToUpdate device request = true) (hc : Consistent request) :
    Includes (storeAssetsToDevice device request).template request := by
  simp only [validateAssetsToUpdate, Bool.and_eq_true] at hv
  obtain ⟨⟨⟨h1, h2⟩, h3⟩, h4⟩ := hv
  exact ⟨passed_subset_addMissing h1 hc.configurations, passed_subset_addMissing h2 hc.sensors,
    passed_subset_addMissing h3 hc.alarms, passed_subset_addMissing h4 hc.actuators⟩

theorem includes_replayed {devices : Registry} {device : Device}
    {request : SubdeviceUpdateRequest} (hdev : devices[request.deviceKey]? = some device)
    (hv : validateAssetsToUpdate device request = true) (hc : Consistent request) :
    ∃ device', (replayed devices (.addAssetsToDevice request))[request.deviceKey]? =
      some device' ∧ Includes device'.template request := by
  refine ⟨storeAssetsToDevice device request, ?_, includes_storeAssetsToDevice hv hc⟩
  simp [replayed, registryStoring, hdev, hv]

/-- The update request was sent, waits in the buffer, or is yet to be put there. -/
inductive UpdateFollows (request : SubdeviceUpdateRequest) (after : Trace) (s : State P) : Prop
  | sent (outcome : Outcome) (h : .sent (.updateRequest request) outcome ∈ after)
  | waits (h : .updateDevice request ∈ s.queue)
  | enqueues (h : .enqueue (.updateDevice request) ∈ s.running)
  | checks (h : .updateIfConnected request ∈ s.running)

/-- An executed `addAssetsToDevice` of a registered device with validated assets. -/
def UpdateExecuted (request : SubdeviceUpdateRequest) (e : Effect) : Prop :=
  ∃ devices device, e = .began (.addAssetsToDevice request) devices ∧
    devices[request.deviceKey]? = some device ∧ validateAssetsToUpdate device request = true

def UpdatesFollow (s : State P) : Prop :=
  ∀ request before e after, s.trace = before ++ e :: after → UpdateExecuted request e →
    UpdateFollows request after s

theorem updateDevice_sends {request : SubdeviceUpdateRequest} {queue : List Command}
    (ht : step cfg s .worker = beginCommand cfg (.updateDevice request) queue s) :
    ∃ outcome, (step cfg s .worker).trace = s.trace ++
      [.began (.updateDevice request) s.devices, .sent (.updateRequest request) outcome] := by
  refine ⟨cfg.env.outcome (s.trace ++ [.began (.updateDevice request) s.devices])
    (.updateRequest request), ?_⟩
  rw [ht]
  simp [State.trace, beginCommand, execute, DeviceRegistrationService.publishUpdateRequest,
    DataState.send, DataState.log]

theorem updateFollows_step {request : SubdeviceUpdateRequest} {after u : Trace} {e : Event}
    (hu : (step cfg s e).trace = s.trace ++ u) (hg : UpdateKept s e)
    (h : UpdateFollows request after s) :
    UpdateFollows request (after ++ u) (step cfg s e) := by
  rcases stepped cfg s e with ⟨c, hc, hsame, hq, hdata, -⟩ | ⟨c, queue, rfl, hr, hq, ht⟩ |
    ⟨a, rest, rfl, hr, ht⟩ | ⟨rfl, ht⟩ | ⟨-, hsame, hq, hm⟩
  · cases h with
    | sent outcome h => exact .sent outcome (List.mem_append_left _ h)
    | waits h => exact .waits (by simp [hq, h])
    | enqueues h => exact .enqueues (by rwa [hsame.running])
    | checks h => exact .checks (by rwa [hsame.running])
  · cases h with
    | sent outcome h => exact .sent outcome (List.mem_append_left _ h)
    | waits h =>
      rw [hq, List.mem_cons] at h
      rcases h with rfl | h
      · obtain ⟨outcome, htrace⟩ := updateDevice_sends ht
        have hsent := List.append_cancel_left (hu.symm.trans htrace)
        apply UpdateFollows.sent outcome
        simp [hsent]
      · exact .waits (by rwa [ht])
    | enqueues h => simp [hr] at h
    | checks h => simp [hr] at h
  · cases h with
    | sent outcome h => exact .sent outcome (List.mem_append_left _ h)
    | waits h => exact .waits (by simp [ht, h])
    | enqueues h =>
      rw [hr, List.mem_cons] at h
      rcases h with rfl | h
      · exact .waits (by simp [ht, Atom.enqueues])
      · exact .enqueues (by simp [ht, h])
    | checks h =>
      rw [hr, List.mem_cons] at h
      rcases h with rfl | h
      · have hconn : s.connected = true := by simpa [UpdateKept, hr] using hg
        exact .enqueues (by simp [ht, Atom.expands, hconn])
      · exact .checks (by simp [ht, h])
  · cases h with
    | sent outcome h => exact .sent outcome (List.mem_append_left _ h)
    | waits h => exact .waits (by rwa [ht])
    | enqueues h => exact .enqueues (by rwa [ht])
    | checks h => exact .checks (by rwa [ht])
  · cases h with
    | sent outcome h => exact .sent outcome (List.mem_append_left _ h)
    | waits h => exact .waits (by rwa [hq])
    | enqueues h => exact .enqueues (by rwa [hsame.running])
    | checks h => exact .checks (by rwa [hsame.running])

theorem updatesFollow_step (s : State P) (e : Event) (h : UpdatesFollow s) (hg : UpdateKept s e) :
    UpdatesFollow (step cfg s e) := by
  intro request before x after hsplit hx
  obtain ⟨u, hu, hall⟩ := step_trace cfg s e
  rw [hu] at hsplit
  rcases split_append hsplit with ⟨after', rfl, hs⟩ | ⟨before', -, hs⟩
  · exact updateFollows_step hu hg (h request before x after' hs hx)
  · obtain ⟨devices, device, rfl, hdev, hv⟩ := hx
    have hmem : .began (.addAssetsToDevice request) devices ∈ u := by simp [hs]
    cases hall _ hmem with
    | began _ queue hr hq =>
      exact .checks (by simp [step_begins hr hq, beginCommand, execute, hdev, hv])
    | command _ _ _ _ _ he => cases he
    | access _ _ _ _ he => cases he
    | aside _ _ he => cases he

theorem updatesFollow_reach {events : List Event}
    (hg : Guarded (step cfg) UpdateKept (.initial P) events) :
    UpdatesFollow (reach cfg P events) := by
  refine invariant_of_guarded (I := UpdatesFollow) updatesFollow_step ?_ hg
  intro request before e after h
  simp [State.trace, State.initial, DataState.initial] at h

/-- Between two commands, the registry in which the last executed update was taken up. -/
theorem includes_of_last {events : List Event}
    (hg : Guarded (step cfg) UpdateKept (.initial P) events)
    (hdone : (reach cfg P events).running = []) {request : SubdeviceUpdateRequest}
    {before after : Trace} {e : Effect} (hsplit : (reach cfg P events).trace = before ++ e :: after)
    (hx : UpdateExecuted request e) (hlast : registryCommands after = [])
    (hc : Consistent request) :
    ∃ device, (reach cfg P events).devices[request.deviceKey]? = some device ∧
      Includes device.template request := by
  obtain ⟨devices, device, rfl, hdev, hv⟩ := hx
  have h := replayed_reach hg
  have hsnap : devices = replay (registryCommands before) := h.snapshots _ _ _ hsplit _ _ rfl
  have hreg := h.registry
  have hcommands : registryCommands (reach cfg P events).trace =
      registryCommands before ++ [Command.addAssetsToDevice request] := by
    rw [hsplit, registryCommands, List.filterMap_append, List.filterMap_cons]
    rw [registryCommands] at hlast
    simp [registryCommand, hlast, registryCommands]
  rw [hdone, hcommands, replay, List.foldl_append, ← replay, ← hsnap] at hreg
  rw [show (reach cfg P events).devices = replayed devices (.addAssetsToDevice request) from hreg]
  exact includes_replayed hdev hv hc

/-- Two runs that execute the same registry commands, and in which every update finds the
module connected, have the same registry, whatever the rest of the runs. Each executed
update is then in the template, and its request is handed over if it can be built. -/
theorem registry_determined_by_calls (P P' : Persistence) (cfg cfg' : Config)
    (events events' : List Event) (hkept : Guarded (step cfg) UpdateKept (.initial P) events)
    (hkept' : Guarded (step cfg') UpdateKept (.initial P') events')
    (hdone : (reach cfg P events).running = []) (hdone' : (reach cfg' P' events').running = [])
    (hsame : registryCommands (reach cfg P events).trace =
      registryCommands (reach cfg' P' events').trace) :
    (reach cfg P events).devices = (reach cfg' P' events').devices ∧
    ∀ request before e after, (reach cfg P events).trace = before ++ e :: after →
      UpdateExecuted request e →
      (registryCommands after = [] → Consistent request →
        ∃ device, (reach cfg P events).devices[request.deviceKey]? = some device ∧
          Includes device.template request) ∧
      ((reach cfg P events).queue = [] →
        HandsOver cfg.env (.updateRequest request) after) := by
  refine ⟨?_, fun request before e after hsplit hx => ⟨fun hlast hc => ?_, fun hempty => ?_⟩⟩
  · have hreg := (replayed_reach hkept).registry
    have hreg' := (replayed_reach hkept').registry
    rw [hdone] at hreg
    rw [hdone', ← hsame] at hreg'
    exact hreg.trans hreg'.symm
  · exact includes_of_last hkept hdone hsplit hx hlast hc
  · rcases updatesFollow_reach hkept request before e after hsplit hx with
      ⟨outcome, h⟩ | h | h | h
    · refine (sentAsAnswered_reach P cfg events).handsOver h fun x hmem => ?_
      rw [hsplit]
      exact List.mem_append_right _ (List.mem_cons_of_mem _ hmem)
    · simp [hempty] at h
    · simp [hdone] at h
    · simp [hdone] at h

def sensorUpdate : SubdeviceUpdateRequest :=
  ⟨['a'], true, [], [⟨['s'], []⟩], [], []⟩

def extendedOnline : List Event :=
  [Event.api (.addDevice (bareDevice ['a'])), .api (.connect false),
    .api (.addAssetsToDevice sensorUpdate)]
    ++ List.replicate 20 Event.worker

/-- The same calls, with the connection lost and found in between. -/
def extendedReconnected : List Event :=
  [Event.api (.addDevice (bareDevice ['a'])), .api (.connect false), .worker, .worker, .worker,
    .worker, .connectionLost, .connectionLostConnects] ++ List.replicate 20 Event.worker ++
  [Event.api (.addAssetsToDevice sensorUpdate)] ++ List.replicate 20 Event.worker

theorem registry_determined_reconnected :
    (reach (.bare .obliging) .inMemory extendedOnline).devices =
      (reach (.bare { Environment.obliging with accepts := fun _ _ => false }) .inMemory
        extendedReconnected).devices :=
  (registry_determined_by_calls .inMemory .inMemory (.bare .obliging)
    (.bare { Environment.obliging with accepts := fun _ _ => false }) extendedOnline
    extendedReconnected (by decide +kernel) (by decide +kernel) (by decide +kernel)
    (by decide +kernel) (by decide +kernel)).1

def extendedOffline : List Event :=
  [Event.api (.addDevice (bareDevice ['a'])), .api (.addAssetsToDevice sensorUpdate)]
    ++ List.replicate 20 Event.worker

/-- The sensor is dropped when the module is offline: the same registry commands, executed
to the end, leave different registries. -/
theorem update_dropped_offline :
    registryCommands (reach (.bare .obliging) .inMemory extendedOnline).trace =
      registryCommands (reach (.bare .obliging) .inMemory extendedOffline).trace ∧
    (reach (.bare .obliging) .inMemory extendedOnline).BufferEmpty ∧
    (reach (.bare .obliging) .inMemory extendedOffline).BufferEmpty ∧
    (reach (.bare .obliging) .inMemory extendedOnline).devices ≠
      (reach (.bare .obliging) .inMemory extendedOffline).devices :=
  ⟨by decide +kernel, ⟨by decide +kernel, by decide +kernel⟩,
    ⟨by decide +kernel, by decide +kernel⟩, by decide +kernel⟩

end WolkGateway.Wolk
