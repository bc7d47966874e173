import WolkGateway.FollowUps
import WolkGateway.ObservedState
import WolkGateway.RegistryStability
import WolkGateway.PlatformCopy
import WolkGateway.RegistrationResponses

/-!
# What a successful connect refreshes

A connect that succeeds leaves its refreshes to be done, and an acknowledged registration those
of one device. Once nothing is left to do, every device that was there as the module connected,
and has not been removed, has been registered again, its actuators and its configuration were
asked for before everything was published, and its status was sent and its firmware version
asked for.
-/

namespace WolkGateway.Wolk
open DeviceModel DataService DataLedger GuardedRuns Transcripts

variable {P : Persistence} {cfg : Config} {s : State P} {d : Str} {before after : Trace}
  {devices : Registry} {c : Command}

theorem keysAgree_registryOf (trace : Trace) : KeysAgree (registryOf trace) := by
  induction trace using List.reverseRecOn with
  | nil =>
    intro k device h
    simp [registryOf] at h
  | append_singleton trace e ih =>
    rw [registryOf_append, List.foldl_cons, List.foldl_nil]
    cases e with
    | deviceAdded device => exact keysAgree_insert ih rfl
    | deviceRemoved d => exact keysAgree_erase ih
    | assetsStored request => exact keysAgree_storing ih
    | _ => exact ih

/-- A device that is not removed stays in the registry that the calls tell. -/
theorem registryOf_keeps {u : Trace} (hexplained : Justified RegistryExplained (before ++ u))
    {device : Device} (h : (registryOf before)[d]? = some device) (hkept : .deviceRemoved d ∉ u) :
    ∃ device', (registryOf (before ++ u))[d]? = some device' ∧ Extends device device' := by
  induction u using List.reverseRecOn with
  | nil => exact ⟨device, by rwa [List.append_nil], .rfl device⟩
  | append_singleton u e ih =>
    rw [← List.append_assoc] at hexplained ⊢
    obtain ⟨hbefore, he⟩ := justified_snoc.mp hexplained
    obtain ⟨device', hdev, hext⟩ := ih hbefore fun hmem => hkept (List.mem_append_left _ hmem)
    rw [registryOf_append, List.foldl_cons, List.foldl_nil]
    cases e with
    | deviceAdded added =>
      have hne : added.key ≠ d := by
        rintro rfl
        exact he (mem_of_getElem? hdev)
      exact ⟨device', by rw [registryStep, getElem?_insert_ne hne, hdev], hext⟩
    | deviceRemoved k =>
      have hne : k ≠ d := by
        rintro rfl
        exact hkept (List.mem_append_right _ List.mem_cons_self)
      refine ⟨device', ?_, hext⟩
      rw [registryStep, Std.ExtTreeMap.getElem?_erase, if_neg, hdev]
      rwa [Std.LawfulEqCmp.compare_eq_iff_eq]
    | assetsStored request =>
      rw [registryStep, registryStoring]
      by_cases hk : request.deviceKey = d
      · subst hk
        rw [hdev]
        exact ⟨storeAssetsToDevice device' request, by simp,
          hext.trans (.storeAssetsToDevice device' request)⟩
      · split
        · exact ⟨device', hdev, hext⟩
        · exact ⟨device', by rw [getElem?_insert_ne hk, hdev], hext⟩
    | _ => exact ⟨device', hdev, hext⟩

/-- A command started when the module held the device, which has not been removed since. -/
structure StartedWith (d : Str) (device : Device) (trace before : Trace) (c : Command)
    (devices : Registry) (after : Trace) : Prop where
  trace : trace = before ++ .began c devices :: after
  known : devices[d]? = some device
  kept : .deviceRemoved d ∉ after

/-- It is still there when a later command starts. -/
theorem StartedWith.later {trace : Trace} {device : Device}
    (h : StartedWith d device trace before c devices after)
    (hexplained : Justified RegistryExplained trace) {mid rest : Trace} {c' : Command}
    {devices' : Registry} (hafter : after = mid ++ .began c' devices' :: rest) :
    ∃ device', StartedWith d device' trace (before ++ .began c devices :: mid) c' devices' rest ∧
      Extends device device' := by
  obtain ⟨htrace, hdev, hkept⟩ := h
  have hlater : trace = before ++ .began c devices :: mid ++ .began c' devices' :: rest := by
    rw [htrace, hafter, List.append_assoc]
    rfl
  have hthen : devices' = registryOf (before ++ .began c devices :: mid) :=
    hexplained _ _ _ hlater
  have hfirst : devices = registryOf before := hexplained _ _ _ htrace
  rw [hfirst] at hdev
  have hbefore : Justified RegistryExplained (before ++ .began c devices :: mid) :=
    (justified_append.mp (hlater ▸ hexplained)).1
  obtain ⟨device', hdev', hext⟩ := registryOf_keeps hbefore hdev fun hmem => by
    rcases List.mem_cons.mp hmem with hmem | hmem
    · cases hmem
    · exact hkept (hafter ▸ List.mem_append_left _ hmem)
  refine ⟨device', ⟨hlater, hthen ▸ hdev', fun hmem => hkept ?_⟩, hext⟩
  rw [hafter]
  exact List.mem_append_right _ (List.mem_cons_of_mem _ hmem)

theorem registerDevices_registers {now : ℕ} {data : DataState P} {own later : Trace}
    (h : Carried cfg .registerDevices devices now data own later s) (hkeys : KeysAgree devices)
    {device : Device} (hdev : devices[d]? = some device) :
    ∃ outcome, .sent (.registrationRequest device) outcome ∈ own := by
  obtain ⟨u, hu, hsent⟩ := registerDevices_sent cfg.env devices.toList data
  obtain rfl : own = u := List.append_cancel_left (h.executed.symm.trans hu)
  obtain ⟨hne, hsnapshots⟩ := registerDevices_snapshots hkeys hdev
  obtain ⟨x, hx⟩ := List.exists_mem_of_ne_nil _ hne
  obtain rfl := hsnapshots x hx
  rw [← hsent d] at hx
  obtain ⟨e, he, hship⟩ := List.mem_filterMap.mp hx
  cases e with
  | sent message outcome =>
    cases message with
    | registrationRequest device' =>
      simp only [shipmentSent, shipmentIn] at hship
      split_ifs at hship
      cases hship
      exact ⟨outcome, he⟩
    | updateRequest request =>
      simp only [shipmentSent, shipmentIn] at hship
      split_ifs at hship
      cases hship
    | _ => cases hship
  | _ => cases hship

theorem publishDeviceStatusOf_sends {device : Device} {now : ℕ} {data : DataState P}
    {own later : Trace}
    (h : Carried cfg (.publishDeviceStatusOf device) devices now data own later s) :
    ∃ status outcome, .sent (.statusUpdate device.key status) outcome ∈ own := by
  have hsent : ∃ u status outcome, (execute cfg devices now data
      (.publishDeviceStatusOf device)).data.trace =
        data.trace ++ (u ++ [Effect.sent (.statusUpdate device.key status) outcome]) := by
    simp only [execute, sendDeviceStatus]
    split
    · exact ⟨[_], _, _, List.append_assoc _ _ _⟩
    · exact ⟨[], _, _, rfl⟩
  obtain ⟨u, status, outcome, hu⟩ := hsent
  refine ⟨status, outcome, ?_⟩
  rw [List.append_cancel_left (h.executed.symm.trans hu)]
  exact List.mem_append_right _ List.mem_cons_self

/-- The statuses of the device's actuators and its configuration were put into persistence. -/
structure ValuesStored (d : Str) (references : List Str) (u : Trace) : Prop where
  actuators : ∀ reference ∈ references, ∃ status : ActuatorStatus,
    status.reference = reference ∧ .added d reference (.actuatorStatus status) ∈ u
  configuration : ∃ items, .added d [] (.configuration items) ∈ u

theorem adds_actuatorGet (hkeys : KeysAgree devices) {device : Device}
    (hdev : devices[d]? = some device) {reference : Str}
    (hr : reference ∈ device.getActuatorReferences) :
    (d, reference) ∈ adds devices (.handleActuatorGetCommand d reference) := by
  simp only [adds]
  split_ifs with hempty hdefined
  · rw [List.mem_flatMap]
    refine ⟨(d, device), Std.ExtTreeMap.mem_toList_iff_getElem?_eq_some.mpr hdev, ?_⟩
    rw [List.mem_map]
    exact ⟨reference, hr, by rw [hkeys d device hdev]⟩
  · exact List.mem_singleton_self _
  · have hd : deviceExists devices d = true := by simpa using mem_of_getElem? hdev
    simp [hd, actuatorDefinedForDevice, hdev, hr] at hdefined

/-- The command started behind another, and the module held the device still. -/
inductive Continued (P : Persistence) (cfg : Config) (events : List Event) (d : Str)
    (device : Device) (mid after : Trace) (c : Command) : Prop
  | intro (before : Trace) (devices : Registry) (device' : Device) (now : ℕ) (data : DataState P)
      (own later : Trace)
      (started : StartedWith d device' (reach cfg P events).trace before c devices (own ++ later))
      (extended : Extends device device') (keys : KeysAgree devices)
      (carried : Carried cfg c devices now data own later (reach cfg P events))
      (own_within : own ⊆ mid) (all_within : own ++ later ⊆ after)

theorem StartedWith.continues {events : List Event} {device : Device} {mid tail : Trace}
    (h : StartedWith d device (reach cfg P events).trace before c devices (mid ++ tail))
    (htail : ∀ e ∈ tail.head?, start e ≠ none) {c' : Command}
    (hc : c' ∈ (started mid).map Prod.fst) :
    Continued P cfg events d device mid (mid ++ tail) c' := by
  have hexplained := (registryObserved_reach P cfg events).explained
  obtain ⟨mid₁, devices', rest, rfl, -⟩ :=
    split_of_started [] (List.singleton_sublist.mpr hc)
  have hafter : mid₁ ++ .began c' devices' :: rest ++ tail =
      mid₁ ++ .began c' devices' :: (rest ++ tail) := List.append_assoc _ _ _
  obtain ⟨device', hstarted, hext⟩ := h.later hexplained hafter
  have hkeys : KeysAgree devices' := by
    rw [show devices' = registryOf _ from hexplained _ _ _ hstarted.trace]
    exact keysAgree_registryOf _
  obtain ⟨now, data, own, later, -, hown, hcarried⟩ :=
    carried_reach P cfg events _ _ _ _ hstarted.trace
  rw [hown] at hstarted
  refine .intro _ devices' device' now data own later hstarted hext hkeys hcarried ?_ ?_
  · have hsub := subset_of_startsNone hcarried.startsNone hown htail
    exact fun e he => List.mem_append_right _ (List.mem_cons_of_mem _ (hsub he))
  · rw [hafter, ← hown]
    exact fun e he => List.mem_append_right _ (List.mem_cons_of_mem _ he)

variable {events : List Event} {device : Device} {mid tail : Trace}

theorem Continued.registers (h : Continued P cfg events d device mid after .registerDevices) :
    ∃ device' outcome, device'.key = d ∧ .sent (.registrationRequest device') outcome ∈ mid := by
  obtain ⟨before, devices, device', now, data, own, later, hstarted, -, hkeys, hcarried, hmid,
    -⟩ := h
  obtain ⟨outcome, hsent⟩ := registerDevices_registers hcarried hkeys hstarted.known
  exact ⟨device', outcome, hkeys d device' hstarted.known, hmid hsent⟩

theorem Continued.actuator {reference : Str} (hr : reference ∈ device.getActuatorReferences)
    (h : Continued P cfg events d device mid after (.handleActuatorGetCommand d reference)) :
    ∃ status : ActuatorStatus, status.reference = reference ∧
      .added d reference (.actuatorStatus status) ∈ mid := by
  obtain ⟨before, devices, device', now, data, own, later, hstarted, hext, hkeys, hcarried, hmid,
    -⟩ := h
  have hr' : reference ∈ device'.getActuatorReferences := by
    rw [← List.contains_iff_mem, contains_getActuatorReferences] at hr ⊢
    exact hasTemplateWithReference_mono hext.actuators hr
  obtain ⟨x, hx, hitem⟩ := hcarried.puts (adds_actuatorGet hkeys hstarted.known hr')
  cases x with
  | actuatorStatus status => exact ⟨status, hitem, hmid hx⟩
  | _ => exact hitem.elim

theorem Continued.configuration
    (h : Continued P cfg events d device mid after (.handleConfigurationGetCommand d)) :
    ∃ items, .added d [] (.configuration items) ∈ mid := by
  obtain ⟨before, devices, device', now, data, own, later, hstarted, -, -, hcarried, hmid, -⟩ := h
  have hd : deviceExists devices d = true := by simpa using mem_of_getElem? hstarted.known
  have hpair : (d, []) ∈ adds devices (.handleConfigurationGetCommand d) := by
    simp only [adds, if_pos hd]
    exact List.mem_singleton_self _
  obtain ⟨x, hx, hitem⟩ := hcarried.puts hpair
  cases x with
  | configuration items => exact ⟨items, hmid hx⟩
  | _ => exact hitem.elim

def valueRequests (d : Str) (references : List Str) : List Command :=
  references.map (.handleActuatorGetCommand d) ++ [.handleConfigurationGetCommand d]

theorem valueRequests_enqueued (d : Str) (references : List Str) :
    (refreshAtoms d references).flatMap Atom.enqueues = valueRequests d references := by
  rw [refreshAtoms, List.flatMap_append, List.flatMap_map, valueRequests, List.map_eq_flatMap]
  rfl

theorem StartedWith.refreshes
    (h : StartedWith d device (reach cfg P events).trace before c devices (mid ++ tail))
    (htail : ∀ e ∈ tail.head?, start e ≠ none)
    (hstarted : valueRequests d device.getActuatorReferences ⊆ (started mid).map Prod.fst) :
    ValuesStored d device.getActuatorReferences mid where
  actuators reference hr :=
    have hc : .handleActuatorGetCommand d reference ∈ (started mid).map Prod.fst :=
      hstarted (List.mem_append_left _ (List.mem_map_of_mem hr))
    (h.continues htail hc).actuator hr
  configuration :=
    (h.continues htail (hstarted (List.mem_append_right _ List.mem_cons_self))).configuration

theorem Continued.status (hempty : (reach cfg P events).BufferEmpty)
    (h : Continued P cfg events d device mid after .publishDeviceStatuses) :
    ∃ status outcome, .sent (.statusUpdate d status) outcome ∈ after := by
  obtain ⟨before, devices, device', now, data, own, later, hstarted, -, hkeys, hcarried, -,
    hafter⟩ := h
  have hleft : .publishDeviceStatusOf device' ∈ (started later).map Prod.fst := by
    refine (hcarried.left_started hempty).subset (List.mem_flatMap.mpr
      ⟨.enqueue (.publishDeviceStatusOf device'), ?_, List.mem_singleton_self _⟩)
    exact List.mem_map.mpr
      ⟨(d, device'), Std.ExtTreeMap.mem_toList_iff_getElem?_eq_some.mpr hstarted.known, rfl⟩
  have hkey : device'.key = d := hkeys d device' hstarted.known
  rw [← List.append_nil (own ++ later)] at hstarted
  obtain ⟨_, _, _, _, _, own', _, _, _, _, hnested, hown, _⟩ :=
    hstarted.continues (by simp) (mem_started_append hleft own)
  obtain ⟨status, outcome, hsent⟩ := publishDeviceStatusOf_sends hnested
  exact ⟨status, outcome, hkey ▸ hafter (hown hsent)⟩

theorem Continued.version (hempty : (reach cfg P events).BufferEmpty)
    (hfirmware : (reach cfg P events).firmwareQueue = [])
    (hservice : cfg.hasFirmwareUpdateService = true)
    (h : Continued P cfg events d device mid after c)
    (hc : c = .publishFirmwareVersions ∨ c = .publishFirmwareVersion d) :
    ∃ version, .firmwareVersionProvided d version ∈ after := by
  obtain ⟨before, devices, device', now, data, own, later, hstarted, -, hkeys, hcarried, -,
    hafter⟩ := h
  have hleft : .enqueueFirmware (.publishFirmwareVersion d) ∈
      (execute cfg devices now data c).rest := by
    rcases hc with rfl | rfl
    · simp only [execute, if_pos hservice]
      rw [List.mem_map]
      exact ⟨(d, device'), Std.ExtTreeMap.mem_toList_iff_getElem?_eq_some.mpr hstarted.known,
        by rw [hkeys d device' hstarted.known]⟩
    · simp only [execute, if_pos hservice]
      exact List.mem_singleton_self _
  obtain ⟨version, hversion⟩ := hcarried.version hempty hfirmware hleft
  exact ⟨version, hafter (List.mem_append_right _ hversion)⟩

theorem connectedAtoms_enqueues (devices : Registry) :
    (connectedAtoms devices true).flatMap Atom.enqueues =
      .registerDevices :: .publishFirmwareVersions :: .publishDeviceStatuses ::
        (devices.toList.flatMap fun kvp => valueRequests kvp.1 kvp.2.getActuatorReferences) ++
          [.publish] := by
  simp only [connectedAtoms, if_true, List.flatMap_append, List.flatMap_assoc,
    valueRequests_enqueued]
  rfl

/-- What is done about a device for a refresh: before everything is published it is registered
and its values are asked for, and its status and its firmware version are reported. -/
structure RefreshedBy (cfg : Config) (d : Str) (device : Device) (after : Trace) : Prop where
  published : ∃ mid devices rest, after = mid ++ .began .publish devices :: rest ∧
    (∃ device', device'.key = d ∧ HandsOver cfg.env (.registrationRequest device') mid) ∧
      ValuesStored d device.getActuatorReferences mid
  status : ∃ status, HandsOver cfg.env (.statusUpdate d status) after
  version : cfg.hasFirmwareUpdateService = true →
    ∃ version, .firmwareVersionProvided d version ∈ after

/-- A connect that succeeds refreshes every device that is there and is not removed meanwhile.
Whatever else was asked for and in whatever order the threads took their steps: once nothing
waits, a registration request has been handed over, if it can be built, and the actuators and
the configuration asked for, then everything was published; and the status was handed over, if
it can be built, and the firmware version asked for. -/
theorem connect_refreshes (P : Persistence) (cfg : Config) (events : List Event)
    (hempty : (reach cfg P events).BufferEmpty)
    (hfirmware : (reach cfg P events).firmwareQueue = [])
    (hconnect : StartedWith d device (reach cfg P events).trace before (.connect true) devices
      after) (hcalled : after.head? = some (.connectCalled true)) :
    RefreshedBy cfg d device after := by
  obtain ⟨now, data, own, later, -, rfl, hcarried⟩ :=
    carried_reach P cfg events _ _ _ _ hconnect.trace
  have hown : own = [.connectCalled (cfg.env.connects data.trace)] :=
    List.append_cancel_left (hcarried.executed.symm.trans rfl)
  have hconnects : cfg.env.connects data.trace = true := by
    rw [hown] at hcalled
    exact Effect.connectCalled.inj (Option.some.inj hcalled)
  have hleft := hcarried.left_started hempty
  simp only [execute, hconnects, if_true, connectedAtoms_enqueues] at hleft
  obtain ⟨mid, devices', rest, rfl, hmid⟩ := split_of_started _ hleft
  rw [← List.append_assoc] at hconnect ⊢
  have hall := hmid.subset
  have hnext : ∀ e ∈ (Effect.began .publish devices' :: rest).head?, start e ≠ none := by
    simp [start]
  have hbefore : ∀ c ∈ (started mid).map Prod.fst, Continued P cfg events d device (own ++ mid)
      (own ++ mid ++ .began .publish devices' :: rest) c :=
    fun c hc => hconnect.continues hnext (mem_started_append hc own)
  have hanswered := sentAsAnswered_reach P cfg events
  have hafter : own ++ mid ++ .began .publish devices' :: rest ⊆ (reach cfg P events).trace := by
    rw [hconnect.trace]
    exact fun e he => List.mem_append_right _ (List.mem_cons_of_mem _ he)
  refine ⟨⟨own ++ mid, devices', rest, rfl, ?_, ?_⟩, ?_, fun hservice => ?_⟩
  · obtain ⟨device', outcome, hkey, hsent⟩ := (hbefore _ (hall (by simp))).registers
    exact ⟨device', hkey,
      hanswered.handsOver hsent fun e he => hafter (List.mem_append_left _ he)⟩
  · refine hconnect.refreshes hnext fun c hc => mem_started_append (hall ?_) own
    have hdev := Std.ExtTreeMap.mem_toList_iff_getElem?_eq_some.mpr hconnect.known
    iterate 3 apply List.mem_cons_of_mem
    exact List.mem_flatMap.mpr ⟨(d, device), hdev, hc⟩
  · obtain ⟨status, outcome, hsent⟩ := (hbefore _ (hall (by simp))).status hempty
    exact ⟨status, hanswered.handsOver hsent hafter⟩
  · exact (hbefore _ (hall (by simp))).version hempty hfirmware hservice (.inl rfl)

def Config.updating : Config :=
  { Config.bare .obliging with hasFirmwareUpdateService := true }

def publishedWhileConnecting : List Event :=
  [Event.api (.addDevice (actuatorDevice ['d'] ['r'])), .worker, .worker, .api (.connect true),
    .api .publish] ++ List.replicate 20 Event.worker ++ [Event.firmwareWorker]

theorem connect_refreshes_actuator :
    let trace := (reach .updating .inMemory publishedWhileConnecting).trace
    RefreshedBy .updating ['d'] (actuatorDevice ['d'] ['r']) (trace.drop 4) := by
  intro trace
  let devices := (∅ : Registry).insert ['d'] (actuatorDevice ['d'] ['r'])
  have hconnect : StartedWith ['d'] (actuatorDevice ['d'] ['r']) trace (trace.take 3)
      (.connect true) devices (trace.drop 4) :=
    ⟨by decide +kernel, by decide +kernel, by decide +kernel⟩
  exact connect_refreshes .inMemory .updating publishedWhileConnecting
    ⟨by decide +kernel, by decide +kernel⟩ (by decide +kernel) hconnect (by decide +kernel)

/-- A registration that is acknowledged refreshes the device, unless it is removed meanwhile. -/
theorem acknowledged_refreshes (P : Persistence) (cfg : Config) (events : List Event)
    (hempty : (reach cfg P events).BufferEmpty)
    (hfirmware : (reach cfg P events).firmwareQueue = [])
    (hresponse : StartedWith d device (reach cfg P events).trace before
      (.handleRegistrationResponse d .ok) devices after) :
    ValuesStored d device.getActuatorReferences after ∧ (cfg.hasFirmwareUpdateService = true →
      ∃ version, .firmwareVersionProvided d version ∈ after) := by
  obtain ⟨now, data, own, later, -, rfl, hcarried⟩ :=
    carried_reach P cfg events _ _ _ _ hresponse.trace
  have hd : deviceExists devices d = true := by simpa using mem_of_getElem? hresponse.known
  have hreferences : getActuatorReferences devices d = device.getActuatorReferences := by
    rw [getActuatorReferences, hresponse.known]
  have hleft := hcarried.left_started hempty
  simp only [execute, if_pos hd, List.flatMap_append, acknowledgedAtoms_enqueues, refreshCommands,
    if_true, hreferences] at hleft
  rw [← List.append_nil (own ++ later)] at hresponse
  have hall : ∀ c ∈ valueRequests d device.getActuatorReferences ++ [.publishFirmwareVersion d],
      c ∈ (started (own ++ later)).map Prod.fst := by
    intro c hc
    rw [valueRequests, List.append_assoc] at hc
    exact mem_started_append (hleft.subset (List.mem_append_left _ hc)) own
  constructor
  · exact hresponse.refreshes (by simp) fun c hc => hall c (List.mem_append_left _ hc)
  · intro hservice
    have hversion := hresponse.continues (by simp)
      (hall _ (List.mem_append_right _ List.mem_cons_self))
    rw [List.append_nil] at hversion
    exact hversion.version hempty hfirmware hservice (.inr rfl)

theorem acknowledged_refreshes_actuator :
    let cfg := { Config.answering with hasFirmwareUpdateService := true }
    let trace := (reach cfg .inMemory
      (respondedWith ['r'] ++ List.replicate 10 Event.worker ++ [.firmwareWorker])).trace
    ValuesStored ['d'] [['v']] (trace.drop 5) ∧
      ∃ version, .firmwareVersionProvided ['d'] version ∈ trace.drop 5 := by
  intro cfg trace
  let devices := (∅ : Registry).insert ['d'] (actuatorDevice ['d'] ['v'])
  have hresponse : StartedWith ['d'] (actuatorDevice ['d'] ['v']) trace (trace.take 4)
      (.handleRegistrationResponse ['d'] .ok) devices (trace.drop 5) :=
    ⟨by decide +kernel, by decide +kernel, by decide +kernel⟩
  obtain ⟨hvalues, hversion⟩ := acknowledged_refreshes .inMemory cfg _
    ⟨by decide +kernel, by decide +kernel⟩ (by decide +kernel) hresponse
  exact ⟨hvalues, hversion rfl⟩

end WolkGateway.Wolk
