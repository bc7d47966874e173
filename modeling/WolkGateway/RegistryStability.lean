import WolkGateway.WolkRegistry
import WolkGateway.AssetTemplates
import WolkGateway.WorkerProgress

/-!
# Stability of the registry

Until it is removed, a device stays in the registry, under its own key, and keeps every
template that was declared for it; so what the gates let through once they let through
from then on.
-/

namespace WolkGateway.Wolk
open DeviceModel DataService GuardedRuns

/-- Everything declared for the first device is declared, alike, for the second. -/
structure Extends (device device' : Device) : Prop where
  name : device'.name = device.name
  key : device'.key = device.key
  configurations : ∀ reference t,
    templateWithReference device.template.configurations reference = some t →
    templateWithReference device'.template.configurations reference = some t
  sensors : ∀ reference t, templateWithReference device.template.sensors reference = some t →
    templateWithReference device'.template.sensors reference = some t
  alarms : ∀ reference t, templateWithReference device.template.alarms reference = some t →
    templateWithReference device'.template.alarms reference = some t
  actuators : ∀ reference t, templateWithReference device.template.actuators reference = some t →
    templateWithReference device'.template.actuators reference = some t

namespace Extends

variable {device device' device'' : Device}

theorem rfl (device : Device) : Extends device device := by
  constructor
  · exact .refl _
  · exact .refl _
  all_goals exact fun _ _ h => h

theorem trans (h : Extends device device') (h' : Extends device' device'') :
    Extends device device'' := by
  constructor
  · exact h'.name.trans h.name
  · exact h'.key.trans h.key
  · exact fun r t ht => h'.configurations r t (h.configurations r t ht)
  · exact fun r t ht => h'.sensors r t (h.sensors r t ht)
  · exact fun r t ht => h'.alarms r t (h.alarms r t ht)
  · exact fun r t ht => h'.actuators r t (h.actuators r t ht)

/-- Storing assets keeps what is declared. -/
theorem storeAssetsToDevice (device : Device) (request : SubdeviceUpdateRequest) :
    Extends device (storeAssetsToDevice device request) := by
  have hkind : ∀ {kind : AssetKind} (stored passed : List (AssetTemplate kind)) reference t,
      templateWithReference stored reference = some t →
      templateWithReference (addMissing stored passed) reference = some t := by
    intro kind stored passed reference t h
    rw [templateWithReference_addMissing, h, Option.some_or]
  constructor
  · exact .refl _
  · exact .refl _
  all_goals exact hkind _ _

end Extends

variable {P : Persistence} {cfg : Config} {devices devices' : Registry} {k : Str}

theorem getElem?_insert_ne {d : Str} {device : Device} (h : d ≠ k) :
    (devices.insert d device)[k]? = devices[k]? := by
  rw [Std.ExtTreeMap.getElem?_insert, if_neg]
  rw [Std.LawfulEqCmp.compare_eq_iff_eq]
  exact h

/-- A step that does not execute `removeDevice k` keeps the device `k`. -/
theorem extends_step {s : State P} {e : Event} {u : Trace} {device : Device}
    (hu : (step cfg s e).trace = s.trace ++ u)
    (hno : ∀ devices, .began (.removeDevice k) devices ∉ u) (h : s.devices[k]? = some device) :
    ∃ device', (step cfg s e).devices[k]? = some device' ∧ Extends device device' := by
  rcases devicesChanged cfg s e with hd | ⟨added, _, _, _, _, hk, hd⟩ |
    ⟨d, queue, rfl, hr, hq, _, hd⟩ | ⟨request, _, _, _, hd⟩
  · exact ⟨device, by rw [hd, h], .rfl device⟩
  · have hne : added.key ≠ k := by
      rintro rfl
      exact hk (mem_of_getElem? h)
    exact ⟨device, by rw [hd, getElem?_insert_ne hne, h], .rfl device⟩
  · obtain ⟨v, hv, -⟩ := beginCommand_trace cfg (.removeDevice d) queue s
    rw [← step_begins hr hq, List.append_assoc] at hv
    have huv := List.append_cancel_left (hu.symm.trans hv)
    have hne : d ≠ k := by
      rintro rfl
      exact hno s.devices (by simp [huv])
    refine ⟨device, ?_, .rfl device⟩
    rw [hd, Std.ExtTreeMap.getElem?_erase, if_neg, h]
    rw [Std.LawfulEqCmp.compare_eq_iff_eq]
    exact hne
  · rw [hd, registryStoring]
    by_cases hk : request.deviceKey = k
    · subst hk
      rw [h]
      exact ⟨storeAssetsToDevice device request, by simp, .storeAssetsToDevice device request⟩
    · split
      · exact ⟨device, h, .rfl device⟩
      · exact ⟨device, by rw [getElem?_insert_ne hk, h], .rfl device⟩

theorem extends_run {events : List Event} {s : State P} {u : Trace} {device : Device}
    (hu : (run (step cfg) s events).trace = s.trace ++ u)
    (hno : ∀ devices, .began (.removeDevice k) devices ∉ u) (h : s.devices[k]? = some device) :
    ∃ device', (run (step cfg) s events).devices[k]? = some device' ∧
      Extends device device' := by
  induction events generalizing s u device with
  | nil => exact ⟨device, h, .rfl device⟩
  | cons e events ih =>
    obtain ⟨v, w, rfl, hv, hw⟩ := run_cons_trace hu
    have hnov : ∀ devices, .began (.removeDevice k) devices ∉ v := by
      intro devices hmem
      exact hno devices (by simp [hmem])
    have hnow : ∀ devices, .began (.removeDevice k) devices ∉ w := by
      intro devices hmem
      exact hno devices (by simp [hmem])
    obtain ⟨device₁, h₁, hext₁⟩ := extends_step hv hnov h
    obtain ⟨device₂, h₂, hext₂⟩ := ih hw hnow h₁
    exact ⟨device₂, h₂, hext₁.trans hext₂⟩

/-- What a gate lets through in the first registry it lets through in the second. -/
structure GatesKept (devices devices' : Registry) (k : Str) : Prop where
  sensors : ∀ reference, sensorDefinedForDevice devices k reference = true →
    sensorDefinedForDevice devices' k reference = true
  alarms : ∀ reference, alarmDefinedForDevice devices k reference = true →
    alarmDefinedForDevice devices' k reference = true
  actuators : ∀ reference, actuatorDefinedForDevice devices k reference = true →
    actuatorDefinedForDevice devices' k reference = true
  configurations : ∀ reference, configurationItemDefinedForDevice devices k reference = true →
    configurationItemDefinedForDevice devices' k reference = true

theorem hasTemplateWithReference_mono {kind : AssetKind} {ts ts' : List (AssetTemplate kind)}
    (h : ∀ reference t, templateWithReference ts reference = some t →
      templateWithReference ts' reference = some t) {reference : Str}
    (hhas : hasTemplateWithReference ts reference = true) :
    hasTemplateWithReference ts' reference = true := by
  obtain ⟨t, ht⟩ := Option.isSome_iff_exists.mp hhas
  rw [hasTemplateWithReference, h reference t ht, Option.isSome_some]

theorem contains_getActuatorReferences (device : Device) (reference : Str) :
    device.getActuatorReferences.contains reference =
      hasTemplateWithReference device.template.actuators reference := by
  rw [Bool.eq_iff_iff, hasTemplateWithReference, templateWithReference, List.find?_isSome]
  simp [Device.getActuatorReferences]

theorem gatesKept_of_extends {device device' : Device} (h : devices[k]? = some device)
    (h' : devices'[k]? = some device') (hext : Extends device device') :
    GatesKept devices devices' k := by
  constructor
  · intro reference hdef
    simp only [sensorDefinedForDevice, h, h'] at hdef ⊢
    exact hasTemplateWithReference_mono hext.sensors hdef
  · intro reference hdef
    simp only [alarmDefinedForDevice, h, h'] at hdef ⊢
    exact hasTemplateWithReference_mono hext.alarms hdef
  · intro reference hdef
    simp only [actuatorDefinedForDevice, h, h', contains_getActuatorReferences] at hdef ⊢
    exact hasTemplateWithReference_mono hext.actuators hdef
  · intro reference hdef
    simp only [configurationItemDefinedForDevice, h, h'] at hdef ⊢
    exact hasTemplateWithReference_mono hext.configurations hdef

/-- An `addDevice` with a key in use is recorded, and does nothing. -/
theorem beginCommand_addDevice_again (cfg : Config) {device : Device} (h : device.key ∈ devices)
    (queue : List Command) {s : State P} (hd : s.devices = devices) :
    beginCommand cfg (.addDevice device) queue s =
      { s.log (.began (.addDevice device) s.devices) with running := [], queue := queue } := by
  subst hd
  simp [beginCommand, execute, h, State.log]

/-- From any reachable state with a device `k`, and until a `removeDevice` of it executes:
the device stays, under its own key, with all it has declared, the gates only open, and
adding a device with its key again does nothing. -/
theorem registry_stable (cfg : Config) (events events' : List Event) (k : Str) (device : Device)
    (h : (reach cfg P events).devices[k]? = some device) (u : Trace)
    (hu : (reach cfg P (events ++ events')).trace = (reach cfg P events).trace ++ u)
    (hno : ∀ devices, .began (.removeDevice k) devices ∉ u) :
    (∃ device', (reach cfg P (events ++ events')).devices[k]? = some device' ∧
      device'.key = k ∧ Extends device device') ∧
    GatesKept (reach cfg P events).devices (reach cfg P (events ++ events')).devices k ∧
    ∀ (again : Device) (queue : List Command), again.key = k →
      beginCommand cfg (.addDevice again) queue (reach cfg P (events ++ events')) =
        { (reach cfg P (events ++ events')).log
            (.began (.addDevice again) (reach cfg P (events ++ events')).devices) with
          running := [], queue := queue } := by
  have hkeys := keysAgree_reach (P := P) cfg (events ++ events')
  rw [reach, run_append, ← reach] at hu hkeys ⊢
  obtain ⟨device', h', hext⟩ := extends_run hu hno h
  refine ⟨⟨device', h', hkeys k device' h', hext⟩, gatesKept_of_extends h h' hext, ?_⟩
  rintro again queue rfl
  exact beginCommand_addDevice_again cfg (mem_of_getElem? h') queue rfl

def declaredOnce : List Event := [.api (.addDevice (sensorDevice ['d'] ['s'])), .worker, .worker]

/-- The module connects, the device gets a second sensor, and it is added again without any. -/
def extendedAndAgain : List Event :=
  Event.api (.connect false) :: List.replicate 6 Event.worker ++
    [Event.api (.addAssetsToDevice ⟨['d'], true, [], [⟨['t'], []⟩], [], []⟩)] ++
    List.replicate 6 Event.worker ++ [Event.api (.addDevice (bareDevice ['d'])), .worker]

theorem registry_stable_again :
    let t := reach (.bare .obliging) .inMemory (declaredOnce ++ extendedAndAgain)
    (∃ device, t.devices[['d']]? = some device ∧ device.key = ['d'] ∧
      Extends (sensorDevice ['d'] ['s']) device) ∧
    sensorDefinedForDevice t.devices ['d'] ['s'] = true ∧
    sensorDefinedForDevice t.devices ['d'] ['t'] = true := by
  intro t
  let s := reach (.bare .obliging) .inMemory declaredOnce
  have hnone : .removeDevice ['d'] ∉
      (started (t.trace.drop s.trace.length)).map Prod.fst := by decide +kernel
  obtain ⟨hdevice, hgates, -⟩ := registry_stable (P := .inMemory) (.bare .obliging) declaredOnce
    extendedAndAgain ['d'] (sensorDevice ['d'] ['s']) (by decide +kernel)
    (t.trace.drop s.trace.length) (by decide +kernel) fun devices hmem =>
      hnone (List.mem_map.mpr ⟨_, List.mem_filterMap.mpr ⟨_, hmem, rfl⟩, rfl⟩)
  exact ⟨hdevice, hgates.sensors ['s'] (by decide +kernel), by decide +kernel⟩

end WolkGateway.Wolk
