import WolkGateway.RegistryDeterminism

/-!
# Asset updates as they are sent

`validateAssetsToUpdate` compares every passed asset with the stored template,
`storeAssetsToDevice` stores one asset after the other, and the update request carries the
passed lists. The three agree as long as the lists do not contradict themselves.
-/

namespace WolkGateway.Wolk
open DeviceModel DataService

section Kind

variable {kind : AssetKind}

/-- The passed templates of one kind are in the updated ones, which keep the stored ones. -/
structure KindApplied (stored passed updated : List (AssetTemplate kind)) : Prop where
  sent : ∀ t ∈ passed, templateWithReference updated t.reference = some t
  entries : stored <+: updated
  lookups : ∀ reference t, templateWithReference stored reference = some t →
    templateWithReference updated reference = some t

/-- A passed template differs from the stored one with its reference. -/
def Conflict (stored passed : List (AssetTemplate kind)) : Prop :=
  ∃ t ∈ passed, ∃ e, templateWithReference stored t.reference = some e ∧ e ≠ t

theorem conflictFree_iff_not_conflict {stored passed : List (AssetTemplate kind)} :
    conflictFree stored passed = true ↔ ¬ Conflict stored passed := by
  rw [conflictFree_iff, Conflict]
  simp only [not_exists, not_and, ne_eq, not_not]

theorem kindApplied_addMissing {stored passed : List (AssetTemplate kind)}
    (hfree : conflictFree stored passed = true) (hagree : Agree passed) :
    KindApplied stored passed (addMissing stored passed) := by
  constructor
  · intro t ht
    exact templateWithReference_addMissing_of_mem hfree hagree ht
  · exact prefix_addMissing stored passed
  · intro reference t h
    rw [templateWithReference_addMissing, h, Option.some_or]

theorem agree_of_kindApplied {stored passed updated : List (AssetTemplate kind)}
    (h : KindApplied stored passed updated) : Agree passed := by
  intro t ht t' ht' href
  have hlookup := h.sent t ht
  rw [href, h.sent t' ht'] at hlookup
  exact (Option.some.inj hlookup).symm

theorem conflictFree_of_kindApplied {stored passed updated : List (AssetTemplate kind)}
    (h : KindApplied stored passed updated) : conflictFree updated passed = true := by
  rw [conflictFree_iff]
  intro t ht e he
  rw [h.sent t ht] at he
  exact (Option.some.inj he).symm

end Kind

/-- The stored update is the one that was sent, and is stable. -/
structure AppliedAsSent (device : Device) (request : SubdeviceUpdateRequest) : Prop where
  configurations : KindApplied device.template.configurations request.configurations
    (storeAssetsToDevice device request).template.configurations
  sensors : KindApplied device.template.sensors request.sensors
    (storeAssetsToDevice device request).template.sensors
  alarms : KindApplied device.template.alarms request.alarms
    (storeAssetsToDevice device request).template.alarms
  actuators : KindApplied device.template.actuators request.actuators
    (storeAssetsToDevice device request).template.actuators
  accepted : validateAssetsToUpdate (storeAssetsToDevice device request) request = true
  unchanged : storeAssetsToDevice (storeAssetsToDevice device request) request =
    storeAssetsToDevice device request

/-- Nothing of the update is stored, and nothing of it is left for the worker to do. -/
def LeftAlone (device : Device) (request : SubdeviceUpdateRequest) : Prop :=
  ∀ (P : Persistence) (cfg : Config) (queue : List Command) (s : State P),
    s.devices[request.deviceKey]? = some device →
    beginCommand cfg (.addAssetsToDevice request) queue s =
      { s.log (.began (.addAssetsToDevice request) s.devices) with running := [], queue := queue }

def Conflicts (device : Device) (request : SubdeviceUpdateRequest) : Prop :=
  Conflict device.template.configurations request.configurations ∨
  Conflict device.template.sensors request.sensors ∨
  Conflict device.template.alarms request.alarms ∨
  Conflict device.template.actuators request.actuators

theorem validate_eq_true_iff (device : Device) (request : SubdeviceUpdateRequest) :
    validateAssetsToUpdate device request = true ↔ ¬ Conflicts device request := by
  simp only [validateAssetsToUpdate, Bool.and_eq_true, conflictFree_iff_not_conflict, Conflicts,
    not_or, and_assoc]

theorem leftAlone_of_refused {device : Device} {request : SubdeviceUpdateRequest}
    (h : validateAssetsToUpdate device request = false) : LeftAlone device request := by
  intro P cfg queue s hdev
  simp [beginCommand, execute, hdev, h, State.log]

theorem appliedAsSent_of_consistent {device : Device} {request : SubdeviceUpdateRequest}
    (hv : validateAssetsToUpdate device request = true) (hc : Consistent request) :
    AppliedAsSent device request := by
  have hfree := hv
  simp only [validateAssetsToUpdate, Bool.and_eq_true] at hfree
  obtain ⟨⟨⟨h1, h2⟩, h3⟩, h4⟩ := hfree
  have k1 := kindApplied_addMissing h1 hc.configurations
  have k2 := kindApplied_addMissing h2 hc.sensors
  have k3 := kindApplied_addMissing h3 hc.alarms
  have k4 := kindApplied_addMissing h4 hc.actuators
  refine ⟨k1, k2, k3, k4, ?_, ?_⟩
  · simp only [validateAssetsToUpdate, storeAssetsToDevice, Bool.and_eq_true]
    exact ⟨⟨⟨conflictFree_of_kindApplied k1, conflictFree_of_kindApplied k2⟩,
      conflictFree_of_kindApplied k3⟩, conflictFree_of_kindApplied k4⟩
  · simp only [storeAssetsToDevice, addMissing_addMissing]

theorem consistent_of_appliedAsSent {device : Device} {request : SubdeviceUpdateRequest}
    (h : AppliedAsSent device request) : Consistent request :=
  ⟨agree_of_kindApplied h.configurations, agree_of_kindApplied h.sensors,
    agree_of_kindApplied h.alarms, agree_of_kindApplied h.actuators⟩

/-- An accepted update is applied as it is sent, and a refused one leaves everything alone,
exactly when the passed lists conflict with the template or do not contradict themselves. -/
theorem applied_as_sent_iff (device : Device) (request : SubdeviceUpdateRequest) :
    ((validateAssetsToUpdate device request = true → AppliedAsSent device request) ∧
      (validateAssetsToUpdate device request = false → LeftAlone device request)) ↔
    (Conflicts device request ∨ Consistent request) := by
  constructor
  · intro h
    by_cases hc : Conflicts device request
    · exact .inl hc
    · exact .inr (consistent_of_appliedAsSent (h.1 ((validate_eq_true_iff _ _).mpr hc)))
  · intro h
    refine ⟨fun hv => ?_, leftAlone_of_refused⟩
    rcases h with h | h
    · exact absurd h ((validate_eq_true_iff _ _).mp hv)
    · exact appliedAsSent_of_consistent hv h

def contradictingUpdate : SubdeviceUpdateRequest :=
  ⟨['d'], true, [], [⟨['t'], ['1']⟩, ⟨['t'], ['2']⟩], [], []⟩

/-- The update is accepted, the first sensor is stored, and the second is lost. -/
theorem not_applied_as_sent_twice :
    validateAssetsToUpdate (bareDevice ['d']) contradictingUpdate = true ∧
    ¬ AppliedAsSent (bareDevice ['d']) contradictingUpdate ∧
    validateAssetsToUpdate (storeAssetsToDevice (bareDevice ['d']) contradictingUpdate)
      contradictingUpdate = false := by
  refine ⟨by decide, fun h => ?_, by decide⟩
  have hlost : templateWithReference (storeAssetsToDevice (bareDevice ['d'])
      contradictingUpdate).template.sensors ['t'] ≠ some ⟨['t'], ['2']⟩ := by decide
  exact hlost (h.sensors.sent ⟨['t'], ['2']⟩ (by decide))

end WolkGateway.Wolk
