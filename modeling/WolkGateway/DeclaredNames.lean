import WolkGateway.DataAttribution

/-!
# Declared names

The user names devices and references in three calls: `addDevice`, `addAssetsToDevice` and
the `publishActuatorStatus` that takes a value. Readings, alarms and actuator statuses are
stored under names introduced by one of them only, so a user who introduces plain names has
plain names stored.
-/

namespace WolkGateway.Wolk
open DeviceModel DataService DataLedger GuardedRuns

def references (sensors : List SensorTemplate) (alarms : List AlarmTemplate)
    (actuators : List ActuatorTemplate) : List Str :=
  sensors.map AssetTemplate.reference ++ alarms.map AssetTemplate.reference ++
    actuators.map AssetTemplate.reference

def templateReferences (template : DeviceTemplate) : List Str :=
  references template.sensors template.alarms template.actuators

def requestReferences (request : SubdeviceUpdateRequest) : List Str :=
  references request.sensors request.alarms request.actuators

/-- The pairs of a device and a reference that a command introduces. -/
def introduced : Command → List (Str × Str)
  | .addDevice device => (templateReferences device.template).map (device.key, ·)
  | .addAssetsToDevice request => (requestReferences request).map (request.deviceKey, ·)
  | .publishActuatorStatus d r _ => [(d, r)]
  | _ => []

def introducedLater : Atom → List (Str × Str)
  | .enqueue c => introduced c
  | .updateIfConnected request | .storeAssets request =>
    (requestReferences request).map (request.deviceKey, ·)
  | _ => []

variable {P : Persistence} {cfg : Config} {s : State P} {p : Str → Str → Prop}

def introducedBy (now : ℕ) : Event → List (Str × Str)
  | .api call => (call.command now).elim [] introduced
  | _ => []

def Introduces (p : Str → Str → Prop) (s : State P) (e : Event) : Prop :=
  ∀ pair ∈ introducedBy s.clock e, p pair.1 pair.2

instance [∀ d r, Decidable (p d r)] (s : State P) (e : Event) : Decidable (Introduces p s e) :=
  inferInstanceAs (Decidable (∀ pair ∈ introducedBy s.clock e, p pair.1 pair.2))

/-- The invariant: every pair that is declared, or about to be, has the property. -/
structure Named (p : Str → Str → Prop) (s : State P) : Prop where
  keys : KeysAgree s.devices
  devices : ∀ k device, s.devices[k]? = some device →
    ∀ r ∈ templateReferences device.template, p k r
  queue : ∀ c ∈ s.queue, ∀ pair ∈ introduced c, p pair.1 pair.2
  running : ∀ a ∈ s.running, ∀ pair ∈ introducedLater a, p pair.1 pair.2

theorem mem_of_hasTemplate {kind : AssetKind} {ts : List (AssetTemplate kind)} {r : Str}
    (h : hasTemplateWithReference ts r = true) : r ∈ ts.map AssetTemplate.reference := by
  obtain ⟨t, ht⟩ := Option.isSome_iff_exists.mp h
  refine List.mem_map.mpr ⟨t, List.mem_of_find?_eq_some ht, ?_⟩
  simpa using List.find?_some ht

theorem sensor_declared {devices : Registry} {d r : Str}
    (h : sensorDefinedForDevice devices d r = true) :
    ∃ device, devices[d]? = some device ∧ r ∈ templateReferences device.template := by
  unfold sensorDefinedForDevice at h
  split at h
  · cases h
  · rename_i device hdev
    exact ⟨device, hdev, by simp [templateReferences, references, mem_of_hasTemplate h]⟩

theorem alarm_declared {devices : Registry} {d r : Str}
    (h : alarmDefinedForDevice devices d r = true) :
    ∃ device, devices[d]? = some device ∧ r ∈ templateReferences device.template := by
  unfold alarmDefinedForDevice at h
  split at h
  · cases h
  · rename_i device hdev
    refine ⟨device, hdev, ?_⟩
    simp only [templateReferences, references, List.mem_append]
    exact .inl (.inr (mem_of_hasTemplate h))

theorem actuator_declared {devices : Registry} {d r : Str}
    (h : actuatorDefinedForDevice devices d r = true) :
    ∃ device, devices[d]? = some device ∧ r ∈ templateReferences device.template := by
  unfold actuatorDefinedForDevice at h
  split at h
  · cases h
  · rename_i device hdev
    refine ⟨device, hdev, ?_⟩
    simp only [templateReferences, references, List.mem_append]
    exact .inr (by simpa [Device.getActuatorReferences] using h)

/-- What a command stores is for names that are declared, or introduced by the command. -/
theorem stores_named (hkeys : KeysAgree s.devices) (hdev : ∀ k device, s.devices[k]? = some device →
      ∀ r ∈ templateReferences device.template, p k r) {c : Command}
    (hc : ∀ pair ∈ introduced c, p pair.1 pair.2) {pair : Str × Str}
    (h : pair ∈ stores s.devices c) : p pair.1 pair.2 := by
  have declared : ∀ d r, (∃ device, s.devices[d]? = some device ∧
      r ∈ templateReferences device.template) → p d r :=
    fun d r ⟨device, hd, hr⟩ => hdev d device hd r hr
  cases c with
  | addSensorReading d r =>
    simp only [stores, List.mem_ite_nil_right, List.mem_singleton] at h
    obtain ⟨h, rfl⟩ := h
    exact declared d r (sensor_declared h)
  | addAlarm d r =>
    simp only [stores, List.mem_ite_nil_right, List.mem_singleton] at h
    obtain ⟨h, rfl⟩ := h
    exact declared d r (alarm_declared h)
  | publishActuatorStatus d r v => exact hc pair h
  | handleActuatorSetCommand d r =>
    simp only [stores, List.mem_ite_nil_right, List.mem_singleton] at h
    obtain ⟨h, rfl⟩ := h
    exact declared d r (actuator_declared h)
  | handleActuatorGetCommand d r =>
    simp only [stores] at h
    split_ifs at h with hempty hdef
    · simp only [List.mem_flatMap, List.mem_map] at h
      obtain ⟨kvp, hkvp, reference, hr, rfl⟩ := h
      have hk : s.devices[kvp.1]? = some kvp.2 :=
        Std.ExtTreeMap.mem_toList_iff_getElem?_eq_some.mp hkvp
      have hkey : kvp.2.key = kvp.1 := hkeys _ _ hk
      apply declared
      refine ⟨kvp.2, by rwa [hkey], ?_⟩
      simp only [templateReferences, references, List.mem_append]
      exact .inr hr
    · rw [List.mem_singleton.mp h]
      exact declared d r (actuator_declared hdef)
    · simp at h
  | _ => simp [stores] at h

theorem mem_addMissing {kind : AssetKind} {stored passed : List (AssetTemplate kind)}
    {t : AssetTemplate kind} (h : t ∈ addMissing stored passed) : t ∈ stored ∨ t ∈ passed := by
  induction passed generalizing stored with
  | nil => exact .inl h
  | cons x passed ih =>
    simp only [addMissing, List.foldl_cons] at h
    split_ifs at h
    · exact (ih h).imp_right (List.mem_cons_of_mem _)
    · rcases ih h with h | h
      · rcases List.mem_append.mp h with h | h
        · exact .inl h
        · right
          rw [List.mem_singleton.mp h]
          exact List.mem_cons_self
      · exact .inr (List.mem_cons_of_mem _ h)

theorem mem_templateReferences_storeAssets {device : Device} {request : SubdeviceUpdateRequest}
    {r : Str} (h : r ∈ templateReferences (storeAssetsToDevice device request).template) :
    r ∈ templateReferences device.template ∨ r ∈ requestReferences request := by
  simp only [templateReferences, requestReferences, references, storeAssetsToDevice,
    List.mem_append, List.mem_map] at h ⊢
  rcases h with (⟨t, ht, rfl⟩ | ⟨t, ht, rfl⟩) | ⟨t, ht, rfl⟩ <;>
    rcases mem_addMissing ht with ht | ht
  · exact .inl (.inl (.inl ⟨t, ht, rfl⟩))
  · exact .inr (.inl (.inl ⟨t, ht, rfl⟩))
  · exact .inl (.inl (.inr ⟨t, ht, rfl⟩))
  · exact .inr (.inl (.inr ⟨t, ht, rfl⟩))
  · exact .inl (.inr ⟨t, ht, rfl⟩)
  · exact .inr (.inr ⟨t, ht, rfl⟩)

theorem introduced_of_requested {e : Event} {c : Command} (hc : Requested cfg s e c)
    (hg : Introduces p s e) : ∀ pair ∈ introduced c, p pair.1 pair.2 := by
  cases hc with
  | api call _ h => simpa [Introduces, introducedBy, h] using hg
  | data message _ _ _ h => cases received_of_messageReceived h <;> simp [introduced]
  | status | registration | connectionLost => simp [introduced]

theorem introduced_of_leaves {devices : Registry} {c : Command} {a : Atom}
    (h : Leaves devices c a) (hc : ∀ pair ∈ introduced c, p pair.1 pair.2) :
    ∀ pair ∈ introducedLater a, p pair.1 pair.2 := by
  cases h with
  | updateIfConnected => exact hc
  | refresh _ _ _ h => cases h <;> simp [introducedLater, introduced]
  | acknowledged _ _ _ _ h _ =>
    rcases h with h | rfl
    · cases h <;> simp [introducedLater, introduced]
    · simp [introducedLater, introduced]
  | _ => simp [introducedLater, introduced]

theorem declared_registryAfter {devices : Registry} {c : Command}
    (hdev : ∀ k device, devices[k]? = some device →
      ∀ r ∈ templateReferences device.template, p k r)
    (hc : ∀ pair ∈ introduced c, p pair.1 pair.2) : ∀ k device,
      (registryAfter devices c)[k]? = some device →
        ∀ r ∈ templateReferences device.template, p k r := by
  intro k device hk r hr
  cases c with
  | addDevice new =>
    simp only [registryAfter] at hk
    split_ifs at hk
    · exact hdev k device hk r hr
    · rw [Std.ExtTreeMap.getElem?_insert] at hk
      split_ifs at hk with heq
      · rw [← Option.some.inj hk] at hr
        rw [← Std.LawfulEqCmp.compare_eq_iff_eq.mp heq]
        exact hc (new.key, r) (by simp [introduced, hr])
      · exact hdev k device hk r hr
  | removeDevice d =>
    simp only [registryAfter] at hk
    split_ifs at hk
    · rw [Std.ExtTreeMap.getElem?_erase] at hk
      split_ifs at hk
      exact hdev k device hk r hr
    · exact hdev k device hk r hr
  | _ => exact hdev k device hk r hr

theorem declared_storing {devices : Registry} {request : SubdeviceUpdateRequest}
    (hdev : ∀ k device, devices[k]? = some device →
      ∀ r ∈ templateReferences device.template, p k r)
    (hreq : ∀ pair ∈ (requestReferences request).map (request.deviceKey, ·), p pair.1 pair.2) :
    ∀ k device, (registryStoring devices request)[k]? = some device →
      ∀ r ∈ templateReferences device.template, p k r := by
  intro k device hk r hr
  unfold registryStoring at hk
  split at hk
  · exact hdev k device hk r hr
  · rename_i stored hstored
    rw [Std.ExtTreeMap.getElem?_insert] at hk
    split_ifs at hk with heq
    · rw [← Option.some.inj hk] at hr
      rw [← Std.LawfulEqCmp.compare_eq_iff_eq.mp heq]
      rcases mem_templateReferences_storeAssets hr with hr | hr
      · exact hdev _ stored hstored r hr
      · exact hreq (request.deviceKey, r) (by simp [hr])
    · exact hdev k device hk r hr

theorem introduced_of_expands {a a' : Atom} {connected : Bool} (h : a' ∈ a.expands connected)
    (ha : ∀ pair ∈ introducedLater a, p pair.1 pair.2) :
    ∀ pair ∈ introducedLater a', p pair.1 pair.2 := by
  cases a with
  | registerIfConnected device =>
    simp only [Atom.expands, List.mem_ite_nil_right, List.mem_cons, List.not_mem_nil, or_false] at h
    obtain ⟨-, rfl | rfl⟩ := h <;> simp [introducedLater, introduced]
  | updateIfConnected request =>
    simp only [Atom.expands, List.mem_ite_nil_right, List.mem_cons, List.not_mem_nil, or_false] at h
    obtain ⟨-, rfl | rfl⟩ := h
    · simp [introducedLater, introduced]
    · exact ha
  | _ => simp [Atom.expands] at h

theorem named_step (s : State P) (e : Event) (h : Named p s) (hg : Introduces p s e) :
    Named p (step cfg s e) := by
  have hkeys : KeysAgree (step cfg s e).devices := keysAgree_step s e h.keys
  rcases stepped cfg s e with ⟨c, hc, hsame, hq, -, -⟩ | ⟨c, queue, rfl, hr, hq, ht⟩ |
    ⟨a, rest, rfl, hr, ht⟩ | ⟨rfl, -⟩ | ⟨-, hsame, hq, -⟩
  · refine ⟨hkeys, ?_, fun c' hmem => ?_, ?_⟩
    · rw [hsame.devices]
      exact h.devices
    · rw [hq, List.mem_append, List.mem_singleton] at hmem
      rcases hmem with hmem | rfl
      · exact h.queue c' hmem
      · exact introduced_of_requested hc hg
    · rw [hsame.running]
      exact h.running
  · have hqueue := h.queue
    rw [hq, List.forall_mem_cons] at hqueue
    obtain ⟨hc, hrest⟩ := hqueue
    rw [ht] at hkeys ⊢
    refine ⟨hkeys, ?_, hrest, fun a ha => introduced_of_leaves (leaves_of_mem ha) hc⟩
    show ∀ k device, (execute cfg s.devices s.clock _ c).devices[k]? = _ → _
    rw [execute_devices]
    exact declared_registryAfter h.devices hc
  · have hrunning := h.running
    rw [hr, List.forall_mem_cons] at hrunning
    obtain ⟨ha, hrest⟩ := hrunning
    rw [ht] at hkeys ⊢
    refine ⟨hkeys, ?_, fun c hmem => ?_, fun a' hmem => ?_⟩
    · rw [runAtom_devices]
      cases a with
      | storeAssets request => exact declared_storing h.devices ha
      | _ => exact h.devices
    · rw [runAtom_queue, List.mem_append] at hmem
      rcases hmem with hmem | hmem
      · exact h.queue c hmem
      · cases a with
        | enqueue c' =>
          rw [List.mem_singleton.mp hmem]
          exact ha
        | _ => simp [Atom.enqueues] at hmem
    · rw [runAtom_running, List.mem_append] at hmem
      rcases hmem with hmem | hmem
      · exact introduced_of_expands hmem ha
      · exact hrest a' hmem
  · exact ⟨hkeys, h.devices, h.queue, h.running⟩
  · refine ⟨hkeys, ?_, ?_, ?_⟩
    · rw [hsame.devices]
      exact h.devices
    · rw [hq]
      exact h.queue
    · rw [hsame.running]
      exact h.running

theorem named_initial : Named p (State.initial P) := by
  refine ⟨?_, ?_, ?_, ?_⟩
  · intro k device h
    simp [State.initial] at h
  · intro k device h
    simp [State.initial] at h
  all_goals simp [State.initial]

theorem storesPlain_of_named {e : Event} (h : Named Plain s) : StoresPlain s e := by
  intro _ _ c hc pair hpair
  exact stores_named h.keys h.devices (h.queue c (List.mem_of_mem_head? hc)) hpair

/-- A user who introduces plain names only has data stored under plain names only. -/
theorem storesPlain_of_introduces {events : List Event}
    (hg : Guarded (step cfg) (Introduces Plain) (.initial P) events) :
    Guarded (step cfg) StoresPlain (.initial P) events :=
  hg.of_invariant named_step (fun _ _ h _ => storesPlain_of_named h) named_initial

end WolkGateway.Wolk
