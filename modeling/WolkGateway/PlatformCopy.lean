import WolkGateway.SnapshotsAndUpdates
import WolkGateway.RegistryDeterminism
import WolkGateway.Quiescence

/-!
# The platform's copy of the registry

The registration and update requests that the connectivity service accepts carry the registry
to the platform: what they make up, taken in order, agrees with every device of a connected
module that has nothing left to do. Requests may carry a device as it was when they were put
in the buffer, and updates may arrive that a registration already had; neither is seen in the
end. A refused request is made good by the next successful connect.
-/

namespace WolkGateway.Wolk
open DeviceModel DataService DataLedger GuardedRuns Transcripts SnapshotsAndUpdates

/-- What an accepted request makes of a copy of the registry. -/
def copyStep (copy : Registry) : Effect → Registry
  | .sent (.registrationRequest device) .accepted => copy.insert device.key device
  | .sent (.updateRequest request) .accepted => registryStoring copy request
  | _ => copy

/-- The copy of the registry that the accepted requests make up. -/
def platformCopy (trace : Trace) : Registry := trace.foldl copyStep ∅

/-- What a message carries of a device. -/
def shipmentIn (d : Str) : OutboundMessage → Option (Shipment Device SubdeviceUpdateRequest)
  | .registrationRequest device => if device.key = d then some (.snapshot device) else none
  | .updateRequest request => if request.deviceKey = d then some (.update request) else none
  | _ => none

/-- What is sent of a device, accepted or not. -/
def shipmentSent (d : Str) : Effect → Option (Shipment Device SubdeviceUpdateRequest)
  | .sent message _ => shipmentIn d message
  | _ => none

/-- A request about the device that is not accepted. -/
def refuses (d : Str) : Effect → Bool
  | .sent message outcome => (shipmentIn d message).isSome && decide (outcome ≠ .accepted)
  | _ => false

def refusedStep (d : Str) (refused : Bool) (e : Effect) : Bool :=
  if e = .connectCalled true then false else refused || refuses d e

/-- A request about the device was refused after the last successful connect. -/
def refusedSince (d : Str) (trace : Trace) : Bool := trace.foldl (refusedStep d) false

/-- What a command that waits is to send of a device. -/
def shipmentOf (d : Str) : Command → Option (Shipment Device SubdeviceUpdateRequest)
  | .registerDevices => some .current
  | .registerDevice device => shipmentIn d (.registrationRequest device)
  | .updateDevice request => shipmentIn d (.updateRequest request)
  | _ => none

def shipmentLeft (d : Str) : Atom → Option (Shipment Device SubdeviceUpdateRequest)
  | .enqueue command => shipmentOf d command
  | .registerIfConnected device => shipmentIn d (.registrationRequest device)
  | .updateIfConnected request => shipmentIn d (.updateRequest request)
  | _ => none

variable {P : Persistence} {cfg : Config} {s t : State P} {d : Str}

/-- What is on its way to the platform of a device. -/
def awaited (d : Str) (s : State P) : List (Shipment Device SubdeviceUpdateRequest) :=
  s.queue.filterMap (shipmentOf d) ++ s.running.filterMap (shipmentLeft d)

section Assets

variable {kind : AssetKind} {stored passed other : List (AssetTemplate kind)}

theorem length_le_addMissing (stored passed : List (AssetTemplate kind)) :
    stored.length ≤ (addMissing stored passed).length := (prefix_addMissing stored passed).length_le

theorem addMissing_of_length (h : (addMissing stored passed).length = stored.length) :
    addMissing stored passed = stored := by
  have hfront := prefix_addMissing stored passed
  exact (hfront.eq_of_length h.symm).symm

theorem addMissing_keeps (h : addMissing stored passed = stored) :
    addMissing (addMissing stored other) passed = addMissing stored other := by
  refine addMissing_of_forall_has fun t ht => ?_
  have hhas : (templateWithReference (addMissing stored passed) t.reference).isSome = true := by
    rw [templateWithReference_addMissing, Option.isSome_or, isSome_templateWithReference ht,
      Bool.or_true]
  rw [h] at hhas
  rw [hasTemplateWithReference, templateWithReference_addMissing, Option.isSome_or, hhas,
    Bool.true_or]

end Assets

def assetCount (device : Device) : ℕ :=
  device.template.configurations.length + device.template.sensors.length +
    device.template.alarms.length + device.template.actuators.length

theorem storeAssetsToDevice_eq_iff {device device' : Device} {request : SubdeviceUpdateRequest} :
    storeAssetsToDevice device request = device' ↔
      device.name = device'.name ∧ device.key = device'.key ∧
      addMissing device.template.configurations request.configurations =
        device'.template.configurations ∧
      addMissing device.template.sensors request.sensors = device'.template.sensors ∧
      addMissing device.template.alarms request.alarms = device'.template.alarms ∧
      addMissing device.template.actuators request.actuators = device'.template.actuators := by
  obtain ⟨name, key, template⟩ := device'
  obtain ⟨configurations, sensors, alarms, actuators⟩ := template
  simp only [storeAssetsToDevice, Device.mk.injEq, DeviceTemplate.mk.injEq]

theorem additive_storeAssetsToDevice : Additive storeAssetsToDevice assetCount where
  again device request := by
    simp only [storeAssetsToDevice, addMissing_addMissing]
  grows device request := by
    have h1 := length_le_addMissing device.template.configurations request.configurations
    have h2 := length_le_addMissing device.template.sensors request.sensors
    have h3 := length_le_addMissing device.template.alarms request.alarms
    have h4 := length_le_addMissing device.template.actuators request.actuators
    by_cases hlt : assetCount device < assetCount (storeAssetsToDevice device request)
    · exact .inr hlt
    · left
      simp only [assetCount, storeAssetsToDevice] at hlt
      rw [storeAssetsToDevice_eq_iff]
      refine ⟨rfl, rfl, ?_, ?_, ?_, ?_⟩
      all_goals
        apply addMissing_of_length
        omega
  keeps device request other h := by
    rw [storeAssetsToDevice_eq_iff] at h ⊢
    obtain ⟨-, -, h1, h2, h3, h4⟩ := h
    exact ⟨rfl, rfl, addMissing_keeps h1, addMissing_keeps h2, addMissing_keeps h3,
      addMissing_keeps h4⟩

theorem getElem?_registryStoring (devices : Registry) (request : SubdeviceUpdateRequest)
    (d : Str) : (registryStoring devices request)[d]? =
      if request.deviceKey = d then devices[d]?.map (storeAssetsToDevice · request)
      else devices[d]? := by
  unfold registryStoring
  split
  · rename_i hnone
    split_ifs with hk
    · rw [← hk, hnone]
      rfl
    · rfl
  · rename_i device hdev
    rw [Std.ExtTreeMap.getElem?_insert]
    simp only [Std.LawfulEqCmp.compare_eq_iff_eq]
    split_ifs with hk
    · rw [← hk, hdev]
      rfl
    · rfl

theorem copyStep_accepted (copy : Registry) (message : OutboundMessage) (now : Device) :
    (copyStep copy (.sent message .accepted))[d]? =
      arrives storeAssetsToDevice now copy[d]? (shipmentIn d message).toList := by
  cases message with
  | registrationRequest device =>
    simp only [copyStep, shipmentIn, Std.ExtTreeMap.getElem?_insert,
      Std.LawfulEqCmp.compare_eq_iff_eq]
    split_ifs <;> rfl
  | updateRequest request =>
    simp only [copyStep, shipmentIn, getElem?_registryStoring]
    split_ifs <;> rfl
  | _ => rfl

/-- Unless it is refused, an effect leaves with the platform what it carries. -/
theorem copyStep_of_not_refuses (copy : Registry) {e : Effect} (h : refuses d e = false)
    (now : Device) : (copyStep copy e)[d]? =
      arrives storeAssetsToDevice now copy[d]? (shipmentSent d e).toList := by
  cases e with
  | sent message outcome =>
    cases hs : shipmentIn d message with
    | none =>
      rw [shipmentSent, hs]
      cases outcome with
      | accepted => rw [copyStep_accepted copy message now, hs]
      | _ => cases message <;> rfl
    | some x =>
      simp only [refuses, hs, Option.isSome_some, Bool.true_and, decide_eq_false_iff_not,
        not_not] at h
      rw [h]
      exact copyStep_accepted copy message now
  | _ => rfl

theorem refusedSince_snoc (trace : Trace) (e : Effect) :
    refusedSince d (trace ++ [e]) = refusedStep d (refusedSince d trace) e := by
  rw [refusedSince, List.foldl_append]
  rfl

theorem platformCopy_snoc (trace : Trace) (e : Effect) :
    platformCopy (trace ++ [e]) = copyStep (platformCopy trace) e := by
  rw [platformCopy, List.foldl_append]
  rfl

/-- Without a connect among them, effects of which none was refused leave with the platform
what they carry. -/
theorem copied_append {trace u : Trace} (hu : .connectCalled true ∉ u) (now : Device)
    (h : refusedSince d (trace ++ u) = false) : refusedSince d trace = false ∧
      (platformCopy (trace ++ u))[d]? = arrives storeAssetsToDevice now (platformCopy trace)[d]?
        (u.filterMap (shipmentSent d)) := by
  induction u generalizing trace with
  | nil =>
    rw [List.append_nil] at h ⊢
    exact ⟨h, rfl⟩
  | cons e u ih =>
    rw [List.append_cons] at h ⊢
    obtain ⟨hhead, hcopy⟩ := ih (fun hmem => hu (List.mem_cons_of_mem _ hmem)) h
    have hne : e ≠ .connectCalled true := fun heq => hu (heq ▸ List.mem_cons_self)
    rw [refusedSince_snoc, refusedStep, if_neg hne, Bool.or_eq_false_iff] at hhead
    refine ⟨hhead.1, ?_⟩
    rw [hcopy, platformCopy_snoc, copyStep_of_not_refuses _ hhead.2 now, List.filterMap_cons]
    cases shipmentSent d e <;> rfl

def ShipsNothing (e : Effect) : Prop := e ≠ .connectCalled true ∧ ∀ d, shipmentSent d e = none

theorem copied_of_shipsNothing (d : Str) (trace : Trace) {u : Trace}
    (hu : ∀ e ∈ u, ShipsNothing e) :
    refusedSince d (trace ++ u) = refusedSince d trace ∧
      platformCopy (trace ++ u) = platformCopy trace := by
  constructor
  · refine foldl_append_of_ignored (fun e he refused => ?_) false
    obtain ⟨hne, hnone⟩ := hu e he
    cases e with
    | sent message outcome =>
      have hmessage : shipmentIn d message = none := hnone d
      simp [refusedStep, refuses, hmessage]
    | _ => simp [refusedStep, refuses, hne]
  · refine foldl_append_of_ignored (fun e he copy => ?_) ∅
    obtain ⟨-, hnone⟩ := hu e he
    cases e with
    | sent message outcome =>
      cases message with
      | registrationRequest device =>
        have hdevice := hnone device.key
        simp [shipmentSent, shipmentIn] at hdevice
      | updateRequest request =>
        have hdevice := hnone request.deviceKey
        simp [shipmentSent, shipmentIn] at hdevice
      | _ => rfl
    | _ => rfl

theorem registerDevices_sent (env : Environment) (l : List (Str × Device)) (data : DataState P) :
    ∃ u, (l.foldl (fun s kvp =>
        DeviceRegistrationService.publishRegistrationRequest env kvp.2 s) data).trace =
      data.trace ++ u ∧ ∀ d, u.filterMap (shipmentSent d) =
        l.filterMap fun kvp => shipmentIn d (.registrationRequest kvp.2) := by
  induction l generalizing data with
  | nil => exact ⟨[], by simp, fun d => rfl⟩
  | cons kvp l ih =>
    obtain ⟨u, hu, hall⟩ := ih (DeviceRegistrationService.publishRegistrationRequest env kvp.2 data)
    refine ⟨.sent (.registrationRequest kvp.2)
      (env.outcome data.trace (.registrationRequest kvp.2)) :: u, ?_, fun d => ?_⟩
    · rw [List.foldl_cons, hu]
      simp [DeviceRegistrationService.publishRegistrationRequest, DataState.send, DataState.log]
    · rw [List.filterMap_cons, List.filterMap_cons, hall d]
      rfl

theorem registerDevices_snapshots {devices : Registry} (hkeys : KeysAgree devices)
    {device : Device} (hdev : devices[d]? = some device) :
    let sent := devices.toList.filterMap fun kvp => shipmentIn d (.registrationRequest kvp.2)
    sent ≠ [] ∧ ∀ x ∈ sent, x = .snapshot device := by
  constructor
  · refine List.ne_nil_of_mem (a := .snapshot device) (List.mem_filterMap.mpr ⟨(d, device), ?_, ?_⟩)
    · exact Std.ExtTreeMap.mem_toList_iff_getElem?_eq_some.mpr hdev
    · simp [shipmentIn, hkeys d device hdev]
  · intro x hx
    obtain ⟨⟨key, other⟩, hmem, hship⟩ := List.mem_filterMap.mp hx
    have hother := Std.ExtTreeMap.mem_toList_iff_getElem?_eq_some.mp hmem
    simp only [shipmentIn] at hship
    split_ifs at hship with hk
    obtain rfl : key = d := (hkeys key other hother).symm.trans hk
    obtain rfl := Option.some.inj (hdev.symm.trans hother)
    exact (Option.some.inj hship).symm

inductive SendsRequests : Command → Prop
  | all : SendsRequests .registerDevices
  | registration (device : Device) : SendsRequests (.registerDevice device)
  | update (request : SubdeviceUpdateRequest) : SendsRequests (.updateDevice request)

theorem shipmentSent_of_mayEmit {devices : Registry} {c : Command} {e : Effect}
    (h : MayEmit devices c e) (hc : ¬ SendsRequests c) : shipmentSent d e = none := by
  cases h with
  | sent c message outcome h =>
    cases h with
    | registerDevice device => exact absurd (.registration device) hc
    | registerDevices => exact absurd .all hc
    | updateDevice request => exact absurd (.update request) hc
    | _ => rfl
  | _ => rfl

theorem shipmentOf_eq_none {c : Command} (hc : ¬ SendsRequests c) : shipmentOf d c = none := by
  cases c with
  | registerDevices => exact absurd .all hc
  | registerDevice device => exact absurd (.registration device) hc
  | updateDevice request => exact absurd (.update request) hc
  | _ => rfl

/-- A command that begins sends what was awaited of it, for the registry it begins in. -/
theorem begun_sends (hkeys : KeysAgree s.devices) {c : Command} {queue : List Command}
    {u : Trace} (hu : (beginCommand cfg c queue s).trace = s.trace ++ [.began c s.devices] ++ u)
    (hall : ∀ e ∈ u, MayEmit s.devices c e) {device : Device}
    (hdev : s.devices[d]? = some device) (copy : Option Device) :
    arrives storeAssetsToDevice device copy (u.filterMap (shipmentSent d)) =
      arrives storeAssetsToDevice device copy (shipmentOf d c).toList := by
  by_cases hc : SendsRequests c
  · cases hc with
    | all =>
      obtain ⟨v, hv, hsent⟩ := registerDevices_sent cfg.env s.devices.toList
        (s.data.log (.began .registerDevices s.devices))
      obtain rfl : u = v := List.append_cancel_left (hu.symm.trans hv)
      obtain ⟨hne, hsnapshots⟩ := registerDevices_snapshots hkeys hdev
      rw [hsent d, arrives_whole hne fun x hx => .inr (hsnapshots x hx)]
      rfl
    | registration device' =>
      obtain rfl : u = [.sent (.registrationRequest device') _] :=
        List.append_cancel_left (hu.symm.trans rfl)
      rw [List.filterMap_cons]
      simp only [shipmentSent, shipmentOf]
      cases shipmentIn d (.registrationRequest device') <;> rfl
    | update request =>
      obtain rfl : u = [.sent (.updateRequest request) _] :=
        List.append_cancel_left (hu.symm.trans rfl)
      rw [List.filterMap_cons]
      simp only [shipmentSent, shipmentOf]
      cases shipmentIn d (.updateRequest request) <;> rfl
  · have hnone : u.filterMap (shipmentSent d) = [] :=
      List.filterMap_eq_nil_iff.mpr fun e he => shipmentSent_of_mayEmit (hall e he) hc
    rw [hnone, shipmentOf_eq_none hc]
    rfl

/-- What a command puts on its way, and the device it is to be put on its way for: nothing
when the device stays as it is, the device when it is new, the update when it is updated. -/
inductive Ships (devices : Registry) (d : Str) (device : Device) :
    List (Shipment Device SubdeviceUpdateRequest) → Prop
  | nothing (h : devices[d]? = some device) : Ships devices d device []
  | device : Ships devices d device [.snapshot device]
  | update (request : SubdeviceUpdateRequest) (before : Device) (h : devices[d]? = some before)
      (hd : storeAssetsToDevice before request = device) : Ships devices d device [.update request]

theorem shipmentLeft_of_leaves {devices : Registry} {c : Command} {a : Atom}
    (h : Leaves devices c a) (hconnect : ∀ b, c ≠ .connect b)
    (hadd : ∀ device, c ≠ .addDevice device) (hassets : ∀ request, c ≠ .addAssetsToDevice request) :
    shipmentLeft d a = none := by
  cases h with
  | registerDevices b => exact absurd rfl (hconnect b)
  | registerIfConnected device => exact absurd rfl (hadd device)
  | updateIfConnected request => exact absurd rfl (hassets request)
  | refresh _ _ _ hc => cases hc <;> rfl
  | acknowledged _ _ _ _ hc _ =>
    rcases hc with hc | rfl
    · cases hc <;> rfl
    · rfl
  | _ => rfl

theorem begun_ships (cfg : Config) (devices : Registry) (now : ℕ) (data : DataState P) {c : Command}
    (hc : ∀ b, c ≠ .connect b) {device : Device}
    (hdev : (replayed devices c)[d]? = some device) :
    Ships devices d device ((execute cfg devices now data c).rest.filterMap (shipmentLeft d)) := by
  cases c with
  | connect b => exact absurd rfl (hc b)
  | addDevice added =>
    simp only [replayed, registryAfter, execute] at hdev ⊢
    split_ifs at hdev ⊢
    · exact .nothing hdev
    · simp only [Std.ExtTreeMap.getElem?_insert, Std.LawfulEqCmp.compare_eq_iff_eq] at hdev
      simp only [List.filterMap_cons, List.filterMap_nil, shipmentLeft, shipmentIn]
      split_ifs at hdev ⊢
      · obtain rfl := Option.some.inj hdev
        exact .device
      · exact .nothing hdev
  | addAssetsToDevice request =>
    simp only [replayed, execute] at hdev ⊢
    cases hbefore : devices[request.deviceKey]? with
    | none =>
      rw [hbefore] at hdev
      exact .nothing hdev
    | some before =>
      rw [hbefore] at hdev
      dsimp only at hdev ⊢
      split_ifs at hdev ⊢
      · simp only [List.filterMap_cons, List.filterMap_nil, shipmentLeft, shipmentIn]
        rw [getElem?_registryStoring] at hdev
        split_ifs at hdev ⊢ with hk
        · subst hk
          rw [hbefore] at hdev
          exact .update request before hbefore (Option.some.inj hdev)
        · exact .nothing hdev
      · exact .nothing hdev
  | removeDevice key =>
    simp only [replayed, registryAfter, execute] at hdev ⊢
    split_ifs at hdev ⊢
    · rw [Std.ExtTreeMap.getElem?_erase] at hdev
      split_ifs at hdev
      exact .nothing hdev
    · exact .nothing hdev
  | _ =>
    rw [List.filterMap_eq_nil_iff.mpr fun a ha =>
      shipmentLeft_of_leaves (leaves_of_mem ha) (by simp) (by simp) (by simp)]
    exact .nothing hdev

/-- The flag is set, or the worker is about to set it. -/
def FlagUp (s : State P) : Prop := s.connected = true ∨ .setConnected true ∈ s.running

def checksFlag : Atom → Bool
  | .registerIfConnected _ | .updateIfConnected _ => true
  | _ => false

/-- A check of the flag is the only thing its command leaves to do. -/
def ChecksAlone (running : List Atom) : Prop :=
  (∃ a, running = [a]) ∨ ∀ a ∈ running, checksFlag a = false

/-- While the flag is up, the requests on their way bring the platform's copy of a device to
what the device will be, unless one was refused. -/
structure Copied (s : State P) : Prop where
  keys : KeysAgree s.devices
  alone : ChecksAlone s.running
  copy : FlagUp s → ∀ d device, refusedSince d s.trace = false →
    (settled s.running s.devices)[d]? = some device →
      arrives storeAssetsToDevice device (platformCopy s.trace)[d]? (awaited d s) = some device

theorem Copied.quiet (h : Copied s) {u : Trace} (hkeys : KeysAgree t.devices)
    (halone : ChecksAlone t.running) (ht : t.trace = s.trace ++ u) (hu : ∀ e ∈ u, ShipsNothing e)
    (hup : FlagUp t → FlagUp s ∧ settled t.running t.devices = settled s.running s.devices ∧
      ∀ d, awaited d t = awaited d s) : Copied t := by
  refine ⟨hkeys, halone, fun hflag d device hrefused hdev => ?_⟩
  obtain ⟨hs, hsettled, hawaited⟩ := hup hflag
  obtain ⟨hsince, hcopy⟩ := copied_of_shipsNothing d s.trace hu
  rw [ht, hsince] at hrefused
  rw [hsettled] at hdev
  rw [ht, hcopy, hawaited]
  exact h.copy hs d device hrefused hdev

theorem checksAlone_execute (devices : Registry) (now : ℕ) (data : DataState P) (c : Command) :
    ChecksAlone (execute cfg devices now data c).rest := by
  by_cases hadd : ∃ device, c = .addDevice device
  · obtain ⟨device, rfl⟩ := hadd
    simp only [execute]
    split_ifs
    · exact .inr (by simp)
    · exact .inl ⟨_, rfl⟩
  by_cases hassets : ∃ request, c = .addAssetsToDevice request
  · obtain ⟨request, rfl⟩ := hassets
    simp only [execute]
    split
    · exact .inr (by simp)
    · split_ifs
      · exact .inl ⟨_, rfl⟩
      · exact .inr (by simp)
  right
  intro a ha
  cases leaves_of_mem ha with
  | registerIfConnected device => exact absurd ⟨device, rfl⟩ hadd
  | updateIfConnected request => exact absurd ⟨request, rfl⟩ hassets
  | _ => rfl

theorem checksAlone_expands (connected : Bool) {a : Atom} {rest : List Atom}
    (h : ChecksAlone (a :: rest)) : ChecksAlone (a.expands connected ++ rest) := by
  have hexpands : ∀ b ∈ a.expands connected, checksFlag b = false := by
    cases a with
    | registerIfConnected | updateIfConnected => cases connected <;> simp [Atom.expands, checksFlag]
    | _ => simp [Atom.expands]
  right
  intro b hb
  rcases List.mem_append.mp hb with hb | hb
  · exact hexpands b hb
  · rcases h with ⟨a', heq⟩ | hnone
    · rw [(List.cons.inj heq).2] at hb
      cases hb
    · exact hnone b (List.mem_cons_of_mem _ hb)

/-- A connect that succeeds puts every device on its way, as it is. -/
theorem connectedAtoms_ships (devices : Registry) (b : Bool) :
    let ships := (connectedAtoms devices b).filterMap (shipmentLeft d)
    ships ≠ [] ∧ ∀ x ∈ ships, x = .current := by
  constructor
  · have hmem : .enqueue .registerDevices ∈ connectedAtoms devices b := by simp [connectedAtoms]
    exact List.ne_nil_of_mem (List.mem_filterMap.mpr ⟨_, hmem, rfl⟩)
  · intro x hx
    obtain ⟨a, ha, hship⟩ := List.mem_filterMap.mp hx
    cases mem_connectedAtoms ha with
    | registerDevices => exact (Option.some.inj hship).symm
    | refresh _ _ _ hc => cases hc <;> cases hship
    | acknowledged _ _ _ _ _ hr => rcases hr with ⟨_, hr⟩ | ⟨_, hr⟩ <;> cases hr
    | _ => cases hship

theorem copied_connect (h : Copied s) (b : Bool) {queue : List Command} (hr : s.running = [])
    (hq : s.queue = .connect b :: queue) : Copied (beginCommand cfg (.connect b) queue s) := by
  have halone : ChecksAlone (beginCommand cfg (.connect b) queue s).running :=
    checksAlone_execute _ _ _ _
  have htrace := begun_connect_trace cfg b queue s
  have hrunning := begun_connect_running cfg b queue s
  cases hc : cfg.env.connects (s.data.log (.began (.connect b) s.devices)).trace with
  | false =>
    have hqueue : (beginCommand cfg (.connect b) queue s).queue = queue := rfl
    rw [hc] at htrace
    rw [hc, if_neg Bool.false_ne_true] at hrunning
    refine h.quiet h.keys halone htrace (by simp [ShipsNothing, shipmentSent]) fun hup => ?_
    rw [FlagUp, hrunning] at hup
    refine ⟨.inl ?_, ?_, fun d => ?_⟩
    · simpa [beginCommand] using hup
    · rw [hrunning, hr]
      rfl
    · rw [awaited, awaited, hrunning, hqueue, hr, hq]
      rfl
  | true =>
    rw [hc, if_pos rfl] at hrunning
    refine ⟨h.keys, halone, fun _ d device _ hdev => ?_⟩
    obtain ⟨hne, hall⟩ := connectedAtoms_ships (d := d) s.devices b
    rw [awaited, arrives_append, hrunning]
    exact arrives_whole hne fun x hx => .inl (hall x hx)

theorem copied_begun (h : Copied s) {c : Command} {queue : List Command}
    (hc : ∀ b, c ≠ .connect b) (hr : s.running = []) (hq : s.queue = c :: queue)
    (hkeys : KeysAgree (beginCommand cfg c queue s).devices) :
    Copied (beginCommand cfg c queue s) := by
  refine ⟨hkeys, checksAlone_execute _ _ _ _, fun hup d device hrefused hdev => ?_⟩
  obtain ⟨u, hu, hall⟩ := beginCommand_trace cfg c queue s
  have hconnect : .connectCalled true ∉ [Effect.began c s.devices] ++ u := by
    obtain ⟨v, hv, hnone⟩ := begun_other_trace cfg hc queue s
    rw [hu, List.append_assoc] at hv
    rw [List.append_cancel_left hv]
    exact hnone true
  have hflag : FlagUp s := by
    rcases hup with hup | hup
    · exact .inl hup
    · cases leaves_of_mem hup with
      | setConnected b => exact absurd rfl (hc b)
  have hsettled : (replayed s.devices c)[d]? = some device := by
    rw [← settled_execute]
    exact hdev
  have hawaited : awaited d (beginCommand cfg c queue s) = queue.filterMap (shipmentOf d) ++
      (execute cfg s.devices s.clock (s.data.log (.began c s.devices)) c).rest.filterMap
        (shipmentLeft d) := rfl
  rw [hu, List.append_assoc] at hrefused ⊢
  have hbefore : ∀ {before : Device}, s.devices[d]? = some before →
      arrives storeAssetsToDevice before
        (platformCopy (s.trace ++ ([Effect.began c s.devices] ++ u)))[d]?
        (queue.filterMap (shipmentOf d)) = some before := by
    intro before hdevices
    obtain ⟨hold, hcopy⟩ := copied_append hconnect before hrefused
    have hsent := begun_sends h.keys hu hall hdevices (platformCopy s.trace)[d]?
    have hih := h.copy hflag d before hold (by rw [hr]; exact hdevices)
    have hcons : (c :: queue).filterMap (shipmentOf d) =
        (shipmentOf d c).toList ++ queue.filterMap (shipmentOf d) := by
      rw [List.filterMap_cons]
      cases shipmentOf d c <;> rfl
    rw [awaited, hr, hq, List.filterMap_nil, List.append_nil, hcons, arrives_append,
      ← hsent] at hih
    rw [hcopy]
    exact hih
  have hships := begun_ships cfg s.devices s.clock (s.data.log (.began c s.devices)) hc hsettled
  rw [hawaited]
  generalize (execute cfg s.devices s.clock (s.data.log (.began c s.devices)) c).rest.filterMap
    (shipmentLeft d) = ships at hships ⊢
  cases hships with
  | nothing hdevices =>
    rw [List.append_nil]
    exact hbefore hdevices
  | device => rw [arrives_snoc]; rfl
  | update request before hdevices hd =>
    rw [← hd]
    exact arrives_update additive_storeAssetsToDevice request (hbefore hdevices)

/-- What an access puts on its way it takes from what the worker has left to do. -/
theorem shipmentLeft_accessed {a : Atom} {connected : Bool}
    (hchecks : checksFlag a = true → connected = true) (d : Str) :
    a.enqueues.filterMap (shipmentOf d) ++ (a.expands connected).filterMap (shipmentLeft d) =
      [a].filterMap (shipmentLeft d) := by
  cases a with
  | registerIfConnected | updateIfConnected =>
    rw [hchecks rfl]
    rfl
  | enqueue c =>
    simp only [Atom.enqueues, Atom.expands, List.filterMap_nil, List.append_nil]
    rfl
  | _ => rfl

theorem awaited_accessed {a : Atom} {rest : List Atom} (hr : s.running = a :: rest)
    (hchecks : checksFlag a = true → s.connected = true) (d : Str) :
    awaited d (runAtom cfg a { s with running := rest }) = awaited d s := by
  have hsplit : s.running = [a] ++ rest := hr
  rw [awaited, awaited, runAtom_queue, runAtom_running, hsplit]
  simp only [List.filterMap_append, List.append_assoc]
  rw [← shipmentLeft_accessed hchecks d, List.append_assoc]

theorem settled_accessed {a : Atom} {rest : List Atom} (hr : s.running = a :: rest)
    (hchecks : checksFlag a = true → s.connected = true) :
    settled (runAtom cfg a { s with running := rest }).running
      (runAtom cfg a { s with running := rest }).devices = settled s.running s.devices := by
  rw [runAtom_running, runAtom_devices, hr]
  by_cases ha : ∃ request, a = .storeAssets request
  · obtain ⟨request, rfl⟩ := ha
    rfl
  · rw [← settled_expands s.connected]
    · cases a with
      | storeAssets request => exact absurd ⟨request, rfl⟩ ha
      | _ => rfl
    · rintro request rfl
      exact hchecks rfl
    · exact fun request heq => ha ⟨request, heq⟩

/-- An access that leaves the flag up found it up, and a check found it set. -/
theorem flagUp_accessed (h : Copied s) {a : Atom} {rest : List Atom} (hr : s.running = a :: rest)
    (hup : FlagUp (runAtom cfg a { s with running := rest })) :
    FlagUp s ∧ (checksFlag a = true → s.connected = true) := by
  rw [FlagUp, runAtom_connected, runAtom_running] at hup
  have hexpands : .setConnected true ∉ a.expands s.connected := by
    cases a with
    | registerIfConnected | updateIfConnected => cases s.connected <;> simp [Atom.expands]
    | _ => simp [Atom.expands]
  have hrest : .setConnected true ∈ a.expands s.connected ++ rest → FlagUp s := by
    intro hmem
    right
    rw [hr]
    exact List.mem_cons_of_mem _ ((List.mem_append.mp hmem).resolve_left hexpands)
  constructor
  · rcases hup with hup | hup
    · cases a with
      | setConnected value =>
        right
        simp [hr, show value = true from hup]
      | _ => exact .inl hup
    · exact hrest hup
  · intro hcheck
    have hnil : rest = [] := by
      rcases h.alone with ⟨a', heq⟩ | hnone
      · exact (List.cons.inj (hr.symm.trans heq)).2
      · simp [hnone a (by simp [hr])] at hcheck
    rcases hup with hup | hup
    · cases a with
      | setConnected => cases hcheck
      | _ => exact hup
    · simp [hnil, hexpands] at hup

theorem shipsNothing_of_accesses {a : Atom} {e : Effect} (h : Accesses a e) : ShipsNothing e := by
  cases h <;> exact ⟨by simp, fun _ => rfl⟩

theorem shipsNothing_of_aside {e : Event} {effect : Effect} (h : Aside s e effect) :
    ShipsNothing effect := by
  cases h <;> exact ⟨by simp, fun _ => rfl⟩

theorem shipmentOf_requested {e : Event} {c : Command} (h : Requested cfg s e c) :
    shipmentOf d c = none := by
  cases h with
  | api call _ h =>
    cases call with
    | addSensorReadings =>
      simp only [ApiCall.command] at h
      split_ifs at h
      obtain rfl := Option.some.inj h
      rfl
    | _ =>
      obtain rfl := Option.some.inj h
      rfl
  | data message _ _ _ h => cases received_of_messageReceived h <;> rfl
  | _ => rfl

theorem copied_step (s : State P) (e : Event) (h : Copied s) : Copied (step cfg s e) := by
  have hkeys : KeysAgree (step cfg s e).devices := keysAgree_step s e h.keys
  rcases stepped cfg s e with ⟨c, hc, hsame, hq, hdata, -⟩ | ⟨c, queue, rfl, hr, hq, ht⟩ |
    ⟨a, rest, rfl, hr, ht⟩ | ⟨rfl, ht⟩ | ⟨-, hsame, hq, hm⟩
  · refine h.quiet hkeys (by rw [hsame.running]; exact h.alone) (u := [])
      (by simp [State.trace, hdata]) (by simp) fun hup => ⟨?_, ?_, fun d => ?_⟩
    · rwa [FlagUp, hsame.connected, hsame.running] at hup
    · rw [hsame.running, hsame.devices]
    · rw [awaited, hq, hsame.running, List.filterMap_append, List.filterMap_cons,
        shipmentOf_requested hc, List.filterMap_nil, List.append_nil]
      rfl
  · rw [ht] at hkeys ⊢
    by_cases hconnect : ∃ b, c = .connect b
    · obtain ⟨b, rfl⟩ := hconnect
      exact copied_connect h b hr hq
    · exact copied_begun h (fun b heq => hconnect ⟨b, heq⟩) hr hq hkeys
  · obtain ⟨u, hu, hall⟩ := (runAtom_moves cfg a { s with running := rest }).trace_eq
    rw [ht] at hkeys ⊢
    refine h.quiet hkeys ?_ hu (fun x hx => shipsNothing_of_accesses (hall x hx)) fun hup => ?_
    · rw [runAtom_running]
      exact checksAlone_expands _ (hr ▸ h.alone)
    · obtain ⟨hs, hchecks⟩ := flagUp_accessed h hr hup
      exact ⟨hs, settled_accessed hr hchecks, awaited_accessed hr hchecks⟩
  · refine h.quiet (u := [.connectionLost]) hkeys h.alone rfl (by simp [ShipsNothing, shipmentSent])
      fun hup => ⟨?_, rfl, fun d => rfl⟩
    rcases hup with hup | hup
    · cases hup
    · exact .inr hup
  · obtain ⟨u, hu, hall⟩ := hm.trace_eq
    refine h.quiet hkeys (by rw [hsame.running]; exact h.alone) hu
      (fun x hx => shipsNothing_of_aside (hall x hx)) fun hup => ⟨?_, ?_, fun d => ?_⟩
    · rwa [FlagUp, hsame.connected, hsame.running] at hup
    · rw [hsame.running, hsame.devices]
    · rw [awaited, hq, hsame.running]
      rfl

theorem copied_reach (P : Persistence) (cfg : Config) (events : List Event) :
    Copied (reach cfg P events) := by
  refine invariant_of_step copied_step ⟨?_, .inr ?_, fun _ d device _ hdev => ?_⟩ events
  · intro key device h
    simp [State.initial] at h
  · simp [State.initial]
  · simp [State.initial, settled] at hdev

/-- The platform's copy agrees with the registry. In every run, once a connected module has
nothing left to do, the copy made up by the accepted requests holds each device of the
registry as it is, with all its assets, unless a request about it was refused after the last
successful connect. -/
theorem copy_agrees_at_rest (P : Persistence) (cfg : Config) (events : List Event)
    (hempty : (reach cfg P events).BufferEmpty) (hconn : (reach cfg P events).connected = true)
    (d : Str) (device : Device) (hdev : (reach cfg P events).devices[d]? = some device)
    (hrefused : refusedSince d (reach cfg P events).trace = false) :
    (platformCopy (reach cfg P events).trace)[d]? = some device := by
  have hcopy := (copied_reach P cfg events).copy (.inl hconn) d device hrefused
  rw [awaited, hempty.1, hempty.2] at hcopy
  exact hcopy hdev

/-- A device is added and gets a sensor while the module connects. The registration of all
devices has the sensor, the one of the device that follows it does not, the update has it. -/
def staleRegistration : List Event :=
  [Event.api (.connect false), .api (.addDevice (bareDevice ['a'])),
    .api (.addAssetsToDevice sensorUpdate)] ++ List.replicate 20 Event.worker

theorem copy_agrees_at_rest_stale :
    (platformCopy (reach (.bare .obliging) .inMemory staleRegistration).trace)[['a']]? =
      some (storeAssetsToDevice (bareDevice ['a']) sensorUpdate) :=
  copy_agrees_at_rest .inMemory (.bare .obliging) staleRegistration
    ⟨by decide +kernel, by decide +kernel⟩ (by decide +kernel) ['a'] _ (by decide +kernel)
    (by decide +kernel)

def Environment.refusingUpdates : Environment :=
  { Environment.obliging with accepts := fun _ message => match message with
      | .updateRequest _ => false
      | _ => true }

/-- The copy lacks the sensor when the update is refused. -/
example : (platformCopy (reach (.bare Environment.refusingUpdates) .inMemory
    staleRegistration).trace)[['a']]? = some (bareDevice ['a']) := by decide +kernel

end WolkGateway.Wolk
