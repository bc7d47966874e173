import WolkGateway.WolkStepCases

/-!
# The registry over a run

Only three things change the registry: an `addDevice` with a new key, a `removeDevice`
with a known one, and the storing of assets, which keeps the keys.
-/

namespace WolkGateway.Wolk
open DeviceModel DataService DataLedger GuardedRuns

variable {P : Persistence} {cfg : Config}

/-- What a command does to the registry in its own piece. -/
def registryAfter (devices : Registry) : Command → Registry
  | .addDevice device =>
    if deviceExists devices device.key then devices else devices.insert device.key device
  | .removeDevice d => if deviceExists devices d then devices.erase d else devices
  | _ => devices

theorem execute_devices (devices : Registry) (now : ℕ) (s : DataState P) (c : Command) :
    (execute cfg devices now s c).devices = registryAfter devices c := by
  cases c with
  | addAssetsToDevice request =>
    simp only [execute, registryAfter]
    split
    · rfl
    · split_ifs <;> rfl
  | addDevice | removeDevice | handleRegistrationResponse | handleUpdateResponse =>
    simp only [execute, registryAfter]
    split_ifs <;> rfl
  | _ => rfl

def registryStoring (devices : Registry) (request : SubdeviceUpdateRequest) : Registry :=
  match devices[request.deviceKey]? with
  | none => devices
  | some device => devices.insert request.deviceKey (storeAssetsToDevice device request)

theorem runAtom_devices (cfg : Config) (a : Atom) (s : State P) :
    (runAtom cfg a s).devices =
      match a with
      | .storeAssets request => registryStoring s.devices request
      | _ => s.devices := by
  cases a with
  | storeAssets request =>
    simp only [runAtom, registryStoring]
    cases s.devices[request.deviceKey]? <;> rfl
  | registerIfConnected | updateIfConnected | respond =>
    simp only [runAtom]
    split <;> rfl
  | _ => rfl

theorem mem_registryStoring {devices : Registry} {request : SubdeviceUpdateRequest} {d : Str} :
    d ∈ registryStoring devices request ↔ d ∈ devices := by
  unfold registryStoring
  split
  · rfl
  · rename_i device hdev
    have hk : request.deviceKey ∈ devices := by
      by_contra hn
      simp [Std.ExtTreeMap.getElem?_eq_none hn] at hdev
    rw [Std.ExtTreeMap.mem_insert, Std.LawfulEqCmp.compare_eq_iff_eq]
    constructor
    · rintro (rfl | h)
      · exact hk
      · exact h
    · exact .inr

inductive DevicesChanged (s : State P) (e : Event) (t : State P) : Prop
  | same (h : t.devices = s.devices)
  | added (device : Device) (queue : List Command) (he : e = .worker) (hr : s.running = [])
      (hq : s.queue = .addDevice device :: queue) (hk : device.key ∉ s.devices)
      (h : t.devices = s.devices.insert device.key device)
  | removed (d : Str) (queue : List Command) (he : e = .worker) (hr : s.running = [])
      (hq : s.queue = .removeDevice d :: queue) (hk : d ∈ s.devices)
      (h : t.devices = s.devices.erase d)
  | stored (request : SubdeviceUpdateRequest) (rest : List Atom) (he : e = .worker)
      (hr : s.running = .storeAssets request :: rest)
      (h : t.devices = registryStoring s.devices request)

theorem devicesChanged (cfg : Config) (s : State P) (e : Event) :
    DevicesChanged s e (step cfg s e) := by
  rcases stepped cfg s e with ⟨c, hc, hsame, hq, hd, -⟩ | ⟨c, queue, rfl, hr, hq, ht⟩ |
    ⟨a, rest, rfl, hr, ht⟩ | ⟨rfl, ht⟩ | ⟨-, hsame, -, -⟩
  · exact .same hsame.devices
  · have hd : (step cfg s .worker).devices = registryAfter s.devices c := by
      rw [ht]
      exact execute_devices _ _ _ _
    cases c with
    | addDevice device =>
      simp only [registryAfter] at hd
      split_ifs at hd with hk
      · exact .same hd
      · exact .added device queue rfl hr hq (by simpa using hk) hd
    | removeDevice d =>
      simp only [registryAfter] at hd
      split_ifs at hd with hk
      · exact .removed d queue rfl hr hq (by simpa using hk) hd
      · exact .same hd
    | _ => exact .same hd
  · have hd := runAtom_devices cfg a { s with running := rest }
    rw [← ht] at hd
    cases a with
    | storeAssets request => exact .stored request rest rfl hr hd
    | _ => exact .same hd
  · exact .same rfl
  · exact .same hsame.devices

/-- Every device is kept under its own key. -/
def KeysAgree (devices : Registry) : Prop :=
  ∀ (k : Str) (device : Device), devices[k]? = some device → device.key = k

theorem keysAgree_insert {devices : Registry} {k : Str} {device : Device}
    (h : KeysAgree devices) (hk : device.key = k) : KeysAgree (devices.insert k device) := by
  intro k' device' hdev
  rw [Std.ExtTreeMap.getElem?_insert] at hdev
  split_ifs at hdev with hc
  · rw [← Option.some.inj hdev, hk]
    exact Std.LawfulEqCmp.compare_eq_iff_eq.mp hc
  · exact h k' device' hdev

theorem keysAgree_erase {devices : Registry} {k : Str} (h : KeysAgree devices) :
    KeysAgree (devices.erase k) := by
  intro k' device hdev
  rw [Std.ExtTreeMap.getElem?_erase] at hdev
  split_ifs at hdev
  exact h k' device hdev

theorem keysAgree_storing {devices : Registry} {request : SubdeviceUpdateRequest}
    (h : KeysAgree devices) : KeysAgree (registryStoring devices request) := by
  unfold registryStoring
  split
  · exact h
  · rename_i device hdev
    exact keysAgree_insert h ((storeAssetsToDevice_key device request).trans (h _ _ hdev))

theorem keysAgree_step (s : State P) (e : Event) (h : KeysAgree s.devices) :
    KeysAgree (step cfg s e).devices := by
  rcases devicesChanged cfg s e with hd | ⟨device, _, _, _, _, _, hd⟩ |
    ⟨d, _, _, _, _, _, hd⟩ | ⟨request, _, _, _, hd⟩ <;> rw [hd]
  · exact h
  · exact keysAgree_insert h rfl
  · exact keysAgree_erase h
  · exact keysAgree_storing h

theorem keysAgree_reach (cfg : Config) (events : List Event) :
    KeysAgree (reach cfg P events).devices :=
  invariant_of_step (I := fun s : State P => KeysAgree s.devices) keysAgree_step
    (by intro k device h; simp [State.initial] at h) events

theorem exists_of_mem {devices : Registry} {d : Str} (h : d ∈ devices) :
    ∃ device, devices[d]? = some device := by
  rw [Std.ExtTreeMap.getElem?_eq_some_getElem h]
  exact ⟨_, rfl⟩

theorem mem_of_getElem? {devices : Registry} {d : Str} {device : Device}
    (h : devices[d]? = some device) : d ∈ devices := by
  by_contra hn
  simp [Std.ExtTreeMap.getElem?_eq_none hn] at h

end WolkGateway.Wolk
