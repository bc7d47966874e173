import WolkGateway.WolkRegistry
import WolkGateway.WorkerProgress
import WolkGateway.Transcripts

/-!
# Removed devices

Commands that are put in a buffer for a device keep a copy of it, and nothing takes them out
when the device is removed. Everything else the module does is done for registered devices
only, so these copies are all that can still speak of a device that is gone.
-/

namespace WolkGateway.Wolk
open DeviceModel DataService DataLedger GuardedRuns Transcripts

def goneStep (d : Str) (gone : Bool) : Effect → Bool
  | .began (.removeDevice k) _ => if k = d then true else gone
  | .began (.addDevice device) _ => if device.key = d then false else gone
  | _ => gone

/-- The device was removed, and no command to add it has been executed since. -/
def gone (d : Str) (trace : Trace) : Bool := trace.foldl (goneStep d) false

/-- A registration request for the device is handed over, or a provider is asked about it. -/
def revives (d : Str) (e : Effect) : Bool :=
  match e with
  | .deviceStatusProvided _ k _ | .firmwareVersionProvided k _ => k = d
  | e =>
    match e.handed with
    | some (.registrationRequest device, _) => device.key = d
    | _ => false

/-- The status that the provider has just given for the device is handed over. -/
def HandsProvided (d : Str) (before : Trace) (e : Effect) : Prop :=
  ∃ provider status accepted, before.getLast? = some (.deviceStatusProvided provider d status) ∧
    (e.handed = some (.statusUpdate d status, accepted) ∨
      e.handed = some (.statusResponse d status, accepted))

/-- The device is not spoken of while it is gone. -/
def StaysRemoved (d : Str) (trace : Trace) : Prop :=
  Justified (fun before e => gone d before = true →
    revives d e = false ∧ ¬ HandsProvided d before e) trace

/-- The commands that were made for one device, with a copy of it or of its key, and that do
not look it up again. -/
def madeFor (d : Str) : Command → Bool
  | .registerDevice device | .publishDeviceStatusOf device => device.key = d
  | .publishFirmwareVersion k => k = d
  | _ => false

/-- The step runs no command that was made for a device that is gone. -/
structure RunsNoCopy {P : Persistence} (cfg : Config) (d : Str) (s : State P) (e : Event) :
    Prop where
  registration : gone d s.trace = true → e = .worker → s.running = [] → ∀ device queue,
    s.queue = .registerDevice device :: queue → device.key = d →
    cfg.env.makesMessage (s.trace ++ [.began (.registerDevice device) s.devices])
      (.registrationRequest device) = false
  status : gone d s.trace = true → e = .worker → s.running = [] → ∀ device queue,
    s.queue = .publishDeviceStatusOf device :: queue → device.key ≠ d
  version : gone d s.trace = true → e = .firmwareWorker →
    ∀ queue, s.firmwareQueue ≠ .publishFirmwareVersion d :: queue

/-- Nothing waits for the device as it is removed, and nothing is installed on it while it
is gone. -/
structure NothingInFlight {P : Persistence} (d : Str) (s : State P) (e : Event) : Prop where
  removal : e = .worker → s.running = [] → s.queue.head? = some (.removeDevice d) →
    (∀ c ∈ s.queue.tail, madeFor d c = false) ∧ .publishFirmwareVersion d ∉ s.firmwareQueue
  install : gone d s.trace = true → e = .firmwareWorker →
    ∀ c ∈ s.firmwareQueue.head?, installsOn c ≠ some d
  callback : gone d s.trace = true → e ≠ .installCallback d true

instance {P : Persistence} (d : Str) (s : State P) (e : Event) :
    Decidable (NothingInFlight d s e) :=
  @decidable_of_iff _ (_ ∧ _ ∧ _)
    ⟨fun h => ⟨h.1, h.2.1, h.2.2⟩, fun h => ⟨h.removal, h.install, h.callback⟩⟩
    (@instDecidableAnd _ _ inferInstance (@instDecidableAnd _ _ inferInstance inferInstance))

variable {P : Persistence} {cfg : Config} {s : State P} {d : Str}

theorem gone_append (t u : Trace) : gone d (t ++ u) = u.foldl (goneStep d) (gone d t) :=
  List.foldl_append

def Lasting (u : Trace) : Prop := ∀ e ∈ u, ∀ d gone, goneStep d gone e = gone

theorem gone_lasting {u : Trace} (h : Lasting u) (t : Trace) : gone d (t ++ u) = gone d t :=
  foldl_append_of_ignored (fun e he gone => h e he d gone) false

theorem StartsNone.lasting {u : Trace} (h : StartsNone u) : Lasting u := by
  intro e he d gone
  cases e with
  | began c devices => exact absurd he (h.began_notMem c devices)
  | _ => rfl

/-- No registration request is handed over and no provider is asked while the device is gone. -/
def Silent (d : Str) (trace : Trace) : Prop :=
  Justified (fun before e => gone d before = true → revives d e = false) trace

/-- A status of the provider comes right after the question. -/
theorem staysRemoved_iff {trace : Trace} : StaysRemoved d trace ↔ Silent d trace := by
  constructor
  · intro h
    exact h.mono fun before e hall hgone => (hall hgone).1
  · intro h before e after heq hgone
    refine ⟨h before e after heq hgone, ?_⟩
    rintro ⟨provider, status, accepted, hlast, -⟩
    obtain ⟨first, rfl⟩ := List.getLast?_eq_some_iff.mp hlast
    have hfirst : gone d first = true := by
      rw [gone_append] at hgone
      exact hgone
    have hasked := h first (.deviceStatusProvided provider d status) (e :: after)
      (by rw [heq, List.append_assoc]; rfl) hfirst
    simp [revives] at hasked

theorem gone_begun (cfg : Config) (c : Command) (queue : List Command) (s : State P) :
    gone d (beginCommand cfg c queue s).trace =
      goneStep d (gone d s.trace) (.began c s.devices) := by
  obtain ⟨u, hu, hall⟩ := beginCommand_trace cfg c queue s
  rw [hu, gone_lasting (startsNone_of_mayEmit hall).lasting, gone_append]
  rfl

theorem goneStep_of_ne {c : Command} {devices : Registry} {b : Bool}
    (hr : c ≠ .removeDevice d) (ha : ∀ device, c = .addDevice device → device.key ≠ d) :
    goneStep d b (.began c devices) = b := by
  cases c with
  | removeDevice k =>
    have hk : k ≠ d := by
      rintro rfl
      exact hr rfl
    exact if_neg hk
  | addDevice device => exact if_neg (ha device rfl)
  | _ => rfl

theorem gone_of_begun {c : Command} {queue : List Command}
    (h : gone d (beginCommand cfg c queue s).trace = true) :
    c = .removeDevice d ∨
      (gone d s.trace = true ∧ ∀ device, c = .addDevice device → device.key ≠ d) := by
  rw [gone_begun] at h
  by_cases hr : c = .removeDevice d
  · exact .inl hr
  · right
    have hadd : ∀ device, c = .addDevice device → device.key ≠ d := by
      rintro device rfl hk
      simp [goneStep, hk] at h
    rw [goneStep_of_ne hr hadd] at h
    exact ⟨h, hadd⟩

/-- What is gone is not registered, and the registry is keyed by the devices' own keys. -/
structure Erased (d : Str) (s : State P) : Prop where
  keys : KeysAgree s.devices
  notMem : gone d s.trace = true → d ∉ s.devices

theorem notMem_registryAfter {devices : Registry} {c : Command}
    (h : c = .removeDevice d ∨
      (d ∉ devices ∧ ∀ device, c = .addDevice device → device.key ≠ d)) :
    d ∉ registryAfter devices c := by
  rcases h with rfl | ⟨h, hadd⟩
  · simp only [registryAfter]
    split_ifs with hd
    · simp [Std.ExtTreeMap.mem_erase]
    · simpa using hd
  · cases c with
    | addDevice device =>
      simp only [registryAfter]
      split_ifs
      · exact h
      · simp [Std.ExtTreeMap.mem_insert, hadd device rfl, h]
    | removeDevice k =>
      simp only [registryAfter]
      split_ifs
      · simp [Std.ExtTreeMap.mem_erase, h]
      · exact h
    | _ => exact h

theorem erased_step (s : State P) (e : Event) (h : Erased d s) : Erased d (step cfg s e) := by
  refine ⟨keysAgree_step s e h.keys, ?_⟩
  rcases stepped cfg s e with ⟨c, hc, hsame, -, hd, -⟩ | ⟨c, queue, rfl, hr, hq, ht⟩ |
    ⟨a, rest, rfl, hr, ht⟩ | ⟨rfl, ht⟩ | ⟨-, hsame, -, hm⟩
  · rw [hsame.devices, State.trace, hd]
    exact h.notMem
  · intro hgone
    rw [ht] at hgone ⊢
    have hdevices : (beginCommand cfg c queue s).devices = registryAfter s.devices c :=
      execute_devices _ _ _ _
    rw [hdevices]
    apply notMem_registryAfter
    rcases gone_of_begun hgone with hc | ⟨hbefore, hadd⟩
    · exact .inl hc
    · exact .inr ⟨h.notMem hbefore, hadd⟩
  · obtain ⟨u, hu, hall⟩ := (runAtom_moves cfg a { s with running := rest }).trace_eq
    intro hgone
    rw [ht] at hgone ⊢
    rw [State.trace, hu, gone_lasting (startsNone_of_accesses hall).lasting] at hgone
    rw [runAtom_devices]
    cases a with
    | storeAssets request =>
      rw [mem_registryStoring]
      exact h.notMem hgone
    | _ => exact h.notMem hgone
  · intro hgone
    rw [ht, State.trace] at hgone
    have hlost : gone d (s.trace ++ [.connectionLost]) = true := hgone
    rw [gone_append] at hlost
    rw [ht]
    exact h.notMem hlost
  · obtain ⟨u, hu, hall⟩ := hm.trace_eq
    intro hgone
    rw [State.trace, hu, gone_lasting (startsNone_of_aside hall).lasting] at hgone
    rw [hsame.devices]
    exact h.notMem hgone

theorem revives_registration (env : Environment) (trace : Trace) (device : Device) :
    revives d (.sent (.registrationRequest device)
        (env.outcome trace (.registrationRequest device))) = true ↔
      device.key = d ∧ env.makesMessage trace (.registrationRequest device) = true := by
  cases hm : env.makesMessage trace (.registrationRequest device) <;>
    cases ha : env.accepts trace (.registrationRequest device) <;>
      simp [revives, Environment.outcome, hm, ha, Effect.handed]

/-- A command for registered devices does not speak of one that is not registered. -/
theorem revives_of_mayEmit {devices : Registry} {c : Command} {e : Effect}
    (hkeys : KeysAgree devices) (hd : d ∉ devices)
    (hreg : ∀ device, c ≠ .registerDevice device)
    (hstatus : ∀ device, c = .publishDeviceStatusOf device → device.key ≠ d)
    (h : MayEmit devices c e) : revives d e = false := by
  cases h with
  | deviceStatusProvided c provider k status hasks =>
    cases hasks with
    | request k hk =>
      have hne : k ≠ d := by
        rintro rfl
        exact hd hk
      exact decide_eq_false hne
    | nested device => exact decide_eq_false (hstatus device rfl)
  | sent c message outcome hsends =>
    cases hsends with
    | registerDevice device => exact absurd rfl (hreg device)
    | registerDevices k device hk =>
      have hne : device.key ≠ d := by
        rintro rfl
        rw [hkeys k device hk] at hd
        exact hd (mem_of_getElem? hk)
      cases outcome <;> simp [revives, Effect.handed, hne]
    | _ => cases outcome <;> rfl
  | attempted c f k d' items outcome _ => cases outcome <;> rfl
  | _ => rfl

theorem registerDevice_trace (device : Device) (queue : List Command) :
    (beginCommand cfg (.registerDevice device) queue s).trace =
      s.trace ++ [Effect.began (.registerDevice device) s.devices] ++
        [Effect.sent (.registrationRequest device)
          (cfg.env.outcome (s.trace ++ [Effect.began (.registerDevice device) s.devices])
            (.registrationRequest device))] :=
  rfl

/-- The copies are all that speaks of a device that is gone. -/
theorem silent_begun {c : Command} {queue : List Command} (he : Erased d s)
    (hr : s.running = []) (hq : s.queue = c :: queue) (hs : Silent d s.trace)
    (hg : RunsNoCopy cfg d s .worker) : Silent d (beginCommand cfg c queue s).trace := by
  obtain ⟨u, hu, hall⟩ := beginCommand_trace cfg c queue s
  have hbegan : Silent d (s.trace ++ [Effect.began c s.devices]) :=
    justified_snoc.mpr ⟨hs, fun _ => rfl⟩
  rw [hu]
  refine justified_append.mpr ⟨hbegan, fun before x after hsplit hgone => ?_⟩
  have hbefore : Lasting before := by
    intro y hy
    exact (startsNone_of_mayEmit hall).lasting y (by rw [hsplit]; exact List.mem_append_left _ hy)
  have hgone' : gone d (beginCommand cfg c queue s).trace = true := by
    rw [hu, gone_lasting (startsNone_of_mayEmit hall).lasting]
    rwa [gone_lasting hbefore] at hgone
  have hx : MayEmit s.devices c x := by
    apply hall
    rw [hsplit]
    exact List.mem_append_right _ List.mem_cons_self
  rcases gone_of_begun hgone' with rfl | ⟨hthen, -⟩
  · cases hx with
    | sent _ _ _ h => cases h
    | deviceStatusProvided _ _ _ _ h => cases h
    | attempted _ _ _ _ _ outcome => cases outcome <;> rfl
    | _ => rfl
  · by_cases hreg : ∃ device, c = .registerDevice device
    · obtain ⟨device, rfl⟩ := hreg
      have hsent := List.append_cancel_left (hu.symm.trans (registerDevice_trace device queue))
      have hlast : x = .sent (.registrationRequest device)
          (cfg.env.outcome (s.trace ++ [Effect.began (.registerDevice device) s.devices])
            (.registrationRequest device)) := by
        rw [hsent] at hsplit
        have hmem : x ∈ before ++ x :: after := List.mem_append_right _ List.mem_cons_self
        rw [← hsplit] at hmem
        exact List.mem_singleton.mp hmem
      rw [hlast, ← Bool.not_eq_true, revives_registration]
      rintro ⟨hkey, hmakes⟩
      rw [hg.registration hthen rfl hr device queue hq hkey] at hmakes
      cases hmakes
    · refine revives_of_mayEmit he.keys (he.notMem hthen) (fun device hc => hreg ⟨device, hc⟩)
        (fun device hc => ?_) hx
      rw [hc] at hq
      exact hg.status hthen rfl hr device queue hq

/-- Steps beside the commands: only the firmware service asks about a device. -/
theorem silent_step (he : Erased d s) (e : Event) (hs : Silent d s.trace)
    (hg : RunsNoCopy cfg d s e) : Silent d (step cfg s e).trace := by
  rcases stepped cfg s e with ⟨c, hc, -, -, hd, -⟩ | ⟨c, queue, rfl, hr, hq, ht⟩ |
    ⟨a, rest, rfl, hr, ht⟩ | ⟨rfl, ht⟩ | ⟨-, -, -, hm⟩
  · rwa [State.trace, hd]
  · rw [ht]
    exact silent_begun he hr hq hs hg
  · obtain ⟨u, hu, hall⟩ := (runAtom_moves cfg a { s with running := rest }).trace_eq
    rw [ht, State.trace, hu]
    refine justified_append.mpr ⟨hs, justified_of_forall fun x hx before _ => ?_⟩
    cases hall x hx <;> rfl
  · rw [ht]
    exact justified_snoc.mpr ⟨hs, fun _ => rfl⟩
  · obtain ⟨u, hu, hall⟩ := hm.trace_eq
    rw [State.trace, hu]
    refine justified_append.mpr ⟨hs, fun before x after hsplit hgone => ?_⟩
    have hbefore : Lasting before := by
      intro y hy
      exact (startsNone_of_aside hall).lasting y (by rw [hsplit]; exact List.mem_append_left _ hy)
    rw [gone_lasting hbefore] at hgone
    have hx : Aside s e x := by
      apply hall
      rw [hsplit]
      exact List.mem_append_right _ List.mem_cons_self
    cases hx with
    | versionProvided k version rest hq =>
      have hne : k ≠ d := by
        rintro rfl
        exact hg.version hgone rfl rest hq
      exact decide_eq_false hne
    | version _ _ outcome | status _ _ _ outcome => cases outcome <;> rfl
    | _ => rfl

theorem runPublishFirmwareVersion_trace (env : Environment) (d : Str) (s : DataState P) :
    ∃ after, (FirmwareUpdateService.runPublishFirmwareVersion env d s).trace =
      s.trace ++ Effect.firmwareVersionProvided d (env.firmwareVersion s.trace d) :: after := by
  simp only [FirmwareUpdateService.runPublishFirmwareVersion]
  split
  · exact ⟨[], rfl⟩
  · simp only [DataState.send, DataState.log, List.append_assoc, List.singleton_append]
    exact ⟨_, rfl⟩

/-- A step that runs a copy speaks of the device. -/
theorem runsNoCopy_of_silent (hw : Wired cfg.callbacks) (e : Event)
    (hs : Silent d (step cfg s e).trace) : RunsNoCopy cfg d s e := by
  constructor
  · rintro hgone rfl hr device queue hq hkey
    rw [step_begins hr hq] at hs
    have hsent := hs _ _ [] (registerDevice_trace device queue) (by rw [gone_append]; exact hgone)
    rw [← Bool.not_eq_true, revives_registration] at hsent
    exact Bool.eq_false_iff.mpr fun hmakes => hsent ⟨hkey, hmakes⟩
  · rintro hgone rfl hr device queue hq hkey
    obtain ⟨provider, hprovider⟩ := Option.isSome_iff_exists.mp hw.deviceStatusProvider
    rw [step_begins hr hq] at hs
    let began := s.trace ++ [Effect.began (.publishDeviceStatusOf device) s.devices]
    let status := cfg.env.deviceStatus provider began device.key
    let asked := began ++ [Effect.deviceStatusProvided provider device.key status]
    have htrace : (beginCommand cfg (.publishDeviceStatusOf device) queue s).trace =
        began ++ Effect.deviceStatusProvided provider device.key status ::
          [Effect.sent (.statusUpdate device.key status)
            (cfg.env.outcome asked (.statusUpdate device.key status))] := by
      simp only [beginCommand, execute, sendDeviceStatus, hprovider]
      exact List.append_assoc _ _ _
    have hasked := hs began _ _ htrace (by rw [gone_append]; exact hgone)
    simp [revives, hkey] at hasked
  · rintro hgone rfl queue hq
    obtain ⟨after, hafter⟩ := runPublishFirmwareVersion_trace cfg.env d s.data
    have htrace : (step cfg s .firmwareWorker).trace = s.trace ++
        Effect.firmwareVersionProvided d (cfg.env.firmwareVersion s.trace d) :: after := by
      simp only [step, hq]
      exact hafter
    have hasked := hs s.trace _ after htrace hgone
    simp [revives] at hasked

def brings (d : Str) : Atom → Bool
  | .enqueue c => madeFor d c
  | .enqueueFirmware (.publishFirmwareVersion k) => k = d
  | .registerIfConnected device => device.key = d
  | _ => false

/-- No copy waits, and none is about to be made. -/
structure Cleared (d : Str) (s : State P) : Prop where
  queue : ∀ c ∈ s.queue, madeFor d c = false
  running : ∀ a ∈ s.running, brings d a = false
  firmware : .publishFirmwareVersion d ∉ s.firmwareQueue

theorem requested_madeFor {e : Event} {c : Command} (h : Requested cfg s e c) :
    madeFor d c = false := by
  cases h with
  | api call c h =>
    cases call with
    | addSensorReadings k r values rtc =>
      simp only [ApiCall.command] at h
      split_ifs at h
      rw [← Option.some.inj h]
      rfl
    | _ =>
      rw [← Option.some.inj h]
      rfl
  | data message rest c hi h => cases received_of_messageReceived h <;> rfl
  | _ => rfl

/-- A command for registered devices makes no copy of one that is not registered. -/
theorem leaves_brings {devices : Registry} {c : Command} {a : Atom} (hkeys : KeysAgree devices)
    (hd : d ∉ devices) (hc : madeFor d c = false)
    (hadd : ∀ device, c = .addDevice device → device.key ≠ d) (h : Leaves devices c a) :
    brings d a = false := by
  have hne : ∀ (k : Str) (device : Device), devices[k]? = some device → device.key ≠ d := by
    rintro k device hk rfl
    rw [hkeys k device hk] at hd
    exact hd (mem_of_getElem? hk)
  cases h with
  | registerIfConnected device h => exact decide_eq_false (hadd device rfl)
  | firmwareVersion k => exact hc
  | eachFirmwareVersion k device hk => exact decide_eq_false (hne k device hk)
  | eachDeviceStatus k device hk => exact decide_eq_false (hne k device hk)
  | refresh k command _ hrefresh => cases hrefresh <;> rfl
  | acknowledged k c command hk hrefresh _ =>
    rcases hrefresh with hrefresh | rfl
    · cases hrefresh <;> rfl
    · have hkd : k ≠ d := by
        rintro rfl
        exact hd hk
      exact decide_eq_false hkd
  | _ => rfl

theorem firmware_cleared {e : Event} (hgone : gone d s.trace = true)
    (hg : NothingInFlight d s e) (h : Cleared d s) :
    .publishFirmwareVersion d ∉ (step cfg s e).firmwareQueue := by
  intro hmem
  cases versionRequested hmem with
  | waiting hold => exact h.firmware hold
  | enqueued rest hr =>
    have hbrings := h.running (.enqueueFirmware (.publishFirmwareVersion d))
      (by rw [hr]; exact List.mem_cons_self)
    simp [brings] at hbrings
  | installed c queue hq hinstalls => exact hg.install hgone rfl c (by rw [hq]; rfl) hinstalls
  | calledBack => exact hg.callback hgone rfl

theorem cleared_begun {c : Command} {queue : List Command} (he : Erased d s)
    (hr : s.running = []) (hq : s.queue = c :: queue) (hg : NothingInFlight d s .worker)
    (h : gone d s.trace = true → Cleared d s)
    (hgone : gone d (beginCommand cfg c queue s).trace = true) :
    Cleared d (beginCommand cfg c queue s) := by
  rcases gone_of_begun hgone with rfl | ⟨hbefore, hadd⟩
  · obtain ⟨hqueue, hfirmware⟩ := hg.removal rfl hr (by rw [hq]; rfl)
    rw [hq] at hqueue
    refine ⟨hqueue, fun a ha => ?_, hfirmware⟩
    cases leaves_of_mem ha with
    | acknowledged _ _ _ _ _ hresponse => rcases hresponse with ⟨_, h⟩ | ⟨_, h⟩ <;> cases h
  · have hcleared := h hbefore
    have hc : madeFor d c = false := by
      apply hcleared.queue
      rw [hq]
      exact List.mem_cons_self
    refine ⟨fun c' hc' => ?_, fun a ha => ?_, hcleared.firmware⟩
    · apply hcleared.queue
      rw [hq]
      exact List.mem_cons_of_mem _ hc'
    · exact leaves_brings he.keys (he.notMem hbefore) hc hadd (leaves_of_mem ha)

theorem cleared_accessed {a : Atom} {rest : List Atom} (hr : s.running = a :: rest)
    (hfirmware : .publishFirmwareVersion d ∉
      (runAtom cfg a { s with running := rest }).firmwareQueue)
    (h : Cleared d s) : Cleared d (runAtom cfg a { s with running := rest }) := by
  have ha : brings d a = false := by
    apply h.running
    rw [hr]
    exact List.mem_cons_self
  refine ⟨fun c hc => ?_, fun b hb => ?_, hfirmware⟩
  · rw [runAtom_queue, List.mem_append] at hc
    rcases hc with hc | hc
    · exact h.queue c hc
    · cases a with
      | enqueue c' =>
        rw [List.mem_singleton.mp hc]
        exact ha
      | _ => simp [Atom.enqueues] at hc
  · rw [runAtom_running, List.mem_append] at hb
    rcases hb with hb | hb
    · cases a with
      | registerIfConnected device =>
        simp only [Atom.expands] at hb
        split at hb
        · rcases List.mem_cons.mp hb with rfl | hb
          · exact ha
          · rw [List.mem_singleton.mp hb]
            rfl
        · simp at hb
      | updateIfConnected request =>
        simp only [Atom.expands] at hb
        split at hb
        · rcases List.mem_cons.mp hb with rfl | hb
          · rfl
          · rw [List.mem_singleton.mp hb]
            rfl
        · simp at hb
      | _ => simp [Atom.expands] at hb
    · apply h.running
      rw [hr]
      exact List.mem_cons_of_mem _ hb

theorem cleared_step (he : Erased d s) (e : Event) (hg : NothingInFlight d s e)
    (h : gone d s.trace = true → Cleared d s) (hgone : gone d (step cfg s e).trace = true) :
    Cleared d (step cfg s e) := by
  rcases stepped cfg s e with ⟨c, hc, hsame, hq, hd, hfq⟩ | ⟨c, queue, rfl, hr, hq, ht⟩ |
    ⟨a, rest, rfl, hr, ht⟩ | ⟨rfl, ht⟩ | ⟨-, hsame, hq, hm⟩
  · rw [State.trace, hd] at hgone
    have hcleared := h hgone
    refine ⟨fun c' hc' => ?_, by rw [hsame.running]; exact hcleared.running,
      by rw [hfq]; exact hcleared.firmware⟩
    rw [hq, List.mem_append] at hc'
    rcases hc' with hc' | hc'
    · exact hcleared.queue c' hc'
    · rw [List.mem_singleton.mp hc']
      exact requested_madeFor hc
  · rw [ht] at hgone ⊢
    exact cleared_begun he hr hq hg h hgone
  · obtain ⟨u, hu, hall⟩ := (runAtom_moves cfg a { s with running := rest }).trace_eq
    rw [ht, State.trace, hu, gone_lasting (startsNone_of_accesses hall).lasting] at hgone
    have hfirmware : .publishFirmwareVersion d ∉ (step cfg s .worker).firmwareQueue :=
      firmware_cleared hgone hg (h hgone)
    rw [ht] at hfirmware ⊢
    exact cleared_accessed hr hfirmware (h hgone)
  · have hlost : gone d (s.trace ++ [.connectionLost]) = true := by rwa [ht] at hgone
    rw [gone_append] at hlost
    have hcleared := h hlost
    rw [ht]
    exact ⟨hcleared.queue, hcleared.running, hcleared.firmware⟩
  · obtain ⟨u, hu, hall⟩ := hm.trace_eq
    rw [State.trace, hu, gone_lasting (startsNone_of_aside hall).lasting] at hgone
    have hcleared := h hgone
    refine ⟨by rw [hq]; exact hcleared.queue, by rw [hsame.running]; exact hcleared.running, ?_⟩
    exact firmware_cleared hgone hg hcleared

/-- Where nothing is in flight for the device, no step runs a copy. -/
theorem Cleared.runsNoCopy (h : gone d s.trace = true → Cleared d s) (e : Event) :
    RunsNoCopy cfg d s e := by
  constructor
  · intro hgone _ _ device queue hq hkey
    have hc := (h hgone).queue (.registerDevice device) (by rw [hq]; exact List.mem_cons_self)
    simp [madeFor, hkey] at hc
  · intro hgone _ _ device queue hq hkey
    have hc := (h hgone).queue (.publishDeviceStatusOf device)
      (by rw [hq]; exact List.mem_cons_self)
    simp [madeFor, hkey] at hc
  · intro hgone _ queue hq
    apply (h hgone).firmware
    rw [hq]
    exact List.mem_cons_self

theorem erased_initial : Erased d (State.initial P) := by
  constructor
  · intro k device h
    simp [State.initial] at h
  · intro h
    cases h

/-- A removed device is spoken of in a run exactly if a step of it runs a command that was
made for the device before; and no step does if, whenever the device is removed, nothing
waits for it, and nothing is installed on it while it is gone. -/
theorem removed_device_stays_removed (P : Persistence) (cfg : Config) (hw : Wired cfg.callbacks)
    (events : List Event) (d : Str) :
    (StaysRemoved d (reach cfg P events).trace ↔
      Guarded (step cfg) (RunsNoCopy cfg d) (.initial P) events) ∧
    (Guarded (step cfg) (NothingInFlight d) (.initial P) events →
      StaysRemoved d (reach cfg P events).trace) := by
  have hsilent : Guarded (step cfg) (RunsNoCopy cfg d) (.initial P) events →
      Silent d (reach cfg P events).trace := by
    intro hg
    have hinv : Erased d (reach cfg P events) ∧ Silent d (reach cfg P events).trace := by
      refine invariant_of_guarded (I := fun s : State P => Erased d s ∧ Silent d s.trace)
        (fun s e h hg => ?_) ⟨erased_initial, justified_nil⟩ hg
      exact ⟨erased_step s e h.1, silent_step h.1 e h.2 hg⟩
    exact hinv.2
  rw [staysRemoved_iff]
  refine ⟨⟨fun hs => ?_, hsilent⟩, fun hg => hsilent ?_⟩
  · rw [guarded_iff]
    rintro before e after rfl
    apply runsNoCopy_of_silent hw
    obtain ⟨u, hu⟩ := run_trace cfg (step cfg (reach cfg P before) e) after
    rw [reach, run_append, run_cons, ← reach, ← hu] at hs
    exact (justified_append.mp hs).1
  · refine Guarded.of_invariant
      (I := fun s : State P => Erased d s ∧ (gone d s.trace = true → Cleared d s))
      (fun s e h hstep => ?_) (fun s e h _ => Cleared.runsNoCopy h.2 e) ?_ hg
    · exact ⟨erased_step s e h.1, cleared_step h.1 e hstep h.2⟩
    · refine ⟨erased_initial, fun h => ?_⟩
      cases h

/-- Two devices are added to a module that is not connected, and one is removed; then the
module connects and does what that leaves. -/
def removedOffline : List Event :=
  [Event.api (.addDevice (bareDevice ['a'])), .worker, .worker,
    .api (.addDevice (bareDevice ['b'])), .worker, .worker, .api (.removeDevice ['a']), .worker,
    .api (.connect true)] ++ List.replicate 20 Event.worker

theorem removed_device_stays_removed_offline :
    let s := reach (.bare .obliging) .inMemory removedOffline
    s.BufferEmpty ∧ s.connected = true ∧ gone ['a'] s.trace = true ∧ StaysRemoved ['a'] s.trace :=
  ⟨⟨by decide +kernel, by decide +kernel⟩, by decide +kernel, by decide +kernel,
    (removed_device_stays_removed .inMemory (.bare .obliging) ⟨rfl, rfl, rfl, rfl⟩
      removedOffline ['a']).2 (by decide +kernel)⟩

def addedThenRemoved : List Event :=
  Event.api (.connect false) :: List.replicate 6 Event.worker ++
    [Event.api (.addDevice (bareDevice ['a'])), .api (.removeDevice ['a'])] ++
      List.replicate 6 Event.worker

/-- The registration request of the device is accepted after its removal. -/
theorem removed_device_registered :
    ¬ StaysRemoved ['a'] (reach (.bare .obliging) .inMemory addedThenRemoved).trace := by
  intro h
  have hsilent := h ((reach (.bare .obliging) .inMemory addedThenRemoved).trace.take 10)
    (.sent (.registrationRequest (bareDevice ['a'])) .accepted) [] (by decide +kernel)
    (by decide +kernel)
  exact absurd hsilent.1 (by decide)

end WolkGateway.Wolk
