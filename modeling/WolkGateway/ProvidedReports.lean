import WolkGateway.WolkStepCases
import WolkGateway.DataServiceCalls

/-!
# What is reported comes from the provider

The module reports the state of an actuator, the configuration and the status of a device.
Wolk built by its builder does not make these up: each is what the provider answered just
before, or what the user handed over in a call; only a configuration is empty where there is no
provider of configurations. What waits to be sent is the last of them.
-/

namespace WolkGateway.Wolk
open DeviceModel DataService DataLedger GuardedRuns Transcripts DataServiceCalls

/-- The last call on record is the start of such a command. -/
def JustBegan (c : Command) (before : Trace) : Prop :=
  ∃ devices, before.getLast? = some (.began c devices)

/-- What the calls before it say of a report: where it comes from. Without a configuration
provider an empty configuration is reported. -/
def Provided (cfg : Config) (before : Trace) : Effect → Prop
  | .added d r (.actuatorStatus status) =>
    status.reference = r ∧
      ((status.state = .ready ∧ JustBegan (.publishActuatorStatus d r status.value) before) ∨
        ∃ p, cfg.callbacks.actuatorStatusProvider.selected = some p ∧
          before.getLast? = some (.actuatorStatusProvided p d r ⟨status.value, status.state⟩))
  | .added d _ (.configuration items) =>
    JustBegan (.publishConfiguration d items) before ∨
      (∃ p, cfg.callbacks.configurationProvider.selected = some p ∧
        before.getLast? = some (.configurationProvided p d items)) ∨
      (cfg.callbacks.configurationProvider.selected = none ∧ items = [])
  | .sent (.statusResponse d status) _ =>
    ∃ p, cfg.callbacks.deviceStatusProvider.selected = some p ∧
      before.getLast? = some (.deviceStatusProvided p d status)
  | .sent (.statusUpdate d status) _ =>
    JustBegan (.addDeviceStatus d status) before ∨
      JustBegan (.publishDeviceStatus d status) before ∨
      ∃ p, cfg.callbacks.deviceStatusProvider.selected = some p ∧
        before.getLast? = some (.deviceStatusProvided p d status)
  | .actuatorStatusProvided p d r status => status = cfg.env.actuatorStatus p before d r
  | .configurationProvided p d items => items = cfg.env.configuration p before d
  | .deviceStatusProvided p d status => status = cfg.env.deviceStatus p before d
  | _ => True

def Reports : Effect → Bool
  | .added _ _ (.actuatorStatus _) | .added _ _ (.configuration _)
  | .sent (.statusResponse ..) _ | .sent (.statusUpdate ..) _
  | .actuatorStatusProvided .. | .configurationProvided .. | .deviceStatusProvided .. => true
  | _ => false

variable {P : Persistence} {cfg : Config} {devices : Registry}

theorem provided_of_not_reports {e : Effect} (h : Reports e = false) (before : Trace) :
    Provided cfg before e := by
  unfold Provided
  split <;> trivial

/-- Every report so far comes from where it should. -/
def Told (cfg : Config) (s : DataState P) : Prop := Justified (Provided cfg) s.trace

namespace Told

variable {s t : DataState P}

theorem log (h : Told cfg s) {e : Effect} (he : Provided cfg s.trace e) : Told cfg (s.log e) :=
  justified_snoc.mpr ⟨h, he⟩

theorem quiet {allowed : Effect → Prop} (h : Told cfg s) (hm : Moves cfg.env allowed s t)
    (hall : ∀ e, allowed e → Reports e = false) : Told cfg t := by
  obtain ⟨es, ht, hes⟩ := hm.trace_eq
  rw [Told, ht]
  exact justified_append.mpr ⟨h, justified_of_forall fun e he before =>
    provided_of_not_reports (hall e (hes e he)) _⟩

theorem attempts {family : Family} {keys : Str → Prop} (h : Told cfg s)
    (hm : Moves cfg.env (AttemptAt family keys) s t) : Told cfg t := by
  refine h.quiet hm fun e he => ?_
  obtain ⟨_, _, _, _, rfl, -⟩ := he
  rfl

theorem refreshActuatorStatus (hw : Wired cfg.callbacks) (h : Told cfg s) (key reference : Str) :
    Told cfg (Wolk.refreshActuatorStatus cfg key reference s) := by
  obtain ⟨p, hp⟩ := Option.isSome_iff_exists.mp hw.actuatorStatusProvider
  simp only [Wolk.refreshActuatorStatus, hp]
  exact justified_snoc.mpr ⟨h.log rfl, rfl, .inr ⟨p, hp, List.getLast?_concat ..⟩⟩

theorem refreshConfiguration (h : Told cfg s) (key : Str) :
    Told cfg (Wolk.refreshConfiguration cfg key s) := by
  cases hp : cfg.callbacks.configurationProvider.selected with
  | none =>
    simp only [Wolk.refreshConfiguration, hp]
    exact justified_snoc.mpr ⟨h, .inr (.inr ⟨hp, rfl⟩)⟩
  | some p =>
    simp only [Wolk.refreshConfiguration, hp]
    exact justified_snoc.mpr ⟨h.log rfl, .inr (.inl ⟨p, hp, List.getLast?_concat ..⟩)⟩

theorem sendDeviceStatus (hw : Wired cfg.callbacks) (h : Told cfg s) (key : Str)
    {message : DeviceStatus → OutboundMessage}
    (hmessage : message = .statusResponse key ∨ message = .statusUpdate key) :
    Told cfg (Wolk.sendDeviceStatus cfg
      (fun status s => s.send cfg.env (message status)) key s) := by
  obtain ⟨p, hp⟩ := Option.isSome_iff_exists.mp hw.deviceStatusProvider
  simp only [Wolk.sendDeviceStatus, hp]
  refine justified_snoc.mpr ⟨h.log rfl, ?_⟩
  rcases hmessage with rfl | rfl
  · exact ⟨p, hp, List.getLast?_concat ..⟩
  · exact .inr (.inr ⟨p, hp, List.getLast?_concat ..⟩)

theorem foldl {α : Type} {f : DataState P → α → DataState P}
    (hf : ∀ a s, Told cfg s → Told cfg (f s a)) (l : List α) (h : Told cfg s) :
    Told cfg (l.foldl f s) := by
  induction l generalizing s with
  | nil => exact h
  | cons a l ih => exact ih (hf a s h)

theorem refreshDevice (hw : Wired cfg.callbacks) (h : Told cfg s) (device : Device) :
    Told cfg (Wolk.refreshDevice cfg device s) :=
  (h.foldl (fun reference _ h => h.refreshActuatorStatus hw device.key reference) _).attempts
    (publishActuatorStatuses_moves _)

theorem runActuatorSet (hw : Wired cfg.callbacks) (h : Told cfg s) (key r value : Str) :
    Told cfg (Wolk.runActuatorSet cfg devices key r value s) := by
  unfold Wolk.runActuatorSet
  split_ifs
  · exact h
  · exact h
  · refine attempts (refreshActuatorStatus hw ?_ key r) (publishActuatorStatuses_moves _)
    split
    · exact h.log trivial
    · exact h

theorem runActuatorGet (hw : Wired cfg.callbacks) (h : Told cfg s) (key r : Str) :
    Told cfg (Wolk.runActuatorGet cfg devices key r s) := by
  unfold Wolk.runActuatorGet
  split_ifs
  · exact h.foldl (fun kvp _ h => h.refreshDevice hw kvp.2) _
  · exact h
  · exact h
  · exact (h.refreshActuatorStatus hw key r).attempts (publishActuatorStatuses_moves _)

theorem runConfigurationSet (h : Told cfg s) (key : Str)
    (configuration : List ConfigurationItem) :
    Told cfg (Wolk.runConfigurationSet cfg devices key configuration s) := by
  unfold Wolk.runConfigurationSet
  split_ifs
  · exact h
  · exact h
  · refine attempts (refreshConfiguration ?_ key) (publishConfiguration_moves _)
    split
    · exact h.log trivial
    · exact h

end Told

/-- The commands whose reports come from the provider or from the call itself. -/
theorem told_execute (hw : Wired cfg.callbacks) {c : Command} {now : ℕ} {s : DataState P}
    (h : Told cfg s) (hbegan : JustBegan c s.trace) :
    Told cfg (execute cfg devices now s c).data := by
  cases c with
  | publishActuatorStatus d r value =>
    have hadded : Told cfg (addActuatorStatus d r value .ready s) :=
      justified_snoc.mpr ⟨h, rfl, .inl ⟨rfl, hbegan⟩⟩
    exact hadded.attempts (publishActuatorStatusesOf_moves d _)
  | publishConfiguration d configurations =>
    have hadded : Told cfg (addConfiguration d configurations s) :=
      justified_snoc.mpr ⟨h, .inl hbegan⟩
    exact hadded.attempts (publishConfiguration_moves _)
  | addDeviceStatus d status =>
    simp only [execute, runAddDeviceStatus]
    split_ifs
    · exact h
    · exact h.log (.inl hbegan)
  | publishDeviceStatus d status => exact h.log (.inr (.inl hbegan))
  | handleActuatorSetCommand key r value => exact h.runActuatorSet hw key r value
  | handleActuatorGetCommand key r => exact h.runActuatorGet hw key r
  | handleConfigurationSetCommand key configuration => exact h.runConfigurationSet key configuration
  | handleConfigurationGetCommand key =>
    simp only [execute, runConfigurationGet]
    split_ifs
    · exact h
    · exact (h.refreshConfiguration key).attempts (publishConfiguration_moves _)
  | handleDeviceStatusRequest key =>
    simp only [execute, runDeviceStatusRequest]
    split_ifs
    · exact h
    · exact h
    · exact h.sendDeviceStatus hw key (.inl rfl)
  | publishDeviceStatusOf device => exact h.sendDeviceStatus hw device.key (.inr rfl)
  | _ =>
    refine h.quiet (execute_moves cfg devices now s _) fun e he => ?_
    cases he with
    | sent _ _ _ hs => cases hs <;> rfl
    | actuatorStatusProvided _ _ _ _ _ hr => cases hr
    | actuatorStatus _ _ _ _ hr => cases hr
    | configurationProvided _ _ _ _ hr => cases hr
    | configuration _ _ _ hr => cases hr
    | deviceStatusProvided _ _ _ _ ha => cases ha
    | _ => rfl

theorem told_step (hw : Wired cfg.callbacks) (s : State P) (e : Event) (h : Told cfg s.data) :
    Told cfg (step cfg s e).data := by
  rcases stepped cfg s e with ⟨c, -, -, -, hd, -⟩ | ⟨c, queue, rfl, hr, hq, ht⟩ |
    ⟨a, rest, rfl, hr, ht⟩ | ⟨rfl, ht⟩ | ⟨-, -, -, hm⟩
  · rw [hd]
    exact h
  · have hbegan : Told cfg (s.data.log (.began c s.devices)) := h.log trivial
    rw [ht]
    exact told_execute hw hbegan ⟨s.devices, List.getLast?_concat ..⟩
  · rw [ht]
    have hm := runAtom_moves cfg a { s with running := rest }
    exact Told.quiet (s := s.data) h hm fun e he => by cases he <;> rfl
  · rw [ht]
    exact h.log trivial
  · exact h.quiet hm fun e' he' => by cases he' <;> rfl

/-- Where only the last value counts, it is the one that is sent. -/
def SendsLatest (before : Trace) : Effect → Prop
  | .attempted family key _ items _ => keepsAll family = false →
    ∃ x, items = [x] ∧ (addedUnder family key before).getLast? = some x
  | _ => True

/-- Where only the last value counts, it is the one that waits, and was the one sent. -/
structure LatestWaits (L : Ledger) : Prop where
  waits : ∀ family key, keepsAll family = false → L.contents family key ≠ [] →
    ∃ x, L.contents family key = [x] ∧ (addedUnder family key L.trace).getLast? = some x
  sent : Justified SendsLatest L.trace

theorem addedUnder_snoc_none {family : Family} {key : Str} {e : Effect}
    (h : addedTo family key e = none) (t : Trace) :
    addedUnder family key (t ++ [e]) = addedUnder family key t := by
  rw [addedUnder_append, addedUnder, addedUnder, List.filterMap_cons, h]
  exact List.append_nil _

theorem latestWaits_move {env : Environment} {L M : Ledger} {e : Effect} (h : LatestWaits L)
    (hm : Move env L e M) : LatestWaits M := by
  cases hm with
  | add d r item =>
    refine ⟨fun family key hf hne => ?_, justified_snoc.mpr ⟨h.sent, trivial⟩⟩
    dsimp only at hne ⊢
    by_cases hk : item.family = family ∧ slotKey d r item = key
    · obtain ⟨rfl, rfl⟩ := hk
      refine ⟨item, by simp [setAt, putItem, hf], ?_⟩
      simp [addedUnder, addedTo]
    · have hk' : ¬ (family = item.family ∧ key = slotKey d r item) :=
        fun hk' => hk ⟨hk'.1.symm, hk'.2.symm⟩
      rw [setAt, if_neg hk'] at hne ⊢
      rw [addedUnder_snoc_none (by rw [addedTo, if_neg hk])]
      exact h.waits family key hf hne
  | attempt f k items outcome hitems hne' hout =>
    refine ⟨fun family key hf hne => ?_, justified_snoc.mpr ⟨h.sent, fun hf => ?_⟩⟩
    · dsimp only at hne ⊢
      rw [addedUnder_snoc_none rfl]
      split_ifs at hne ⊢ with hr
      · exact h.waits family key hf hne
      · by_cases hk : family = f ∧ key = k
        · obtain ⟨rfl, rfl⟩ := hk
          have hpending : L.contents family key ≠ [] := fun hnil => hne (by simp [setAt, hnil])
          obtain ⟨x, hx, -⟩ := h.waits family key hf hpending
          exact absurd (by simp [setAt, hx, PUBLISH_BATCH_ITEMS_COUNT]) hne
        · rw [setAt, if_neg hk] at hne ⊢
          exact h.waits family key hf hne
    · have hpending : L.contents f k ≠ [] := fun hnil => hne' (by simp [hitems, hnil])
      obtain ⟨x, hx, hlast⟩ := h.waits f k hf hpending
      exact ⟨x, by simp [hitems, hx, PUBLISH_BATCH_ITEMS_COUNT], hlast⟩
  | other e he =>
    refine ⟨fun family key hf hne => ?_, justified_snoc.mpr ⟨h.sent, ?_⟩⟩
    · rw [addedUnder_snoc_none (addedTo_unrelated he family key)]
      exact h.waits family key hf hne
    · cases e with
      | attempted => exact he.elim
      | _ => trivial

theorem latestWaits_step (cfg : Config) (s : State P) (e : Event)
    (h : LatestWaits (ledgerOf s.data)) : LatestWaits (ledgerOf (step cfg s e).data) :=
  (step_moves s e).invariant (fun _ _ _ hL _ hm => latestWaits_move hL hm) h

/-- A module that was built does not make up what it reports. Every actuator status, every
configuration and every device status comes from the provider's answer right before it, or
from the call that hands it over, but for the empty configurations of a module without a
configuration provider; and what is sent of a status or a configuration, however late, is the
last that was put under its key. -/
theorem reports_are_provided {builder : WolkBuilder} {core : CoreLibrary} {env : Environment}
    {cfg : Config} (hbuild : builder.build core env = .ok cfg) (P : Persistence)
    (events : List Event) :
    Justified (fun before e => Provided cfg before e ∧ SendsLatest before e)
      (reach cfg P events).trace := by
  have htold : Told cfg (reach cfg P events).data :=
    invariant_of_step (I := fun s : State P => Told cfg s.data) (told_step (wired_of_build hbuild))
      (s := State.initial P) justified_nil events
  have hempty : LatestWaits (ledgerOf (State.initial P).data) :=
    ⟨fun f k _ hne => absurd (contentsOf_initial f k) hne, justified_nil⟩
  have hlatest : LatestWaits (ledgerOf (reach cfg P events).data) :=
    invariant_of_step (I := fun s : State P => LatestWaits (ledgerOf s.data))
      (latestWaits_step cfg) hempty events
  exact htold.and hlatest.sent

def askedTwice : List Event :=
  [Event.api (.addDevice (actuatorDevice ['d'] ['r'])), .api (.publishActuatorStatus ['d'] ['r']),
    .api (.publishActuatorStatus ['d'] ['r'])] ++ List.replicate 4 Event.worker

theorem reports_are_provided_asked :
    Justified (fun before e => Provided (.bare .obliging) before e ∧ SendsLatest before e)
      (reach (.bare .obliging) .inMemory askedTwice).trace :=
  reports_are_provided (rfl : WolkBuilder.bare.build CoreLibrary.silent .obliging = _) .inMemory
    askedTwice

end WolkGateway.Wolk
