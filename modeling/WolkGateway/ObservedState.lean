import WolkGateway.WolkRegistry
import WolkGateway.DataServiceConservation

/-!
# What the calls alone tell

An observer that sees only the calls the module makes can keep a registry and a backlog of
its own: from the devices added, changed and removed, and from the items put and the
outcomes of the attempts. It holds at any time what the module and its persistence hold,
and it knows before each call what the call will say.
-/

namespace WolkGateway.Wolk
open DeviceModel DataService DataLedger GuardedRuns Transcripts
open DataServiceCalls DataServiceConservation

def backlogStep (contents : Family → Str → List Item) : Effect → Family → Str → List Item
  | .added deviceKey reference item =>
    setAt contents item.family (slotKey deviceKey reference item)
      (putItem item.family (contents item.family (slotKey deviceKey reference item)) item)
  | .attempted family key _ _ outcome =>
    if outcome = .rejected then contents
    else setAt contents family key ((contents family key).drop PUBLISH_BATCH_ITEMS_COUNT)
  | _ => contents

/-- The items put and not yet consumed, under every key. -/
def backlogOf (trace : Trace) : Family → Str → List Item :=
  trace.foldl backlogStep fun _ _ => []

def registryStep (devices : Registry) : Effect → Registry
  | .deviceAdded device => devices.insert device.key device
  | .assetsStored request => registryStoring devices request
  | .deviceRemoved d => devices.erase d
  | _ => devices

/-- The devices added and not removed, with the assets stored since. -/
def registryOf (trace : Trace) : Registry := trace.foldl registryStep ∅

@[simp] theorem backlogOf_snoc (trace : Trace) (e : Effect) :
    backlogOf (trace ++ [e]) = backlogStep (backlogOf trace) e := by
  rw [backlogOf, List.foldl_append]
  rfl

@[simp] theorem registryOf_append (trace u : Trace) :
    registryOf (trace ++ u) = u.foldl registryStep (registryOf trace) :=
  List.foldl_append

/-- What the calls before it tell of an attempt, or of a message sent past persistence. -/
def OutcomeExplained (env : Environment) (before : Trace) : Effect → Prop
  | .attempted family key deviceKey items outcome =>
    deviceKey = deviceOf family key ∧
      items = (backlogOf before family key).take PUBLISH_BATCH_ITEMS_COUNT ∧ items ≠ [] ∧
        outcome = attemptOutcome env before family key items
  | .sent message outcome => outcome = env.outcome before message
  | _ => True

/-- What the calls before it tell of the start of a command and of a change of the registry. -/
def RegistryExplained (before : Trace) : Effect → Prop
  | .began _ devices => devices = registryOf before
  | .deviceAdded device => device.key ∉ registryOf before
  | .deviceRemoved d => d ∈ registryOf before
  | .assetsStored request => request.deviceKey ∈ registryOf before
  | .setUncontrolledDisconnectMessage deviceKeys => deviceKeys = getDeviceKeys (registryOf before)
  | _ => True

variable {P : Persistence} {cfg : Config} {env : Environment} {s : State P}

/-- The ledger holds what its calls tell, and every attempt on record was foreseen. -/
structure BacklogObserved (env : Environment) (L : Ledger) : Prop where
  contents : L.contents = backlogOf L.trace
  explained : Justified (OutcomeExplained env) L.trace

theorem backlogObserved_move {L M : Ledger} {e : Effect} (h : BacklogObserved env L)
    (hm : Move env L e M) : BacklogObserved env M := by
  cases hm with
  | add deviceKey reference item =>
    refine ⟨?_, justified_snoc.mpr ⟨h.explained, trivial⟩⟩
    rw [backlogOf_snoc, ← h.contents]
    rfl
  | attempt family key items outcome hitems hne hout =>
    refine ⟨?_, justified_snoc.mpr ⟨h.explained, rfl, ?_, hne, hout⟩⟩
    · rw [backlogOf_snoc, ← h.contents]
      rfl
    · rw [← h.contents]
      exact hitems
  | other e he =>
    refine ⟨?_, justified_snoc.mpr ⟨h.explained, ?_⟩⟩
    · rw [backlogOf_snoc, ← h.contents]
      cases e with
      | added | attempted => exact he.elim
      | _ => rfl
    · cases e with
      | attempted => exact he.elim
      | sent message outcome => exact he
      | _ => trivial

theorem backlogObserved_step (cfg : Config) (s : State P) (e : Event)
    (h : BacklogObserved cfg.env (ledgerOf s.data)) :
    BacklogObserved cfg.env (ledgerOf (step cfg s e).data) :=
  (step_moves s e).invariant (fun _ _ _ hL _ hm => backlogObserved_move hL hm) h

def SaysNothing (e : Effect) : Prop :=
  (∀ devices, registryStep devices e = devices) ∧ ∀ before, RegistryExplained before e

theorem foldl_registryStep {u : Trace} (h : ∀ e ∈ u, SaysNothing e) (devices : Registry) :
    u.foldl registryStep devices = devices := by
  induction u with
  | nil => rfl
  | cons e u ih =>
    rw [List.foldl_cons, (h e List.mem_cons_self).1]
    exact ih fun x hx => h x (List.mem_cons_of_mem _ hx)

/-- The registry is what the calls tell, and every change on record was foreseen. -/
structure RegistryObserved (devices : Registry) (trace : Trace) : Prop where
  devices : devices = registryOf trace
  explained : Justified RegistryExplained trace

namespace RegistryObserved

variable {devices : Registry} {trace u : Trace} {e : Effect}

theorem snoc (h : RegistryObserved devices trace)
    (he : devices = registryOf trace → RegistryExplained trace e) :
    RegistryObserved (registryStep devices e) (trace ++ [e]) where
  devices := by rw [registryOf_append, h.devices]; rfl
  explained := justified_snoc.mpr ⟨h.explained, he h.devices⟩

/-- Calls that say nothing about the registry leave it. -/
theorem quiet (h : RegistryObserved devices trace) (hu : ∀ e ∈ u, SaysNothing e) :
    RegistryObserved devices (trace ++ u) where
  devices := by rw [registryOf_append, foldl_registryStep hu, h.devices]
  explained := justified_append.mpr
    ⟨h.explained, justified_of_forall fun e he _ => (hu e he).2 _⟩

theorem began (h : RegistryObserved devices trace) (c : Command) :
    RegistryObserved devices (trace ++ [.began c devices]) :=
  h.snoc (e := .began c devices) id

end RegistryObserved

theorem addDevice_trace (cfg : Config) {device : Device} (queue : List Command) {s : State P}
    (hk : device.key ∉ s.devices) :
    ∃ e, (beginCommand cfg (.addDevice device) queue s).trace =
        s.trace ++ [Effect.began (.addDevice device) s.devices] ++ [.deviceAdded device] ++ [e] ∧
      (e = .setUncontrolledDisconnectMessage
          (getDeviceKeys (s.devices.insert device.key device)) ∨ ∃ message outcome,
        e = .sent message outcome) := by
  have hnew : ¬ deviceExists s.devices device.key = true := by simpa using hk
  simp only [beginCommand, execute, if_neg hnew, DeviceStatusService.devicesUpdated]
  split_ifs
  · exact ⟨_, rfl, .inr ⟨_, _, rfl⟩⟩
  · exact ⟨_, rfl, .inl rfl⟩

theorem removeDevice_trace (cfg : Config) {d : Str} (queue : List Command) {s : State P}
    (hk : d ∈ s.devices) :
    (beginCommand cfg (.removeDevice d) queue s).trace =
      s.trace ++ [Effect.began (.removeDevice d) s.devices] ++ [.deviceRemoved d] := by
  have hold : deviceExists s.devices d = true := by simpa using hk
  simp only [beginCommand, execute, if_pos hold]
  rfl

theorem registryObserved_begun (cfg : Config) (c : Command) (queue : List Command)
    (h : RegistryObserved s.devices s.trace) :
    RegistryObserved (beginCommand cfg c queue s).devices (beginCommand cfg c queue s).trace := by
  have hd : (beginCommand cfg c queue s).devices = registryAfter s.devices c :=
    execute_devices _ _ _ _
  have hbegan := h.began c
  rw [hd]
  by_cases hadd : ∃ device, c = .addDevice device ∧ device.key ∉ s.devices
  · obtain ⟨device, rfl, hk⟩ := hadd
    obtain ⟨e, ht, he⟩ := addDevice_trace cfg queue hk
    have hnew : ¬ deviceExists s.devices device.key = true := by simpa using hk
    have hadded := hbegan.snoc (e := .deviceAdded device) fun hsame => by
      rw [RegistryExplained, ← hsame]
      exact hk
    rw [registryAfter, if_neg hnew, ht]
    rcases he with rfl | ⟨message, outcome, rfl⟩
    · exact hadded.snoc (e := .setUncontrolledDisconnectMessage _) fun hsame => by
        rw [RegistryExplained, ← hsame]
        rfl
    · exact hadded.snoc (e := .sent message outcome) fun _ => trivial
  by_cases hremove : ∃ d, c = .removeDevice d ∧ d ∈ s.devices
  · obtain ⟨d, rfl, hk⟩ := hremove
    have hold : deviceExists s.devices d = true := by simpa using hk
    rw [registryAfter, if_pos hold, removeDevice_trace cfg queue hk]
    exact hbegan.snoc (e := .deviceRemoved d) fun hsame => by
      rw [RegistryExplained, ← hsame]
      exact hk
  obtain ⟨u, hu, hall⟩ := beginCommand_trace cfg c queue s
  have hsame : registryAfter s.devices c = s.devices := by
    cases c with
    | addDevice device =>
      rw [registryAfter, if_pos (by simpa using fun hk => hadd ⟨device, rfl, hk⟩)]
    | removeDevice d =>
      rw [registryAfter, if_neg (by simpa using fun hk => hremove ⟨d, rfl, hk⟩)]
    | _ => rfl
  rw [hsame, hu]
  refine hbegan.quiet fun e he => ?_
  cases hall e he with
  | deviceAdded device hk => exact absurd ⟨device, rfl, hk⟩ hadd
  | lastWill device hk => exact absurd ⟨device, rfl, hk⟩ hadd
  | deviceRemoved d hk => exact absurd ⟨d, rfl, hk⟩ hremove
  | _ => exact ⟨fun _ => rfl, fun _ => trivial⟩

theorem registryObserved_accessed (cfg : Config) (a : Atom) (s : State P)
    (h : RegistryObserved s.devices s.trace) :
    RegistryObserved (runAtom cfg a s).devices (runAtom cfg a s).trace := by
  rw [runAtom_devices]
  cases a with
  | storeAssets request =>
    cases hdev : s.devices[request.deviceKey]? with
    | none => simpa only [runAtom, registryStoring, hdev] using h
    | some device =>
      have ht : (runAtom cfg (.storeAssets request) s).trace =
          s.trace ++ [Effect.assetsStored request] := by
        simp only [runAtom, hdev]
        rfl
      rw [ht]
      exact h.snoc (e := .assetsStored request) fun hsame => by
        rw [RegistryExplained, ← hsame]
        exact mem_of_getElem? hdev
  | _ =>
    obtain ⟨u, hu, hall⟩ := (runAtom_moves cfg _ s).trace_eq
    rw [State.trace, hu]
    refine h.quiet fun e he => ?_
    cases hall e he <;> exact ⟨fun _ => rfl, fun _ => trivial⟩

theorem registryObserved_step (cfg : Config) (s : State P) (e : Event)
    (h : RegistryObserved s.devices s.trace) :
    RegistryObserved (step cfg s e).devices (step cfg s e).trace := by
  rcases stepped cfg s e with ⟨c, -, hsame, -, hd, -⟩ | ⟨c, queue, rfl, hr, hq, ht⟩ |
    ⟨a, rest, rfl, hr, ht⟩ | ⟨rfl, ht⟩ | ⟨-, hsame, -, hm⟩
  · rw [hsame.devices, State.trace, hd]
    exact h
  · rw [ht]
    exact registryObserved_begun cfg c queue h
  · rw [ht]
    exact registryObserved_accessed cfg a _ h
  · exact h.snoc (e := .connectionLost) fun _ => trivial
  · obtain ⟨u, hu, hall⟩ := hm.trace_eq
    rw [hsame.devices, State.trace, hu]
    refine h.quiet fun e' he' => ?_
    cases hall e' he' <;> exact ⟨fun _ => rfl, fun _ => trivial⟩

/-- The observer holds what the module holds, and foresaw every call on record. -/
structure Observed (cfg : Config) (s : State P) : Prop where
  registry : s.devices = registryOf s.trace
  backlog : contentsOf s.data = backlogOf s.trace
  explained : Justified (fun before e => RegistryExplained before e ∧
    OutcomeExplained cfg.env before e) s.trace

theorem registryObserved_reach (P : Persistence) (cfg : Config) (events : List Event) :
    RegistryObserved (reach cfg P events).devices (reach cfg P events).trace :=
  invariant_of_step (I := fun s : State P => RegistryObserved s.devices s.trace)
    (registryObserved_step cfg) ⟨rfl, justified_nil⟩ events

theorem backlogObserved_reach (P : Persistence) (cfg : Config) (events : List Event) :
    BacklogObserved cfg.env (ledgerOf (reach cfg P events).data) := by
  have hempty : BacklogObserved cfg.env (ledgerOf (State.initial P).data) :=
    ⟨funext fun f => funext fun k => contentsOf_initial f k, justified_nil⟩
  exact invariant_of_step (I := fun s : State P => BacklogObserved cfg.env (ledgerOf s.data))
    (backlogObserved_step cfg) hempty events

/-- After any run the registry and everything persistence holds are what the calls made so
far tell, whatever the persistence and the interleaving; and the calls before it tell of
every attempt which items it makes a message of, for whom, and what becomes of them. -/
theorem calls_tell_the_state (P : Persistence) (cfg : Config) (events : List Event) :
    Observed cfg (reach cfg P events) := by
  have hregistry := registryObserved_reach P cfg events
  have hbacklog := backlogObserved_reach P cfg events
  exact ⟨hregistry.devices, hbacklog.contents, hregistry.explained.and hbacklog.explained⟩

/-- A call that consumes nothing under a key leaves there what it puts. -/
theorem backlogStep_at {family : Family} {key : Str} {e : Effect}
    (h : consumedBy family key e = none) (contents : Family → Str → List Item) :
    backlogStep contents e family key =
      (addedTo family key e).toList.foldl (putItem family) (contents family key) := by
  cases e with
  | added d r item =>
    simp only [backlogStep, setAt, addedTo]
    by_cases hk : item.family = family ∧ slotKey d r item = key
    · obtain ⟨rfl, rfl⟩ := hk
      simp
    · rw [if_neg hk, if_neg fun hk' => hk ⟨hk'.1.symm, hk'.2.symm⟩]
      rfl
  | attempted f k d items outcome =>
    simp only [consumedBy, ite_eq_right_iff, reduceCtorEq, imp_false] at h
    simp only [backlogStep, addedTo, Option.toList_none, List.foldl_nil]
    split_ifs with hr
    · rfl
    · rw [setAt, if_neg fun hk => h ⟨hk.1.symm, hk.2.symm, hr⟩]
  | _ => rfl

theorem backlogOf_append {family : Family} {key : Str} {u : Trace}
    (h : ∀ e ∈ u, consumedBy family key e = none) (t : Trace) :
    backlogOf (t ++ u) family key =
      (addedUnder family key u).foldl (putItem family) (backlogOf t family key) := by
  induction u generalizing t with
  | nil => simp [addedUnder]
  | cons e u ih =>
    have hrest := ih (fun x hx => h x (List.mem_cons_of_mem _ hx)) (t ++ [e])
    have hhead := backlogStep_at (h e List.mem_cons_self) (backlogOf t)
    rw [List.append_assoc, List.singleton_append, backlogOf_snoc, hhead] at hrest
    rw [hrest, addedUnder, addedUnder, List.filterMap_cons]
    cases addedTo family key e <;> rfl

theorem foldl_putItem_of_keepsAll {family : Family} (hf : keepsAll family = true)
    (items pending : List Item) : items.foldl (putItem family) pending = pending ++ items := by
  induction items generalizing pending with
  | nil => exact (List.append_nil _).symm
  | cons x items ih =>
    rw [List.foldl_cons, ih, putItem, if_pos hf, List.append_assoc, List.singleton_append]

/-- What is put behind a batch does not change it, and what is put in its place replaces it. -/
theorem take_foldl_putItem (family : Family) (n : ℕ) (items pending : List Item) :
    (items.foldl (putItem family) (pending.take n)).take n =
      (items.foldl (putItem family) pending).take n := by
  by_cases hf : keepsAll family = true
  · rw [foldl_putItem_of_keepsAll hf, foldl_putItem_of_keepsAll hf]
    rcases Nat.le_total n pending.length with hn | hn
    · rw [List.take_append_of_le_length hn,
        List.take_append_of_le_length (by rw [List.length_take_of_le hn]), List.take_take,
        Nat.min_self]
    · rw [List.take_of_length_le hn]
  · cases items with
    | nil => rw [List.foldl_nil, List.foldl_nil, List.take_take, Nat.min_self]
    | cons x items => simp only [List.foldl_cons, putItem, if_neg hf]

/-- A refused batch comes again. If nothing is consumed under its key in between, the next
attempt there makes its message for the same device, of the same items and what has been put
since: behind them as far as the bound allows, or in their place where only the last counts. -/
theorem refused_batch_comes_again (P : Persistence) (cfg : Config) (events : List Event)
    {before between after : Trace} {family : Family} {key d d' : Str} {items items' : List Item}
    {outcome : Outcome}
    (htrace : (reach cfg P events).trace = before ++ .attempted family key d items .rejected ::
      (between ++ .attempted family key d' items' outcome :: after))
    (hbetween : ∀ e ∈ between, consumedBy family key e = none) :
    d' = d ∧ items' =
      ((addedUnder family key between).foldl (putItem family) items).take
        PUBLISH_BATCH_ITEMS_COUNT := by
  have hexplained := (backlogObserved_reach P cfg events).explained
  obtain ⟨hd, hitems, -, -⟩ := hexplained before _ _ htrace
  have hsecond : (reach cfg P events).trace =
      (before ++ [Effect.attempted family key d items .rejected] ++ between) ++
        .attempted family key d' items' outcome :: after := by
    rw [htrace]
    simp
  obtain ⟨hd', hitems', -, -⟩ := hexplained _ _ _ hsecond
  refine ⟨hd'.trans hd.symm, ?_⟩
  rw [hitems', backlogOf_append hbetween, backlogOf_snoc, hitems, take_foldl_putItem]
  rfl

def refusedTwice : List Event :=
  [.api (.publishActuatorStatusValue ['d'] ['r'] ['1']),
    .api (.publishActuatorStatusValue ['d'] ['r'] ['2']), .worker, .worker]

theorem refused_batch_comes_again_newer :
    let status : Str → Item := fun value => .actuatorStatus ⟨value, ['r'], .ready⟩
    let between := [Effect.began (.publishActuatorStatus ['d'] ['r'] ['2']) ∅,
      .added ['d'] ['r'] (status ['2'])]
    ['d'] = ['d'] ∧ [status ['2']] =
      ((addedUnder .actuatorStatuses ['d', '+', 'r'] between).foldl (putItem .actuatorStatuses)
        [status ['1']]).take PUBLISH_BATCH_ITEMS_COUNT := by
  intro status between
  have htrace : (reach (.bare { Environment.obliging with accepts := fun _ _ => false })
      .inMemory refusedTwice).trace =
      [Effect.began (.publishActuatorStatus ['d'] ['r'] ['1']) ∅,
        .added ['d'] ['r'] (status ['1'])] ++
      Effect.attempted .actuatorStatuses ['d', '+', 'r'] ['d'] [status ['1']] .rejected ::
        (between ++
          Effect.attempted .actuatorStatuses ['d', '+', 'r'] ['d'] [status ['2']] .rejected ::
            []) := by
    decide +kernel
  exact refused_batch_comes_again _ _ _ htrace (by decide +kernel)

end WolkGateway.Wolk
