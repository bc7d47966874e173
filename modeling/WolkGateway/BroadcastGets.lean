import WolkGateway.PublishingByDevice
import WolkGateway.LastWrites
import WolkGateway.WolkRegistry

/-!
# Broadcast and individual actuator gets

A broadcast get stores the statuses of a device and then publishes the whole store, device
by device; an individual get does so for each actuator. Both are passes of writes, each
followed by publishing everything; what counts in the end is which statuses were written
and which one was written last under a key.
-/

namespace WolkGateway.Wolk
open DeviceModel DataService DataLedger KeyPublishing PublishingByDevice LastWrites

variable {P : Persistence} {cfg : Config} {env : Environment} {s t : DataState P}

/-- What is left under a key after the writes, all published: the last one, if rejected. -/
def leftAfter (env : Environment) (writes : List (Str × Item)) (key : Str) : List Item :=
  match lastAt key writes with
  | none => []
  | some x => if attemptOutcome env [] .actuatorStatuses key [x] = .rejected then [x] else []

def statusMessage (write : Str × Item) : OutboundMessage :=
  .data .actuatorStatuses (deviceOf .actuatorStatuses write.1) [write.2]

def WriteAccepted (env : Environment) (write : Str × Item) : Prop :=
  attemptOutcome env [] .actuatorStatuses write.1 [write.2] = .accepted

/-- From `s` to `t` exactly the accepted ones of the writes were sent, and the last one
under each key is what is left, if it was rejected. -/
structure Published (env : Environment) (s t : DataState P) (writes : List (Str × Item)) :
    Prop where
  accepted : ∃ es, t.trace = s.trace ++ es ∧ ∀ message,
    (message, true) ∈ es.filterMap Effect.handed ↔
      ∃ write ∈ writes, WriteAccepted env write ∧ message = statusMessage write
  left : ∀ key, contentsOf t .actuatorStatuses key = leftAfter env writes key

theorem published_start (env : Environment) (h : ∀ key, contentsOf s .actuatorStatuses key = []) :
    Published env s s [] :=
  ⟨⟨[], by simp, by simp⟩, h⟩

theorem Published.quiet {u : DataState P} {writes : List (Str × Item)} {es : Trace}
    (h : Published env s t writes) (hu : u.trace = t.trace ++ es)
    (hes : es.filterMap Effect.handed = [])
    (hc : ∀ key, contentsOf u .actuatorStatuses key = contentsOf t .actuatorStatuses key) :
    Published env s u writes := by
  obtain ⟨es', ht, hsent⟩ := h.accepted
  refine ⟨⟨es' ++ es, by rw [hu, ht, List.append_assoc], ?_⟩, fun key => ?_⟩
  · rw [List.filterMap_append, hes, List.append_nil]
    exact hsent
  · rw [hc, h.left]

/-- Publishing the store hands over what each key holds, and leaves what is rejected. -/
theorem publishActuatorStatuses_published (h : Stateless env) (s : DataState P) :
    (∃ es, (publishActuatorStatuses env s).trace = s.trace ++ es ∧ ∀ message,
      (message, true) ∈ es.filterMap Effect.handed ↔
        ∃ key x, contentsOf s .actuatorStatuses key = [x] ∧ WriteAccepted env (key, x) ∧
          message = statusMessage (key, x)) ∧
    ∀ key, contentsOf (publishActuatorStatuses env s) .actuatorStatuses key =
      (publishPending env .actuatorStatuses key [] (contentsOf s .actuatorStatuses key)).2 := by
  have hpub := publishedAt_publishFamily h .actuatorStatuses s
  obtain ⟨es, hes, hall⟩ := (publishFamily_moves env .actuatorStatuses s).trace_eq
  have hat : ∀ key, attemptsAt .actuatorStatuses key es =
      (publishPending env .actuatorStatuses key [] (contentsOf s .actuatorStatuses key)).1 := by
    intro key
    have hfst := congrArg Prod.fst (hpub key)
    simp only [publishedAt] at hfst
    rwa [hes, List.drop_left] at hfst
  refine ⟨⟨es, hes, fun message => ?_⟩, fun key => congrArg Prod.snd (hpub key)⟩
  constructor
  · intro hmem
    obtain ⟨e, he, hhanded⟩ := List.mem_filterMap.mp hmem
    obtain ⟨key, d, items, outcome, rfl, -⟩ := hall e he
    have hkey : Effect.attempted .actuatorStatuses key d items outcome ∈
        attemptsAt .actuatorStatuses key es :=
      List.mem_filter.mpr ⟨he, by simp [isAttemptAt]⟩
    rw [hat] at hkey
    have hslot : keepsAll .actuatorStatuses = false := rfl
    rcases contentsOf_slot hslot s key with hc | ⟨x, hc⟩
    · rw [hc, publishPending_nil] at hkey
      cases hkey
    · rw [hc, publishPending_singleton] at hkey
      simp only [List.nil_append, List.mem_singleton, Effect.attempted.injEq, true_and] at hkey
      obtain ⟨rfl, rfl, rfl⟩ := hkey
      refine ⟨key, x, hc, ?_⟩
      simp only [Effect.handed] at hhanded
      unfold WriteAccepted statusMessage
      cases ho : attemptOutcome env [] .actuatorStatuses key [x] <;> simp_all
  · rintro ⟨key, x, hc, hacc, rfl⟩
    have hmem : Effect.attempted .actuatorStatuses key (deviceOf .actuatorStatuses key) [x]
        .accepted ∈ attemptsAt .actuatorStatuses key es := by
      rw [hat, hc, publishPending_singleton]
      simp only [WriteAccepted] at hacc
      simp [hacc]
    exact List.mem_filterMap.mpr ⟨_, (List.mem_filter.mp hmem).1, rfl⟩

/-- One pass: agreeing writes are stored, and everything is published. -/
theorem Published.pass {u : DataState P} {writes more : List (Str × Item)} {es : Trace}
    (h : Published env s t writes) (henv : Stateless env)
    (hagree : ∀ p ∈ more, ∀ q ∈ more, p.1 = q.1 → p.2 = q.2) (hu : u.trace = t.trace ++ es)
    (hes : es.filterMap Effect.handed = [])
    (hc : ∀ key, contentsOf u .actuatorStatuses key =
      match lastAt key more with
      | none => contentsOf t .actuatorStatuses key
      | some x => [x]) :
    Published env s (publishActuatorStatuses env u) (writes ++ more) := by
  obtain ⟨es₀, ht, hsent⟩ := h.accepted
  obtain ⟨⟨es₁, hv, hsent₁⟩, hleft⟩ := publishActuatorStatuses_published henv u
  constructor
  · refine ⟨es₀ ++ es ++ es₁, by simp only [hv, hu, ht, List.append_assoc], fun message => ?_⟩
    rw [List.filterMap_append, List.filterMap_append, hes, List.append_nil, List.mem_append,
      hsent, hsent₁]
    constructor
    · rintro (⟨write, hw, hacc, hm⟩ | ⟨key, x, hx, hacc, hm⟩)
      · exact ⟨write, List.mem_append_left _ hw, hacc, hm⟩
      · rw [hc key] at hx
        cases hlast : lastAt key more with
        | some y =>
          rw [hlast] at hx
          obtain rfl : y = x := by simpa using hx
          exact ⟨(key, y), List.mem_append_right _ (mem_of_lastAt hlast), hacc, hm⟩
        | none =>
          rw [hlast, h.left, leftAfter] at hx
          cases hold : lastAt key writes with
          | none => simp [hold] at hx
          | some y =>
            rw [hold] at hx
            dsimp only at hx
            split_ifs at hx with hr
            obtain rfl : y = x := by simpa using hx
            rw [WriteAccepted, hr] at hacc
            cases hacc
    · rintro ⟨write, hw, hacc, hm⟩
      rcases List.mem_append.mp hw with hw | hw
      · exact .inl ⟨write, hw, hacc, hm⟩
      · refine .inr ⟨write.1, write.2, ?_, hacc, hm⟩
        rw [hc, lastAt_of_agree hagree hw]
  · intro key
    rw [hleft, leftAfter, lastAt_append, hc]
    cases hlast : lastAt key more with
    | some x =>
      rw [Option.some_or]
      dsimp only
      rw [publishPending_singleton]
    | none =>
      rw [Option.none_or, h.left, leftAfter]
      cases hold : lastAt key writes with
      | none => rw [publishPending_nil]
      | some y =>
        dsimp only
        split_ifs with hr
        · rw [publishPending_singleton]
          simp [hr]
        · rw [publishPending_nil]

/-- Status providers answer from the device key and the reference alone. -/
def ProvidesFromKeys (env : Environment) : Prop :=
  ∀ provider trace trace' key reference,
    env.actuatorStatus provider trace key reference =
      env.actuatorStatus provider trace' key reference

def statusWrite (cfg : Config) (key reference : Str) : Str × Item :=
  (makePersistenceKey key reference, .actuatorStatus <|
    match cfg.callbacks.actuatorStatusProvider.selected with
    | some provider =>
      let status := cfg.env.actuatorStatus provider [] key reference
      ⟨status.value, reference, status.state⟩
    | none => ⟨[], reference, .error⟩)

theorem statuses_addActuatorStatus (d r value : Str) (state : ActuatorState)
    (s : DataState P) (key : Str) :
    contentsOf (addActuatorStatus d r value state s) .actuatorStatuses key =
      if key = makePersistenceKey d r then [.actuatorStatus ⟨value, r, state⟩]
      else contentsOf s .actuatorStatuses key := by
  rw [contentsOf_addActuatorStatus]
  simp [setAt]

theorem refreshActuatorStatus_writes (h : ProvidesFromKeys cfg.env) (d r : Str)
    (s : DataState P) :
    (∃ es, (refreshActuatorStatus cfg d r s).trace = s.trace ++ es ∧
      es.filterMap Effect.handed = []) ∧
    ∀ key, contentsOf (refreshActuatorStatus cfg d r s) .actuatorStatuses key =
      if key = (statusWrite cfg d r).1 then [(statusWrite cfg d r).2]
      else contentsOf s .actuatorStatuses key := by
  unfold refreshActuatorStatus statusWrite
  cases cfg.callbacks.actuatorStatusProvider.selected with
  | some provider =>
    dsimp only
    rw [h provider s.trace [] d r]
    generalize cfg.env.actuatorStatus provider [] d r = status
    refine ⟨⟨[.actuatorStatusProvided provider d r status,
      .added d r (.actuatorStatus ⟨status.value, r, status.state⟩)], ?_, rfl⟩, fun key => ?_⟩
    · exact List.append_assoc _ _ _
    · rw [statuses_addActuatorStatus]
      rfl
  | none =>
    exact ⟨⟨[_], rfl, rfl⟩, fun key => statuses_addActuatorStatus d r [] .error s key⟩

theorem foldl_refresh_writes (h : ProvidesFromKeys cfg.env) (d : Str) (references : List Str)
    (s : DataState P) :
    (∃ es, (references.foldl (fun s r => refreshActuatorStatus cfg d r s) s).trace =
        s.trace ++ es ∧ es.filterMap Effect.handed = []) ∧
    ∀ key, contentsOf (references.foldl (fun s r => refreshActuatorStatus cfg d r s) s)
        .actuatorStatuses key =
      match lastAt key (references.map (statusWrite cfg d)) with
      | none => contentsOf s .actuatorStatuses key
      | some x => [x] := by
  induction references generalizing s with
  | nil => exact ⟨⟨[], by simp, rfl⟩, fun key => rfl⟩
  | cons r references ih =>
    obtain ⟨⟨es, hes, hnone⟩, hc⟩ := refreshActuatorStatus_writes h d r s
    obtain ⟨⟨es', hes', hnone'⟩, hc'⟩ := ih (refreshActuatorStatus cfg d r s)
    refine ⟨⟨es ++ es', ?_, ?_⟩, fun key => ?_⟩
    · rw [List.foldl_cons, hes', hes, List.append_assoc]
    · rw [List.filterMap_append, hnone, hnone', List.append_nil]
    · rw [List.foldl_cons, hc', hc, List.map_cons, lastAt]
      cases lastAt key (references.map (statusWrite cfg d)) with
      | some x => rfl
      | none =>
        rw [Option.none_or]
        by_cases hk : key = (statusWrite cfg d r).1
        · rw [if_pos hk, if_pos hk.symm]
        · rw [if_neg hk, if_neg (Ne.symm hk)]

/-- Two references of one device never share a key. -/
theorem statusWrite_agree (cfg : Config) (d : Str) (references : List Str) :
    ∀ p ∈ references.map (statusWrite cfg d), ∀ q ∈ references.map (statusWrite cfg d),
      p.1 = q.1 → p.2 = q.2 := by
  intro p hp q hq hpq
  obtain ⟨r, -, rfl⟩ := List.mem_map.mp hp
  obtain ⟨r', -, rfl⟩ := List.mem_map.mp hq
  have hjoin : d ++ PERSISTENCE_KEY_DELIMITER :: r = d ++ PERSISTENCE_KEY_DELIMITER :: r' := hpq
  obtain ⟨-, rfl⟩ := List.cons.inj (List.append_cancel_left hjoin)
  rfl

variable {writes : List (Str × Item)}

theorem Published.refresh (h : Published cfg.env s t writes) (henv : Stateless cfg.env)
    (hprov : ProvidesFromKeys cfg.env) (d : Str) (references : List Str) :
    Published cfg.env s (publishActuatorStatuses cfg.env
      (references.foldl (fun s r => refreshActuatorStatus cfg d r s) t))
      (writes ++ references.map (statusWrite cfg d)) := by
  obtain ⟨⟨es, hes, hnone⟩, hc⟩ := foldl_refresh_writes hprov d references t
  exact h.pass henv (statusWrite_agree cfg d references) hes hnone hc

def actuatorsOf (devices : List (Str × Device)) : List (Str × Str) :=
  devices.flatMap fun kvp => kvp.2.getActuatorReferences.map fun reference => (kvp.1, reference)

def writeOf (cfg : Config) (actuator : Str × Str) : Str × Item :=
  statusWrite cfg actuator.1 actuator.2

theorem Published.refreshDevices (h : Published cfg.env s t writes) (henv : Stateless cfg.env)
    (hprov : ProvidesFromKeys cfg.env) {devices : List (Str × Device)}
    (hkeys : ∀ kvp ∈ devices, kvp.2.key = kvp.1) :
    Published cfg.env s (devices.foldl (fun s kvp => refreshDevice cfg kvp.2 s) t)
      (writes ++ (actuatorsOf devices).map (writeOf cfg)) := by
  induction devices generalizing t writes with
  | nil => simpa [actuatorsOf] using h
  | cons kvp devices ih =>
    have hfirst := h.refresh henv hprov kvp.2.key kvp.2.getActuatorReferences
    have hrest := ih hfirst fun kvp' hmem => hkeys kvp' (List.mem_cons_of_mem _ hmem)
    have hwrites : (actuatorsOf (kvp :: devices)).map (writeOf cfg) =
        kvp.2.getActuatorReferences.map (statusWrite cfg kvp.2.key) ++
          (actuatorsOf devices).map (writeOf cfg) := by
      simp [actuatorsOf, hkeys kvp List.mem_cons_self, writeOf, Function.comp_def]
    rw [hwrites, ← List.append_assoc]
    exact hrest

theorem keysAgree_toList {devices : Registry} (h : KeysAgree devices) :
    ∀ kvp ∈ devices.toList, kvp.2.key = kvp.1 := by
  intro kvp hmem
  exact h kvp.1 kvp.2 (Std.ExtTreeMap.mem_toList_iff_getElem?_eq_some.mp hmem)

/-- What a get of one of the registry's actuators writes: everything, if the get is the
broadcast itself. -/
def getWrites (cfg : Config) (devices : Registry) (actuator : Str × Str) : List (Str × Item) :=
  if actuator.1.isEmpty && actuator.2.isEmpty then
    (actuatorsOf devices.toList).map (writeOf cfg)
  else [writeOf cfg actuator]

theorem actuator_defined {devices : Registry} {actuator : Str × Str}
    (h : actuator ∈ actuatorsOf devices.toList) :
    deviceExists devices actuator.1 = true ∧
      actuatorDefinedForDevice devices actuator.1 actuator.2 = true := by
  obtain ⟨kvp, hkvp, hmem⟩ := List.mem_flatMap.mp h
  obtain ⟨reference, hr, rfl⟩ := List.mem_map.mp hmem
  have hdev := Std.ExtTreeMap.mem_toList_iff_getElem?_eq_some.mp hkvp
  refine ⟨(deviceExists_iff _ _).mpr (mem_of_getElem? hdev), ?_⟩
  simpa [actuatorDefinedForDevice, hdev] using hr

theorem Published.get (h : Published cfg.env s t writes) (henv : Stateless cfg.env)
    (hprov : ProvidesFromKeys cfg.env) {devices : Registry} (hkeys : KeysAgree devices)
    {actuator : Str × Str} (hmem : actuator ∈ actuatorsOf devices.toList) :
    Published cfg.env s (runActuatorGet cfg devices actuator.1 actuator.2 t)
      (writes ++ getWrites cfg devices actuator) := by
  obtain ⟨hexists, hdefined⟩ := actuator_defined hmem
  unfold runActuatorGet getWrites
  by_cases hempty : (actuator.1.isEmpty && actuator.2.isEmpty) = true
  · rw [if_pos hempty, if_pos hempty]
    exact h.refreshDevices henv hprov (keysAgree_toList hkeys)
  · rw [if_neg hempty, if_neg hempty, hexists, hdefined]
    exact h.refresh henv hprov actuator.1 [actuator.2]

def individualGets (devices : Registry) : List Command :=
  (actuatorsOf devices.toList).map fun actuator =>
    .handleActuatorGetCommand actuator.1 actuator.2

/-- The data after the worker has executed the commands, each recorded as it starts. -/
def executeAll (cfg : Config) (devices : Registry) (now : ℕ) (commands : List Command)
    (s : DataState P) : DataState P :=
  commands.foldl (fun s c => (execute cfg devices now (s.log (.began c devices)) c).data) s

theorem Published.began (h : Published env s t writes) (c : Command) (devices : Registry) :
    Published env s (t.log (.began c devices)) writes :=
  h.quiet (show (t.log (.began c devices)).trace = t.trace ++ [.began c devices] from rfl) rfl
    fun _ => rfl

theorem Published.gets (h : Published cfg.env s t writes) (henv : Stateless cfg.env)
    (hprov : ProvidesFromKeys cfg.env) {devices : Registry} (hkeys : KeysAgree devices) (now : ℕ)
    (actuators : List (Str × Str)) (hmem : ∀ a ∈ actuators, a ∈ actuatorsOf devices.toList) :
    Published cfg.env s (executeAll cfg devices now (actuators.map fun a =>
        .handleActuatorGetCommand a.1 a.2) t)
      (writes ++ actuators.flatMap (getWrites cfg devices)) := by
  induction actuators generalizing t writes with
  | nil => simpa [executeAll] using h
  | cons a actuators ih =>
    have hfirst := (h.began (.handleActuatorGetCommand a.1 a.2) devices).get henv hprov hkeys
      (hmem a List.mem_cons_self)
    have hrest := ih hfirst fun b hb => hmem b (List.mem_cons_of_mem _ hb)
    rw [List.flatMap_cons, ← List.append_assoc]
    exact hrest

theorem getWrites_cases (cfg : Config) (devices : Registry) (a : Str × Str) :
    getWrites cfg devices a = [writeOf cfg a] ∨
      getWrites cfg devices a = (actuatorsOf devices.toList).map (writeOf cfg) := by
  unfold getWrites
  split_ifs
  · exact .inr rfl
  · exact .inl rfl

/-- From an empty store of statuses, the broadcast get and the individual gets in registry
order have the same messages accepted and leave the same statuses behind. -/
theorem broadcast_get_agrees (cfg : Config) (henv : Stateless cfg.env)
    (hprov : ProvidesFromKeys cfg.env) (devices : Registry) (hkeys : KeysAgree devices)
    (now : ℕ) (s : DataState P) (hempty : ∀ key, contentsOf s .actuatorStatuses key = []) :
    ∃ broadcast individual,
      (executeAll cfg devices now [.handleActuatorGetCommand [] []] s).trace =
        s.trace ++ broadcast ∧
      (executeAll cfg devices now (individualGets devices) s).trace = s.trace ++ individual ∧
      (∀ message, (message, true) ∈ broadcast.filterMap Effect.handed ↔
        (message, true) ∈ individual.filterMap Effect.handed) ∧
      ∀ key, contentsOf (executeAll cfg devices now [.handleActuatorGetCommand [] []] s)
          .actuatorStatuses key =
        contentsOf (executeAll cfg devices now (individualGets devices) s)
          .actuatorStatuses key := by
  have hstart := published_start cfg.env hempty
  have hall := ((hstart.began (.handleActuatorGetCommand [] []) devices).refreshDevices henv hprov
    (keysAgree_toList hkeys))
  have heach := hstart.gets henv hprov hkeys now
    (actuatorsOf devices.toList) fun a ha => ha
  rw [List.nil_append] at hall heach
  have hcases : ∀ a ∈ actuatorsOf devices.toList, _ := fun a _ => getWrites_cases cfg devices a
  obtain ⟨es, hes, hsent⟩ := hall.accepted
  obtain ⟨es', hes', hsent'⟩ := heach.accepted
  refine ⟨es, es', hes, hes', fun message => ?_, fun key => ?_⟩
  · rw [hsent, hsent']
    simp only [mem_flatMap_repeated hcases]
  · have hleft := hall.left key
    have hleft' := heach.left key
    rw [leftAfter, lastAt_flatMap_repeated hcases, ← leftAfter] at hleft'
    exact hleft.trans hleft'.symm

/-- Two devices whose actuators share the persistence key `a+b+c`, all messages rejected. -/
theorem broadcast_get_agrees_shared_key :
    let cfg := Config.bare { Environment.obliging with accepts := fun _ _ => false }
    let a := actuatorDevice ['a'] ['b', '+', 'c']
    let b := actuatorDevice ['a', '+', 'b'] ['c']
    let devices := ((∅ : Registry).insert a.key a).insert b.key b
    let s := DataState.initial Persistence.inMemory
    ∀ key, contentsOf (executeAll cfg devices 0 [.handleActuatorGetCommand [] []] s)
        .actuatorStatuses key =
      contentsOf (executeAll cfg devices 0 (individualGets devices) s) .actuatorStatuses key := by
  intro cfg a b devices s
  have hkeys : KeysAgree devices := by
    refine keysAgree_insert (keysAgree_insert ?_ rfl) rfl
    intro k device h
    simp at h
  obtain ⟨_, _, _, _, _, h⟩ := broadcast_get_agrees cfg (fun _ _ _ => ⟨rfl, rfl⟩)
    (fun _ _ _ _ _ => rfl) devices hkeys 0 s fun key => contentsOf_initial .actuatorStatuses key
  exact h

end WolkGateway.Wolk
