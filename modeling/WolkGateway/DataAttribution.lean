import WolkGateway.WolkRegistry
import WolkGateway.DataServicePublishing
import WolkGateway.DataServiceLatestValue

/-!
# Attribution of published data

A persistence key is a device key and a reference joined by `+`, and is split again at the
first `+`. As long as data is stored for device keys without `+` only, and under names that
are not empty, whatever is handed over for a device was added for it, and `publish` with a
device key publishes that device's data and no other.
-/

namespace WolkGateway.Wolk
open DeviceModel DataService DataLedger GuardedRuns Transcripts
open DataServiceCalls DataServiceConservation DataServiceLatestValue DataServicePublishing

/-- A pair of names that a persistence key keeps apart from every other. -/
def Plain (d r : Str) : Prop := PERSISTENCE_KEY_DELIMITER ∉ d ∧ d ≠ [] ∧ r ≠ []

instance (d r : Str) : Decidable (Plain d r) := inferInstanceAs (Decidable (_ ∧ _))

/-- The device keys and references a command stores a reading, an alarm or an actuator
status for. -/
def stores (devices : Registry) : Command → List (Str × Str)
  | .addSensorReading d r _ _ => if sensorDefinedForDevice devices d r then [(d, r)] else []
  | .addAlarm d r _ _ => if alarmDefinedForDevice devices d r then [(d, r)] else []
  | .publishActuatorStatus d r _ => [(d, r)]
  | .handleActuatorSetCommand d r _ =>
    if actuatorDefinedForDevice devices d r then [(d, r)] else []
  | .handleActuatorGetCommand d r =>
    if d.isEmpty && r.isEmpty then
      devices.toList.flatMap fun kvp => kvp.2.getActuatorReferences.map (kvp.2.key, ·)
    else if actuatorDefinedForDevice devices d r then [(d, r)] else []
  | _ => []

variable {P : Persistence} {cfg : Config} {s t : State P}

/-- The worker begins no command that stores data under other names. -/
def StoresPlain (s : State P) (e : Event) : Prop :=
  e = .worker → s.running = [] →
    ∀ c ∈ s.queue.head?, ∀ pair ∈ stores s.devices c, Plain pair.1 pair.2

instance (s : State P) (e : Event) : Decidable (StoresPlain s e) :=
  inferInstanceAs (Decidable (_ → _ → _))

theorem broadcast_stores {devices : Registry} {key r : Str} {device : Device}
    (hk : devices[key]? = some device) (hr : r ∈ device.getActuatorReferences) :
    (device.key, r) ∈ stores devices (.handleActuatorGetCommand [] []) := by
  simp only [stores, List.isEmpty_nil, Bool.and_self, if_true, List.mem_flatMap]
  exact ⟨(key, device), Std.ExtTreeMap.mem_toList_iff_getElem?_eq_some.mpr hk,
    List.mem_map.mpr ⟨r, hr, rfl⟩⟩

theorem refreshes_stores {devices : Registry} (hkeys : KeysAgree devices) {c : Command}
    {d r : Str} (h : Refreshes devices c d r) : (d, r) ∈ stores devices c := by
  cases h with
  | set _ _ _ h => simp [stores, h]
  | get _ _ h =>
    by_cases he : d.isEmpty && r.isEmpty
    · -- The empty names are asked for as a broadcast, which reaches this actuator as well.
      obtain ⟨rfl, rfl⟩ : d = [] ∧ r = [] := by simpa [List.isEmpty_iff] using he
      obtain ⟨device, hdev⟩ := exists_of_mem (mem_of_actuatorDefined h)
      have hr : [] ∈ device.getActuatorReferences := by
        simpa [actuatorDefinedForDevice, hdev] using h
      have hkey : device.key = [] := hkeys _ _ hdev
      have hbroadcast := broadcast_stores hdev hr
      rwa [hkey] at hbroadcast
    · simp [stores, he, h]
  | broadcast key device reference hk hr => exact broadcast_stores hk hr

theorem stores_of_mayEmit {devices : Registry} (hkeys : KeysAgree devices) {c : Command}
    {d r : Str} {item : Item} (h : MayEmit devices c (.added d r item))
    (hf : item.family ≠ .configurations) : (d, r) ∈ stores devices c := by
  cases h with
  | sensorReading _ _ _ _ _ _ h => simp [stores, h]
  | alarm _ _ _ _ _ h => simp [stores, h]
  | actuatorStatusValue => simp [stores]
  | actuatorStatus _ _ _ _ h => exact refreshes_stores hkeys h
  | configurationValue | configuration => exact absurd rfl hf

theorem mem_addedUnder {family : Family} {key : Str} {item : Item} {trace : Trace} :
    item ∈ addedUnder family key trace ↔
      ∃ d r, .added d r item ∈ trace ∧ item.family = family ∧ slotKey d r item = key := by
  simp only [addedUnder, List.mem_filterMap]
  constructor
  · rintro ⟨e, he, h⟩
    cases e with
    | added d r x =>
      simp only [addedTo, Option.ite_none_right_eq_some, Option.some.injEq] at h
      obtain ⟨⟨hf, hk⟩, rfl⟩ := h
      exact ⟨d, r, he, hf, hk⟩
    | _ => simp [addedTo] at h
  · rintro ⟨d, r, he, hf, hk⟩
    exact ⟨_, he, by simp [addedTo, hf, hk]⟩

def SourcedEffect (before : Trace) : Effect → Prop
  | .attempted family key _ items _ => ∀ item ∈ items, item ∈ addedUnder family key before
  | _ => True

structure Accounted (env : Environment) (L : Ledger) : Prop where
  fifo : ∀ family key, keepsAll family = true → Balanced family key L
  slot : ∀ family key, keepsAll family = false → SlotInvariant family key L
  audited : Justified (AuditedEffect env) L.trace
  sourced : Justified SourcedEffect L.trace

theorem addedUnder_of_stored {env : Environment} {L : Ledger} (h : Accounted env L)
    {family : Family} {key : Str} {item : Item} (hi : item ∈ L.contents family key) :
    item ∈ addedUnder family key L.trace := by
  cases hf : keepsAll family with
  | true =>
    rw [show addedUnder family key L.trace = _ from h.fifo family key hf]
    exact List.mem_append_right _ hi
  | false =>
    rw [(h.slot family key hf).pending, Option.mem_toList] at hi
    exact List.mem_of_getLast? (getLast_of_pendingValue hi)

theorem move_accounted {env : Environment} {L M : Ledger} {e : Effect} (h : Accounted env L)
    (hm : Move env L e M) : Accounted env M := by
  have hsource : SourcedEffect L.trace e := by
    cases hm with
    | attempt f k items outcome hitems =>
      intro item hi
      have hstored : item ∈ L.contents f k := by
        rw [hitems] at hi
        exact List.mem_of_mem_take hi
      exact addedUnder_of_stored h hstored
    | other _ he => cases e <;> first | exact he.elim | trivial
    | add => trivial
  constructor
  · intro f k hf
    exact move_balanced hf k (h.fifo f k hf) hm
  · intro f k hf
    exact move_slotInvariant hf (h.slot f k hf) hm
  · rw [hm.trace_eq, justified_snoc]
    exact ⟨h.audited, move_audited hm⟩
  · rw [hm.trace_eq, justified_snoc]
    exact ⟨h.sourced, hsource⟩

theorem accounted_empty (env : Environment) : Accounted env emptyLedger :=
  ⟨fun _ _ _ => rfl, fun _ _ _ => ⟨rfl, justified_nil⟩, justified_nil, justified_nil⟩

theorem emits_sent {e : Event} {message : OutboundMessage} {outcome : Outcome}
    (h : Emits s e (.sent message outcome)) {f : Family} {d : Str} {items : List Item} :
    message ≠ .data f d items := by
  rintro rfl
  cases h with
  | command _ _ _ _ _ h => cases h with | sent _ _ _ h => cases h
  | access _ _ _ _ h => cases h
  | aside _ _ h => cases h

/-- The invariant: the store is accounted for, and what it was given has plain names. -/
structure Attributable (cfg : Config) (s : State P) : Prop where
  keys : KeysAgree s.devices
  accounted : Accounted cfg.env (ledgerOf s.data)
  plain : ∀ d r item, .added d r item ∈ s.trace → item.family ≠ .configurations → Plain d r
  unsent : ∀ f d items outcome, .sent (.data f d items) outcome ∉ s.trace

theorem attributable_step (s : State P) (e : Event) (h : Attributable cfg s)
    (hg : StoresPlain s e) : Attributable cfg (step cfg s e) := by
  obtain ⟨u, hu, hall⟩ := step_trace cfg s e
  have haccounted : Accounted cfg.env (ledgerOf (step cfg s e).data) :=
    (step_moves s e).invariant (fun L e M hL _ hm => move_accounted hL hm) h.accounted
  refine ⟨keysAgree_step s e h.keys, haccounted, ?_, ?_⟩
  · intro d r item hmem hf
    rw [hu, List.mem_append] at hmem
    rcases hmem with hmem | hmem
    · exact h.plain d r item hmem hf
    · cases hall _ hmem with
      | command c queue _ hr hq hm =>
        have hstores : (d, r) ∈ stores s.devices c := stores_of_mayEmit h.keys hm hf
        exact hg rfl hr c (by simp [hq]) (d, r) hstores
      | access _ _ _ _ ha => cases ha
      | aside _ _ ha => cases ha
  · intro f d items outcome hmem
    rw [hu, List.mem_append] at hmem
    rcases hmem with hmem | hmem
    · exact h.unsent f d items outcome hmem
    · exact emits_sent (hall _ hmem) rfl

theorem attributable_reach {events : List Event}
    (hg : Guarded (step cfg) StoresPlain (.initial P) events) :
    Attributable cfg (reach cfg P events) := by
  refine invariant_of_guarded (I := Attributable cfg) attributable_step ⟨?_, ?_, ?_, ?_⟩ hg
  · intro k device h
    simp [State.initial] at h
  · exact ledgerOf_initial (P := P) ▸ accounted_empty cfg.env
  all_goals simp [State.trace, State.initial, DataState.initial]

/-- A device key without the delimiter can be read off the key its data is stored under. -/
theorem deviceOf_slotKey {d r : Str} {item : Item}
    (hd : item.family ≠ .configurations → PERSISTENCE_KEY_DELIMITER ∉ d) :
    deviceOf item.family (slotKey d r item) = d := by
  cases item with
  | configuration => rfl
  | _ =>
    have hparse := parsePersistenceKey_makePersistenceKey r (hd (by simp [Item.family]))
    exact congrArg Prod.fst hparse

theorem parses_slotKey {d r : Str} {item : Item} (hf : item.family ≠ .configurations)
    (hp : Plain d r) : Parses (slotKey d r item) := by
  have hparse := parsePersistenceKey_makePersistenceKey r hp.1
  cases item with
  | configuration => exact absurd rfl hf
  | _ => simp only [slotKey, Parses, hparse]; exact hp.2

/-- What an attempt finds under a key was added for the device of the key, and the key parses. -/
theorem attempt_source (h : Attributable cfg s) {before after : Trace} {f : Family}
    {key k : Str} {items : List Item} {outcome : Outcome}
    (ht : s.trace = before ++ .attempted f key k items outcome :: after) :
    outcome ≠ .unparsable ∧ ∀ item ∈ items, item.family = f ∧ ∃ r, .added k r item ∈ before := by
  have ha : Audited cfg.env before f key k items outcome := h.accounted.audited _ _ _ ht
  have hs : ∀ item ∈ items, item ∈ addedUnder f key before := h.accounted.sourced _ _ _ ht
  have hadded : ∀ item ∈ items, ∃ d r, .added d r item ∈ before ∧ item.family = f ∧
      slotKey d r item = key ∧ (item.family ≠ .configurations → Plain d r) := by
    intro item hi
    obtain ⟨d, r, hmem, hf, hk⟩ := mem_addedUnder.mp (hs item hi)
    exact ⟨d, r, hmem, hf, hk, h.plain d r item (by rw [ht]; exact List.mem_append_left _ hmem)⟩
  constructor
  · obtain ⟨item, hi⟩ := List.exists_mem_of_length_pos ha.nonempty
    obtain ⟨d, r, -, hf, rfl, hp⟩ := hadded item hi
    rw [ha.outcome, attemptOutcome]
    split_ifs with hparse
    · rw [← hf] at hparse
      exact absurd (parses_slotKey hparse.1 (hp hparse.1)) hparse.2
    · exact outcome_ne_unparsable _ _ _
  · intro item hi
    obtain ⟨d, r, hmem, rfl, rfl, hp⟩ := hadded item hi
    rw [ha.device, deviceOf_slotKey fun hf => (hp hf).1]
    exact ⟨rfl, r, hmem⟩

theorem runPublishDevice_eq {devices : Registry} {k : Str} (hk : k ∈ devices) (s : DataState P) :
    runPublishDevice cfg devices k s =
      publishFamilyOf cfg.env .sensorReadings k (publishFamilyOf cfg.env .alarms k
        (publishFamilyOf cfg.env .configurations k
          (publishFamilyOf cfg.env .actuatorStatuses k s))) := by
  simp [runPublishDevice, hk, publishFamilyOf]

def AttemptFor (k : Str) (e : Effect) : Prop := ∃ f, AttemptAt f (Addressed f k) e

theorem publishFamilyOf_attempts (f : Family) (k : Str) (s : DataState P) :
    Moves cfg.env (AttemptFor k) s (publishFamilyOf cfg.env f k s) :=
  (publishFamilyOf_moves f k s).mono fun _ he => ⟨f, he⟩

theorem isAttempt_of_for {k : Str} (e : Effect) (h : AttemptFor k e) : IsAttempt e := by
  obtain ⟨f, he⟩ := h
  exact AttemptAt.isAttempt e he

theorem runPublishDevice_attempts (cfg : Config) {devices : Registry} {k : Str} (hk : k ∈ devices)
    (s : DataState P) : Moves cfg.env (AttemptFor k) s (runPublishDevice cfg devices k s) := by
  rw [runPublishDevice_eq hk]
  exact (publishFamilyOf_attempts _ k s).trans ((publishFamilyOf_attempts _ k _).trans
    ((publishFamilyOf_attempts _ k _).trans (publishFamilyOf_attempts _ k _)))

theorem runPublishDevice_settles (cfg : Config) {devices : Registry} {k : Str} (hk : k ∈ devices)
    {f : Family} {key : Str} (hd : deviceOf f key = k) (s : DataState P) :
    Settles f key s (runPublishDevice cfg devices k s) := by
  rw [runPublishDevice_eq hk]
  have hm : ∀ f (s : DataState P), Moves cfg.env IsAttempt s (publishFamilyOf cfg.env f k s) :=
    fun f s => (publishFamilyOf_attempts f k s).mono isAttempt_of_for
  exact .inTurn hm (publishFamilyOf_settles f hd) s

/-- From `s` to `t` the worker made the calls `es`, which publish the data added for the
device, and that only. -/
structure PublishesOnly (k : Str) (s t : State P) (es : Trace) : Prop where
  calls : t.trace = s.trace ++ .began (.publishDevice k) s.devices :: es
  /-- Every call sends data that was added for the device. -/
  attempts : ∀ e ∈ es, ∃ f key items outcome, e = .attempted f key k items outcome ∧
    outcome ≠ .unparsable ∧ ∀ item ∈ items, ∃ r, .added k r item ∈ s.trace
  /-- What was stored for the device is consumed or still stored, and there is something
  still stored only where an attempt was not accepted. -/
  published : ∀ r item, .added k r item ∈ s.trace →
    contentsOf s.data item.family (slotKey k r item) =
      consumedItems item.family (slotKey k r item) es ++
        contentsOf t.data item.family (slotKey k r item) ∧
    (contentsOf t.data item.family (slotKey k r item) = [] ∨
      ∃ e ∈ es, Refused item.family (slotKey k r item) e)
  /-- What was stored for another device is left alone. -/
  others : ∀ d r item, .added d r item ∈ s.trace → d ≠ k →
    contentsOf t.data item.family (slotKey d r item) =
      contentsOf s.data item.family (slotKey d r item)

theorem publishDevice_publishesOnly (h : Attributable cfg s)
    (ht : Attributable cfg (step cfg s .worker)) {k : Str} {queue : List Command}
    (hr : s.running = []) (hq : s.queue = .publishDevice k :: queue) (hk : k ∈ s.devices) :
    ∃ es, PublishesOnly k s (step cfg s .worker) es := by
  set began := s.data.log (.began (.publishDevice k) s.devices) with hbegan
  have hdata : (step cfg s .worker).data = runPublishDevice cfg s.devices k began := by
    rw [step_begins hr hq]
    rfl
  have hm := runPublishDevice_attempts cfg hk began
  rw [← hdata] at hm
  obtain ⟨es, hes, hfor⟩ := hm.trace_eq
  have htake := moves_take (hm.mono isAttempt_of_for) hes
  have hcalls : (step cfg s .worker).trace =
      s.trace ++ .began (.publishDevice k) s.devices :: es := by
    rw [State.trace, hes]
    simp [hbegan, DataState.log, State.trace]
  have hdevice : ∀ d r item, .added d r item ∈ s.trace →
      deviceOf item.family (slotKey d r item) = d :=
    fun d r item hmem => deviceOf_slotKey fun hf => (h.plain d r item hmem hf).1
  refine ⟨es, hcalls, fun e he => ?_, fun r item hmem => ⟨htake _ _, ?_⟩,
    fun d r item hmem hne => ?_⟩
  · obtain ⟨f, key, d, items, outcome, rfl, hkey⟩ := hfor e he
    obtain ⟨before, after, rfl⟩ := List.append_of_mem he
    have hsplit : (step cfg s .worker).trace = (s.trace ++ .began (.publishDevice k) s.devices ::
        before) ++ .attempted f key d items outcome :: after := by rw [hcalls]; simp
    have ha : Audited cfg.env _ f key d items outcome := ht.accounted.audited _ _ _ hsplit
    obtain rfl : d = k := ha.device.trans hkey
    obtain ⟨hparse, hsource⟩ := attempt_source ht hsplit
    refine ⟨f, key, items, outcome, rfl, hparse, fun item hi => ?_⟩
    obtain ⟨-, r, hmem⟩ := hsource item hi
    refine ⟨r, ?_⟩
    simp only [List.mem_append, List.mem_cons, reduceCtorEq, false_or] at hmem
    refine hmem.resolve_right fun hmem => ?_
    obtain ⟨_, _, _, _, _, heq, -⟩ := isAttempt_of_for _ (hfor _ (List.mem_append_left _ hmem))
    cases heq
  · have hs := runPublishDevice_settles cfg hk (hdevice k r item hmem) began
    rw [← hdata] at hs
    obtain ⟨es', hes', hs⟩ := hs
    rwa [List.append_cancel_left (hes.symm.trans hes')]
  · have hnone : consumedItems item.family (slotKey d r item) es = [] :=
      consumedItems_elsewhere hfor fun haddr => hne ((hdevice d r item hmem).symm.trans haddr)
    have htaken := htake item.family (slotKey d r item)
    rw [hnone, List.nil_append] at htaken
    exact htaken.symm

/-- Who the data in a state, and in the messages handed over before, belongs to. -/
structure Attributed (cfg : Config) (s : State P) : Prop where
  /-- What is handed over for a device was added by a call with exactly its key. -/
  handed : ∀ before e after, s.trace = before ++ e :: after → ∀ f k items accepted,
    f ≠ .configurations → e.handed = some (.data f k items, accepted) →
      ∀ item ∈ items, item.family = f ∧ ∃ r, .added k r item ∈ before
  /-- No two pairs of a device key and a reference share a slot. -/
  slots : ∀ d r item d' r' item', .added d r item ∈ s.trace → .added d' r' item' ∈ s.trace →
    item.family ≠ .configurations → item'.family ≠ .configurations →
      slotKey d r item = slotKey d' r' item' → d = d' ∧ r = r'
  /-- What is stored under a key of a first-in first-out family is what was added there and
  not consumed, and under a key of a last-value family the value added last. -/
  stored : ∀ f key,
    if keepsAll f then
      addedUnder f key s.trace = consumedItems f key s.trace ++ contentsOf s.data f key
    else contentsOf s.data f key = (pendingValue f key s.trace).toList
  /-- `publish` with a device key publishes the data of that device, and that only. -/
  publishes : ∀ k queue, s.running = [] → s.queue = .publishDevice k :: queue → k ∈ s.devices →
    ∃ es, PublishesOnly k s (step cfg s .worker) es

/-- In a run that stores data under plain names only, published data is attributed to the
device it was added for, in every state. -/
theorem data_attributed (P : Persistence) (cfg : Config) (events : List Event)
    (hg : Guarded (step cfg) StoresPlain (.initial P) events) :
    Attributed cfg (reach cfg P events) := by
  have h := attributable_reach hg
  refine ⟨?_, ?_, fun f key => ?_, fun k queue hr hq hk => ?_⟩
  · intro before e after ht f k items accepted hf he
    cases e with
    | attempted f' key d items' outcome =>
      obtain ⟨-, hsource⟩ := attempt_source h ht
      cases outcome <;> simp only [Effect.handed, Option.some.injEq, Prod.mk.injEq,
        OutboundMessage.data.injEq, reduceCtorEq] at he
      all_goals
        obtain ⟨⟨rfl, rfl, rfl⟩, -⟩ := he
        exact hsource
    | sent message outcome =>
      have hmem : .sent message outcome ∈ (reach cfg P events).trace := by rw [ht]; simp
      cases outcome <;> simp only [Effect.handed, Option.some.injEq, Prod.mk.injEq,
        reduceCtorEq] at he
      all_goals
        obtain ⟨rfl, -⟩ := he
        exact absurd hmem (h.unsent f k items _)
    | _ => simp [Effect.handed] at he
  · intro d r item d' r' item' hmem hmem' hf hf' heq
    have hp := h.plain d r item hmem hf
    have hp' := h.plain d' r' item' hmem' hf'
    have hslot : ∀ (d r : Str) (item : Item), item.family ≠ .configurations →
        slotKey d r item = makePersistenceKey d r := by
      intro d r item hf
      cases item <;> first | rfl | exact absurd rfl hf
    rw [hslot _ _ _ hf, hslot _ _ _ hf'] at heq
    exact DelimitedPairs.join_injective hp.1 hp'.1 heq
  · split_ifs with hf
    · exact h.accounted.fifo f key hf
    · exact (h.accounted.slot f key (by simpa using hf)).pending
  · have hnext : StoresPlain (reach cfg P events) .worker := by
      intro _ _ c hc pair hpair
      obtain rfl : Command.publishDevice k = c := by simpa [hq] using hc
      simp [stores] at hpair
    exact publishDevice_publishesOnly h (attributable_step _ _ h hnext) hr hq hk

def equippedDevice (key sensor actuator : Str) : Device :=
  ⟨key, key, ⟨[], [⟨sensor, []⟩], [], [⟨actuator, []⟩]⟩⟩

def plainKeys : List Event :=
  [Event.api (.addDevice (equippedDevice ['a'] ['s'] ['b', '+', 'c'])),
    .api (.addDevice (equippedDevice ['b'] ['s'] ['c'])),
    .api (.addSensorReading ['a'] ['s'] ['1'] 0), .api (.addSensorReading ['b'] ['s'] ['2'] 0),
    .api (.publishActuatorStatus ['a'] ['b', '+', 'c']), .api (.publishDevice ['b'])] ++
  List.replicate 8 Event.worker

theorem data_attributed_plain :
    Attributed (.bare .obliging) (reach (.bare .obliging) .inMemory plainKeys) :=
  data_attributed .inMemory (.bare .obliging) plainKeys (by decide +kernel)

/-- The two devices again, the second under the key `a+b`. -/
def plusInKey : List Event :=
  [Event.api (.addDevice (equippedDevice ['a'] ['s'] ['b', '+', 'c'])),
    .api (.addDevice (equippedDevice ['a', '+', 'b'] ['s'] ['c'])),
    .api (.connect false)] ++ List.replicate 20 Event.worker ++
  [Event.api (.addSensorReading ['a', '+', 'b'] ['s'] ['2'] 0), .api (.publishDevice ['a']),
    .worker, .worker]

def addsFor (d : Str) : Effect → Bool
  | .added d' _ _ => d' = d
  | _ => false

/-- Publishing the device `a` hands over, as its own, a reading that was added for `a+b`,
though nothing was ever added for `a`; and `a`, `b+c` has the slot of `a+b`, `c`. -/
theorem reading_published_for_other :
    let s := reach (.bare .obliging) .inMemory plusInKey
    some (.data .sensorReadings ['a'] [.sensorReading ⟨[['2']], ['s'], 0⟩], true) ∈
      s.trace.map Effect.handed ∧
    (∀ e ∈ s.trace, addsFor ['a'] e = false) ∧
    makePersistenceKey ['a'] ['b', '+', 'c'] = makePersistenceKey ['a', '+', 'b'] ['c'] ∧
    ¬ Attributed (.bare .obliging) s := by
  have hhanded : some (.data .sensorReadings ['a'] [.sensorReading ⟨[['2']], ['s'], 0⟩], true) ∈
      (reach (.bare .obliging) .inMemory plusInKey).trace.map Effect.handed := by decide +kernel
  have hnone : ∀ e ∈ (reach (.bare .obliging) .inMemory plusInKey).trace,
      addsFor ['a'] e = false := by decide +kernel
  refine ⟨hhanded, hnone, by decide, fun h => ?_⟩
  obtain ⟨e, he, heq⟩ := List.mem_map.mp hhanded
  obtain ⟨before, after, ht⟩ := List.append_of_mem he
  obtain ⟨-, r, hadd⟩ := h.handed before e after ht _ _ _ _ (by simp) heq _
    (List.mem_singleton_self _)
  have hfor := hnone (.added ['a'] r _) (by rw [ht]; exact List.mem_append_left _ hadd)
  simp [addsFor] at hfor

end WolkGateway.Wolk
