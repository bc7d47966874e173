import WolkGateway.WolkRegistry
import WolkGateway.Transcripts

/-!
# The last will

The message left with the connectivity service for an uncontrolled disconnect names the
devices as they were when a device was last added. Removing a device does not renew it.
-/

namespace WolkGateway.Wolk
open DeviceModel DataService DataLedger GuardedRuns Transcripts

/-- The device keys the message last given to `setUncontrolledDisconnectMessage` names. -/
def lastWill (trace : Trace) : Option (List Str) :=
  trace.foldl (fun will e => match e with
    | .setUncontrolledDisconnectMessage deviceKeys => some deviceKeys
    | _ => will) none

/-- The devices removed since a device was last added. -/
def removedSinceAdd (trace : Trace) : List Str :=
  trace.foldl (fun removed e => match e with
    | .deviceAdded _ => []
    | .deviceRemoved d => removed ++ [d]
    | _ => removed) []

inductive ConcernsWill : Effect → Prop
  | added (device : Device) : ConcernsWill (.deviceAdded device)
  | removed (d : Str) : ConcernsWill (.deviceRemoved d)
  | given (deviceKeys : List Str) : ConcernsWill (.setUncontrolledDisconnectMessage deviceKeys)

theorem lastWill_append {t u : Trace} (h : ∀ e ∈ u, ¬ ConcernsWill e) :
    lastWill (t ++ u) = lastWill t := by
  refine foldl_append_of_ignored (fun e he b => ?_) none
  cases e with
  | setUncontrolledDisconnectMessage deviceKeys => exact absurd (.given deviceKeys) (h _ he)
  | _ => rfl

theorem removedSinceAdd_append {t u : Trace} (h : ∀ e ∈ u, ¬ ConcernsWill e) :
    removedSinceAdd (t ++ u) = removedSinceAdd t := by
  refine foldl_append_of_ignored (fun e he b => ?_) []
  cases e with
  | deviceAdded device => exact absurd (.added device) (h _ he)
  | deviceRemoved d => exact absurd (.removed d) (h _ he)
  | _ => rfl

variable {P : Persistence} {cfg : Config} {s : State P}

/-- Only the worker changes either list, by adding a new device or removing a known one. -/
theorem concernsWill_of_emits {event : Event} {e : Effect} (h : Emits s event e)
    (hc : ConcernsWill e) : event = .worker ∧ s.running = [] ∧
      ((∃ device queue, s.queue = .addDevice device :: queue ∧ device.key ∉ s.devices) ∨
        ∃ d queue, s.queue = .removeDevice d :: queue ∧ d ∈ s.devices) := by
  cases h with
  | command c queue _ hr hq h =>
    refine ⟨rfl, hr, ?_⟩
    cases hc with
    | added device =>
      cases h with
      | deviceAdded _ hn => exact .inl ⟨device, queue, hq, hn⟩
    | removed d =>
      cases h with
      | deviceRemoved _ hd => exact .inr ⟨d, queue, hq, hd⟩
    | given deviceKeys =>
      cases h with
      | lastWill device hn => exact .inl ⟨device, queue, hq, hn⟩
  | began | lost => cases hc
  | access a rest _ hr h => cases hc <;> cases h
  | aside _ _ h => cases hc <;> cases h

theorem getDeviceKeys_congr {devices devices' : Registry} (h : ∀ d, d ∈ devices ↔ d ∈ devices') :
    getDeviceKeys devices = getDeviceKeys devices' := by
  refine List.Perm.eq_of_pairwise ?_ Std.ExtTreeMap.ordered_keys Std.ExtTreeMap.ordered_keys ?_
  · intro a b _ _ hab hba
    exact absurd (Std.OrientedCmp.gt_of_lt hab) (by simp [hba])
  · refine (List.perm_ext_iff_of_nodup Std.ExtTreeMap.nodup_keys Std.ExtTreeMap.nodup_keys).mpr ?_
    intro d
    rw [Std.ExtTreeMap.mem_keys, Std.ExtTreeMap.mem_keys]
    exact h d

/-- Some last will is in place: what it names, besides the devices, has been removed since. -/
structure Announced (s : State P) (deviceKeys : List Str) : Prop where
  will : lastWill s.trace = some deviceKeys
  names : ∀ d ∈ s.devices, d ∈ deviceKeys
  removed : ∀ d ∈ removedSinceAdd s.trace, d ∈ deviceKeys ∧ d ∉ s.devices
  current : removedSinceAdd s.trace = [] → deviceKeys = getDeviceKeys s.devices

structure NothingAdded (s : State P) : Prop where
  devices : ∀ d, d ∉ s.devices
  began : ∀ device devices, .began (.addDevice device) devices ∉ s.trace

theorem step_quiet (cfg : Config) {e : Event} (h : ∀ device queue, e = .worker → s.running = [] →
      s.queue = .addDevice device :: queue → device.key ∈ s.devices)
    (h' : ∀ d queue, e = .worker → s.running = [] → s.queue = .removeDevice d :: queue →
      d ∉ s.devices) :
    lastWill (step cfg s e).trace = lastWill s.trace ∧
      removedSinceAdd (step cfg s e).trace = removedSinceAdd s.trace := by
  obtain ⟨u, hu, hall⟩ := step_trace cfg s e
  have hquiet : ∀ x ∈ u, ¬ ConcernsWill x := by
    intro x hx hc
    obtain ⟨he, hr, ⟨device, queue, hq, hn⟩ | ⟨d, queue, hq, hd⟩⟩ :=
      concernsWill_of_emits (hall x hx) hc
    · exact hn (h device queue he hr hq)
    · exact h' d queue he hr hq hd
  rw [hu]
  exact ⟨lastWill_append hquiet, removedSinceAdd_append hquiet⟩

theorem announced_added (hmake : ∀ trace keys,
      cfg.env.makesMessage trace (.lastWill keys) = true) {device : Device}
    {queue : List Command} (hr : s.running = []) (hq : s.queue = .addDevice device :: queue)
    (hk : device.key ∉ s.devices) :
    Announced (step cfg s .worker) (getDeviceKeys (step cfg s .worker).devices) := by
  have hdev : (step cfg s .worker).devices = s.devices.insert device.key device := by
    simp [step_begins hr hq, beginCommand, execute, hk]
  have htrace : (step cfg s .worker).trace =
      (s.trace ++ [Effect.began (.addDevice device) s.devices]) ++ [Effect.deviceAdded device,
        .setUncontrolledDisconnectMessage (getDeviceKeys (step cfg s .worker).devices)] := by
    rw [hdev]
    simp [step_begins hr hq, beginCommand, execute, hk, State.trace, DataState.log,
      DeviceStatusService.devicesUpdated, hmake]
  have hremoved : removedSinceAdd (step cfg s .worker).trace = [] := by
    rw [htrace, removedSinceAdd, List.foldl_append]
    rfl
  refine ⟨?_, fun d hd => (mem_getDeviceKeys _ _).mpr hd, ?_, fun _ => rfl⟩
  · rw [htrace, lastWill, List.foldl_append]
    rfl
  · simp [hremoved]

/-- Removing a device leaves the last will as it was. -/
theorem announced_removed {deviceKeys : List Str} (h : Announced s deviceKeys) {d : Str}
    {queue : List Command} (hr : s.running = []) (hq : s.queue = .removeDevice d :: queue)
    (hk : d ∈ s.devices) : Announced (step cfg s .worker) deviceKeys := by
  have hdev : (step cfg s .worker).devices = s.devices.erase d := by
    simp [step_begins hr hq, beginCommand, execute, hk]
  have htrace : (step cfg s .worker).trace =
      s.trace ++ [Effect.began (.removeDevice d) s.devices] ++ [Effect.deviceRemoved d] := by
    simp [step_begins hr hq, beginCommand, execute, hk, State.trace, DataState.log]
  have hbegan : ∀ e ∈ [Effect.began (.removeDevice d) s.devices], ¬ ConcernsWill e := by
    rintro e he ⟨⟩ <;> simp at he
  have hremoved : removedSinceAdd (step cfg s .worker).trace =
      removedSinceAdd s.trace ++ [d] := by
    rw [htrace, removedSinceAdd, List.foldl_append]
    exact congrArg (· ++ [d]) (removedSinceAdd_append hbegan)
  have hmem : ∀ d', d' ∈ (step cfg s .worker).devices ↔ d ≠ d' ∧ d' ∈ s.devices := by
    intro d'
    rw [hdev, Std.ExtTreeMap.mem_erase, Ne, Std.LawfulEqCmp.compare_eq_iff_eq]
  refine ⟨?_, fun d' hd' => h.names d' ((hmem d').mp hd').2, ?_, ?_⟩
  · rw [htrace, lastWill, List.foldl_append]
    exact (lastWill_append hbegan).trans h.will
  · intro d' hd'
    rw [hremoved, List.mem_append, List.mem_singleton] at hd'
    rw [hmem]
    rcases hd' with hd' | rfl
    · obtain ⟨hnamed, hgone⟩ := h.removed d' hd'
      exact ⟨hnamed, fun hd => hgone hd.2⟩
    · exact ⟨h.names d' hk, fun hd => hd.1 rfl⟩
  · intro hnone
    simp [hremoved] at hnone

theorem Announced.of_same {t : State P} {deviceKeys : List Str} (h : Announced s deviceKeys)
    (hdev : ∀ d, d ∈ t.devices ↔ d ∈ s.devices) (hwill : lastWill t.trace = lastWill s.trace)
    (hrem : removedSinceAdd t.trace = removedSinceAdd s.trace) : Announced t deviceKeys := by
  refine ⟨hwill.trans h.will, fun d hd => h.names d ((hdev d).mp hd), ?_, ?_⟩
  · intro d hd
    rw [hrem] at hd
    obtain ⟨hnamed, hgone⟩ := h.removed d hd
    refine ⟨hnamed, fun hd' => hgone ?_⟩
    rwa [← hdev]
  · rw [hrem, getDeviceKeys_congr hdev]
    exact h.current

theorem nothingAdded_step {e : Event} (h : NothingAdded s) (hadd : ∀ device queue,
      e = .worker → s.running = [] → s.queue ≠ .addDevice device :: queue) :
    NothingAdded (step cfg s e) := by
  constructor
  · rcases devicesChanged cfg s e with hd | ⟨device, queue, he, hr, hq, -, -⟩ |
      ⟨d, _, _, _, _, hk, _⟩ | ⟨request, _, _, _, hd⟩
    · rw [hd]
      exact h.devices
    · exact absurd hq (hadd device queue he hr)
    · exact absurd hk (h.devices d)
    · intro d
      rw [hd, mem_registryStoring]
      exact h.devices d
  · intro device devices hmem
    obtain ⟨u, hu, hall⟩ := step_trace cfg s e
    rw [hu, List.mem_append] at hmem
    rcases hmem with hmem | hmem
    · exact h.began device devices hmem
    · cases hall _ hmem with
      | began _ queue hr hq => exact hadd device queue rfl hr hq
      | command _ _ _ _ _ he => cases he
      | access _ _ _ _ he => cases he
      | aside _ _ he => cases he

def WillFollows (s : State P) : Prop := NothingAdded s ∨ ∃ deviceKeys, Announced s deviceKeys

theorem willFollows_step (hmake : ∀ trace keys, cfg.env.makesMessage trace (.lastWill keys) = true)
    (s : State P) (e : Event) (h : WillFollows s) : WillFollows (step cfg s e) := by
  by_cases hadd : ∃ device queue, e = .worker ∧ s.running = [] ∧
      s.queue = .addDevice device :: queue ∧ device.key ∉ s.devices
  · obtain ⟨device, queue, rfl, hr, hq, hk⟩ := hadd
    exact .inr ⟨_, announced_added hmake hr hq hk⟩
  simp only [not_exists, not_and, not_not] at hadd
  rcases h with h | ⟨deviceKeys, h⟩
  · refine .inl (nothingAdded_step h fun device queue he hr hq => ?_)
    exact h.devices _ (hadd device queue he hr hq)
  by_cases hrem : ∃ d queue, e = .worker ∧ s.running = [] ∧
      s.queue = .removeDevice d :: queue ∧ d ∈ s.devices
  · obtain ⟨d, queue, rfl, hr, hq, hk⟩ := hrem
    exact .inr ⟨deviceKeys, announced_removed h hr hq hk⟩
  simp only [not_exists, not_and] at hrem
  obtain ⟨hwill, hremoved⟩ := step_quiet cfg (e := e) hadd hrem
  refine .inr ⟨deviceKeys, h.of_same ?_ hwill hremoved⟩
  rcases devicesChanged cfg s e with hd | ⟨device, queue, he, hr, hq, hk, -⟩ |
    ⟨d, queue, he, hr, hq, hk, -⟩ | ⟨request, _, _, _, hd⟩
  · simp [hd]
  · exact absurd (hadd device queue he hr hq) hk
  · exact absurd hk (hrem d queue he hr hq)
  · intro d
    rw [hd, mem_registryStoring]

theorem willFollows_reach (hmake : ∀ trace keys,
      cfg.env.makesMessage trace (.lastWill keys) = true) (events : List Event) :
    WillFollows (reach cfg P events) :=
  invariant_of_step (willFollows_step hmake)
    (.inl ⟨by simp [State.initial], by simp [State.trace, State.initial, DataState.initial]⟩) events

def LastWillCurrent (s : State P) : Prop := lastWill s.trace = some (getDeviceKeys s.devices)

instance (s : State P) : Decidable (LastWillCurrent s) := inferInstanceAs (Decidable (_ = _))

/-- Once a device has been added, the last will names exactly the devices there are if and
only if none was removed since a device was last added. -/
theorem last_will_current_iff (P : Persistence) (cfg : Config)
    (hmake : ∀ trace keys, cfg.env.makesMessage trace (.lastWill keys) = true)
    (events : List Event)
    (hadd : ∃ device devices, .began (.addDevice device) devices ∈ (reach cfg P events).trace) :
    LastWillCurrent (reach cfg P events) ↔ removedSinceAdd (reach cfg P events).trace = [] := by
  rcases willFollows_reach hmake events with h | ⟨deviceKeys, h⟩
  · obtain ⟨device, devices, hmem⟩ := hadd
    exact absurd hmem (h.began device devices)
  rw [LastWillCurrent, h.will]
  constructor
  · intro heq
    refine List.eq_nil_iff_forall_not_mem.mpr fun d hd => ?_
    obtain ⟨hnamed, hgone⟩ := h.removed d hd
    apply hgone
    rwa [← mem_getDeviceKeys, ← Option.some.inj heq]
  · intro hnone
    rw [h.current hnone]

def removedThenAdded : List Event :=
  [.api (.addDevice (bareDevice ['a'])), .worker, .worker, .api (.addDevice (bareDevice ['b'])),
    .worker, .worker, .api (.removeDevice ['a']), .worker, .api (.addDevice (bareDevice ['c'])),
    .worker]

theorem last_will_current_added :
    LastWillCurrent (reach (.bare .obliging) .inMemory removedThenAdded) ∧
    lastWill (reach (.bare .obliging) .inMemory removedThenAdded).trace = some [['b'], ['c']] :=
  ⟨(last_will_current_iff .inMemory (.bare .obliging) (fun _ _ => rfl) removedThenAdded
    ⟨bareDevice ['a'], ∅, by decide +kernel⟩).mpr (by decide +kernel), by decide +kernel⟩

def addedAndRemoved : List Event :=
  [.api (.addDevice (bareDevice ['a'])), .worker, .worker, .api (.removeDevice ['a']), .worker]

/-- The last will is stale after a removal, with every message built. -/
theorem last_will_stale_after_remove :
    (∀ trace keys, (Config.bare .obliging).env.makesMessage trace (.lastWill keys) = true) ∧
    .began (.addDevice (bareDevice ['a'])) ∅ ∈
      (reach (.bare .obliging) .inMemory addedAndRemoved).trace ∧
    (reach (.bare .obliging) .inMemory addedAndRemoved).BufferEmpty ∧
    ¬ LastWillCurrent (reach (.bare .obliging) .inMemory addedAndRemoved) :=
  ⟨fun _ _ => rfl, by decide +kernel, ⟨by decide +kernel, by decide +kernel⟩, by decide +kernel⟩

end WolkGateway.Wolk
