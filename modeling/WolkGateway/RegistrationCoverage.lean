import WolkGateway.WolkRegistry
import WolkGateway.Transcripts

/-!
# Registration coverage

While `m_connected` is set, every device has been registered since it was added and since
the module last connected, or its registration is still to come: in the buffer, or among
what the worker has left to do. When nothing is left to do, every device is registered.
-/

namespace WolkGateway.Wolk
open DeviceModel DataService DataLedger GuardedRuns

def HandsRegistration (d : Str) (e : Effect) : Prop :=
  ∃ device accepted, device.key = d ∧ e.handed = some (.registrationRequest device, accepted)

/-- After these a device has to be registered again. -/
inductive Unregisters (d : Str) : Effect → Prop
  | added (device : Device) (h : device.key = d) : Unregisters d (.deviceAdded device)
  | connected : Unregisters d (.connectCalled true)

/-- A registration request was handed over after the device was last added and after the
last successful connect. -/
def RegisteredSince (d : Str) (trace : Trace) : Prop :=
  ∃ before e after, trace = before ++ e :: after ∧ HandsRegistration d e ∧
    ∀ x ∈ after, ¬ Unregisters d x

theorem registeredSince_append {d : Str} {t u : Trace} (h : RegisteredSince d t)
    (hu : ∀ e ∈ u, ¬ Unregisters d e) : RegisteredSince d (t ++ u) := by
  obtain ⟨before, e, after, rfl, he, hafter⟩ := h
  refine ⟨before, e, after ++ u, by simp, he, fun x hx => ?_⟩
  rcases List.mem_append.mp hx with hx | hx
  · exact hafter x hx
  · exact hu x hx

theorem registeredSince_of_mem {d : Str} {t u : Trace} {e : Effect} (he : e ∈ u)
    (hh : HandsRegistration d e) (hu : ∀ e ∈ u, ¬ Unregisters d e) :
    RegisteredSince d (t ++ u) := by
  obtain ⟨before, after, rfl⟩ := List.append_of_mem he
  exact ⟨t ++ before, e, after, by simp, hh, fun x hx => hu x (by simp [hx])⟩

/-- The command registers the device if it is still there. -/
inductive Registers (d : Str) : Command → Prop
  | all : Registers d .registerDevices
  | one (device : Device) (h : device.key = d) : Registers d (.registerDevice device)

/-- The access leads to a registration of the device if the module is connected. -/
inductive WillRegister (d : Str) : Atom → Prop
  | enqueue (c : Command) (h : Registers d c) : WillRegister d (.enqueue c)
  | check (device : Device) (h : device.key = d) : WillRegister d (.registerIfConnected device)

variable {P : Persistence} {cfg : Config} {s t : State P} {d : Str}

def RegistrationPending (d : Str) (s : State P) : Prop :=
  (∃ c ∈ s.queue, Registers d c) ∨ ∃ a ∈ s.running, WillRegister d a

theorem unregisters_of_mayEmit {devices : Registry} {c : Command} {e : Effect}
    (h : MayEmit devices c e) (hu : Unregisters d e) :
    (∃ b, c = .connect b) ∨ (∃ device, c = .addDevice device ∧ device.key = d ∧ d ∉ devices) := by
  cases hu with
  | added device hk =>
    cases h with
    | deviceAdded _ hn => exact .inr ⟨device, rfl, hk, hk ▸ hn⟩
  | connected =>
    cases h with
    | connectCalled b _ => exact .inl ⟨b, rfl⟩

/-- Only a connect and the adding of a new device make a registration obsolete. -/
theorem unregisters_of_emits {event : Event} {e : Effect} (h : Emits s event e)
    (hu : Unregisters d e) : event = .worker ∧ s.running = [] ∧
      ((∃ b queue, s.queue = .connect b :: queue) ∨
        ∃ device queue, s.queue = .addDevice device :: queue ∧ device.key = d ∧ d ∉ s.devices) := by
  cases h with
  | command c queue _ hr hq h =>
    refine ⟨rfl, hr, ?_⟩
    rcases unregisters_of_mayEmit h hu with ⟨b, rfl⟩ | ⟨device, rfl, hk, hn⟩
    · exact .inl ⟨b, queue, hq⟩
    · exact .inr ⟨device, queue, hq, hk, hn⟩
  | began | lost => cases hu
  | access a rest _ hr h => cases hu <;> cases h
  | aside _ _ h => cases hu <;> cases h

/-- The flag is only set by a worker that will put `registerDevices` in the buffer. -/
def RegistersAfterConnecting (running : List Atom) : Prop :=
  ∀ rest, .setConnected true :: rest <:+ running → .enqueue .registerDevices ∈ rest

theorem registersAfterConnecting_cons {a : Atom} {rest : List Atom}
    (h : RegistersAfterConnecting rest) (ha : a ≠ .setConnected true) :
    RegistersAfterConnecting (a :: rest) := by
  intro tail htail
  rcases List.suffix_cons_iff.mp htail with heq | hsuf
  · exact absurd (List.cons.inj heq).1.symm ha
  · exact h tail hsuf

theorem registersAfterConnecting_of_notMem {running : List Atom}
    (h : .setConnected true ∉ running) : RegistersAfterConnecting running :=
  fun _ htail => absurd (htail.subset List.mem_cons_self) h

theorem registersAfterConnecting_connectedAtoms (devices : Registry) (b : Bool) :
    RegistersAfterConnecting (connectedAtoms devices b) := by
  have hrest : ∀ a ∈ (connectedAtoms devices b).tail, a ≠ .setConnected true := by
    rintro _ ha rfl
    simp only [connectedAtoms, List.cons_append, List.nil_append, List.tail_cons,
      List.mem_cons, reduceCtorEq, false_or] at ha
    split_ifs at ha
    · simp only [List.mem_append, List.mem_cons, List.mem_flatMap, List.not_mem_nil,
        reduceCtorEq, or_false, false_or] at ha
      obtain ⟨kvp, -, ha⟩ := ha
      obtain ⟨_, h, -⟩ := mem_refreshAtoms ha
      cases h
    · simp at ha
  intro rest htail
  rcases List.suffix_cons_iff.mp htail with heq | hsuf
  · rw [(List.cons.inj heq).2]
    simp
  · exact absurd rfl (hrest _ (hsuf.subset List.mem_cons_self))

theorem registersAfterConnecting_step (s : State P) (e : Event)
    (h : RegistersAfterConnecting s.running) :
    RegistersAfterConnecting (step cfg s e).running := by
  rcases stepped cfg s e with ⟨c, hc, hsame, hq, hd, -⟩ | ⟨c, queue, rfl, hr, hq, ht⟩ |
    ⟨a, rest, rfl, hr, ht⟩ | ⟨rfl, ht⟩ | ⟨-, hsame, -, -⟩
  · rwa [hsame.running]
  · rw [ht]
    show RegistersAfterConnecting (execute cfg s.devices s.clock _ c).rest
    by_cases hc : ∃ b, c = .connect b
    · obtain ⟨b, rfl⟩ := hc
      simp only [execute]
      split_ifs
      · exact registersAfterConnecting_connectedAtoms _ _
      · exact registersAfterConnecting_of_notMem (by simp)
    · refine registersAfterConnecting_of_notMem fun hmem => ?_
      cases leaves_of_mem hmem with
      | setConnected b => exact hc ⟨b, rfl⟩
  · rw [ht, runAtom_running]
    have hrest : RegistersAfterConnecting rest := fun tail htail =>
      h tail (htail.trans (hr ▸ List.suffix_cons a rest))
    cases a with
    | registerIfConnected | updateIfConnected =>
      simp only [Atom.expands]
      split_ifs
      · exact registersAfterConnecting_cons (registersAfterConnecting_cons hrest (by simp))
          (by simp)
      · exact hrest
    | _ => exact hrest
  · exact h
  · rwa [hsame.running]

theorem send_handsRegistration {env : Environment} (device : Device) (s : DataState P)
    (hmake : ∀ trace device, env.makesMessage trace (.registrationRequest device) = true) :
    ∃ e, (DeviceRegistrationService.publishRegistrationRequest env device s).trace =
      s.trace ++ [e] ∧ HandsRegistration device.key e := by
  refine ⟨_, rfl, device, env.accepts s.trace (.registrationRequest device), rfl, ?_⟩
  cases ha : env.accepts s.trace (.registrationRequest device) <;>
    simp [Environment.outcome, hmake, ha, Effect.handed]

theorem registerDevices_hands {env : Environment}
    (hmake : ∀ trace device, env.makesMessage trace (.registrationRequest device) = true)
    (l : List (Str × Device)) (s : DataState P) :
    ∃ u, (l.foldl (fun s kvp =>
        DeviceRegistrationService.publishRegistrationRequest env kvp.2 s) s).trace = s.trace ++ u ∧
      ∀ kvp ∈ l, ∃ e ∈ u, HandsRegistration kvp.2.key e := by
  induction l generalizing s with
  | nil => exact ⟨[], by simp, by simp⟩
  | cons kvp l ih =>
    obtain ⟨e, he, hh⟩ := send_handsRegistration kvp.2 s hmake
    obtain ⟨u, hu, hall⟩ := ih
      (DeviceRegistrationService.publishRegistrationRequest env kvp.2 s)
    refine ⟨e :: u, by rw [List.foldl_cons, hu, he]; simp, fun kvp' hmem => ?_⟩
    rcases List.mem_cons.mp hmem with rfl | hmem
    · exact ⟨e, List.mem_cons_self, hh⟩
    · obtain ⟨e', he', hh'⟩ := hall kvp' hmem
      exact ⟨e', List.mem_cons_of_mem _ he', hh'⟩

theorem execute_hands
    (hmake : ∀ trace device, cfg.env.makesMessage trace (.registrationRequest device) = true)
    {devices : Registry} (hkeys : KeysAgree devices) (hd : d ∈ devices) {c : Command}
    (hc : Registers d c) (now : ℕ) (s : DataState P) :
    ∃ u, (execute cfg devices now s c).data.trace = s.trace ++ u ∧
      ∃ e ∈ u, HandsRegistration d e := by
  cases hc with
  | all =>
    obtain ⟨u, hu, hall⟩ := registerDevices_hands hmake devices.toList s
    obtain ⟨device, hdev⟩ := exists_of_mem hd
    refine ⟨u, hu, ?_⟩
    have hh := hall (d, device) (Std.ExtTreeMap.mem_toList_iff_getElem?_eq_some.mpr hdev)
    rwa [hkeys d device hdev] at hh
  | one device hk =>
    obtain ⟨e, he, hh⟩ := send_handsRegistration device s hmake
    exact ⟨[e], he, e, List.mem_singleton_self e, hk ▸ hh⟩

/-- The invariant: what `m_connected` says about the registrations of the devices. -/
structure Covered (s : State P) : Prop where
  keys : KeysAgree s.devices
  connecting : RegistersAfterConnecting s.running
  devices : s.connected = true → ∀ d ∈ s.devices,
    RegisteredSince d s.trace ∨ RegistrationPending d s

theorem registrationPending_connectedAtoms (devices : Registry) (b : Bool)
    (hr : s.running = connectedAtoms devices b) : RegistrationPending d s := by
  refine .inr ⟨.enqueue .registerDevices, ?_, .enqueue _ .all⟩
  simp [hr, connectedAtoms]

theorem pending_of_added {c : Command} {queue : List Command} (hr : s.running = [])
    (hq : s.queue = c :: queue) (ht : step cfg s .worker = beginCommand cfg c queue s)
    (hmem : d ∉ s.devices) (hd : d ∈ (step cfg s .worker).devices) :
    RegistrationPending d (step cfg s .worker) := by
  rcases devicesChanged cfg s .worker with hdev | ⟨device, queue', -, -, hq', hk, hdev⟩ |
    ⟨d', _, _, _, _, _, hdev⟩ | ⟨request, rest, -, hr', hdev⟩
  · rw [hdev] at hd
    exact absurd hd hmem
  · rw [hdev, Std.ExtTreeMap.mem_insert, Std.LawfulEqCmp.compare_eq_iff_eq] at hd
    have hkey : device.key = d := hd.resolve_right hmem
    obtain ⟨rfl, rfl⟩ := List.cons.inj (hq ▸ hq')
    refine .inr ⟨.registerIfConnected device, ?_, .check device hkey⟩
    simp [ht, beginCommand, execute, hk]
  · rw [hdev] at hd
    exact absurd (Std.ExtTreeMap.mem_of_mem_erase hd) hmem
  · simp [hr] at hr'

theorem covered_begun (hmake : ∀ trace device,
      cfg.env.makesMessage trace (.registrationRequest device) = true) (h : Covered s)
    {c : Command} {queue : List Command} (hr : s.running = []) (hq : s.queue = c :: queue)
    (ht : step cfg s .worker = beginCommand cfg c queue s)
    (hconn : s.connected = true) (hd : d ∈ (step cfg s .worker).devices) :
    RegisteredSince d (step cfg s .worker).trace ∨
      RegistrationPending d (step cfg s .worker) := by
  obtain ⟨u, hu, hall⟩ := step_trace cfg s .worker
  have hquiet : (∀ b, c ≠ .connect b) → d ∈ s.devices → ∀ e ∈ u, ¬ Unregisters d e := by
    intro hc hmem e he hun
    obtain ⟨-, -, ⟨b, queue', hq'⟩ | ⟨device, queue', hq', -, hn⟩⟩ :=
      unregisters_of_emits (hall e he) hun
    · exact hc b (List.cons.inj (hq ▸ hq')).1
    · exact hn hmem
  by_cases hmem : d ∈ s.devices
  · rcases h.devices hconn d hmem with hreg | ⟨c', hc', hpend⟩ | ⟨a, ha, -⟩
    · cases c with
      | connect b =>
        cases hres : cfg.env.connects (s.data.log (.began (.connect b) s.devices)).trace with
        | true =>
          refine .inr (registrationPending_connectedAtoms s.devices b ?_)
          simp [ht, beginCommand, execute, hres]
        | false =>
          left
          have hlog : (step cfg s .worker).trace =
              s.trace ++ [Effect.began (.connect b) s.devices, .connectCalled false] := by
            rw [← hres, ht]
            simp [State.trace, beginCommand, execute, DataState.log]
          rw [hlog]
          refine registeredSince_append hreg fun e he hun => ?_
          simp only [List.mem_cons, List.not_mem_nil, or_false] at he
          rcases he with rfl | rfl <;> cases hun
      | _ =>
        left
        rw [hu]
        exact registeredSince_append hreg (hquiet (by simp) hmem)
    · rw [hq, List.mem_cons] at hc'
      rcases hc' with rfl | hc'
      · obtain ⟨v, hv, e, he, hh⟩ := execute_hands hmake h.keys hmem hpend s.clock
          (s.data.log (.began c' s.devices))
        have huv : u = .began c' s.devices :: v := by
          have hlog : (step cfg s .worker).trace = s.trace ++ Effect.began c' s.devices :: v := by
            rw [ht]
            exact hv.trans (by simp [DataState.log, State.trace])
          exact List.append_cancel_left (hu.symm.trans hlog)
        have hmemu : e ∈ u := by
          rw [huv]
          exact List.mem_cons_of_mem _ he
        have hc : ∀ b, c' ≠ .connect b := by
          rintro b rfl
          cases hpend
        left
        rw [hu]
        exact registeredSince_of_mem hmemu hh (hquiet hc hmem)
      · exact .inr (.inl ⟨c', by rwa [ht], hpend⟩)
    · simp [hr] at ha
  · exact .inr (pending_of_added hr hq ht hmem hd)

theorem covered_accessed (h : Covered s) {a : Atom} {rest : List Atom}
    (hr : s.running = a :: rest)
    (ht : step cfg s .worker = runAtom cfg a { s with running := rest })
    (hconn : (step cfg s .worker).connected = true) (hd : d ∈ (step cfg s .worker).devices) :
    RegisteredSince d (step cfg s .worker).trace ∨
      RegistrationPending d (step cfg s .worker) := by
  have hrun : (step cfg s .worker).running = a.expands s.connected ++ rest := by
    rw [ht, runAtom_running]
  have hqueue : (step cfg s .worker).queue = s.queue ++ a.enqueues := by
    rw [ht, runAtom_queue]
  have hmem : d ∈ s.devices := by
    rw [ht, runAtom_devices] at hd
    cases a with
    | storeAssets request => exact mem_registryStoring.mp hd
    | _ => exact hd
  by_cases hset : a = .setConnected true
  · subst hset
    have hregisters : .enqueue .registerDevices ∈ rest :=
      h.connecting rest (by simp only [hr, List.suffix_refl])
    refine .inr (.inr ⟨.enqueue .registerDevices, ?_, .enqueue _ .all⟩)
    rw [hrun]
    exact List.mem_append_right _ hregisters
  have hconn' : s.connected = true := by
    rw [ht, runAtom_connected] at hconn
    cases a with
    | setConnected value => exact absurd (congrArg Atom.setConnected hconn) hset
    | _ => exact hconn
  rcases h.devices hconn' d hmem with hreg | ⟨c, hc, hpend⟩ | ⟨a', ha', hwill⟩
  · obtain ⟨u, hu, hall⟩ := step_trace cfg s .worker
    left
    rw [hu]
    refine registeredSince_append hreg fun e he hun => ?_
    obtain ⟨-, hnil, -⟩ := unregisters_of_emits (hall e he) hun
    simp [hnil] at hr
  · exact .inr (.inl ⟨c, by simp [hqueue, hc], hpend⟩)
  · rw [hr, List.mem_cons] at ha'
    rcases ha' with rfl | ha'
    · cases hwill with
      | enqueue c hpend => exact .inr (.inl ⟨c, by simp [hqueue, Atom.enqueues], hpend⟩)
      | check device hk =>
        refine .inr (.inr ⟨.enqueue (.registerDevice device), ?_, .enqueue _ (.one device hk)⟩)
        simp [hrun, Atom.expands, hconn']
    · exact .inr (.inr ⟨a', by simp [hrun, ha'], hwill⟩)

theorem covered_step (hmake : ∀ trace device,
      cfg.env.makesMessage trace (.registrationRequest device) = true) (s : State P) (e : Event)
    (h : Covered s) : Covered (step cfg s e) := by
  refine ⟨keysAgree_step s e h.keys, registersAfterConnecting_step s e h.connecting, ?_⟩
  intro hconn d hd
  rcases stepped cfg s e with ⟨c, hc, hsame, hq, hdata, -⟩ | ⟨c, queue, rfl, hr, hq, ht⟩ |
    ⟨a, rest, rfl, hr, ht⟩ | ⟨rfl, ht⟩ | ⟨-, hsame, hq, hm⟩
  · rw [hsame.connected] at hconn
    rw [hsame.devices] at hd
    rcases h.devices hconn d hd with hreg | ⟨c', hc', hpend⟩ | hrun
    · left
      rwa [State.trace, hdata]
    · exact .inr (.inl ⟨c', by simp [hq, hc'], hpend⟩)
    · rw [← hsame.running] at hrun
      exact .inr (.inr hrun)
  · refine covered_begun hmake h hr hq ht ?_ hd
    rw [ht] at hconn
    exact hconn
  · exact covered_accessed h hr ht hconn hd
  · simp [step] at hconn
  · rw [hsame.connected] at hconn
    rw [hsame.devices] at hd
    rcases h.devices hconn d hd with hreg | ⟨c', hc', hpend⟩ | hrun
    · obtain ⟨v, hv, hallv⟩ := hm.trace_eq
      have hv' : (step cfg s e).trace = s.trace ++ v := hv
      left
      rw [hv']
      refine registeredSince_append hreg fun x hx hun => ?_
      cases hun <;> cases hallv _ hx
    · exact .inr (.inl ⟨c', by rwa [hq], hpend⟩)
    · rw [← hsame.running] at hrun
      exact .inr (.inr hrun)

theorem covered_reach (hmake : ∀ trace device,
      cfg.env.makesMessage trace (.registrationRequest device) = true) (events : List Event) :
    Covered (reach cfg P events) := by
  refine invariant_of_step (covered_step hmake) ⟨?_, ?_, ?_⟩ events
  · intro k device h
    simp [State.initial] at h
  · exact registersAfterConnecting_of_notMem (by simp [State.initial])
  · simp [State.initial]

/-- No device is left unregistered: once the buffer is empty while the module is
connected, every device has been registered since it was added and since the last connect. -/
theorem no_device_left_unregistered (P : Persistence) (cfg : Config)
    (hmake : ∀ trace device, cfg.env.makesMessage trace (.registrationRequest device) = true)
    (events : List Event) (hempty : (reach cfg P events).BufferEmpty)
    (hconn : (reach cfg P events).connected = true) (d : Str)
    (hd : d ∈ (reach cfg P events).devices) :
    RegisteredSince d (reach cfg P events).trace := by
  rcases (covered_reach hmake events).devices hconn d hd with hreg | ⟨c, hc, -⟩ | ⟨a, ha, -⟩
  · exact hreg
  · simp [hempty.2] at hc
  · simp [hempty.1] at ha

/-- A device added before connecting, a connection lost while `connect` returns, and the
worker running until nothing is left to do. -/
def interruptedConnect : List Event :=
  [Event.api (.addDevice (bareDevice ['a'])), .api (.connect false), .worker, .worker, .worker,
    .connectionLost, .worker, .connectionLostConnects] ++ List.replicate 24 Event.worker

theorem no_device_left_unregistered_interrupted :
    RegisteredSince ['a']
      (reach (.bare .obliging) .inMemory interruptedConnect).trace :=
  no_device_left_unregistered .inMemory (.bare .obliging) (fun _ _ => rfl) interruptedConnect
    ⟨by decide +kernel, by decide +kernel⟩ (by decide +kernel) ['a'] (by decide +kernel)

end WolkGateway.Wolk
