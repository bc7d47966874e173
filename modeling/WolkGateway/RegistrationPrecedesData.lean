import WolkGateway.RegistrationOrder

/-!
# Registration precedes data

In a run of orderly steps, no message about a device is accepted before a registration
request for it was handed over. The invariant says that as long as anything could be
accepted, every device is registered, or its registration is at hand: in the buffer with
nothing that sends before it, or among what the worker has left to do.
-/

namespace WolkGateway.Wolk
open DeviceModel DataService DataLedger DataServiceCalls GuardedRuns Transcripts

variable {P : Persistence} {cfg : Config} {s t : State P} {d : Str}

/-- The registration of the device comes before anything that sends. -/
def AtHand (d : Str) (s : State P) : Prop :=
  (∃ before c after, s.queue = before ++ c :: after ∧ Registers d c ∧
    ∀ c' ∈ before, transmits c' = false) ∨
  ∃ a ∈ s.running, WillRegister d a

/-- The module is connected, or the connectivity service is, or it is about to reconnect. -/
def Live (s : State P) : Prop :=
  s.connected = true ∨ online s.trace = true ∨ .serviceReconnect ∈ s.running

def AnsweredBy (env : Environment) (before : Trace) (e : Effect) : Prop :=
  ∀ message, e.handed = some (message, true) → env.accepts before message = true

def RegisteredBefore (before : Trace) (e : Effect) : Prop :=
  ∀ d, AcceptedFor d e → Registered d before

structure Ordered (cfg : Config) (s : State P) : Prop where
  keys : KeysAgree s.devices
  connecting : RegistersAfterConnecting s.running
  alone : ∀ device, .registerIfConnected device ∈ s.running →
    s.running = [.registerIfConnected device]
  live : Live s → ∀ d ∈ s.devices, Registered d s.trace ∨ AtHand d s
  stored : ∀ f key, contentsOf s.data f key ≠ [] → Known s (deviceOf f key)
  nested : ∀ device, .publishDeviceStatusOf device ∈ s.queue ∨
    .enqueue (.publishDeviceStatusOf device) ∈ s.running → Known s device.key
  firmware : ∀ d, .publishFirmwareVersion d ∈ s.firmwareQueue → Registered d s.trace
  answered : Justified (AnsweredBy cfg.env) s.trace
  ordered : Justified RegisteredBefore s.trace

theorem move_answered {env : Environment} {L M : Ledger} {e : Effect}
    (h : Justified (AnsweredBy env) L.trace) (hm : Move env L e M) :
    Justified (AnsweredBy env) M.trace := by
  rw [hm.trace_eq]
  refine justified_snoc.mpr ⟨h, fun message he => ?_⟩
  rcases handed_accepted he with ⟨f, key, k, items, rfl, rfl⟩ | rfl
  · cases hm with
    | attempt _ _ _ _ _ _ hout =>
      rw [attemptOutcome] at hout
      split_ifs at hout
      exact ((outcome_eq_accepted _ _ _).mp hout.symm).2
    | other _ hu => exact hu.elim
  · cases hm with
    | other _ hu => exact ((outcome_eq_accepted _ _ _).mp (Eq.symm hu)).2

/-- A command that sends, at the head of the buffer, leaves no registration at hand. -/
theorem not_atHand {c : Command} {queue : List Command} (hr : s.running = [])
    (hq : s.queue = c :: queue) (hc : transmits c = true) : ¬ AtHand d s := by
  rintro (⟨before, c', after, hsplit, hreg, hbefore⟩ | ⟨a, ha, -⟩)
  · rw [hq] at hsplit
    cases before with
    | nil =>
      obtain ⟨rfl, -⟩ := List.cons.inj hsplit
      simp [transmits_of_registers hreg] at hc
    | cons c'' before =>
      obtain ⟨rfl, -⟩ := List.cons.inj hsplit
      simp [hbefore c List.mem_cons_self] at hc
  · simp [hr] at ha

/-- A known device is registered where a command that sends has something accepted. -/
theorem registered_of_known (h : Ordered cfg s) {c : Command} {queue : List Command}
    (hr : s.running = []) (hq : s.queue = c :: queue) (hc : transmits c = true)
    (hon : online s.trace = true) (hk : Known s d) : Registered d s.trace := by
  rcases hk with hd | hreg
  · exact (h.live (.inr (.inl hon)) d hd).resolve_right (not_atHand hr hq hc)
  · exact hreg

/-- The names of a put, and the device it is kept for, are known. -/
theorem kept_of_emits (h : Ordered cfg s) {e : Event} (hg : Orderly s e) {k r : Str} {item : Item}
    (he : Emits s e (.added k r item)) : Known s (deviceOf item.family (slotKey k r item)) := by
  cases he with
  | command c queue _ hr hq hm =>
    have hbegin := mayBegin_of_orderly hr hq hg
    rw [deviceOf_slotKey fun hf => hbegin.2 (k, r) (stores_of_mayEmit h.keys hm hf)]
    exact put_known h.keys hbegin.1 hm
  | access _ _ _ _ ha => cases ha
  | aside _ _ ha => cases ha

theorem keptFor_step (h : Ordered cfg s) {e : Event} (hg : Orderly s e) :
    KeptFor (Known s) s.trace (ledgerOf (step cfg s e).data) :=
  (step_moves s e).invariant
    (fun _ _ _ hL hx hm => move_keptFor hL (fun _ _ _ heq => kept_of_emits h hg (heq ▸ hx)) hm)
    ⟨h.stored, fun _ _ _ _ _ hmem => .inl hmem⟩

/-- Where a command has something accepted for a device, the device is known. -/
theorem accepted_known (h : Ordered cfg s) (hg : Orderly s .worker) {c : Command}
    {queue : List Command} (hq : s.queue = c :: queue) (hname : MayName s c) {e : Effect}
    (hm : MayEmit s.devices c e) (hmem : e ∈ (step cfg s .worker).trace) (ha : AcceptedFor d e) :
    Registered d s.trace ∨ Known s d := by
  rcases acceptedFor_cases ha with ⟨f, key, items, rfl⟩ | ⟨message, rfl, hsub⟩
  · rcases (keptFor_step h hg).attempted f key d items .accepted hmem with hold | hk
    · obtain ⟨before, after, hsplit⟩ := List.append_of_mem hold
      have hreg : Registered d before := h.ordered _ _ _ hsplit d ha
      left
      rw [hsplit]
      exact hreg.append
    · exact .inr hk
  · cases hm with
    | sent _ _ _ hsend =>
      right
      refine sent_known hname (fun device heq => ?_) hsend hsub
      have hwaits : .publishDeviceStatusOf device ∈ s.queue := by
        rw [hq, heq]
        exact List.mem_cons_self
      exact h.nested device (.inl hwaits)

/-- Whatever a step has accepted is about a device registered before the step. -/
theorem accepted_registered (hacc : ∀ trace message,
      cfg.env.accepts trace message = true → online trace = true)
    (h : Ordered cfg s) {event : Event} (hg : Orderly s event) {u before after : Trace} {e : Effect}
    (hu : (step cfg s event).trace = s.trace ++ u) (hall : ∀ e ∈ u, Emits s event e)
    (hans : Justified (AnsweredBy cfg.env) (step cfg s event).trace)
    (hsplit : u = before ++ e :: after) (ha : AcceptedFor d e) : Registered d s.trace := by
  have he := hall e (by simp [hsplit])
  cases he with
  | began | lost => obtain ⟨_, hh, -⟩ := ha; cases hh
  | access _ _ _ _ hx => obtain ⟨_, hh, -⟩ := ha; cases hx <;> cases hh
  | aside _ _ hx =>
    rcases acceptedFor_cases ha with ⟨f, key, items, rfl⟩ | ⟨message, rfl, hsub⟩
    · cases hx
    · cases hx with
      | version k version _ rest hq =>
        obtain rfl := Option.some.inj hsub
        have hwaits : .publishFirmwareVersion k ∈ s.firmwareQueue := by
          rw [hq]
          exact List.mem_cons_self
        exact h.firmware k hwaits
      | status => cases hsub
  | command c queue _ hr hq hm =>
    have hc := transmits_of_mayEmit hm ha
    have hbegin := mayBegin_of_orderly hr hq hg
    have hswitch : ¬ Switches s .worker := by
      refine not_switches_of_head hr hq ?_
      rintro b rfl
      simp [transmits, publishesData] at hc
    have hon : online s.trace = true := by
      obtain ⟨message, hh, -⟩ := ha
      have haccepts := hans (s.trace ++ before) e after (by rw [hu, hsplit]; simp) message hh
      have honline := hacc _ _ haccepts
      have hquiet : ∀ x ∈ before, ∀ b, onlineStep b x = b := fun x hx =>
        onlineStep_of_emits (hall x (by simp [hsplit, hx])) hswitch
      rwa [online_append hquiet] at honline
    have hmem : e ∈ (step cfg s .worker).trace := by
      rw [hu, hsplit]
      simp
    exact (accepted_known h hg hq hbegin.1 hm hmem ha).elim id
      (registered_of_known h hr hq hc hon)

/-- A device is forgotten only where nothing of it is kept. -/
theorem known_step (e : Event) (hg : Orderly s e) (hk : Known s d) :
    Known (step cfg s e) d ∨ (NothingKept d s ∧ e = .worker ∧ s.running = [] ∧
      ∃ queue, s.queue = .removeDevice d :: queue) := by
  have hregistered : Registered d s.trace → Known (step cfg s e) d := by
    intro h
    obtain ⟨u, hu, -⟩ := step_trace cfg s e
    right
    rw [hu]
    exact h.append
  have hthere : d ∈ (step cfg s e).devices → Known (step cfg s e) d := fun h => .inl h
  rcases hk with hd | hreg
  · rcases devicesChanged cfg s e with hdev | ⟨device, _, _, _, _, _, hdev⟩ |
      ⟨d', queue, rfl, hr, hq, -, hdev⟩ | ⟨request, _, _, _, hdev⟩
    · left
      apply hthere
      rwa [hdev]
    · left
      apply hthere
      rw [hdev, Std.ExtTreeMap.mem_insert]
      exact .inr hd
    · by_cases heq : d = d'
      · subst heq
        rcases (mayBegin_of_orderly hr hq hg).1 with h | h
        · exact .inl (hregistered h)
        · exact .inr ⟨h, rfl, hr, queue, hq⟩
      · left
        apply hthere
        rw [hdev, Std.ExtTreeMap.mem_erase]
        refine ⟨fun h => heq ?_, hd⟩
        exact (Std.LawfulEqCmp.compare_eq_iff_eq.mp h).symm
    · left
      apply hthere
      rw [hdev]
      exact mem_registryStoring.mpr hd
  · exact .inl (hregistered hreg)

theorem AtHand.of_append {more : List Command} (h : AtHand d s) (hq : t.queue = s.queue ++ more)
    (hr : ∀ a ∈ s.running, a ∈ t.running) : AtHand d t := by
  rcases h with ⟨before, c, after, hsplit, hc, hbefore⟩ | ⟨a, ha, hw⟩
  · exact .inl ⟨before, c, after ++ more, by rw [hq, hsplit]; simp, hc, hbefore⟩
  · exact .inr ⟨a, hr a ha, hw⟩

theorem live_of_begun {c : Command} {queue : List Command} (hr : s.running = [])
    (hq : s.queue = c :: queue) (h : Live (beginCommand cfg c queue s)) :
    Live s ∨ ∃ b, (beginCommand cfg c queue s).running = connectedAtoms s.devices b := by
  have ht : step cfg s .worker = beginCommand cfg c queue s := step_begins hr hq
  by_cases hconnect : ∃ b, c = .connect b
  · obtain ⟨b, rfl⟩ := hconnect
    cases hres : cfg.env.connects (s.data.log (.began (.connect b) s.devices)).trace with
    | true => exact .inr ⟨b, by simp [beginCommand, execute, hres]⟩
    | false =>
      left
      have htrace : (beginCommand cfg (.connect b) queue s).trace =
          s.trace ++ [Effect.began (.connect b) s.devices, .connectCalled false] := by
        rw [← hres]
        simp [State.trace, beginCommand, execute, DataState.log]
      have hon : online (beginCommand cfg (.connect b) queue s).trace = online s.trace := by
        rw [htrace]
        exact online_append (by simp [onlineStep])
      rcases h with h | h | h
      · exact .inl h
      · rw [hon] at h
        exact .inr (.inl h)
      · simp [beginCommand, execute, hres] at h
  · have hswitch : ¬ Switches s .worker :=
      not_switches_of_head hr hq fun b heq => hconnect ⟨b, heq⟩
    rcases h with h | h | h
    · exact .inl (.inl h)
    · rw [← ht, online_step hswitch] at h
      exact .inl (.inr (.inl h))
    · cases leaves_of_mem h

theorem live_of_accessed {a : Atom} {rest : List Atom} (hr : s.running = a :: rest)
    (hset : a ≠ .setConnected true) (h : Live (runAtom cfg a { s with running := rest })) :
    Live s := by
  have ht : step cfg s .worker = runAtom cfg a { s with running := rest } := step_accesses hr
  rcases h with h | h | h
  · left
    rw [runAtom_connected] at h
    cases a with
    | setConnected value => exact absurd (congrArg Atom.setConnected h) hset
    | _ => exact h
  · cases a with
    | serviceDisconnect =>
      simp [runAtom, State.trace, State.log, DataState.log, online, onlineStep] at h
    | serviceReconnect =>
      have hthere : .serviceReconnect ∈ s.running := by
        rw [hr]
        exact List.mem_cons_self
      exact .inr (.inr hthere)
    | _ =>
      have hswitch : ¬ Switches s .worker := by
        rintro (⟨b, queue', hr', -⟩ | ⟨rest, hr'⟩ | ⟨rest, hr'⟩) <;> simp [hr] at hr'
      rw [← ht, online_step hswitch] at h
      exact .inr (.inl h)
  · rw [runAtom_running, List.mem_append] at h
    rcases h with h | h
    · left
      cases a with
      | registerIfConnected | updateIfConnected =>
        simp only [Atom.expands, List.mem_ite_nil_right] at h
        exact h.1
      | _ => simp [Atom.expands] at h
    · have hthere : .serviceReconnect ∈ s.running := by
        rw [hr]
        exact List.mem_cons_of_mem _ h
      exact .inr (.inr hthere)

/-- A step makes the system live only by connecting. -/
theorem live_of_step (e : Event) (h : Live (step cfg s e)) : Live s ∨
    (∃ rest, s.running = .setConnected true :: rest ∧ (step cfg s e).running = rest) ∨
    ∃ b, (step cfg s e).running = connectedAtoms s.devices b := by
  rcases stepped cfg s e with ⟨c, hc, hsame, hq, hdata, -⟩ | ⟨c, queue, rfl, hr, hq, ht⟩ |
    ⟨a, rest, rfl, hr, ht⟩ | ⟨rfl, ht⟩ | ⟨-, hsame, -, hm⟩
  · left
    rwa [Live, State.trace, hdata, hsame.connected, hsame.running] at h
  · rw [ht] at h ⊢
    exact (live_of_begun hr hq h).imp_right .inr
  · by_cases hset : a = .setConnected true
    · subst hset
      refine .inr (.inl ⟨rest, hr, ?_⟩)
      rw [ht, runAtom_running]
      rfl
    · rw [ht] at h
      exact .inl (live_of_accessed hr hset h)
  · rcases h with h | h | h
    · simp [step, State.log] at h
    · simp [step, State.trace, State.log, DataState.log, online, onlineStep] at h
    · exact .inl (.inr (.inr h))
  · left
    obtain ⟨u, hu, hall⟩ := hm.trace_eq
    have hon : online (step cfg s e).trace = online s.trace := by
      rw [State.trace, hu]
      exact online_append fun x hx b => by cases hall x hx <;> rfl
    rwa [Live, hsame.connected, hsame.running, hon] at h

/-- A command that registers the device does so, and the others leave it at hand. -/
theorem atHand_begun (hmake : ∀ trace device,
      cfg.env.makesMessage trace (.registrationRequest device) = true) (h : Ordered cfg s)
    {c : Command} {queue : List Command} (hr : s.running = []) (hq : s.queue = c :: queue)
    (hd : d ∈ s.devices) (hat : AtHand d s) :
    Registered d (beginCommand cfg c queue s).trace ∨ AtHand d (beginCommand cfg c queue s) := by
  rcases hat with ⟨before, c', after, hsplit, hreg, hbefore⟩ | ⟨a, ha, -⟩
  · rw [hq] at hsplit
    cases before with
    | nil =>
      obtain ⟨rfl, -⟩ := List.cons.inj hsplit
      obtain ⟨v, hv, x, hx, hh⟩ := execute_hands hmake h.keys hd hreg s.clock
        (s.data.log (.began c s.devices))
      have htrace : (beginCommand cfg c queue s).trace =
          (s.data.log (.began c s.devices)).trace ++ v := hv
      refine .inl ⟨x, ?_, hh⟩
      rw [htrace]
      exact List.mem_append_right _ hx
    | cons c'' before =>
      obtain ⟨-, rfl⟩ := List.cons.inj hsplit
      refine .inr (.inl ⟨before, c', after, rfl, hreg, fun x hx => ?_⟩)
      exact hbefore x (List.mem_cons_of_mem _ hx)
  · simp [hr] at ha

/-- In a live system a device that is about to be put in the buffer gets there. -/
theorem atHand_accessed (h : Ordered cfg s) (hg : Orderly s .worker) (hlive : Live s) {a : Atom}
    {rest : List Atom} (hr : s.running = a :: rest) (hd : d ∈ s.devices) (hat : AtHand d s) :
    Registered d s.trace ∨ AtHand d (runAtom cfg a { s with running := rest }) := by
  have hqueue : (runAtom cfg a { s with running := rest }).queue = s.queue ++ a.enqueues :=
    runAtom_queue a _
  have haccess : MayAccess s a := by simpa only [Orderly, hr] using hg
  rcases hat with ⟨before, c, after, hsplit, hreg, hbefore⟩ | ⟨a', ha', hwill⟩
  · refine .inr (.inl ⟨before, c, after ++ a.enqueues, ?_, hreg, hbefore⟩)
    rw [hqueue, hsplit]
    simp
  · rw [hr, List.mem_cons] at ha'
    rcases ha' with rfl | ha'
    · cases hwill with
      | enqueue c hreg =>
        have hmay : MayRegister s (getDeviceKeys s.devices) ∨ MayRegister s [d] := by
          cases hreg with
          | all => exact .inl haccess
          | one device hk =>
            subst hk
            exact .inr haccess
        obtain hidle | hdone : (∀ c ∈ s.queue, transmits c = false) ∨ Registered d s.trace := by
          rcases hmay with h | h
          · exact h.imp_right fun h => h d ((mem_getDeviceKeys _ _).mpr hd)
          · exact h.imp_right fun h => h d (by simp)
        · exact .inr (.inl ⟨s.queue, c, [], hqueue, hreg, hidle⟩)
        · exact .inl hdone
      | check device hk =>
        cases hconn : s.connected with
        | true =>
          refine .inr (.inr ⟨.enqueue (.registerDevice device), ?_, .enqueue _ (.one device hk)⟩)
          simp [Atom.expands]
        | false =>
          exfalso
          have halone := h.alone device (by rw [hr]; exact List.mem_cons_self)
          rcases hlive with hl | hl | hl
          · simp [hconn] at hl
          · simp [haccess hl] at hconn
          · simp [halone] at hl
    · exact .inr (.inr ⟨a', by simp [ha'], hwill⟩)

/-- In a live system, what is at hand stays at hand until it is done. -/
theorem atHand_step (hmake : ∀ trace device,
      cfg.env.makesMessage trace (.registrationRequest device) = true) (h : Ordered cfg s)
    (e : Event) (hg : Orderly s e) (hlive : Live s) (hd : d ∈ s.devices) (hat : AtHand d s) :
    Registered d (step cfg s e).trace ∨ AtHand d (step cfg s e) := by
  rcases stepped cfg s e with ⟨c, hc, hsame, hq, -, -⟩ | ⟨c, queue, rfl, hr, hq, ht⟩ |
    ⟨a, rest, rfl, hr, ht⟩ | ⟨rfl, ht⟩ | ⟨-, hsame, hq, -⟩
  · exact .inr (hat.of_append hq fun a ha => hsame.running ▸ ha)
  · rw [ht]
    exact atHand_begun hmake h hr hq hd hat
  · obtain ⟨u, hu, -⟩ := step_trace cfg s .worker
    rcases atHand_accessed h hg hlive hr hd hat with hdone | hat'
    · left
      rw [hu]
      exact hdone.append
    · right
      rwa [ht]
  · exact .inr (hat.of_append (s.queue.append_nil.symm) fun a ha => ha)
  · exact .inr (hat.of_append (hq.trans s.queue.append_nil.symm) fun a ha => hsame.running ▸ ha)

/-- The devices of a live system are registered, or about to be. -/
theorem live_step (hmake : ∀ trace device,
      cfg.env.makesMessage trace (.registrationRequest device) = true) (h : Ordered cfg s)
    (e : Event) (hg : Orderly s e) (hlive : Live (step cfg s e)) (hd : d ∈ (step cfg s e).devices) :
    Registered d (step cfg s e).trace ∨ AtHand d (step cfg s e) := by
  rcases live_of_step e hlive with hlive | ⟨rest, hr, hrun⟩ | ⟨b, hrun⟩
  · by_cases hmem : d ∈ s.devices
    · rcases h.live hlive d hmem with hreg | hat
      · obtain ⟨u, hu, -⟩ := step_trace cfg s e
        left
        rw [hu]
        exact hreg.append
      · exact atHand_step hmake h e hg hlive hmem hat
    · rcases devicesChanged cfg s e with hdev | ⟨device, queue, rfl, hr, hq, hk, hdev⟩ |
        ⟨_, _, _, _, _, _, hdev⟩ | ⟨request, _, _, _, hdev⟩
      · rw [hdev] at hd
        exact absurd hd hmem
      · rw [hdev, Std.ExtTreeMap.mem_insert, Std.LawfulEqCmp.compare_eq_iff_eq] at hd
        have hkey : device.key = d := hd.resolve_right hmem
        refine .inr (.inr ⟨.registerIfConnected device, ?_, .check device hkey⟩)
        simp [step_begins hr hq, beginCommand, execute, hk]
      · rw [hdev] at hd
        exact absurd (Std.ExtTreeMap.mem_of_mem_erase hd) hmem
      · rw [hdev] at hd
        exact absurd (mem_registryStoring.mp hd) hmem
  · have hregisters : .enqueue .registerDevices ∈ rest :=
      h.connecting rest (by simp only [hr, List.suffix_refl])
    refine .inr (.inr ⟨.enqueue .registerDevices, ?_, .enqueue _ .all⟩)
    rwa [hrun]
  · refine .inr (.inr ⟨.enqueue .registerDevices, ?_, .enqueue _ .all⟩)
    simp [hrun, connectedAtoms]

theorem alone_step (e : Event) (h : ∀ device, .registerIfConnected device ∈ s.running →
      s.running = [.registerIfConnected device]) (device : Device)
    (hmem : .registerIfConnected device ∈ (step cfg s e).running) :
    (step cfg s e).running = [.registerIfConnected device] := by
  rcases stepped cfg s e with ⟨-, -, hsame, -, -, -⟩ | ⟨c, queue, rfl, hr, hq, ht⟩ |
    ⟨a, rest, rfl, hr, ht⟩ | ⟨rfl, -⟩ | ⟨-, hsame, -, -⟩
  · rw [hsame.running] at hmem ⊢
    exact h device hmem
  · rw [ht] at hmem ⊢
    have hleft := leaves_of_mem hmem
    cases hleft with
    | registerIfConnected _ hk => simp [beginCommand, execute, hk]
  · rw [ht, runAtom_running, List.mem_append] at hmem
    rcases hmem with hmem | hmem
    · cases a <;> simp [Atom.expands] at hmem
    · have hthere : .registerIfConnected device ∈ s.running := by
        rw [hr]
        exact List.mem_cons_of_mem _ hmem
      have halone := h device hthere
      rw [hr] at halone
      simp [(List.cons.inj halone).2] at hmem
  · exact h device hmem
  · rw [hsame.running] at hmem ⊢
    exact h device hmem

theorem requested_statusAbout {e : Event} {c : Command} (h : Requested cfg s e c) :
    statusAbout c = none := by
  cases h with
  | api call _ h =>
    cases call with
    | addSensorReadings =>
      simp only [ApiCall.command] at h
      split_ifs at h
      rw [← Option.some.inj h]
      rfl
    | _ => rw [← Option.some.inj h]; rfl
  | data message _ _ _ h => cases received_of_messageReceived h <;> rfl
  | status | registration | connectionLost => rfl

theorem nested_step (h : Ordered cfg s) (e : Event) (hg : Orderly s e) (device : Device)
    (hmem : .publishDeviceStatusOf device ∈ (step cfg s e).queue ∨
      .enqueue (.publishDeviceStatusOf device) ∈ (step cfg s e).running) :
    Known (step cfg s e) device.key := by
  have hold : .publishDeviceStatusOf device ∈ s.queue ∨
      .enqueue (.publishDeviceStatusOf device) ∈ s.running → Known (step cfg s e) device.key := by
    intro hwait
    have hknown : Known (step cfg s e) device.key ∨ _ := known_step e hg (h.nested device hwait)
    refine hknown.resolve_right ?_
    rintro ⟨hnothing, -, hr, -⟩
    rcases hwait with hwait | hwait
    · exact hnothing.2 _ hwait rfl
    · simp [hr] at hwait
  rcases stepped cfg s e with ⟨c, hc, hsame, hq, -, -⟩ | ⟨c, queue, rfl, hr, hq, ht⟩ |
    ⟨a, rest, rfl, hr, ht⟩ | ⟨rfl, -⟩ | ⟨-, hsame, hq, -⟩
  · rw [hsame.running, hq, List.mem_append, List.mem_singleton] at hmem
    rcases hmem with (hmem | rfl) | hmem
    · exact hold (.inl hmem)
    · cases requested_statusAbout hc
    · exact hold (.inr hmem)
  · rw [ht] at hmem
    rcases hmem with hmem | hmem
    · apply hold
      left
      rw [hq]
      exact List.mem_cons_of_mem _ hmem
    · have hleft := leaves_of_mem hmem
      cases hleft with
      | eachDeviceStatus key _ hdev =>
        have hkey : device.key = key := h.keys key device hdev
        have hd : device.key ∈ s.devices := by
          rw [hkey]
          exact mem_of_getElem? hdev
        rw [ht]
        exact .inl hd
      | refresh _ _ _ hc => cases hc
      | acknowledged _ _ _ _ hc _ => rcases hc with hc | hc <;> cases hc
  · rw [ht, runAtom_queue, runAtom_running, List.mem_append, List.mem_append] at hmem
    rcases hmem with (hmem | hmem) | (hmem | hmem)
    · exact hold (.inl hmem)
    · cases a with
      | enqueue c =>
        rw [← List.mem_singleton.mp hmem] at hr
        apply hold
        right
        rw [hr]
        exact List.mem_cons_self
      | _ => simp [Atom.enqueues] at hmem
    · cases a with
      | registerIfConnected | updateIfConnected =>
        simp only [Atom.expands, List.mem_ite_nil_right] at hmem
        simp at hmem
      | _ => simp [Atom.expands] at hmem
    · apply hold
      right
      rw [hr]
      exact List.mem_cons_of_mem _ hmem
  · exact hold hmem
  · rw [hsame.running, hq] at hmem
    exact hold hmem

theorem stored_step (h : Ordered cfg s) (e : Event) (hg : Orderly s e) (f : Family) (key : Str)
    (hne : contentsOf (step cfg s e).data f key ≠ []) : Known (step cfg s e) (deviceOf f key) := by
  have hknown := (keptFor_step h hg).stored f key hne
  refine (known_step e hg hknown).resolve_right ?_
  rintro ⟨hnothing, rfl, hr, queue, hq⟩
  have hsame : contentsOf (step cfg s .worker).data f key = contentsOf s.data f key := by
    simp only [step_begins hr hq, beginCommand, execute]
    split_ifs <;> cases f <;> rfl
  rw [hsame] at hne
  exact hnothing.1 (f, key) (mem_storedKeys hne) rfl

theorem firmware_step (h : ∀ d, .publishFirmwareVersion d ∈ s.firmwareQueue → Registered d s.trace)
    (e : Event) (hg : Orderly s e) (d : Str)
    (hmem : .publishFirmwareVersion d ∈ (step cfg s e).firmwareQueue) :
    Registered d (step cfg s e).trace := by
  obtain ⟨u, hu, -⟩ := step_trace cfg s e
  rw [hu]
  refine Registered.append ?_
  cases versionRequested hmem with
  | waiting hold => exact h d hold
  | enqueued rest hr =>
    have haccess : MayAccess s (.enqueueFirmware (.publishFirmwareVersion d)) := by
      simpa only [Orderly, hr] using hg
    exact haccess
  | installed c queue hq hinstalls =>
    simp only [Orderly, hq, List.head?_cons, Option.mem_some_iff, forall_eq'] at hg
    exact hg d hinstalls
  | calledBack => exact hg rfl

theorem ordered_step (hmake : ∀ trace device,
      cfg.env.makesMessage trace (.registrationRequest device) = true)
    (hacc : ∀ trace message, cfg.env.accepts trace message = true → online trace = true)
    (s : State P) (e : Event) (h : Ordered cfg s) (hg : Orderly s e) :
    Ordered cfg (step cfg s e) := by
  have hans : Justified (AnsweredBy cfg.env) (step cfg s e).trace :=
    (step_moves s e).invariant (fun _ _ _ hL _ hm => move_answered hL hm) h.answered
  obtain ⟨u, hu, hall⟩ := step_trace cfg s e
  refine ⟨keysAgree_step s e h.keys, registersAfterConnecting_step s e h.connecting,
    alone_step e h.alone, fun hlive d hd => live_step hmake h e hg hlive hd,
    stored_step h e hg, nested_step h e hg, firmware_step h.firmware e hg, hans, ?_⟩
  rw [hu]
  refine justified_append.mpr ⟨h.ordered, fun before x after hsplit d ha => ?_⟩
  exact (accepted_registered hacc h hg hu hall hans hsplit ha).append

theorem ordered_initial : Ordered cfg (State.initial P) := by
  refine ⟨?_, ?_, ?_, ?_, ?_, ?_, ?_, justified_nil, justified_nil⟩
  · intro k device h
    simp [State.initial] at h
  · exact registersAfterConnecting_of_notMem (by simp [State.initial])
  · simp [State.initial]
  · intro _ d hd
    simp [State.initial] at hd
  · exact fun f key h => absurd (contentsOf_initial f key) h
  · simp [State.initial]
  · simp [State.initial]

/-- In every run of orderly steps, a device is registered before any message about it is
accepted. -/
theorem registration_precedes_data (P : Persistence) (cfg : Config)
    (hmake : ∀ trace device, cfg.env.makesMessage trace (.registrationRequest device) = true)
    (hacc : ∀ trace message, cfg.env.accepts trace message = true → online trace = true)
    (events : List Event) (hg : Guarded (step cfg) Orderly (.initial P) events)
    (before : Trace) (e : Effect) (after : Trace)
    (hsplit : (reach cfg P events).trace = before ++ e :: after) (d : Str)
    (ha : AcceptedFor d e) : Registered d before :=
  (invariant_of_guarded (I := Ordered cfg) (ordered_step hmake hacc) ordered_initial hg).ordered
    before e after hsplit d ha

def Environment.whileConnected : Environment :=
  { Environment.obliging with accepts := fun trace _ => online trace }

def readAfterConnecting : List Event :=
  [Event.api (.addDevice (equippedDevice ['a'] ['s'] ['r'])),
    .api (.addSensorReading ['a'] ['s'] ['1'] 0), .api (.connect true)] ++
    List.replicate 24 Event.worker ++ [Event.api .publish, .worker]

def readingAccepted : Effect :=
  .attempted .sensorReadings ['a', '+', 's'] ['a'] [.sensorReading ⟨[['1']], ['s'], 0⟩] .accepted

theorem acceptedFor_readingAccepted : AcceptedFor ['a'] readingAccepted :=
  ⟨.data .sensorReadings ['a'] [.sensorReading ⟨[['1']], ['s'], 0⟩], rfl, rfl⟩

theorem registration_precedes_reading :
    Registered ['a']
      ((reach (.bare Environment.whileConnected) .inMemory readAfterConnecting).trace.take 19) :=
  registration_precedes_data .inMemory (.bare Environment.whileConnected) (fun _ _ => rfl)
    (fun _ _ h => h) readAfterConnecting (by decide +kernel) _ readingAccepted
    ((reach (.bare Environment.whileConnected) .inMemory readAfterConnecting).trace.drop 20)
    (by decide +kernel) ['a'] acceptedFor_readingAccepted

def statusWhileConnecting : List Event :=
  [Event.api (.addDevice (bareDevice ['a'])), .api (.connect true),
    .api (.addDeviceStatus ['a'] .connected)] ++ List.replicate 10 Event.worker

/-- The status is accepted though no registration request for its device was handed over:
the registration waits behind the user's call. -/
theorem status_accepted_before_registration :
    let s := reach (.bare Environment.whileConnected) .inMemory statusWhileConnecting
    let e := Effect.sent (.statusUpdate ['a'] .connected) .accepted
    (∀ trace device, (Config.bare Environment.whileConnected).env.makesMessage trace
      (.registrationRequest device) = true) ∧
    (∀ trace message, (Config.bare Environment.whileConnected).env.accepts trace message = true →
      online trace = true) ∧
    s.queue.head? = some .registerDevices ∧
    s.trace = s.trace.dropLast ++ [e] ∧ AcceptedFor ['a'] e ∧ ¬ Registered ['a'] s.trace.dropLast :=
  ⟨fun _ _ => rfl, fun _ _ h => h, by decide +kernel, by decide +kernel, ⟨_, rfl, rfl⟩,
    by decide +kernel⟩

end WolkGateway.Wolk
