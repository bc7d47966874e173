import WolkGateway.InboundOrder
import WolkGateway.WorkerThreads

/-!
# The threads of the firmware update service

`FirmwareUpdateService` one access at a time: its worker, and the threads on which the
installer calls back. A command or a callback that nothing interrupts does what
`runCommand` and `calledBack` say, and every run of the system is, for this service, one of
these interleavings.
-/

namespace WolkGateway.FirmwareUpdateService
open DeviceModel DataService GuardedRuns WorkerThreads

/-- What a thread of the service is about to do. -/
inductive Point
  /-- `getFirmwareVersion` in `publishFirmwareVersion`. -/
  | provideVersion (deviceKey : Str)
  | publishVersion (deviceKey firmwareVersion : Str)
  /-- `sendStatus` with `FILE_SYSTEM_ERROR`. -/
  | sendFileSystemError (deviceKey : Str)
  /-- `sendStatus` with `INSTALLATION` in `install`. -/
  | sendInstallation (deviceKey firmwareFilePath : Str)
  | callInstaller (deviceKey firmwareFilePath : Str)
  /-- `sendStatus` in `installSucceeded` or `installFailed`. -/
  | sendInstalled (deviceKey : Str) (success : Bool)
  /-- `publishFirmwareVersion` in `installSucceeded`. -/
  | requestVersion (deviceKey : Str)
  | callAbort (deviceKey : Str)
  /-- `sendStatus` with `ABORTED` in `abort`. -/
  | sendAborted (deviceKey : Str)
  deriving DecidableEq

def Point.deviceKey : Point → Str
  | .provideVersion k | .publishVersion k _ | .sendFileSystemError k | .sendInstallation k _
  | .callInstaller k _ | .sendInstalled k _ | .requestVersion k | .callAbort k
  | .sendAborted k => k

/-- A callback of the installer: its argument, and which of the two functions it is. -/
abbrev Callback := Str × Bool

variable (env : Environment)

/-- The first access of a command, after the checks of what it names. -/
def begins (command : FirmwareCommand) (trace : Trace) : Option Point :=
  match command with
  | .publishFirmwareVersion deviceKey => some (.provideVersion deviceKey)
  | .install command =>
    match deviceKeyOf command.deviceKeys with
    | none => none
    | some deviceKey =>
      if command.fileName.isEmpty then some (.sendFileSystemError deviceKey)
      else if !env.isFilePresent trace command.fileName then some (.sendFileSystemError deviceKey)
      else some (.sendInstallation deviceKey command.fileName)
  | .abort command =>
    match deviceKeyOf command.deviceKeys with
    | none => none
    | some deviceKey => some (.callAbort deviceKey)

/-- Send a message, and go on at a point. -/
def sends (message : OutboundMessage) (next : Option Point) (trace : Trace) :
    Done Point FirmwareCommand Effect :=
  ⟨[.sent message (env.outcome trace message)], next, []⟩

def performs (p : Point) (trace : Trace) : Done Point FirmwareCommand Effect :=
  match p with
  | .provideVersion d =>
    let firmwareVersion := env.firmwareVersion trace d
    ⟨[.firmwareVersionProvided d firmwareVersion],
      if firmwareVersion.isEmpty then none else some (.publishVersion d firmwareVersion), []⟩
  | .publishVersion d firmwareVersion => sends env (.firmwareVersion d firmwareVersion) none trace
  | .sendFileSystemError d => sends env (.firmwareStatus d .fileSystemError) none trace
  | .sendInstallation d file =>
    sends env (.firmwareStatus d .installation) (some (.callInstaller d file)) trace
  | .callInstaller d file =>
    match env.installs (trace ++ [.installCalled d file]) d file with
    | none => ⟨[.installCalled d file], none, []⟩
    | some success =>
      ⟨[.installCalled d file, .installCalledBack d success], some (.sendInstalled d success), []⟩
  | .sendInstalled d success =>
    if success then sends env (.firmwareStatus d .completed) (some (.requestVersion d)) trace
    else sends env (.firmwareStatus d .installationFailed) none trace
  | .requestVersion d => ⟨[], none, [.publishFirmwareVersion d]⟩
  | .callAbort d =>
    let aborted := env.aborts trace d
    ⟨[.abortCalled d aborted], if aborted then some (.sendAborted d) else none, []⟩
  | .sendAborted d => sends env (.firmwareStatus d .aborted) none trace

inductive Performed (trace : Trace) : Point → Done Point FirmwareCommand Effect → Prop
  | noVersion (d version : Str) :
      Performed trace (.provideVersion d) ⟨[.firmwareVersionProvided d version], none, []⟩
  | version (d version : Str) : Performed trace (.provideVersion d)
      ⟨[.firmwareVersionProvided d version], some (.publishVersion d version), []⟩
  | versionSent (d version : Str) :
      Performed trace (.publishVersion d version)
        (sends env (.firmwareVersion d version) none trace)
  | refused (d : Str) : Performed trace (.sendFileSystemError d)
      (sends env (.firmwareStatus d .fileSystemError) none trace)
  | installation (d file : Str) : Performed trace (.sendInstallation d file)
      (sends env (.firmwareStatus d .installation) (some (.callInstaller d file)) trace)
  | called (d file : Str) :
      Performed trace (.callInstaller d file) ⟨[.installCalled d file], none, []⟩
  | calledBack (d file : Str) (success : Bool) : Performed trace (.callInstaller d file)
      ⟨[.installCalled d file, .installCalledBack d success], some (.sendInstalled d success), []⟩
  | completed (d : Str) : Performed trace (.sendInstalled d true)
      (sends env (.firmwareStatus d .completed) (some (.requestVersion d)) trace)
  | failed (d : Str) : Performed trace (.sendInstalled d false)
      (sends env (.firmwareStatus d .installationFailed) none trace)
  | requested (d : Str) :
      Performed trace (.requestVersion d) ⟨[], none, [.publishFirmwareVersion d]⟩
  | notAborted (d : Str) (h : env.aborts trace d = false) :
      Performed trace (.callAbort d) ⟨[.abortCalled d false], none, []⟩
  | aborted (d : Str) (h : env.aborts trace d = true) :
      Performed trace (.callAbort d) ⟨[.abortCalled d true], some (.sendAborted d), []⟩
  | abortSent (d : Str) : Performed trace (.sendAborted d)
      (sends env (.firmwareStatus d .aborted) none trace)

theorem performed (p : Point) (trace : Trace) : Performed env trace p (performs env p trace) := by
  cases p with
  | provideVersion d =>
    simp only [performs]
    split_ifs
    · exact .noVersion d _
    · exact .version d _
  | publishVersion d version => exact .versionSent d version
  | sendFileSystemError d => exact .refused d
  | sendInstallation d file => exact .installation d file
  | callInstaller d file =>
    simp only [performs]
    split
    · exact .called d file
    · exact .calledBack d file _
  | sendInstalled d success =>
    cases success with
    | true => exact .completed d
    | false => exact .failed d
  | requestVersion d => exact .requested d
  | callAbort d =>
    simp only [performs]
    cases ha : env.aborts trace d with
    | true => exact .aborted d ha
    | false => exact .notAborted d ha
  | sendAborted d => exact .abortSent d

inductive Begun (trace : Trace) : FirmwareCommand → Option Point → Prop
  | version (d : Str) : Begun trace (.publishFirmwareVersion d) (some (.provideVersion d))
  | unaddressed (command : FirmwareUpdateInstall) (h : deviceKeyOf command.deviceKeys = none) :
      Begun trace (.install command) none
  | refused (command : FirmwareUpdateInstall) (d : Str)
      (hd : deviceKeyOf command.deviceKeys = some d)
      (h : (command.fileName.isEmpty || !env.isFilePresent trace command.fileName) = true) :
      Begun trace (.install command) (some (.sendFileSystemError d))
  | install (command : FirmwareUpdateInstall) (d : Str)
      (hd : deviceKeyOf command.deviceKeys = some d)
      (h : (command.fileName.isEmpty || !env.isFilePresent trace command.fileName) = false) :
      Begun trace (.install command) (some (.sendInstallation d command.fileName))
  | abort (command : FirmwareUpdateAbort) :
      Begun trace (.abort command) ((deviceKeyOf command.deviceKeys).map .callAbort)

theorem begun (command : FirmwareCommand) (trace : Trace) :
    Begun env trace command (begins env command trace) := by
  cases command with
  | publishFirmwareVersion d => exact .version d
  | install command =>
    simp only [begins]
    cases hd : deviceKeyOf command.deviceKeys with
    | none => exact .unaddressed command hd
    | some d =>
      simp only
      split_ifs with hempty habsent
      · exact .refused command d hd (by simp [hempty])
      · exact .refused command d hd (by simp [habsent])
      · exact .install command d hd (by simp [hempty, habsent])
  | abort command =>
    have habort : Begun env trace (.abort command)
        ((deviceKeyOf command.deviceKeys).map .callAbort) := .abort command
    simp only [begins]
    cases hd : deviceKeyOf command.deviceKeys with
    | none => rwa [hd] at habort
    | some d => rwa [hd] at habort

def foreign : Effect → Bool
  | .sent (.firmwareStatus _ _) _ | .sent (.firmwareVersion _ _) _ => false
  | .firmwareVersionProvided _ _ | .installCalled _ _ | .abortCalled _ _
  | .installCalledBack _ _ => false
  | _ => true

/-- The service: a callback on a thread of the installer starts with the call. -/
def service : Program Point FirmwareCommand Effect Callback where
  begins := begins env
  performs := performs env
  spawns call := (.installCalledBack call.1 call.2, .sendInstalled call.1 call.2)
  foreign := foreign

abbrev Threads := Pool Point FirmwareCommand Effect

variable {env}

/-- One thread at most has something left to do, and it is at this point. -/
structure Alone (t : Threads) (trace : Trace) (queue : List FirmwareCommand) (p : Option Point) :
    Prop where
  trace : t.trace = trace
  queue : t.queue = queue
  thread : (t.worker = p ∧ t.threads = []) ∨ (t.worker = none ∧ t.threads = p.toList)

/-- The threads can come to rest with this trace and buffer. -/
def Finishes (env : Environment) (t : Threads) (trace : Trace) (queue : List FirmwareCommand) :
    Prop :=
  ∃ events, Alone (run (step (service env)) t events) trace queue none

variable {P : Persistence} {t : Threads} {trace trace' : Trace}
  {queue queue' : List FirmwareCommand}

theorem Alone.finishes (h : Alone t trace queue none) : Finishes env t trace queue := ⟨[], h⟩

theorem Alone.rests (h : Alone t trace queue none) : t.worker = none ∧ t.threads = [] := by
  rcases h.thread with h | h
  · exact h
  · exact h

theorem Alone.perform {p : Point} (h : Alone t trace queue (some p))
    (hnext : ∀ t', Alone t' (trace ++ (performs env p trace).effects)
      (queue ++ (performs env p trace).puts) (performs env p trace).next →
        Finishes env t' trace' queue') : Finishes env t trace' queue' := by
  have hgo : ∃ e, Alone (step (service env) t e) (trace ++ (performs env p trace).effects)
      (queue ++ (performs env p trace).puts) (performs env p trace).next := by
    obtain ⟨rfl, rfl, ⟨hworker, hthreads⟩ | ⟨hworker, hthreads⟩⟩ := h
    · refine ⟨.worker, ?_⟩
      simp only [step, hworker]
      exact ⟨rfl, rfl, .inl ⟨rfl, hthreads⟩⟩
    · refine ⟨.thread 0, ?_⟩
      simp only [step, hthreads]
      exact ⟨rfl, rfl, .inr ⟨hworker, rfl⟩⟩
  obtain ⟨e, he⟩ := hgo
  obtain ⟨events, hevents⟩ := hnext _ he
  exact ⟨e :: events, hevents⟩

theorem Alone.take {c : FirmwareCommand} (h : Alone t trace (c :: queue) none)
    (hnext : ∀ t', Alone t' trace queue (begins env c trace) → Finishes env t' trace' queue') :
    Finishes env t trace' queue' := by
  have htake : Alone (step (service env) t .worker) trace queue (begins env c trace) := by
    obtain ⟨hworker, hthreads⟩ := h.rests
    obtain ⟨rfl, hqueue, -⟩ := h
    simp only [step, hworker, hqueue]
    exact ⟨rfl, rfl, .inl ⟨rfl, hthreads⟩⟩
  obtain ⟨events, hevents⟩ := hnext _ htake
  exact ⟨.worker :: events, hevents⟩

theorem send_trace (message : OutboundMessage) (s : DataState P) :
    (s.send env message).trace = s.trace ++ [.sent message (env.outcome s.trace message)] := rfl

theorem finishes_send {p : Point} {message : OutboundMessage} (s : DataState P)
    (hp : performs env p s.trace = sends env message none s.trace)
    (h : Alone t s.trace queue (some p)) :
    Finishes env t (s.send env message).trace queue := by
  apply h.perform
  intro t' h'
  rw [hp] at h'
  simp only [sends, List.append_nil] at h'
  exact h'.finishes

theorem finishes_sendInstalled (d : Str) (success : Bool) (s : DataState P)
    (h : Alone t (s.log (.installCalledBack d success)).trace queue
      (some (.sendInstalled d success))) :
    Finishes env t (calledBack env d success s).1.trace
      (queue ++ (calledBack env d success s).2) := by
  cases success with
  | true =>
    apply h.perform
    intro t' h'
    apply h'.perform
    intro t'' h''
    simp only [performs, sends, if_true, List.append_nil] at h''
    exact h''.finishes
  | false =>
    have hqueue : queue ++ (calledBack env d false s).2 = queue := List.append_nil queue
    rw [hqueue]
    exact finishes_send (s.log (.installCalledBack d false)) rfl h

theorem finishes_sendInstallation (d file : Str) (s : DataState P)
    (h : Alone t s.trace queue (some (.sendInstallation d file))) :
    Finishes env t (install env d file s).1.trace (queue ++ (install env d file s).2) := by
  apply h.perform
  intro t' h'
  have hsent : Alone t' (sendStatus env d .installation s).trace queue
      (some (.callInstaller d file)) := by
    rw [sendStatus, send_trace]
    simpa only [performs, sends, List.append_nil] using h'
  apply hsent.perform
  intro t'' h''
  let called := (sendStatus env d .installation s).log (.installCalled d file)
  have htrace : (sendStatus env d .installation s).trace ++ [Effect.installCalled d file] =
      called.trace := rfl
  have hinstall : install env d file s = match env.installs called.trace d file with
    | none => (called, [])
    | some success => calledBack env d success called := rfl
  rw [hinstall]
  simp only [performs, htrace] at h''
  cases hi : env.installs called.trace d file with
  | none =>
    simp only [hi, List.append_nil] at h'' ⊢
    exact h''.finishes
  | some success =>
    simp only [hi, List.append_nil] at h'' ⊢
    apply finishes_sendInstalled d success called
    have hback : (sendStatus env d .installation s).trace ++
        [Effect.installCalled d file, .installCalledBack d success] =
          (called.log (.installCalledBack d success)).trace := by
      simp [called, DataState.log]
    rwa [hback] at h''

theorem finishes_callAbort (d : Str) (s : DataState P)
    (h : Alone t s.trace queue (some (.callAbort d))) :
    Finishes env t (abort env d s).trace queue := by
  apply h.perform
  intro t' h'
  simp only [performs, List.append_nil] at h'
  unfold abort
  cases ha : env.aborts s.trace d with
  | true =>
    rw [ha] at h'
    exact finishes_send (s.log (.abortCalled d true)) rfl h'
  | false =>
    rw [ha] at h'
    exact h'.finishes

theorem finishes_provideVersion (d : Str) (s : DataState P)
    (h : Alone t s.trace queue (some (.provideVersion d))) :
    Finishes env t (runPublishFirmwareVersion env d s).trace queue := by
  apply h.perform
  intro t' h'
  simp only [performs, List.append_nil] at h'
  unfold runPublishFirmwareVersion
  by_cases hv : (env.firmwareVersion s.trace d).isEmpty = true
  · simp only [hv, if_true] at h' ⊢
    exact h'.finishes
  · simp only [hv] at h' ⊢
    exact finishes_send (s.log (.firmwareVersionProvided d (env.firmwareVersion s.trace d))) rfl h'

/-- A command that nothing interrupts does what `runCommand` says. -/
theorem finishes_runCommand (c : FirmwareCommand) (s : DataState P)
    (h : Alone t s.trace (c :: queue) none) :
    Finishes env t (runCommand env s c).1.trace (queue ++ (runCommand env s c).2) := by
  apply h.take
  intro t' h'
  cases c with
  | publishFirmwareVersion d =>
    rw [runCommand, List.append_nil]
    exact finishes_provideVersion d s h'
  | install command =>
    simp only [begins] at h'
    simp only [runCommand, handleFirmwareUpdateInstall]
    cases hd : deviceKeyOf command.deviceKeys with
    | none =>
      simp only [hd, List.append_nil] at h' ⊢
      exact h'.finishes
    | some d =>
      simp only [hd] at h' ⊢
      split_ifs at h' ⊢
      · rw [List.append_nil]
        exact finishes_send s rfl h'
      · rw [List.append_nil]
        exact finishes_send s rfl h'
      · exact finishes_sendInstallation d command.fileName s h'
  | abort command =>
    simp only [begins] at h'
    simp only [runCommand, handleFirmwareUpdateAbort]
    cases hd : deviceKeyOf command.deviceKeys with
    | none =>
      simp only [hd, List.append_nil] at h' ⊢
      exact h'.finishes
    | some d =>
      simp only [hd, List.append_nil] at h' ⊢
      exact finishes_callAbort d s h'

/-- A callback that nothing interrupts does what `calledBack` says. -/
theorem finishes_calledBack (d : Str) (success : Bool) (s : DataState P)
    (h : Alone t s.trace queue none) :
    Finishes env t (calledBack env d success s).1.trace
      (queue ++ (calledBack env d success s).2) := by
  have hspawn : Alone (step (service env) t (.spawn (d, success)))
      (s.log (.installCalledBack d success)).trace queue (some (.sendInstalled d success)) := by
    obtain ⟨hworker, hthreads⟩ := h.rests
    obtain ⟨htrace, rfl, -⟩ := h
    refine ⟨?_, rfl, .inr ⟨hworker, ?_⟩⟩
    · simp only [step, htrace]
      rfl
    · simp only [step, hthreads]
      rfl
  obtain ⟨events, hevents⟩ := finishes_sendInstalled d success s hspawn
  exact ⟨.spawn (d, success) :: events, hevents⟩

theorem finishes_elsewhere (h : Alone t trace queue none) {u : Trace}
    (hu : ∀ e ∈ u, foreign e = true) (puts : List FirmwareCommand) :
    Finishes env t (trace ++ u) (queue ++ puts) := by
  induction u generalizing t trace with
  | nil =>
    induction puts generalizing t queue with
    | nil =>
      rw [List.append_nil, List.append_nil]
      exact h.finishes
    | cons c puts ih =>
      have hput : Alone (step (service env) t (.put c)) trace (queue ++ [c]) none :=
        ⟨h.trace, by rw [← h.queue]; rfl, .inl h.rests⟩
      obtain ⟨events, hevents⟩ := ih hput
      rw [List.append_assoc] at hevents
      exact ⟨.put c :: events, hevents⟩
  | cons e u ih =>
    have he : foreign e = true := hu e List.mem_cons_self
    have hlog : Alone (step (service env) t (.elsewhere e he)) (trace ++ [e]) queue none :=
      ⟨by rw [← h.trace]; rfl, h.queue, .inl h.rests⟩
    obtain ⟨events, hevents⟩ := ih hlog fun x hx => hu x (List.mem_cons_of_mem e hx)
    rw [List.append_assoc] at hevents
    exact ⟨.elsewhere e he :: events, hevents⟩

end WolkGateway.FirmwareUpdateService

namespace WolkGateway.Wolk
open DeviceModel DataService GuardedRuns FirmwareUpdateService

variable {P : Persistence} {cfg : Config} {s : State P} {t : Threads}

/-- The service as the system sees it between its steps. -/
def Mirrors (t : Threads) (s : State P) : Prop := Alone t s.trace s.firmwareQueue none

theorem foreign_of_mayEmit {devices : Registry} {c : Command} {e : Effect}
    (h : MayEmit devices c e) : foreign e = true := by
  cases h with
  | sent _ message outcome h => cases h <;> rfl
  | _ => rfl

theorem foreign_of_accesses {a : Atom} {e : Effect} (h : Accesses a e) : foreign e = true := by
  cases h <;> rfl

theorem Mirrors.elsewhere {s' : State P} (h : Mirrors t s) (u : Trace)
    (puts : List FirmwareCommand) (hu : ∀ e ∈ u, foreign e = true)
    (htrace : s'.trace = s.trace ++ u) (hqueue : s'.firmwareQueue = s.firmwareQueue ++ puts) :
    ∃ events, Mirrors (run (WorkerThreads.step (service cfg.env)) t events) s' := by
  have hrun : Finishes cfg.env t (s.trace ++ u) (s.firmwareQueue ++ puts) :=
    finishes_elsewhere h hu puts
  rwa [← htrace, ← hqueue] at hrun

theorem deliver_firmwareQueue (cfg : Config) (listener : Listener) (message : InboundMessage)
    (s : State P) :
    ∃ puts, (deliver cfg listener message s).firmwareQueue = s.firmwareQueue ++ puts := by
  cases listener with
  | firmwareUpdateService =>
    simp only [deliver]
    split
    · exact ⟨[], (List.append_nil _).symm⟩
    · exact ⟨_, rfl⟩
  | _ =>
    refine ⟨[], ?_⟩
    rw [List.append_nil]
    simp only [deliver, enqueueAll]
    split <;> rfl

theorem Mirrors.quiet (h : Mirrors t s) (s' : State P) (htrace : s'.trace = s.trace)
    (hqueue : s'.firmwareQueue = s.firmwareQueue) :
    ∃ events, Mirrors (run (WorkerThreads.step (service cfg.env)) t events) s' :=
  ⟨[], by rwa [Mirrors, htrace, hqueue]⟩

theorem mirrors_worker (cfg : Config) (h : Mirrors t s) :
    ∃ events, Mirrors (run (WorkerThreads.step (service cfg.env)) t events)
      (step cfg s .worker) := by
  cases hr : s.running with
  | nil =>
    cases hq : s.queue with
    | nil =>
      simp only [step, workerStep, hr, hq]
      exact h.quiet s rfl rfl
    | cons c queue =>
      rw [step_begins hr hq]
      obtain ⟨u, hu, hall⟩ := beginCommand_trace cfg c queue s
      rw [List.append_assoc] at hu
      refine h.elsewhere _ [] (fun x hx => ?_) hu (List.append_nil _).symm
      rcases List.mem_append.mp hx with hx | hx
      · rw [List.mem_singleton.mp hx]
        rfl
      · exact foreign_of_mayEmit (hall x hx)
  | cons a rest =>
    rw [step_accesses hr]
    obtain ⟨u, hu, hall⟩ := (runAtom_moves cfg a { s with running := rest }).trace_eq
    exact h.elsewhere u _ (fun x hx => foreign_of_accesses (hall x hx)) hu
      (runAtom_firmwareQueue _ _)

/-- Every step of the system is a run of the service's threads. -/
theorem mirrors_step (cfg : Config) (h : Mirrors t s) (e : Event) :
    ∃ events, Mirrors (run (WorkerThreads.step (service cfg.env)) t events) (step cfg s e) := by
  have quiet : ∀ s' : State P, s'.trace = s.trace → s'.firmwareQueue = s.firmwareQueue →
      ∃ events, Mirrors (run (WorkerThreads.step (service cfg.env)) t events) s' :=
    fun s' => h.quiet s'
  cases e with
  | api call =>
    simp only [step]
    cases call.command s.clock with
    | none => exact quiet s rfl rfl
    | some c => exact quiet _ rfl rfl
  | worker => exact mirrors_worker cfg h
  | connectionLost =>
    exact h.elsewhere [.connectionLost] [] (by simp [foreign]) rfl (List.append_nil _).symm
  | connectionLostConnects =>
    simp only [step]
    split
    · exact quiet s rfl rfl
    · exact quiet _ rfl rfl
  | inbound channel payload =>
    simp only [step]
    split
    · exact quiet s rfl rfl
    · exact h.elsewhere [_] [] (by simp [foreign]) rfl (List.append_nil _).symm
  | inboundWorker =>
    simp only [step]
    split
    · exact quiet s rfl rfl
    · rename_i listener message rest _
      obtain ⟨puts, hputs⟩ := deliver_firmwareQueue cfg listener message { s with inbox := rest }
      exact h.elsewhere [] puts (by simp) (by simp [State.trace]) hputs
  | firmwareWorker =>
    simp only [step]
    cases hq : s.firmwareQueue with
    | nil => exact quiet s rfl rfl
    | cons c queue =>
      rw [Mirrors, hq] at h
      exact finishes_runCommand c s.data h
  | installCallback d success => exact finishes_calledBack d success s.data h
  | platformStatusWorker =>
    simp only [step]
    split
    · exact quiet s rfl rfl
    · exact h.elsewhere [_] [] (by simp [foreign]) rfl (List.append_nil _).symm
  | tick n => exact quiet _ rfl rfl

/-- Every run of the system is an interleaving of the service's threads. -/
theorem mirrors_reach (cfg : Config) (events : List Event) :
    ∃ interleaving, Mirrors (run (WorkerThreads.step (service cfg.env)) .initial interleaving)
      (reach cfg P events) := by
  refine invariant_of_step (I := fun s : State P => ∃ interleaving,
    Mirrors (run (WorkerThreads.step (service cfg.env)) .initial interleaving) s) ?_ ?_ events
  · rintro s e ⟨interleaving, h⟩
    obtain ⟨more, hmore⟩ := mirrors_step cfg h e
    exact ⟨interleaving ++ more, by rwa [run_append]⟩
  · exact ⟨[], rfl, rfl, .inl ⟨rfl, rfl⟩⟩

end WolkGateway.Wolk
