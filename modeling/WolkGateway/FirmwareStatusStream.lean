import WolkGateway.FirmwareThreads

/-!
# The stream of firmware statuses

What the service tells the platform about the installations of one device, under any
interleaving of its worker and the installer's threads. The installer is trusted to call
back at most once for an install, and to report an abort only of an unfinished one.
-/

namespace WolkGateway.FirmwareUpdateService
open DeviceModel GuardedRuns WorkerThreads

/-- The status of a device that is handed to `ConnectivityService::publish`. -/
def handedStatus (d : Str) (e : Effect) : Option FirmwareUpdateStatus :=
  match e.handed with
  | some (.firmwareStatus k status, _) => if k = d then some status else none
  | _ => none

def statuses (d : Str) (trace : Trace) : List FirmwareUpdateStatus :=
  trace.filterMap (handedStatus d)

def callsInstaller (d : Str) : Effect → Bool
  | .installCalled k _ => k = d
  | _ => false

/-- The installer is done with an install: it called back, or it reports an abort. -/
def endsInstall (d : Str) : Effect → Bool
  | .installCalledBack k _ => k = d
  | .abortCalled k aborted => k = d && aborted
  | _ => false

def asksVersion (d : Str) : Effect → Bool
  | .firmwareVersionProvided k _ => k = d
  | _ => false

/-- An install of the device is under way. -/
def Unfinished (d : Str) (trace : Trace) : Prop :=
  trace.countP (endsInstall d) < trace.countP (callsInstaller d)

instance (d : Str) (trace : Trace) : Decidable (Unfinished d trace) := Nat.decLt _ _

/-- What is relied on of the installer: callbacks, and aborts that it reports, are of
installs that are under way. -/
structure InstallerContract (env : Environment) (s : Threads) (e : Event (service env)) :
    Prop where
  calledBack : ∀ d success, e = .spawn (d, success) → Unfinished d s.trace
  aborted : ∀ d, e = .worker → s.worker = some (.callAbort d) → env.aborts s.trace d = true →
    Unfinished d s.trace

def contractKept (env : Environment) (s : Threads) : Event (service env) → Bool
  | .spawn (d, _) => Unfinished d s.trace
  | .worker =>
    match s.worker with
    | some (.callAbort d) => !env.aborts s.trace d || Unfinished d s.trace
    | _ => true
  | _ => true

theorem installerContract_iff {env : Environment} {s : Threads} {e : Event (service env)} :
    contractKept env s e = true ↔ InstallerContract env s e := by
  constructor
  · intro h
    constructor
    · rintro d success rfl
      simpa [contractKept] using h
    · rintro d rfl hw ha
      simpa [contractKept, hw, ha] using h
  · intro h
    cases e with
    | spawn start => simpa [contractKept] using h.calledBack start.1 start.2 rfl
    | worker =>
      simp only [contractKept]
      split
      · rename_i d hw
        cases ha : env.aborts s.trace d with
        | true => simpa using h.aborted d rfl hw ha
        | false => rfl
      · rfl
    | _ => rfl

instance (env : Environment) (s : Threads) (e : Event (service env)) :
    Decidable (InstallerContract env s e) := decidable_of_iff _ installerContract_iff

def refuses (env : Environment) (d : Str) : FirmwareCommand × Trace → Bool
  | (.install command, trace) => deviceKeyOf command.deviceKeys = some d &&
      (command.fileName.isEmpty || !env.isFilePresent trace command.fileName)
  | _ => false

def installs (env : Environment) (d : Str) : FirmwareCommand × Trace → Bool
  | (.install command, trace) => deviceKeyOf command.deviceKeys = some d &&
      !(command.fileName.isEmpty || !env.isFilePresent trace command.fileName)
  | _ => false

def ends : FirmwareUpdateStatus → Bool
  | .completed | .installationFailed | .aborted => true
  | .installation | .fileSystemError => false

def toInstall (d : Str) : Point → Bool
  | .sendInstallation k _ => k = d
  | _ => false

def toCall (d : Str) : Point → Bool
  | .callInstaller k _ => k = d
  | _ => false

def toEnd (d : Str) : Point → Bool
  | .sendInstalled k _ | .sendAborted k => k = d
  | _ => false

def toAskVersion (d : Str) : Point → Bool
  | .requestVersion k | .provideVersion k => k = d
  | _ => false

def toRefuse (d : Str) : Point → Bool
  | .sendFileSystemError k => k = d
  | _ => false

/-- The threads that are at such a point. -/
def pending (p : Point → Bool) (s : Threads) : ℕ := s.worker.toList.countP p + s.threads.countP p

/-- No thread is in the middle of something for the device. -/
def Idle (d : Str) (s : Threads) : Prop := ∀ p ∈ s.worker.toList ++ s.threads, p.deviceKey ≠ d

/-- What a state owes a device. Where a law has a thread that is about to do its part, the
part counts as done: what has to come after a status comes once, and not before it. -/
structure StatusStream (env : Environment) (d : Str) (s : Threads) : Prop where
  bounded : ∀ l, l <+: statuses d s.trace → l.countP ends ≤ l.count .installation
  settled : Idle d s → ¬ Unfinished d s.trace →
    (statuses d s.trace).countP ends = (statuses d s.trace).count .installation
  called : s.trace.countP (callsInstaller d) + pending (toCall d) s =
    (statuses d s.trace).count .installation
  versionAsked : s.trace.countP (asksVersion d) + pending (toAskVersion d) s +
      s.queue.count (.publishFirmwareVersion d) =
    (statuses d s.trace).count .completed + s.asked.count (.publishFirmwareVersion d)
  answered : ∃ more, (∀ e ∈ more, Event.goesOn e = true) ∧
    let s' := run (step (service env)) s more
    s'.trace.countP (asksVersion d) =
      (statuses d s'.trace).count .completed + s'.asked.count (.publishFirmwareVersion d)
  refused : (statuses d s.trace).count .fileSystemError + pending (toRefuse d) s =
    s.taken.countP (refuses env d)
  installed : (statuses d s.trace).count .installation + pending (toInstall d) s =
    s.taken.countP (installs env d)

variable {env : Environment} {d : Str}

def hands (d : Str) (p : FirmwareUpdateStatus → Bool) (e : Effect) : Bool :=
  ((handedStatus d e).map p).getD false

theorem countP_statuses (p : FirmwareUpdateStatus → Bool) (trace : Trace) :
    trace.countP (hands d p) = (statuses d trace).countP p := List.countP_filterMap.symm

def BuildsStatuses (env : Environment) : Prop :=
  ∀ trace k status, env.makesMessage trace (.firmwareStatus k status) = true

@[simp] theorem hands_sent (hb : BuildsStatuses env) (p : FirmwareUpdateStatus → Bool) (k : Str)
    (status : FirmwareUpdateStatus) (trace : Trace) :
    hands d p (.sent (.firmwareStatus k status)
      (env.outcome trace (.firmwareStatus k status))) = (k = d && p status) := by
  have hhanded : (Effect.sent (.firmwareStatus k status)
      (env.outcome trace (.firmwareStatus k status))).handed =
        some (.firmwareStatus k status, env.accepts trace (.firmwareStatus k status)) := by
    have hbuilt := hb trace k status
    cases ha : env.accepts trace (.firmwareStatus k status) <;>
      simp [Environment.outcome, hbuilt, ha, Effect.handed]
  unfold hands handedStatus
  rw [hhanded]
  by_cases hk : k = d
  · simp [hk]
  · simp [hk]

@[simp] theorem hands_version (p : FirmwareUpdateStatus → Bool) (k version : Str)
    (outcome : Outcome) : hands d p (.sent (.firmwareVersion k version) outcome) = false := by
  cases outcome <;> rfl

@[simp] theorem hands_versionProvided (p : FirmwareUpdateStatus → Bool) (k version : Str) :
    hands d p (.firmwareVersionProvided k version) = false := rfl

@[simp] theorem hands_installCalled (p : FirmwareUpdateStatus → Bool) (k file : Str) :
    hands d p (.installCalled k file) = false := rfl

@[simp] theorem hands_abortCalled (p : FirmwareUpdateStatus → Bool) (k : Str) (aborted : Bool) :
    hands d p (.abortCalled k aborted) = false := rfl

@[simp] theorem hands_installCalledBack (p : FirmwareUpdateStatus → Bool) (k : Str)
    (success : Bool) : hands d p (.installCalledBack k success) = false := rfl

theorem hands_foreign (p : FirmwareUpdateStatus → Bool) {e : Effect} (h : foreign e = true) :
    hands d p e = false := by
  cases e with
  | sent message outcome =>
    cases message with
    | firmwareStatus | firmwareVersion => cases h
    | _ => cases outcome <;> rfl
  | attempted f k d items outcome => cases outcome <;> rfl
  | _ => rfl

theorem balanced_service {c c' : Counter Point FirmwareCommand Effect}
    (hperformed : ∀ trace p done, Performed env trace p done →
      c.done done + [p].countP c'.point = c'.done done + [p].countP c.point)
    (hbegun : ∀ trace command p, Begun env trace command p →
      p.toList.countP c.point + [(command, trace)].countP c.taken + [command].countP c'.command =
        p.toList.countP c'.point + [(command, trace)].countP c'.taken +
          [command].countP c.command)
    (hput : ∀ command, [command].countP c.command + [command].countP c.asked =
      [command].countP c'.command + [command].countP c'.asked)
    (hspawned : ∀ k success, [Effect.installCalledBack k success].countP c.effect +
        [Point.sendInstalled k success].countP c.point =
      [Effect.installCalledBack k success].countP c'.effect +
        [Point.sendInstalled k success].countP c'.point)
    (helsewhere : ∀ e, foreign e = true → [e].countP c.effect = [e].countP c'.effect) :
    Balanced (service env) c c' where
  performs p trace := hperformed trace p _ (performed env p trace)
  begins command trace := hbegun trace command _ (begun env command trace)
  put := hput
  spawns start := hspawned start.1 start.2
  elsewhere := helsewhere

theorem callsInstaller_foreign {e : Effect} (h : foreign e = true) :
    callsInstaller d e = false := by
  cases e with
  | installCalled => cases h
  | _ => rfl

theorem endsInstall_foreign {e : Effect} (h : foreign e = true) : endsInstall d e = false := by
  cases e with
  | installCalledBack | abortCalled => cases h
  | _ => rfl

theorem asksVersion_foreign {e : Effect} (h : foreign e = true) : asksVersion d e = false := by
  cases e with
  | firmwareVersionProvided => cases h
  | _ => rfl

/-- An `INSTALLATION` is followed by a call of the installer, and no call is without one. -/
theorem balanced_calls (hb : BuildsStatuses env) (d : Str) :
    Balanced (service env) { effect := callsInstaller d, point := toCall d }
      { effect := hands d (· = .installation) } := by
  apply balanced_service
  · intro trace p done h
    cases h <;> simp [sends, Counter.done, List.countP_cons, callsInstaller, toCall, hb]
  · intro trace command p h
    cases h with
    | abort command => cases deviceKeyOf command.deviceKeys <;> simp [toCall]
    | _ => simp [toCall]
  · intro command
    rfl
  · intro k success
    rfl
  · intro e he
    simp [callsInstaller_foreign he, hands_foreign _ he]

theorem balanced_ends (hb : BuildsStatuses env) (d : Str) :
    Balanced (service env) { effect := hands d ends, point := toEnd d }
      { effect := endsInstall d } := by
  apply balanced_service
  · intro trace p done h
    cases h <;> simp [sends, Counter.done, List.countP_cons, endsInstall, toEnd, ends, hb]
  · intro trace command p h
    cases h with
    | abort command => cases deviceKeyOf command.deviceKeys <;> simp [toEnd]
    | _ => simp [toEnd]
  · intro command
    rfl
  · intro k success
    simp [toEnd, endsInstall]
  · intro e he
    simp [endsInstall_foreign he, hands_foreign _ he]

/-- The version is asked for once for each `COMPLETED`, and once for each request from
outside. -/
theorem balanced_versions (hb : BuildsStatuses env) (d : Str) :
    Balanced (service env)
      { effect := asksVersion d, point := toAskVersion d,
        command := (· = .publishFirmwareVersion d) }
      { effect := hands d (· = .completed), asked := (· = .publishFirmwareVersion d) } := by
  apply balanced_service
  · intro trace p done h
    cases h <;> simp [sends, Counter.done, asksVersion, toAskVersion, hb]
  · intro trace command p h
    cases h with
    | abort command => cases deviceKeyOf command.deviceKeys <;> simp [toAskVersion]
    | _ => simp [toAskVersion]
  · intro command
    simp
  · intro k success
    simp [toAskVersion, asksVersion]
  · intro e he
    simp [asksVersion_foreign he, hands_foreign _ he]

/-- An install whose file is not there leads to one `FILE_SYSTEM_ERROR`. -/
theorem balanced_refused (hb : BuildsStatuses env) (d : Str) :
    Balanced (service env)
      { effect := hands d (· = .fileSystemError), point := toRefuse d }
      { taken := refuses env d } := by
  apply balanced_service
  · intro trace p done h
    cases h <;> simp [sends, Counter.done, toRefuse, hb]
  · intro trace command p h
    cases h with
    | abort command => cases deviceKeyOf command.deviceKeys <;> simp [toRefuse, refuses]
    | refused command k hk h => simp [toRefuse, refuses, hk, h]
    | install command k hk h => simp [toRefuse, refuses, hk, h]
    | unaddressed command hk => simp [refuses, hk]
    | _ => simp [toRefuse, refuses]
  · intro command
    rfl
  · intro k success
    simp [toRefuse]
  · intro e he
    simp [hands_foreign _ he]

/-- An install whose file is there leads to one `INSTALLATION`. -/
theorem balanced_installed (hb : BuildsStatuses env) (d : Str) :
    Balanced (service env)
      { effect := hands d (· = .installation), point := toInstall d }
      { taken := installs env d } := by
  apply balanced_service
  · intro trace p done h
    cases h <;> simp [sends, Counter.done, toInstall, hb]
  · intro trace command p h
    cases h with
    | abort command => cases deviceKeyOf command.deviceKeys <;> simp [toInstall, installs]
    | refused command k hk h => simp [toInstall, installs, hk, h]
    | install command k hk h => simp [toInstall, installs, hk, h]
    | unaddressed command hk => simp [installs, hk]
    | _ => simp [toInstall, installs]
  · intro command
    rfl
  · intro k success
    simp [toInstall]
  · intro e he
    simp [hands_foreign _ he]

inductive InCallback : Point → Prop
  | sendInstalled (k : Str) (success : Bool) : InCallback (.sendInstalled k success)
  | requestVersion (k : Str) : InCallback (.requestVersion k)

/-- The threads beside the worker only call back, and no more installs have ended than were
begun. -/
structure KeepsContract (s : Threads) : Prop where
  threads : ∀ p ∈ s.threads, InCallback p
  ended : ∀ d, s.trace.countP (endsInstall d) ≤ s.trace.countP (callsInstaller d)

theorem KeepsContract.performed {s : Threads} {p : Point}
    {done : Done Point FirmwareCommand Effect} (h : Performed env s.trace p done)
    (hs : KeepsContract s)
    (hg : ∀ d, p = .callAbort d → env.aborts s.trace d = true → Unfinished d s.trace) (d : Str) :
    (s.trace ++ done.effects).countP (endsInstall d) ≤
      (s.trace ++ done.effects).countP (callsInstaller d) := by
  have hended := hs.ended d
  rw [List.countP_append, List.countP_append]
  cases h with
  | calledBack k file success =>
    by_cases hk : k = d
    · simp [endsInstall, callsInstaller, hk]
      omega
    · simpa [endsInstall, callsInstaller, hk] using hended
  | called k file =>
    exact Nat.add_le_add hended (by simp [endsInstall])
  | aborted k ha =>
    by_cases hk : k = d
    · subst hk
      have hunfinished := hg k rfl ha
      unfold Unfinished at hunfinished
      simp only [List.countP_singleton, endsInstall, callsInstaller]
      simp
      omega
    · simpa [endsInstall, callsInstaller, hk] using hended
  | _ => simpa [sends, endsInstall, callsInstaller] using hended

theorem InCallback.performed {trace : Trace} {p q : Point}
    {done : Done Point FirmwareCommand Effect} (h : Performed env trace p done)
    (hp : InCallback p) (hq : q ∈ done.next) : InCallback q := by
  cases hp with
  | sendInstalled k success =>
    cases h with
    | completed =>
      rw [← Option.some.inj hq]
      exact .requestVersion k
    | failed => cases hq
  | requestVersion k =>
    cases h
    cases hq

theorem keepsContract_step (s : Threads) (e : Event (service env)) (h : KeepsContract s)
    (hg : InstallerContract env s e) : KeepsContract (step (service env) s e) := by
  cases e with
  | put command => exact ⟨h.threads, h.ended⟩
  | worker =>
    simp only [step]
    cases hw : s.worker with
    | some p =>
      refine ⟨h.threads, fun d => h.performed (performed env p s.trace) (fun k hk => ?_) d⟩
      rw [hk] at hw
      exact hg.aborted k rfl hw
    | none =>
      cases hq : s.queue with
      | nil => exact h
      | cons command queue => exact ⟨h.threads, h.ended⟩
  | spawn start =>
    obtain ⟨k, success⟩ := start
    constructor
    · intro p hp
      rcases List.mem_append.mp hp with hp | hp
      · exact h.threads p hp
      · rw [List.mem_singleton.mp hp]
        exact .sendInstalled k success
    · intro d
      have hended := h.ended d
      have hunfinished := hg.calledBack k success rfl
      unfold Unfinished at hunfinished
      simp only [step, service, List.countP_append, List.countP_singleton, endsInstall,
        callsInstaller]
      by_cases hk : k = d
      · subst hk
        simp
        omega
      · simpa [hk] using hended
  | thread index =>
    simp only [step]
    cases ht : s.threads[index]? with
    | none => exact h
    | some p =>
      have hcallback : InCallback p := h.threads p (List.mem_of_getElem? ht)
      constructor
      · intro q hq
        rcases List.mem_append.mp hq with hq | hq
        · exact h.threads q (List.mem_of_mem_eraseIdx hq)
        · exact hcallback.performed (performed env p s.trace) (Option.mem_toList.mp hq)
      · refine h.performed (performed env p s.trace) fun k hk => ?_
        rw [hk] at hcallback
        cases hcallback
  | elsewhere effect he =>
    refine ⟨h.threads, fun d => ?_⟩
    have hended := h.ended d
    simp only [step, List.countP_append, List.countP_singleton, endsInstall_foreign he,
      callsInstaller_foreign he]
    omega

theorem statuses_step (d : Str) (s : Threads) (e : Event (service env)) :
    ∃ new, statuses d (step (service env) s e).trace = statuses d s.trace ++ new ∧
      new.length ≤ 1 := by
  have done : ∀ p, ∃ new, statuses d (s.trace ++ (performs env p s.trace).effects) =
      statuses d s.trace ++ new ∧ new.length ≤ 1 := by
    intro p
    refine ⟨(performs env p s.trace).effects.filterMap (handedStatus d), List.filterMap_append, ?_⟩
    have h := performed env p s.trace
    generalize performs env p s.trace = done at h ⊢
    cases h with
    | calledBack => exact Nat.zero_le 1
    | _ => exact Nat.le_trans (List.length_filterMap_le _ _) (by simp [sends])
  have same : ∃ new, statuses d s.trace = statuses d s.trace ++ new ∧ new.length ≤ 1 :=
    ⟨[], (List.append_nil _).symm, Nat.zero_le 1⟩
  cases e with
  | put command => exact same
  | worker =>
    simp only [step]
    cases s.worker with
    | some p => exact done p
    | none =>
      cases s.queue with
      | nil => exact same
      | cons command queue => exact same
  | spawn start => exact ⟨_, List.filterMap_append, List.length_filterMap_le _ _⟩
  | thread index =>
    simp only [step]
    cases s.threads[index]? with
    | none => exact same
    | some p => exact done p
  | elsewhere effect he => exact ⟨_, List.filterMap_append, List.length_filterMap_le _ _⟩

/-- The accesses a point or a command leads to at most. -/
def Point.rank : Point → ℕ
  | .publishVersion _ _ | .sendFileSystemError _ | .sendAborted _ => 1
  | .provideVersion _ | .callAbort _ => 2
  | .requestVersion _ => 4
  | .sendInstalled _ _ => 5
  | .callInstaller _ _ => 6
  | .sendInstallation _ _ => 7

def cost : FirmwareCommand → ℕ
  | .publishFirmwareVersion _ | .abort _ => 3
  | .install _ => 8

theorem service_terminating (env : Environment) :
    Terminating (service env) Point.rank cost where
  performs p trace := by
    have h := performed env p trace
    simp only [service]
    generalize performs env p trace = done at h ⊢
    cases h <;> simp [sends, Point.rank, cost]
  begins command trace := by
    have h := begun env command trace
    simp only [service]
    generalize begins env command trace = p at h ⊢
    cases h with
    | abort command => cases deviceKeyOf command.deviceKeys <;> simp [Point.rank, cost]
    | _ => simp [Point.rank, cost]

theorem count_statuses (status : FirmwareUpdateStatus) (trace : Trace) :
    (statuses d trace).count status = trace.countP (hands d (· = status)) :=
  (countP_statuses _ _).symm

def Lawful (env : Environment) (s : Threads) : Prop :=
  ∀ c c', Balanced (service env) c c' → c.value s = c'.value s

variable {s : Threads}

theorem Lawful.called (h : Lawful env s) (hb : BuildsStatuses env) (d : Str) :
    s.trace.countP (callsInstaller d) + pending (toCall d) s =
      (statuses d s.trace).count .installation := by
  have hlaw := h _ _ (balanced_calls hb d)
  rw [count_statuses]
  simpa [Counter.value, pending, Nat.add_assoc] using hlaw

theorem Lawful.ended (h : Lawful env s) (hb : BuildsStatuses env) (d : Str) :
    (statuses d s.trace).countP ends + pending (toEnd d) s =
      s.trace.countP (endsInstall d) := by
  have hlaw := h _ _ (balanced_ends hb d)
  rw [← countP_statuses]
  simpa [Counter.value, pending, Nat.add_assoc] using hlaw

theorem Lawful.versionAsked (h : Lawful env s) (hb : BuildsStatuses env) (d : Str) :
    s.trace.countP (asksVersion d) + pending (toAskVersion d) s +
        s.queue.count (.publishFirmwareVersion d) =
      (statuses d s.trace).count .completed + s.asked.count (.publishFirmwareVersion d) := by
  have hlaw := h _ _ (balanced_versions hb d)
  have hcount : ∀ l : List FirmwareCommand, l.count (.publishFirmwareVersion d) =
      l.countP (fun c => c = .publishFirmwareVersion d) := fun _ => rfl
  rw [count_statuses, hcount, hcount]
  simpa [Counter.value, pending, Nat.add_assoc] using hlaw

theorem Lawful.refused (h : Lawful env s) (hb : BuildsStatuses env) (d : Str) :
    (statuses d s.trace).count .fileSystemError + pending (toRefuse d) s =
      s.taken.countP (refuses env d) := by
  have hlaw := h _ _ (balanced_refused hb d)
  rw [count_statuses]
  simpa [Counter.value, pending, Nat.add_assoc] using hlaw

theorem Lawful.installed (h : Lawful env s) (hb : BuildsStatuses env) (d : Str) :
    (statuses d s.trace).count .installation + pending (toInstall d) s =
      s.taken.countP (installs env d) := by
  have hlaw := h _ _ (balanced_installed hb d)
  rw [count_statuses]
  simpa [Counter.value, pending, Nat.add_assoc] using hlaw

/-- No more installations have ended than were announced. -/
theorem Lawful.ended_le (h : Lawful env s) (hb : BuildsStatuses env) (hs : KeepsContract s)
    (d : Str) : (statuses d s.trace).countP ends ≤ (statuses d s.trace).count .installation := by
  have hcalled := h.called hb d
  have hended := h.ended hb d
  have hcontract := hs.ended d
  omega

theorem pending_atRest (h : s.AtRest) (p : Point → Bool) : pending p s = 0 := by
  simp [pending, h.worker, h.threads]

theorem pending_idle (h : Idle d s) {p : Point → Bool} (hp : ∀ q, p q = true → q.deviceKey = d) :
    pending p s = 0 := by
  rw [pending, ← List.countP_append, List.countP_eq_zero]
  intro q hq hpq
  exact h q hq (hp q hpq)

theorem toCall_deviceKey {q : Point} (h : toCall d q = true) : q.deviceKey = d := by
  cases q with
  | callInstaller => exact of_decide_eq_true h
  | _ => cases h

theorem toEnd_deviceKey {q : Point} (h : toEnd d q = true) : q.deviceKey = d := by
  cases q with
  | sendInstalled | sendAborted => exact of_decide_eq_true h
  | _ => cases h

theorem Lawful.settled (h : Lawful env s) (hb : BuildsStatuses env) (hs : KeepsContract s)
    (hidle : Idle d s) (hfinished : ¬ Unfinished d s.trace) :
    (statuses d s.trace).countP ends = (statuses d s.trace).count .installation := by
  have hcalled := h.called hb d
  have hended := h.ended hb d
  have hcontract := hs.ended d
  rw [pending_idle hidle fun q => toCall_deviceKey] at hcalled
  rw [pending_idle hidle fun q => toEnd_deviceKey] at hended
  unfold Unfinished at hfinished
  omega

theorem Lawful.answered (h : Lawful env s) (hb : BuildsStatuses env) (d : Str) :
    ∃ more, (∀ e ∈ more, Event.goesOn e = true) ∧
      let s' := run (step (service env)) s more
      s'.trace.countP (asksVersion d) =
        (statuses d s'.trace).count .completed + s'.asked.count (.publishFirmwareVersion d) := by
  obtain ⟨more, hmore, hrest⟩ := comes_to_rest (service_terminating env) s
  refine ⟨more, hmore, ?_⟩
  have hlawful : Lawful env (run (step (service env)) s more) := fun c c' hbalanced =>
    balanced_run hbalanced (h c c' hbalanced) more
  have hversions := hlawful.versionAsked hb d
  rw [pending_atRest hrest, hrest.queue, List.count_nil] at hversions
  exact hversions

theorem prefix_of_one {α : Type} {l old new : List α} (hone : new.length ≤ 1)
    (h : l <+: old ++ new) : l <+: old ∨ l = old ++ new := by
  rcases List.prefix_or_prefix_of_prefix h (List.prefix_append old new) with hl | ⟨rest, rfl⟩
  · exact .inl hl
  · have hrest : rest <+: new := (List.prefix_append_right_inj old).mp h
    cases rest with
    | nil => exact .inl (by simp)
    | cons x rest =>
      have hlen := hrest.length_le
      rw [List.length_cons] at hlen
      exact .inr (by rw [hrest.eq_of_length_le (by rw [List.length_cons]; omega)])

/-- Under the installer's contract every run keeps the stream of every device well formed. -/
theorem firmware_status_stream (env : Environment) (hb : BuildsStatuses env)
    (events : List (Event (service env)))
    (hg : Guarded (step (service env)) (InstallerContract env) .initial events) (d : Str) :
    StatusStream env d (run (step (service env)) .initial events) := by
  let I := fun s : Threads => Lawful env s ∧ KeepsContract s ∧
    ∀ l, l <+: statuses d s.trace → l.countP ends ≤ l.count .installation
  have hstep : ∀ s e, I s → InstallerContract env s e → I (step (service env) s e) := by
    rintro s e ⟨hlawful, hkeeps, hbounded⟩ hcontract
    have hlawful' : Lawful env (step (service env) s e) := fun c c' hbalanced =>
      balanced_step hbalanced s e (hlawful c c' hbalanced)
    have hkeeps' := keepsContract_step s e hkeeps hcontract
    refine ⟨hlawful', hkeeps', fun l hl => ?_⟩
    obtain ⟨new, hnew, hone⟩ := statuses_step d s e
    rcases prefix_of_one hone (hnew ▸ hl) with hold | hwhole
    · exact hbounded l hold
    · rw [hwhole, ← hnew]
      exact hlawful'.ended_le hb hkeeps' d
  have hinitial : I .initial := by
    refine ⟨fun _ _ _ => rfl, ⟨fun p hp => absurd hp List.not_mem_nil, fun _ => Nat.le_refl 0⟩,
      fun l hl => ?_⟩
    rw [List.prefix_nil.mp hl]
    exact Nat.le_refl 0
  obtain ⟨hlawful, hkeeps, hbounded⟩ := invariant_of_guarded hstep hinitial hg
  exact
    { bounded := hbounded
      settled := hlawful.settled hb hkeeps
      called := hlawful.called hb d
      versionAsked := hlawful.versionAsked hb d
      answered := hlawful.answered hb d
      refused := hlawful.refused hb d
      installed := hlawful.installed hb d }

/-- Two installs of a device: the first succeeds while the second starts, and the second is
aborted. -/
theorem firmware_status_stream_twice :
    StatusStream .obliging ['d'] (run (step (service .obliging)) .initial
      [.put (.install ⟨[['d']], ['f']⟩), .put (.install ⟨[['d']], ['f']⟩), .worker, .worker,
        .worker, .worker, .spawn (['d'], true), .worker, .thread 0, .worker,
        .put (.abort ⟨[['d']]⟩), .worker, .thread 0, .worker, .worker]) :=
  firmware_status_stream .obliging (fun _ _ _ => rfl) _ (by decide +kernel) ['d']

example : statuses ['d'] (run (step (service .obliging)) .initial
    [.put (.install ⟨[['d']], ['f']⟩), .worker, .worker, .worker, .put (.abort ⟨[['d']]⟩),
      .worker, .worker, .worker]).trace = [.installation, .aborted] := by decide +kernel

end WolkGateway.FirmwareUpdateService
