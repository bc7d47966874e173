import WolkGateway.DisconnectFinality
import WolkGateway.FairSchedules
import Mathlib.Logic.Hydra
import Mathlib.Tactic.Abel

/-!
# The threads come to rest

With no calls, messages or losses from outside, the threads of the module have work left in
five places: the command buffer and what is left of the command being executed, the two
other command buffers, the inbound buffer, and the connection-lost handlers. A step of any
of them takes one piece of work and may leave several others of lower rank, except for a
connect that fails, which leaves itself again.
-/

namespace WolkGateway.Wolk
open DeviceModel DataService DataLedger GuardedRuns FairSchedules
open Relation (CutExpand)

/-- The events of the module's own threads. -/
def Event.isThread : Event → Bool
  | .worker | .connectionLostConnects | .inboundWorker | .firmwareWorker
  | .platformStatusWorker => true
  | _ => false

/-- The events that need nobody outside; time may pass between them. -/
def Event.isInternal : Event → Bool
  | .tick _ => true
  | e => e.isThread

variable {P : Persistence} {cfg : Config} {s : State P}

/-- Nothing is left for any thread to do. -/
structure AtRest (s : State P) : Prop where
  buffer : s.BufferEmpty
  handlers : s.lostHandlers = 0
  inbox : s.inbox = []
  firmware : s.firmwareQueue = []
  platform : s.platformQueue = []

def Acts (s : State P) : Event → Prop
  | .worker => ¬ s.BufferEmpty
  | .connectionLostConnects => s.lostHandlers ≠ 0
  | .inboundWorker => s.inbox ≠ []
  | .firmwareWorker => s.firmwareQueue ≠ []
  | .platformStatusWorker => s.platformQueue ≠ []
  | _ => False

theorem atRest_iff : AtRest s ↔ ∀ e : Event, e.isInternal → ¬ Acts s e := by
  constructor
  · intro h e he
    cases e with
    | worker => exact not_not_intro h.buffer
    | connectionLostConnects => exact not_not_intro h.handlers
    | inboundWorker => exact not_not_intro h.inbox
    | firmwareWorker => exact not_not_intro h.firmware
    | platformStatusWorker => exact not_not_intro h.platform
    | _ => exact id
  · intro h
    exact ⟨not_not.mp (h .worker rfl), not_not.mp (h .connectionLostConnects rfl),
      not_not.mp (h .inboundWorker rfl), not_not.mp (h .firmwareWorker rfl),
      not_not.mp (h .platformStatusWorker rfl)⟩

def commandRank : Command → ℕ
  | .connect _ | .handleDeviceStatusRequest _ | .handleRegistrationResponse _ _
  | .handleUpdateResponse _ _ => 4
  | .addDevice _ | .addAssetsToDevice _ => 3
  | .publishFirmwareVersion _ | .publishFirmwareVersions | .publishDeviceStatuses => 2
  | .disconnect => 1
  | _ => 0

def firmwareRank : FirmwareCommand → ℕ
  | .install _ => 1
  | _ => 0

def Atom.rank : Atom → ℕ
  | .enqueue command => commandRank command + 1
  | .enqueueFirmware command => firmwareRank command + 1
  | .registerIfConnected _ | .updateIfConnected _ => 2
  | _ => 0

/-- Above every command. -/
def requestRank : ℕ := 5

theorem commandRank_lt (c : Command) : commandRank c < requestRank := by
  cases c <;> simp [commandRank, requestRank]

theorem firmwareRank_lt (c : FirmwareCommand) : firmwareRank c < requestRank := by
  cases c <;> simp [firmwareRank, requestRank]

theorem rank_expands {a b : Atom} {connected : Bool} (h : b ∈ a.expands connected) :
    b.rank < a.rank := by
  cases a with
  | registerIfConnected | updateIfConnected =>
    simp only [Atom.expands] at h
    split_ifs at h
    · simp only [List.mem_cons, List.not_mem_nil, or_false] at h
      rcases h with rfl | rfl <;> simp [Atom.rank, commandRank]
    · simp at h
  | _ => simp [Atom.expands] at h

theorem rank_leaves {devices : Registry} {c : Command} {a : Atom} (h : Leaves devices c a)
    (ha : ∀ b, a ≠ .enqueue (.connect b)) : a.rank < commandRank c := by
  cases h with
  | retry b => exact absurd rfl (ha b)
  | refresh key command _ hc => cases hc <;> simp [Atom.rank, commandRank]
  | acknowledged d _ command _ hc hr =>
    have hrank : commandRank command ≤ 2 := by
      rcases hc with hc | rfl
      · cases hc <;> simp [commandRank]
      · exact Nat.le_refl _
    have hacknowledging : commandRank c = 4 := by
      rcases hr with ⟨result, rfl⟩ | ⟨result, rfl⟩ <;> rfl
    rw [hacknowledging, Atom.rank]
    omega
  | _ => simp [Atom.rank, commandRank, firmwareRank]

/-- Only an install leaves a firmware command, and only a version request. -/
theorem rank_runCommand {env : Environment} {c c' : FirmwareCommand} {data : DataState P}
    (h : c' ∈ (FirmwareUpdateService.runCommand env data c).2) :
    firmwareRank c' < firmwareRank c := by
  cases c with
  | publishFirmwareVersion => simp [FirmwareUpdateService.runCommand] at h
  | abort command =>
    simp only [FirmwareUpdateService.runCommand,
      FirmwareUpdateService.handleFirmwareUpdateAbort] at h
    split at h <;> simp at h
  | install command =>
    simp only [FirmwareUpdateService.runCommand, FirmwareUpdateService.handleFirmwareUpdateInstall,
      FirmwareUpdateService.install, FirmwareUpdateService.calledBack,
      FirmwareUpdateService.installSucceeded, FirmwareUpdateService.installFailed] at h
    split at h
    · simp at h
    · split_ifs at h
      · simp at h
      · simp at h
      · split at h
        · simp at h
        · split_ifs at h
          · rw [List.mem_singleton.mp h]
            exact Nat.zero_lt_one
          · simp at h

def workLeft (s : State P) : Multiset ℕ :=
  (s.running.map Atom.rank : Multiset ℕ) + (s.queue.map commandRank : Multiset ℕ) +
    (s.firmwareQueue.map firmwareRank : Multiset ℕ) +
    (s.inbox.map fun _ => requestRank : Multiset ℕ) +
    (s.platformQueue.map fun _ => 0 : Multiset ℕ) +
    Multiset.replicate s.lostHandlers requestRank

/-- One piece of work is replaced by others of lower rank. -/
theorem cutExpand_of_eq (rest : Multiset ℕ) {t w w' : Multiset ℕ} {a : ℕ}
    (hw : w = rest + {a}) (hw' : w' = rest + t) (ht : ∀ b ∈ t, b < a) : CutExpand (· < ·) w' w := by
  rw [hw, hw', Relation.cutExpand_add_left]
  exact Relation.cutExpand_singleton ht

def failedConnects (s : State P) : ℕ := s.trace.count (.connectCalled false)

@[simp] theorem runAtom_inbox (a : Atom) (s : State P) : (runAtom cfg a s).inbox = s.inbox := by
  cases a <;> simp only [runAtom, State.log, addToCommandBuffer]
  all_goals split <;> rfl

@[simp] theorem runAtom_platformQueue (a : Atom) (s : State P) :
    (runAtom cfg a s).platformQueue = s.platformQueue := by
  cases a <;> simp only [runAtom, State.log, addToCommandBuffer]
  all_goals split <;> rfl

@[simp] theorem runAtom_lostHandlers (a : Atom) (s : State P) :
    (runAtom cfg a s).lostHandlers = s.lostHandlers := by
  cases a <;> simp only [runAtom, State.log, addToCommandBuffer]
  all_goals split <;> rfl

/-- What an access puts in a buffer ranks below it. -/
theorem rank_enqueues {a : Atom} {n : ℕ}
    (h : n ∈ a.enqueues.map commandRank ++ a.enqueuesFirmware.map firmwareRank) : n < a.rank := by
  cases a with
  | enqueue | enqueueFirmware =>
    simp only [Atom.enqueues, Atom.enqueuesFirmware, List.map_cons, List.map_nil, List.nil_append,
      List.append_nil, List.mem_singleton] at h
    rw [h]
    exact Nat.lt_succ_self _
  | _ => simp [Atom.enqueues, Atom.enqueuesFirmware] at h

theorem workLeft_accessed {a : Atom} {rest : List Atom} (hr : s.running = a :: rest) :
    CutExpand (· < ·) (workLeft (runAtom cfg a { s with running := rest })) (workLeft s) := by
  refine cutExpand_of_eq (workLeft { s with running := rest })
    (t := ((a.expands s.connected).map Atom.rank : Multiset ℕ) +
      (a.enqueues.map commandRank ++ a.enqueuesFirmware.map firmwareRank : List ℕ))
    (a := a.rank) ?_ ?_ ?_
  · simp only [workLeft, hr, List.map_cons, ← Multiset.cons_coe, ← Multiset.singleton_add]
    abel
  · simp only [workLeft, runAtom_running, runAtom_queue, runAtom_firmwareQueue, runAtom_inbox,
      runAtom_platformQueue, runAtom_lostHandlers, List.map_append, ← Multiset.coe_add]
    abel
  · intro n hn
    rcases Multiset.mem_add.mp hn with hn | hn
    · obtain ⟨b, hb, rfl⟩ := List.mem_map.mp (Multiset.mem_coe.mp hn)
      exact rank_expands hb
    · exact rank_enqueues (Multiset.mem_coe.mp hn)

theorem workLeft_begun {c : Command} {queue : List Command} (hr : s.running = [])
    (hq : s.queue = c :: queue)
    (h : ∀ a ∈ (beginCommand cfg c queue s).running, ∀ b, a ≠ .enqueue (.connect b)) :
    CutExpand (· < ·) (workLeft (beginCommand cfg c queue s)) (workLeft s) := by
  refine cutExpand_of_eq (workLeft { s with queue := queue })
    (t := ((beginCommand cfg c queue s).running.map Atom.rank : Multiset ℕ))
    (a := commandRank c) ?_ ?_ ?_
  · simp only [workLeft, hq, List.map_cons, ← Multiset.cons_coe, ← Multiset.singleton_add]
    abel
  · simp only [workLeft, hr, beginCommand, List.map_nil, Multiset.coe_nil]
    abel
  · intro n hn
    obtain ⟨a, ha, rfl⟩ := List.mem_map.mp (Multiset.mem_coe.mp hn)
    exact rank_leaves (leaves_of_mem ha) (h a ha)

/-- What a listener does with a message: nothing, or one thing put in one of the buffers. -/
theorem deliver_cases (cfg : Config) (listener : Listener) (message : InboundMessage)
    (s : State P) : deliver cfg listener message s = s ∨
      (∃ c, deliver cfg listener message s = addToCommandBuffer c s) ∨
      (∃ c, deliver cfg listener message s = { s with firmwareQueue := s.firmwareQueue ++ [c] }) ∨
      ∃ status, deliver cfg listener message s =
        { s with platformQueue := s.platformQueue ++ [status] } := by
  have enqueued : ∀ c : Option Command, enqueueAll c s = s ∨
      ∃ c', enqueueAll c s = addToCommandBuffer c' s := by
    intro c
    cases c with
    | none => exact .inl rfl
    | some c => exact .inr ⟨c, rfl⟩
  cases listener with
  | firmwareUpdateService =>
    simp only [deliver]
    split
    · exact .inl rfl
    · exact .inr (.inr (.inl ⟨_, rfl⟩))
  | platformStatusService =>
    simp only [deliver]
    split
    · exact .inl rfl
    · exact .inr (.inr (.inr ⟨_, rfl⟩))
  | _ =>
    rcases enqueued _ with h | h
    · exact .inl h
    · exact .inr (.inl h)

@[simp] theorem deliver_lostHandlers (listener : Listener) (message : InboundMessage)
    (s : State P) : (deliver cfg listener message s).lostHandlers = s.lostHandlers := by
  rcases deliver_cases cfg listener message s with h | ⟨_, h⟩ | ⟨_, h⟩ | ⟨_, h⟩
  all_goals simp only [h, addToCommandBuffer]

theorem workLeft_delivered {listener : Listener} {message : InboundMessage}
    {rest : List (Listener × InboundMessage)} (hi : s.inbox = (listener, message) :: rest) :
    CutExpand (· < ·) (workLeft (deliver cfg listener message { s with inbox := rest }))
      (workLeft s) := by
  have hwork : workLeft s = workLeft { s with inbox := rest } + {requestRank} := by
    simp only [workLeft, hi, List.map_cons, ← Multiset.cons_coe, ← Multiset.singleton_add]
    abel
  rcases deliver_cases cfg listener message { s with inbox := rest } with
    h | ⟨c, h⟩ | ⟨c, h⟩ | ⟨status, h⟩
  · rw [h]
    exact cutExpand_of_eq _ (t := 0) hwork (add_zero _).symm (by simp)
  · rw [h]
    refine cutExpand_of_eq _ (t := {commandRank c}) hwork ?_ ?_
    · simp only [workLeft, addToCommandBuffer, List.map_append, List.map_cons, List.map_nil,
        ← Multiset.coe_add, Multiset.coe_singleton]
      abel
    · simpa using commandRank_lt c
  · rw [h]
    refine cutExpand_of_eq _ (t := {firmwareRank c}) hwork ?_ ?_
    · simp only [workLeft, List.map_append, List.map_cons, List.map_nil, ← Multiset.coe_add,
        Multiset.coe_singleton]
      abel
    · simpa using firmwareRank_lt c
  · rw [h]
    refine cutExpand_of_eq _ (t := {0}) hwork ?_ (by simp [requestRank])
    simp only [workLeft, List.map_append, List.map_cons, List.map_nil, ← Multiset.coe_add,
      Multiset.coe_singleton]
    abel

theorem workLeft_firmware {command : FirmwareCommand} {queue : List FirmwareCommand}
    (hq : s.firmwareQueue = command :: queue) :
    CutExpand (· < ·) (workLeft (withFirmware
      (FirmwareUpdateService.runCommand cfg.env s.data command) queue s)) (workLeft s) := by
  refine cutExpand_of_eq (workLeft { s with firmwareQueue := queue })
    (t := ((FirmwareUpdateService.runCommand cfg.env s.data command).2.map firmwareRank :
      Multiset ℕ)) (a := firmwareRank command) ?_ ?_ ?_
  · simp only [workLeft, hq, List.map_cons, ← Multiset.cons_coe, ← Multiset.singleton_add]
    abel
  · simp only [workLeft, withFirmware, List.map_append, ← Multiset.coe_add]
    abel
  · intro n hn
    obtain ⟨c, hc, rfl⟩ := List.mem_map.mp (Multiset.mem_coe.mp hn)
    exact rank_runCommand hc

theorem failedConnects_same {t : State P} {u : Trace} (ht : t.trace = s.trace ++ u)
    (hu : .connectCalled false ∉ u) : failedConnects t = failedConnects s := by
  rw [failedConnects, ht, List.count_append, List.count_eq_zero.mpr hu]
  rfl

/-- A connect that succeeds leaves no connect. -/
theorem connectedAtoms_connect {devices : Registry} {b b' : Bool} :
    Atom.enqueue (.connect b') ∉ connectedAtoms devices b := by
  simp only [connectedAtoms, refreshAtoms]
  split_ifs <;> simp

theorem begun_connect_trace (cfg : Config) (b : Bool) (queue : List Command) (s : State P) :
    (beginCommand cfg (.connect b) queue s).trace = s.trace ++
      [Effect.began (.connect b) s.devices,
        .connectCalled (cfg.env.connects (s.data.log (.began (.connect b) s.devices)).trace)] := by
  simp [beginCommand, execute, State.trace, DataState.log]

theorem begun_connect_running (cfg : Config) (b : Bool) (queue : List Command) (s : State P) :
    (beginCommand cfg (.connect b) queue s).running =
      if cfg.env.connects (s.data.log (.began (.connect b) s.devices)).trace then
        connectedAtoms s.devices b else [.sleep 2000, .enqueue (.connect b)] := rfl

theorem begun_other_trace (cfg : Config) {c : Command} (hc : ∀ b, c ≠ .connect b)
    (queue : List Command) (s : State P) :
    ∃ u, (beginCommand cfg c queue s).trace = s.trace ++ u ∧
      ∀ result, .connectCalled result ∉ u := by
  obtain ⟨u, hu, hall⟩ := beginCommand_trace cfg c queue s
  refine ⟨[Effect.began c s.devices] ++ u, by rw [hu, List.append_assoc], fun result hmem => ?_⟩
  rcases List.mem_append.mp hmem with hmem | hmem
  · simp at hmem
  · cases hall _ hmem with
    | connectCalled b => exact hc b rfl

/-- The connect that fails is the one command that leaves itself. -/
theorem begun_lowers (cfg : Config) {c : Command} {queue : List Command}
    (hr : s.running = []) (hq : s.queue = c :: queue) :
    (failedConnects (beginCommand cfg c queue s) = failedConnects s + 1 ∧
      cfg.env.connects (s.data.log (.began c s.devices)).trace = false) ∨
      (failedConnects (beginCommand cfg c queue s) = failedConnects s ∧
        CutExpand (· < ·) (workLeft (beginCommand cfg c queue s)) (workLeft s)) := by
  by_cases hconnect : ∃ b, c = .connect b
  · obtain ⟨b, rfl⟩ := hconnect
    have htrace := begun_connect_trace cfg b queue s
    cases hc : cfg.env.connects (s.data.log (.began (.connect b) s.devices)).trace with
    | false =>
      refine .inl ⟨?_, rfl⟩
      rw [failedConnects, failedConnects, htrace, hc, List.count_append]
      simp
    | true =>
      rw [hc] at htrace
      refine .inr ⟨failedConnects_same htrace (by simp), workLeft_begun hr hq ?_⟩
      intro a ha b' hretry
      rw [begun_connect_running, hc, if_pos rfl] at ha
      exact connectedAtoms_connect (hretry ▸ ha)
  · have hother : ∀ b, c ≠ .connect b := fun b h => hconnect ⟨b, h⟩
    obtain ⟨u, hu, hnone⟩ := begun_other_trace cfg hother queue s
    refine .inr ⟨failedConnects_same hu (hnone false), workLeft_begun hr hq fun a ha => ?_⟩
    exact (connects_of_leaves (leaves_of_mem ha) hother).2

theorem failedConnects_of_emits {e : Event} (h : ∀ c queue, s.running = [] →
    s.queue = c :: queue → e ≠ .worker) : failedConnects (step cfg s e) = failedConnects s := by
  obtain ⟨u, hu, hall⟩ := step_trace cfg s e
  refine failedConnects_same hu fun hmem => ?_
  cases hall _ hmem with
  | command c queue _ hr hq _ => exact h c queue hr hq rfl
  | access _ _ _ _ h => cases h
  | aside _ _ h => cases h

theorem acts_lowers {e : Event} (he : e.isInternal) (ha : Acts s e) :
    failedConnects s < failedConnects (step cfg s e) ∨
      (failedConnects (step cfg s e) = failedConnects s ∧
        CutExpand (· < ·) (workLeft (step cfg s e)) (workLeft s)) := by
  have aside : ∀ e : Event, e ≠ .worker → failedConnects (step cfg s e) = failedConnects s :=
    fun e he => failedConnects_of_emits fun _ _ _ _ => he
  cases e with
  | worker =>
    cases hr : s.running with
    | nil =>
      cases hq : s.queue with
      | nil => exact absurd ⟨hr, hq⟩ ha
      | cons c queue =>
        rw [step_begins hr hq]
        rcases begun_lowers cfg hr hq with ⟨hfails, -⟩ | hlowers
        · exact .inl (hfails ▸ Nat.lt_succ_self _)
        · exact .inr hlowers
    | cons a rest =>
      refine .inr ⟨failedConnects_of_emits fun _ _ hidle => ?_, ?_⟩
      · simp [hr] at hidle
      · rw [step_accesses hr]
        exact workLeft_accessed hr
  | connectionLostConnects =>
    refine .inr ⟨aside _ (by simp), ?_⟩
    obtain ⟨n, hn⟩ := Nat.exists_eq_succ_of_ne_zero ha
    simp only [step, hn]
    refine cutExpand_of_eq (workLeft { s with lostHandlers := n })
      (t := {commandRank (.connect true)}) (a := requestRank) ?_ ?_ ?_
    · simp only [workLeft, hn, Multiset.replicate_succ, ← Multiset.singleton_add]
      abel
    · simp only [workLeft, addToCommandBuffer, List.map_append, List.map_cons, List.map_nil,
        ← Multiset.coe_add, Multiset.coe_singleton]
      abel
    · simpa using commandRank_lt (.connect true)
  | inboundWorker =>
    refine .inr ⟨aside _ (by simp), ?_⟩
    obtain ⟨⟨listener, message⟩, rest, hi⟩ := List.exists_cons_of_ne_nil ha
    simp only [step, hi]
    exact workLeft_delivered hi
  | firmwareWorker =>
    refine .inr ⟨aside _ (by simp), ?_⟩
    obtain ⟨command, queue, hq⟩ := List.exists_cons_of_ne_nil ha
    simp only [step, hq]
    exact workLeft_firmware hq
  | platformStatusWorker =>
    refine .inr ⟨aside _ (by simp), ?_⟩
    obtain ⟨status, queue, hq⟩ := List.exists_cons_of_ne_nil ha
    simp only [step, hq]
    refine cutExpand_of_eq (workLeft { s with platformQueue := queue }) (t := 0)
      (a := 0) ?_ (add_zero _).symm (by simp)
    simp only [workLeft, hq, List.map_cons, ← Multiset.cons_coe, ← Multiset.singleton_add]
    abel
  | _ => exact absurd ha id

theorem step_idle {e : Event} (he : e.isThread) (ha : ¬ Acts s e) : step cfg s e = s := by
  cases e with
  | worker =>
    obtain ⟨hr, hq⟩ := not_not.mp ha
    simp only [step, workerStep, hr, hq]
  | connectionLostConnects => simp only [step, not_not.mp ha]
  | inboundWorker => simp only [step, not_not.mp ha]
  | firmwareWorker => simp only [step, not_not.mp ha]
  | platformStatusWorker => simp only [step, not_not.mp ha]
  | _ => cases he

/-- The threads as a system that drains, up to the connects that fail. -/
def draining (P : Persistence) (cfg : Config) :
    Draining (step (P := P) cfg) (Multiset ℕ) where
  considered e := e.isInternal
  acts := Acts
  work := workLeft
  lower := CutExpand (· < ·)
  lower_wf := Nat.lt_wfRel.wf.cutExpand
  spent := failedConnects
  lowers _ _ he ha := acts_lowers he ha
  idles s e he ha := by
    by_cases hthread : e.isThread
    · rw [step_idle hthread ha]
      exact ⟨rfl, rfl, fun _ => .rfl⟩
    · cases e with
      | tick n => exact ⟨rfl, rfl, fun e' => by cases e' <;> rfl⟩
      | _ => simp_all [Event.isInternal, Event.isThread]

/-- A connect fails in a step of the worker only, and only if the service refuses it. -/
theorem failedConnects_step (cfg : Config) (s : State P) (e : Event) :
    failedConnects (step cfg s e) = failedConnects s ∨
      (failedConnects (step cfg s e) = failedConnects s + 1 ∧
        ∃ trace : Trace, trace.count (.connectCalled false) = failedConnects s ∧
          cfg.env.connects trace = false) := by
  by_cases h : e = .worker ∧ s.running = [] ∧ s.queue ≠ []
  · obtain ⟨rfl, hr, hne⟩ := h
    obtain ⟨c, queue, hq⟩ := List.exists_cons_of_ne_nil hne
    rw [step_begins hr hq]
    rcases begun_lowers cfg hr hq with ⟨hmore, hfails⟩ | ⟨hsame, -⟩
    · refine .inr ⟨hmore, _, ?_, hfails⟩
      simp [DataState.log, failedConnects, State.trace, List.count_append]
    · exact .inl hsame
  · refine .inl (failedConnects_of_emits fun c queue hr hq he => h ⟨he, hr, by simp [hq]⟩)

/-- `ConnectivityService::connect` fails no more once it has failed `k` times. -/
def FailsAtMost (k : ℕ) (env : Environment) : Prop :=
  ∀ trace : Trace, k ≤ trace.count (.connectCalled false) → env.connects trace = true

theorem failedConnects_along_le (cfg : Config) {k : ℕ} (h : FailsAtMost k cfg.env)
    (s : State P) (schedule : ℕ → Event) (n : ℕ) :
    failedConnects (along (step cfg) s schedule n) ≤ max k (failedConnects s) := by
  induction n with
  | zero => exact Nat.le_max_right _ _
  | succ n ih =>
    rw [along_succ]
    rcases failedConnects_step cfg (along (step cfg) s schedule n) (schedule n) with
      hsame | ⟨hmore, trace, hcount, hfails⟩
    · rwa [hsame]
    · have hlt : failedConnects (along (step cfg) s schedule n) < k := by
        by_contra hge
        rw [h trace (by omega)] at hfails
        cases hfails
      omega

def inTurn (n : ℕ) : Event :=
  match n % 5 with
  | 0 => .worker
  | 1 => .inboundWorker
  | 2 => .firmwareWorker
  | 3 => .platformStatusWorker
  | _ => .connectionLostConnects

theorem inTurn_internal (n : ℕ) : (inTurn n).isInternal := by
  unfold inTurn
  split <;> rfl

theorem inTurn_fair : Fair (fun e => e.isThread) inTurn := by
  have turn : ∀ i n, i < 5 → ∃ m, n ≤ m ∧ m % 5 = i :=
    fun i n hi => ⟨5 * n + i, by omega, by omega⟩
  intro e he n
  cases e with
  | worker =>
    obtain ⟨m, hm, hmod⟩ := turn 0 n (by omega)
    exact ⟨m, hm, by simp [inTurn, hmod]⟩
  | inboundWorker =>
    obtain ⟨m, hm, hmod⟩ := turn 1 n (by omega)
    exact ⟨m, hm, by simp [inTurn, hmod]⟩
  | firmwareWorker =>
    obtain ⟨m, hm, hmod⟩ := turn 2 n (by omega)
    exact ⟨m, hm, by simp [inTurn, hmod]⟩
  | platformStatusWorker =>
    obtain ⟨m, hm, hmod⟩ := turn 3 n (by omega)
    exact ⟨m, hm, by simp [inTurn, hmod]⟩
  | connectionLostConnects =>
    obtain ⟨m, hm, hmod⟩ := turn 4 n (by omega)
    exact ⟨m, hm, by simp [inTurn, hmod]⟩
  | _ => cases he

/-- Only the threads act among the internal events. -/
theorem isThread_of_acts {e : Event} (he : e.isInternal) (ha : Acts s e) : e.isThread := by
  cases e with
  | tick => exact absurd ha id
  | _ => exact he

/-- On a fair schedule the threads come to rest once no more connects fail. -/
theorem comes_to_rest {schedule : ℕ → Event} (hinternal : ∀ n, (schedule n).isInternal)
    (hfair : Fair (fun e => e.isThread) schedule) {bound : ℕ}
    (hbound : ∀ n, failedConnects (along (step cfg) s schedule n) ≤ bound) :
    ∃ n, AtRest (along (step cfg) s schedule n) := by
  simp only [atRest_iff]
  exact (draining P cfg).rests hinternal hfair (fun _ _ => isThread_of_acts) s hbound

theorem atRest_along {schedule : ℕ → Event} (hinternal : ∀ n, (schedule n).isInternal) {n m : ℕ}
    (h : AtRest (along (step cfg) s schedule n)) (hm : n ≤ m) :
    AtRest (along (step cfg) s schedule m) ∧
      failedConnects (along (step cfg) s schedule m) =
        failedConnects (along (step cfg) s schedule n) := by
  obtain ⟨k, rfl⟩ := Nat.exists_eq_add_of_le hm
  obtain ⟨hrest, hspent⟩ := (draining P cfg).resting_along (atRest_iff.mp h)
    (fun k => hinternal (n + k)) k
  rw [along_add]
  exact ⟨atRest_iff.mpr hrest, hspent⟩

/-- Left to themselves, the threads come to rest on every fair schedule along which only
finitely many connects fail, and on no other. -/
theorem at_rest_iff_connects_settle (cfg : Config) (s : State P) (schedule : ℕ → Event)
    (hinternal : ∀ n, (schedule n).isInternal)
    (hfair : Fair (fun e => e.isThread) schedule) :
    (∃ n, AtRest (along (step cfg) s schedule n)) ↔
      ∃ bound, ∀ n, failedConnects (along (step cfg) s schedule n) ≤ bound := by
  refine ⟨fun ⟨n, hn⟩ => ?_, fun ⟨bound, hbound⟩ => comes_to_rest hinternal hfair hbound⟩
  refine ⟨failedConnects (along (step cfg) s schedule n), fun m => ?_⟩
  rcases Nat.le_total m n with hm | hm
  · exact (draining P cfg).spent_along_mono hinternal s hm
  · exact (atRest_along hinternal hn hm).2.le

theorem failsAtMost_reachableOnRetry : FailsAtMost 1 Environment.reachableOnRetry := by
  intro trace h
  exact decide_eq_true (List.count_pos_iff.mp h)

/-- A connection lost while the first connect is still to fail. -/
def lostWhileConnecting : List Event := [.api (.connect true), .worker, .connectionLost]

theorem at_rest_after_refusal :
    ∃ n, AtRest (along (step (.bare Environment.reachableOnRetry))
      (reach (.bare Environment.reachableOnRetry) .inMemory lostWhileConnecting) inTurn n) :=
  (at_rest_iff_connects_settle _ _ inTurn inTurn_internal inTurn_fair).mpr
    ⟨_, failedConnects_along_le _ failsAtMost_reachableOnRetry _ _⟩

end WolkGateway.Wolk
