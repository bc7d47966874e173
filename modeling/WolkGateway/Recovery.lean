import WolkGateway.ConnectAccounting
import WolkGateway.RegistrationCoverage
import WolkGateway.BacklogDrain

/-!
# Recovery

Left to themselves, and with a connect that waits or has succeeded, the threads come to a
state in which the module is connected for good, and every device is registered; on the way
there the data that was stored has been sent. Failed connects and lost connections before
that only delay it.
-/

namespace WolkGateway.Wolk
open DeviceModel DataService DataLedger GuardedRuns FairSchedules Transcripts
open DataServiceConservation DataServiceLatestValue DataServicePublishing

variable {P : Persistence} {cfg : Config} {s : State P}

structure NoDisconnectWaiting (s : State P) : Prop where
  queue : .disconnect ∉ s.queue
  running : ∀ a ∈ s.running, a ≠ .setConnected false ∧ a ≠ .enqueue .disconnect

/-- The module is connected, or a connect that waits or has just succeeded will make it so. -/
def Linked (s : State P) : Prop :=
  s.connected = true ∨ 0 < pendingConnects s ∨ .setConnected true ∈ s.running

theorem disconnect_of_leaves {devices : Registry} {c : Command} {a : Atom}
    (h : Leaves devices c a) (hc : c ≠ .disconnect) :
    a ≠ .setConnected false ∧ a ≠ .enqueue .disconnect := by
  constructor
  · rintro rfl
    cases h with
    | clearConnected => exact hc rfl
  · rintro rfl
    cases h with
    | refresh _ _ _ h => cases h
    | acknowledged _ _ _ _ h _ =>
      rcases h with h | h <;> cases h

theorem requested_disconnect {e : Event} (h : Requested cfg s e .disconnect) :
    e = .api .disconnect := by
  cases h with
  | api call _ h =>
    cases call with
    | disconnect => rfl
    | addSensorReadings =>
      simp only [ApiCall.command] at h
      split_ifs at h
      simp at h
    | _ => simp [ApiCall.command] at h
  | data message _ _ _ h => cases received_of_messageReceived h

/-- Only the user asks for a disconnect. -/
theorem noDisconnectWaiting_step (cfg : Config) (s : State P) (e : Event)
    (he : e ≠ .api .disconnect) (h : NoDisconnectWaiting s) :
    NoDisconnectWaiting (step cfg s e) := by
  rcases stepped cfg s e with ⟨c, hc, hsame, hq, -, -⟩ | ⟨c, queue, rfl, hr, hq, ht⟩ |
    ⟨a, rest, rfl, hr, ht⟩ | ⟨rfl, -⟩ | ⟨-, hsame, hq, -⟩
  · refine ⟨fun hmem => ?_, by rw [hsame.running]; exact h.running⟩
    rw [hq, List.mem_append, List.mem_singleton] at hmem
    rcases hmem with hmem | rfl
    · exact h.queue hmem
    · exact he (requested_disconnect hc)
  · have hcommand : c ≠ .disconnect := by
      rintro rfl
      apply h.queue
      rw [hq]
      exact List.mem_cons_self
    rw [ht]
    refine ⟨fun hmem => h.queue ?_, fun a ha => disconnect_of_leaves (leaves_of_mem ha) hcommand⟩
    rw [hq]
    exact List.mem_cons_of_mem _ hmem
  · have hrunning := h.running
    rw [hr, List.forall_mem_cons] at hrunning
    rw [ht]
    refine ⟨fun hmem => ?_, fun b hb => ?_⟩
    · rw [runAtom_queue, List.mem_append] at hmem
      rcases hmem with hmem | hmem
      · exact h.queue hmem
      · cases a with
        | enqueue c =>
          exact hrunning.1.2 (congrArg Atom.enqueue (List.mem_singleton.mp hmem).symm)
        | _ => simp [Atom.enqueues] at hmem
    · rw [runAtom_running, List.mem_append] at hb
      rcases hb with hb | hb
      · cases a with
        | registerIfConnected | updateIfConnected =>
          simp only [Atom.expands] at hb
          split_ifs at hb
          · simp only [List.mem_cons, List.not_mem_nil, or_false] at hb
            rcases hb with rfl | rfl <;> simp
          · simp at hb
        | _ => simp [Atom.expands] at hb
      · exact hrunning.2 b hb
  · exact ⟨h.queue, h.running⟩
  · exact ⟨by rw [hq]; exact h.queue, by rw [hsame.running]; exact h.running⟩

/-- A connect that succeeds is about to set the flag. -/
theorem successfulConnects_step (cfg : Config) (s : State P) (e : Event) :
    successfulConnects (step cfg s e) = successfulConnects s ∨
      .setConnected true ∈ (step cfg s e).running := by
  by_cases h : e = .worker ∧ s.running = [] ∧ s.queue ≠ []
  · obtain ⟨rfl, hr, hne⟩ := h
    obtain ⟨c, queue, hq⟩ := List.exists_cons_of_ne_nil hne
    rw [step_begins hr hq]
    by_cases hconnect : ∃ b, c = .connect b
    · obtain ⟨b, rfl⟩ := hconnect
      have htrace := begun_connect_trace cfg b queue s
      rw [begun_connect_running]
      cases hc : cfg.env.connects (s.data.log (.began (.connect b) s.devices)).trace with
      | false =>
        rw [hc] at htrace
        exact .inl (successfulConnects_same htrace (by simp))
      | true => exact .inr (by simp [connectedAtoms])
    · obtain ⟨u, hu, hnone⟩ := begun_other_trace cfg (fun b h => hconnect ⟨b, h⟩) queue s
      exact .inl (successfulConnects_same hu (hnone true))
  · exact .inl (successfulConnects_of_emits fun c queue hr hq he => h ⟨he, hr, by simp [hq]⟩)

theorem linked_step (cfg : Config) (s : State P) (e : Event) (hn : NoDisconnectWaiting s)
    (h : Linked s) : Linked (step cfg s e) := by
  have hpending : 0 < pendingConnects s → Linked (step cfg s e) := by
    intro hpos
    rcases successfulConnects_step cfg s e with hsame | hset
    · have haccount := connectAccount_step cfg s e
      rw [connectAccount, connectAccount, hsame] at haccount
      exact .inr (.inl (by omega))
    · exact .inr (.inr hset)
  rcases stepped cfg s e with ⟨c, -, hsame, -, -, -⟩ | ⟨c, queue, rfl, hr, hq, ht⟩ |
    ⟨a, rest, rfl, hr, ht⟩ | ⟨rfl, -⟩ | ⟨-, hsame, -, -⟩
  · rcases h with h | h | h
    · exact .inl (hsame.connected.trans h)
    · exact hpending h
    · exact .inr (.inr (by rw [hsame.running]; exact h))
  · rcases h with h | h | h
    · exact .inl (by rw [ht]; exact h)
    · exact hpending h
    · simp [hr] at h
  · have hhead : a ≠ .setConnected false := (hn.running a (by simp [hr])).1
    rcases h with h | h | h
    · left
      rw [ht, runAtom_connected]
      cases a with
      | setConnected value =>
        cases value with
        | true => rfl
        | false => exact absurd rfl hhead
      | _ => exact h
    · exact hpending h
    · rw [hr, List.mem_cons] at h
      rcases h with rfl | h
      · left
        rw [ht]
        rfl
      · right
        right
        rw [ht, runAtom_running]
        exact List.mem_append_right _ h
  · right
    left
    exact Nat.succ_pos _ |>.trans_le (Nat.le_add_left _ _)
  · rcases h with h | h | h
    · exact .inl (hsame.connected.trans h)
    · exact hpending h
    · exact .inr (.inr (by rw [hsame.running]; exact h))

/-- The states along a schedule are reached by runs. -/
theorem along_reach (cfg : Config) (P : Persistence) (events : List Event)
    (schedule : ℕ → Event) (n : ℕ) : along (step cfg) (reach cfg P events) schedule n =
      reach cfg P (events ++ (List.range n).map schedule) := by
  rw [along, reach, reach, run_append]

theorem internal_ne_disconnect {e : Event} (he : e.isInternal) : e ≠ .api .disconnect := by
  rintro rfl
  cases he

/-- Along internal events a module that is linked stays so. -/
theorem linked_along {schedule : ℕ → Event} (hinternal : ∀ n, (schedule n).isInternal)
    (hn : NoDisconnectWaiting s) (h : Linked s) (n : ℕ) :
    NoDisconnectWaiting (along (step cfg) s schedule n) ∧
      Linked (along (step cfg) s schedule n) := by
  induction n with
  | zero => exact ⟨hn, h⟩
  | succ n ih =>
    rw [along_succ]
    exact ⟨noDisconnectWaiting_step cfg _ _ (internal_ne_disconnect (hinternal n)) ih.1,
      linked_step cfg _ _ ih.1 ih.2⟩

theorem connected_of_atRest (h : AtRest s) (hl : Linked s) : s.connected = true := by
  obtain ⟨⟨hr, hq⟩, hh, -, -, -⟩ := h
  rcases hl with hl | hl | hl
  · exact hl
  · simp [pendingConnects, hr, hq, hh] at hl
  · simp [hr] at hl

/-- The module recovers by itself. From any state reached in which it is linked and no
disconnect waits, every fair schedule along which finitely many connects fail brings it to
be at rest and connected for good, with every device registered since the last connect. -/
theorem recovers (P : Persistence) (cfg : Config)
    (hmake : ∀ trace device, cfg.env.makesMessage trace (.registrationRequest device) = true)
    (events : List Event) (hn : NoDisconnectWaiting (reach cfg P events))
    (hlinked : Linked (reach cfg P events)) (schedule : ℕ → Event)
    (hinternal : ∀ n, (schedule n).isInternal) (hfair : Fair (fun e => e.isThread) schedule)
    {bound : ℕ}
    (hbound : ∀ n, failedConnects (along (step cfg) (reach cfg P events) schedule n) ≤ bound) :
    ∃ n, ∀ m, n ≤ m →
      let t := along (step cfg) (reach cfg P events) schedule m
      AtRest t ∧ t.connected = true ∧ ∀ d ∈ t.devices, RegisteredSince d t.trace := by
  obtain ⟨n, hrest⟩ := comes_to_rest hinternal hfair hbound
  refine ⟨n, fun m hm => ?_⟩
  have hstill := (atRest_along hinternal hrest hm).1
  have hconnected := connected_of_atRest hstill (linked_along hinternal hn hlinked m).2
  refine ⟨hstill, hconnected, fun d hd => ?_⟩
  rw [along_reach] at hstill hconnected hd ⊢
  rcases (covered_reach hmake _).devices hconnected d hd with hreg | ⟨c, hc, -⟩ | ⟨a, ha, -⟩
  · exact hreg
  · simp [hstill.buffer.2] at hc
  · simp [hstill.buffer.1] at ha

def addedThenLost : List Event :=
  [Event.api (.addDevice (sensorDevice ['d'] ['s'])), .worker, .worker] ++ lostWhileConnecting

theorem recovers_after_loss :
    let cfg := Config.bare Environment.reachableOnRetry
    ['d'] ∈ (reach cfg .inMemory addedThenLost).devices ∧
    ∃ n, ∀ m, n ≤ m →
      let t := along (step cfg) (reach cfg .inMemory addedThenLost) inTurn m
      AtRest t ∧ t.connected = true ∧ ∀ d ∈ t.devices, RegisteredSince d t.trace :=
  ⟨by decide +kernel, recovers .inMemory _ (fun _ _ => rfl) addedThenLost
    ⟨by decide +kernel, by decide +kernel⟩ (.inr (.inl (by decide +kernel))) inTurn inTurn_internal
    inTurn_fair
    (failedConnects_along_le (.bare _) failsAtMost_reachableOnRetry _ inTurn)⟩

/-- A command that waits stays in the buffer until it starts. -/
theorem mem_queue_step (cfg : Config) {c : Command} (e : Event) (h : c ∈ s.queue) :
    c ∈ (step cfg s e).queue ∨
      (e = .worker ∧ s.running = [] ∧ ∃ queue, s.queue = c :: queue) := by
  rcases stepped cfg s e with ⟨c', -, -, hq, -, -⟩ | ⟨c', queue, he, hr, hq, ht⟩ |
    ⟨a, rest, -, -, ht⟩ | ⟨rfl, -⟩ | ⟨-, -, hq, -⟩
  · exact .inl (by rw [hq]; exact List.mem_append_left _ h)
  · rw [hq, List.mem_cons] at h
    rcases h with rfl | h
    · exact .inr ⟨he, hr, queue, hq⟩
    · exact .inl (by rw [ht]; exact h)
  · left
    rw [ht, runAtom_queue]
    exact List.mem_append_left _ h
  · exact .inl h
  · exact .inl (by rw [hq]; exact h)

/-- A command that an access is to put in the buffer stays ahead of the worker until it is
there. -/
theorem enqueue_step (cfg : Config) {c : Command} (e : Event) (h : .enqueue c ∈ s.running) :
    .enqueue c ∈ (step cfg s e).running ∨ c ∈ (step cfg s e).queue := by
  rcases stepped cfg s e with ⟨_, -, hsame, -, -, -⟩ | ⟨_, _, -, hr, -, -⟩ |
    ⟨a, rest, -, hr, ht⟩ | ⟨rfl, -⟩ | ⟨-, hsame, -, -⟩
  · exact .inl (by rw [hsame.running]; exact h)
  · simp [hr] at h
  · rw [hr, List.mem_cons] at h
    rcases h with rfl | h
    · right
      rw [ht, runAtom_queue]
      exact List.mem_append_right _ List.mem_cons_self
    · left
      rw [ht, runAtom_running]
      exact List.mem_append_right _ h
  · exact .inl h
  · exact .inl (by rw [hsame.running]; exact h)

/-- A connection-lost handler stays until it puts a connect in the buffer. -/
theorem lostHandlers_step (cfg : Config) (e : Event) (h : 0 < s.lostHandlers) :
    0 < (step cfg s e).lostHandlers ∨ .connect true ∈ (step cfg s e).queue := by
  cases e with
  | api call =>
    simp only [step]
    cases call.command s.clock <;> exact .inl h
  | worker =>
    simp only [step, workerStep]
    split
    · rw [runAtom_lostHandlers]
      exact .inl h
    · split <;> exact .inl h
  | connectionLost => exact .inl (Nat.succ_pos _)
  | connectionLostConnects =>
    simp only [step]
    split
    · exact .inl h
    · exact .inr (List.mem_append_right _ List.mem_cons_self)
  | inboundWorker =>
    simp only [step]
    split
    · exact .inl h
    · rename_i listener message rest _
      rw [deliver_lostHandlers]
      exact .inl h
  | inbound | firmwareWorker | platformStatusWorker =>
    simp only [step]
    split <;> exact .inl h
  | installCallback | tick => exact .inl h

/-- A publish of everything waits, or a connect that will lead to one. -/
def PublishDue (s : State P) : Prop :=
  (.connect true ∈ s.queue ∨ .enqueue (.connect true) ∈ s.running ∨ 0 < s.lostHandlers) ∨
    .publish ∈ s.queue ∨ .enqueue .publish ∈ s.running

def Publishing (s : State P) : Prop := s.running = [] ∧ ∃ queue, s.queue = .publish :: queue

theorem publishDue_step (cfg : Config) (s : State P) (e : Event) (h : PublishDue s) :
    PublishDue (step cfg s e) ∨ (e = .worker ∧ Publishing s) := by
  rcases h with (h | h | h) | h | h
  · rcases mem_queue_step cfg e h with h | ⟨rfl, hr, queue, hq⟩
    · exact .inl (.inl (.inl h))
    · left
      rw [step_begins hr hq, PublishDue, begun_connect_running]
      cases cfg.env.connects (s.data.log (.began (.connect true) s.devices)).trace with
      | false => exact .inl (.inr (.inl (by simp)))
      | true => exact .inr (.inr (by simp [connectedAtoms]))
  · rcases enqueue_step cfg e h with h | h
    · exact .inl (.inl (.inr (.inl h)))
    · exact .inl (.inl (.inl h))
  · rcases lostHandlers_step cfg e h with h | h
    · exact .inl (.inl (.inr (.inr h)))
    · exact .inl (.inl (.inl h))
  · rcases mem_queue_step cfg e h with h | ⟨he, hr, hq⟩
    · exact .inl (.inr (.inl h))
    · exact .inr ⟨he, hr, hq⟩
  · rcases enqueue_step cfg e h with h | h
    · exact .inl (.inr (.inr h))
    · exact .inl (.inr (.inl h))

theorem not_publishDue_of_atRest (h : AtRest s) : ¬ PublishDue s := by
  obtain ⟨⟨hr, hq⟩, hh, -, -, -⟩ := h
  simp [PublishDue, hr, hq, hh]

/-- A schedule that comes to rest comes to the publish that is due. -/
theorem publishing_along {schedule : ℕ → Event} (h : PublishDue s) {n : ℕ}
    (hrest : AtRest (along (step cfg) s schedule n)) :
    ∃ m, schedule m = .worker ∧ Publishing (along (step cfg) s schedule m) := by
  by_contra hnone
  have hdue : PublishDue (along (step cfg) s schedule n) := by
    clear hrest
    induction n with
    | zero => exact h
    | succ n ih =>
      rw [along_succ]
      exact (publishDue_step cfg _ _ ih).resolve_right fun hnow => hnone ⟨n, hnow⟩
  exact not_publishDue_of_atRest hrest hdue

/-- Once everything has been published and accepted, nothing is left that can be sent. -/
theorem publishing_empties (hbuild : BuildsAll cfg.env) {events : List Event}
    (h : Publishing (reach cfg P events))
    (hacc : AllAccepted (reach cfg P events).trace (reach cfg P (events ++ [Event.worker])).trace)
    {family : Family} {key : Str} (hk : Sendable family key) :
    contentsOf (reach cfg P (events ++ [Event.worker])).data family key = [] := by
  obtain ⟨hr, queue, hq⟩ := h
  have hstep : reach cfg P (events ++ [Event.worker]) =
      beginCommand cfg .publish queue (reach cfg P events) := by
    rw [reach, run_append, ← step_begins hr hq]
    rfl
  have haudit := (accounted_reach (P := P) cfg (events ++ [Event.worker])).audited
  rw [hstep] at hacc haudit ⊢
  have hsettles := runPublish_settles cfg family key
    ((reach cfg P events).data.log (.began .publish (reach cfg P events).devices))
  refine contents_of_settles hbuild hk hsettles haudit (hacc.of_prefix ?_)
  exact List.prefix_append _ _

theorem accepted_of_move {env : Environment}
    (h : ∀ trace message, env.accepts trace message = true) {L M : Ledger} {e : Effect}
    (hm : Move env L e M) : e.handed.all Prod.snd = true := by
  have never : ∀ trace message, env.outcome trace message ≠ .rejected := by
    intro trace message
    rw [Environment.outcome, h, if_pos rfl]
    split_ifs <;> simp
  cases hm with
  | add => rfl
  | attempt family key items outcome _ _ hout =>
    cases outcome with
    | rejected =>
      rw [attemptOutcome] at hout
      split_ifs at hout
      exact absurd hout.symm (never _ _)
    | _ => rfl
  | other _ he =>
    cases e with
    | sent message outcome =>
      cases outcome with
      | rejected => exact absurd he.symm (never _ _)
      | _ => rfl
    | attempted => exact absurd he id
    | _ => rfl

theorem accepted_of_path {env : Environment}
    (h : ∀ trace message, env.accepts trace message = true) {L M : Ledger} {es : Trace}
    (hp : Path (Move env) L es M) : ∀ e ∈ es, e.handed.all Prod.snd = true := by
  induction hp with
  | nil => simp
  | cons hm _ ih => exact List.forall_mem_cons.mpr ⟨accepted_of_move h hm, ih⟩

theorem allAccepted_along (cfg : Config)
    (h : ∀ trace message, cfg.env.accepts trace message = true) (s : State P)
    (schedule : ℕ → Event) (n : ℕ) :
    AllAccepted s.trace (along (step cfg) s schedule n).trace := by
  obtain ⟨u, hu, hall⟩ : ∃ u, (along (step cfg) s schedule n).trace = s.trace ++ u ∧
      ∀ e ∈ u, e.handed.all Prod.snd = true := by
    induction n with
    | zero => exact ⟨[], (List.append_nil _).symm, by simp⟩
    | succ n ih =>
      obtain ⟨u, hu, hall⟩ := ih
      have hmoves : Moves cfg.env _ (along (step cfg) s schedule n).data
          (step cfg (along (step cfg) s schedule n) (schedule n)).data := step_moves _ _
      obtain ⟨es, hpath, -⟩ := hmoves
      refine ⟨u ++ es, ?_, fun e he => ?_⟩
      · rw [along_succ, ← List.append_assoc, ← hu]
        exact path_trace_eq hpath
      · rcases List.mem_append.mp he with he | he
        · exact hall e he
        · exact accepted_of_path h hpath e he
  intro e he
  rw [hu, List.drop_left] at he
  exact hall e he

/-- The backlog is delivered by itself, where every message can be built. From any state reached
in which a connect that publishes waits, every fair schedule along which finitely many connects
fail and every message is accepted comes to a state in which nothing that can be sent is left in
persistence: whatever of that was put there before, at any time, has been delivered. -/
theorem backlog_delivered (P : Persistence) (cfg : Config) (hbuild : BuildsAll cfg.env)
    (events : List Event) (hdue : PublishDue (reach cfg P events)) (schedule : ℕ → Event)
    (hinternal : ∀ n, (schedule n).isInternal) (hfair : Fair (fun e => e.isThread) schedule)
    {bound : ℕ}
    (hbound : ∀ n, failedConnects (along (step cfg) (reach cfg P events) schedule n) ≤ bound)
    (hacc : ∀ n, AllAccepted (reach cfg P events).trace
      (along (step cfg) (reach cfg P events) schedule n).trace) :
    ∃ n, let t := along (step cfg) (reach cfg P events) schedule n
      (∀ family key, Sendable family key → contentsOf t.data family key = []) ∧
        ∀ before d r x after, t.trace = before ++ .added d r x :: after →
          Sendable x.family (slotKey d r x) → Delivered before d r x after := by
  obtain ⟨n, hrest⟩ := comes_to_rest hinternal hfair hbound
  obtain ⟨m, hworker, hpublishing⟩ := publishing_along hdue hrest
  have hnext : along (step cfg) (reach cfg P events) schedule (m + 1) =
      reach cfg P (events ++ (List.range m).map schedule ++ [Event.worker]) := by
    rw [along_reach, List.range_succ, List.map_append, ← List.append_assoc, ← hworker]
    rfl
  have hafter := hacc (m + 1)
  rw [hnext] at hafter
  rw [along_reach] at hpublishing
  have hempty : ∀ family key, Sendable family key →
      contentsOf (reach cfg P (events ++ (List.range m).map schedule ++ [Event.worker])).data
        family key = [] := by
    intro family key hk
    refine publishing_empties hbuild hpublishing (hafter.of_prefix ?_) hk
    rw [reach, reach, run_append]
    exact run_trace cfg _ _
  refine ⟨m + 1, ?_⟩
  dsimp only
  rw [hnext]
  exact ⟨hempty, fun before d r x after htrace hk =>
    delivered hbuild (accounted_reach cfg _) htrace hk (hempty _ _ hk)⟩

def storedThenLost : List Event :=
  [Event.api (.addDevice (sensorDevice ['d'] ['s'])),
    .api (.addSensorReading ['d'] ['s'] ['1'] 1)] ++
    List.replicate 3 Event.worker ++ [Event.connectionLost]

theorem backlog_delivered_stored_then_lost :
    let cfg := Config.bare Environment.reachableOnRetry
    ∃ n, let t := along (step cfg) (reach cfg .inMemory storedThenLost) inTurn n
      (∀ family key, Sendable family key → contentsOf t.data family key = []) ∧
        ∀ before d r x after, t.trace = before ++ .added d r x :: after →
          Sendable x.family (slotKey d r x) → Delivered before d r x after :=
  backlog_delivered .inMemory (.bare Environment.reachableOnRetry) (fun _ _ => rfl) storedThenLost
    (.inl (.inr (.inr (by decide +kernel)))) inTurn inTurn_internal inTurn_fair
    (failedConnects_along_le (.bare _) failsAtMost_reachableOnRetry _ inTurn)
    (allAccepted_along (.bare _) (fun _ _ => rfl) _ inTurn)

end WolkGateway.Wolk
