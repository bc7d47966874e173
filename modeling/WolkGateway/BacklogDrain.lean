import WolkGateway.AddCommands
import WolkGateway.CommandHistory
import WolkGateway.DataAttribution
import WolkGateway.PublishingByDevice

/-!
# A successful connect drains the backlog

When every message is built and accepted, publishing everything leaves nothing under a key
that can be sent, so whatever was put there has been accepted by then. And the publish that
a successful connect spawns stands in the buffer behind every command that was put there
before, so the puts of all of them come before it.
-/

namespace WolkGateway.Wolk
open DeviceModel DataService DataLedger GuardedRuns Transcripts
open DataServiceCalls DataServiceConservation DataServiceLatestValue DataServicePublishing
open PublishingByDevice (publishFamily publishFamily_moves publishFamily_settles)

variable {P : Persistence} {cfg : Config} {family : Family} {key : Str}

/-- Data under the key can be sent: the key splits into two nonempty parts, which nothing
asks of a configuration's key. -/
def Sendable (family : Family) (key : Str) : Prop := family = .configurations ∨ Parses key

instance (family : Family) (key : Str) : Decidable (Sendable family key) :=
  inferInstanceAs (Decidable (_ ∨ _))

def BuildsAll (env : Environment) : Prop :=
  ∀ trace message, env.makesMessage trace message = true

theorem runPublish_settles (cfg : Config) (family : Family) (key : Str) (s : DataState P) :
    Settles family key s (runPublish cfg s) := by
  have hrun : runPublish cfg s = publishFamily cfg.env .sensorReadings
      (publishFamily cfg.env .alarms (publishFamily cfg.env .configurations
        (publishFamily cfg.env .actuatorStatuses s))) := rfl
  rw [hrun]
  have hm : ∀ family (s : DataState P),
      Moves cfg.env IsAttempt s (publishFamily cfg.env family s) :=
    fun family s => (publishFamily_moves cfg.env family s).mono AttemptAt.isAttempt
  exact .inTurn hm (publishFamily_settles cfg.env family key) s

/-- Where every message is built, an attempt at such a key is accepted or rejected. -/
theorem audited_outcome {env : Environment} (hbuild : BuildsAll env) (hk : Sendable family key)
    {before : Trace} {d : Str} {items : List Item} {outcome : Outcome}
    (h : Audited env before family key d items outcome) :
    outcome = .accepted ∨ outcome = .rejected := by
  have hparse : ¬ (family ≠ .configurations ∧ ¬ Parses key) := by
    rintro ⟨hf, hp⟩
    exact hk.elim hf hp
  rw [h.outcome, attemptOutcome, if_neg hparse, Environment.outcome, hbuild]
  simp only [Bool.not_true, Bool.false_eq_true, if_false]
  split_ifs
  · exact .inl rfl
  · exact .inr rfl

/-- Whatever was handed over between the states was accepted. -/
def AllAccepted (s t : Trace) : Prop :=
  ∀ e ∈ t.drop s.length, e.handed.all Prod.snd = true

instance (s t : Trace) : Decidable (AllAccepted s t) := inferInstanceAs (Decidable (∀ _ ∈ _, _))

/-- With every message built and accepted, settling such a key empties it. -/
theorem contents_of_settles {env : Environment} (hbuild : BuildsAll env)
    (hk : Sendable family key) {s t : DataState P} (h : Settles family key s t)
    (haudit : Justified (AuditedEffect env) t.trace) (hacc : AllAccepted s.trace t.trace) :
    contentsOf t family key = [] := by
  obtain ⟨es, ht, hempty | ⟨e, he, d, items, outcome, rfl, hne⟩⟩ := h
  · exact hempty
  · obtain ⟨before, after, rfl⟩ := List.append_of_mem he
    have ha : Audited env (s.trace ++ before) family key d items outcome :=
      haudit _ (.attempted family key d items outcome) after (by rw [ht, List.append_assoc])
    rcases audited_outcome hbuild hk ha with rfl | rfl
    · exact absurd rfl hne
    · have hall := hacc (.attempted family key d items .rejected) (by rw [ht]; simp)
      simp [Effect.handed] at hall

/-- The item put between `before` and `after` was accepted. A reading or an alarm has, among
the items accepted under its key, the place it has among the items put there. A status or a
configuration was accepted after it was put, itself or, if it was replaced, what replaced it
last. -/
inductive Delivered (before : Trace) (d r : Str) (x : Item) (after : Trace) : Prop
  | kept (hkept : keepsAll x.family = true)
      (haccepted : addedUnder x.family (slotKey d r x) before ++ [x] <+:
        acceptedItems x.family (slotKey d r x) (before ++ .added d r x :: after))
  | latest (hkept : keepsAll x.family = false) (mid : Trace) (y : Item) (rest : Trace)
      (hafter : after = mid ++ .attempted x.family (slotKey d r x)
        (deviceOf x.family (slotKey d r x)) [y] .accepted :: rest)
      (hlast : (x :: addedUnder x.family (slotKey d r x) mid).getLast? = some y)
      (hrest : addedUnder x.family (slotKey d r x) rest = [])

/-- Where every message is built, whatever left such a key was accepted. -/
theorem consumed_accepted {env : Environment} (hbuild : BuildsAll env) (hk : Sendable family key)
    {trace : Trace} (haudit : Justified (AuditedEffect env) trace) {b : Block}
    (hb : b ∈ blocksConsumed family key trace) : b.outcome = .accepted := by
  obtain ⟨before, d, after, ht, hr⟩ := mem_blocksConsumed hb
  have ha : Audited env before family key d b.items b.outcome := haudit _ _ _ ht
  exact (audited_outcome hbuild hk ha).resolve_right hr

theorem acceptedItems_eq_consumedItems {trace : Trace}
    (h : ∀ b ∈ blocksConsumed family key trace, b.outcome = .accepted) :
    acceptedItems family key trace = consumedItems family key trace := by
  have hfilter : (blocksConsumed family key trace).filter (fun b => b.outcome = .accepted) =
      blocksConsumed family key trace :=
    List.filter_eq_self.mpr fun b hb => by simp [h b hb]
  rw [acceptedItems, hfilter, consumedItems, List.flatMap_def]

theorem addedUnder_added (before : Trace) (d r : Str) (x : Item) (after : Trace) :
    addedUnder x.family (slotKey d r x) (before ++ .added d r x :: after) =
      addedUnder x.family (slotKey d r x) before ++
        x :: addedUnder x.family (slotKey d r x) after := by
  rw [addedUnder_append]
  simp [addedUnder, addedTo]

/-- With nothing left under its key, an item that was put has been accepted. -/
theorem delivered {env : Environment} (hbuild : BuildsAll env) {L : Ledger} (h : Accounted env L)
    {before after : Trace} {d r : Str} {x : Item} (ht : L.trace = before ++ .added d r x :: after)
    (hk : Sendable x.family (slotKey d r x)) (hempty : L.contents x.family (slotKey d r x) = []) :
    Delivered before d r x after := by
  cases hkept : keepsAll x.family with
  | true =>
    refine .kept hkept ?_
    have hall := acceptedItems_eq_consumedItems fun b hb => consumed_accepted hbuild hk h.audited hb
    have hbalance : addedUnder x.family (slotKey d r x) L.trace =
        consumedItems x.family (slotKey d r x) L.trace ++ L.contents x.family (slotKey d r x) :=
      h.fifo _ _ hkept
    rw [hempty, List.append_nil, ← hall, ht, addedUnder_added] at hbalance
    exact ⟨addedUnder x.family (slotKey d r x) after, by rw [← hbalance]; simp⟩
  | false =>
    have hslot := h.slot x.family (slotKey d r x) hkept
    have hnone : pendingValue x.family (slotKey d r x) L.trace = none := by
      have hpending := hslot.pending
      rw [hempty] at hpending
      simpa using hpending.symm
    rcases pendingValue_eq_none hslot.carries hnone with hnil | ⟨first, e, b, rest, heq, hb, hquiet⟩
    · rw [ht, addedUnder_added] at hnil
      simp at hnil
    obtain ⟨y, hy, hitems⟩ := hslot.carries _ _ _ heq b hb
    obtain ⟨d', rfl, hr⟩ := consumedBy_eq_some hb
    have ha : Audited env first x.family (slotKey d r x) d' b.items b.outcome :=
      h.audited _ _ _ heq
    have hacc := (audited_outcome hbuild hk ha).resolve_right hr
    rw [ht] at heq
    rcases split_append heq with ⟨mid, rfl, rfl⟩ | ⟨pre, rfl, hpre⟩
    · have hput := (hquiet (.added d r x) (by simp)).1
      simp [addedTo] at hput
    · cases pre with
      | nil =>
        obtain ⟨hne, -⟩ := List.cons.inj hpre
        cases hne
      | cons e mid =>
        obtain ⟨rfl, rfl⟩ := List.cons.inj hpre
        have hlast := getLast_of_pendingValue hy
        rw [addedUnder_added, List.getLast?_append_of_ne_nil _ (by simp)] at hlast
        refine .latest hkept mid y rest ?_ hlast (addedUnder_quiet hquiet)
        rw [ha.device, hitems, hacc]
        rfl

/-- A `connect(true)` that succeeds, taken in `s`. At `t` all that is left of it is to put
`publish()` in the buffer, and at `w` that command is next: what has started by then is what
was in the buffer's history before it. -/
structure SpawnsPublish (cfg : Config) (s t w : State P) : Prop where
  idle : s.running = []
  next : s.queue.head? = some (.connect true)
  connects : cfg.env.connects (s.trace ++ [.began (.connect true) s.devices]) = true
  spawning : ∃ events, t = run (step cfg) (step cfg s .worker) events
  same : (started t.trace).length = (started s.trace).length + 1
  last : t.running = [.enqueue .publish]
  waiting : ∃ events, w = run (step cfg) (step cfg t .worker) events
  ready : w.running = []
  turn : (started w.trace).length = (history t).length

namespace SpawnsPublish

variable {s t w : State P}

theorem started_queue (h : SpawnsPublish cfg s t w) :
    (started w.trace).map Prod.fst = history t ∧ ∃ queue, w.queue = .publish :: queue := by
  obtain ⟨events, hw⟩ := h.waiting
  have hhistory : history t ++ [.publish] <+: history w := by
    rw [← history_enqueue h.last, hw]
    exact history_run cfg _ events
  exact ⟨started_eq_history ((List.prefix_append _ _).trans hhistory) h.turn,
    queue_of_turn hhistory h.turn⟩

theorem run_eq (h : SpawnsPublish cfg s t w) :
    ∃ events, step cfg w .worker = run (step cfg) s events := by
  obtain ⟨spawning, rfl⟩ := h.spawning
  obtain ⟨waiting, rfl⟩ := h.waiting
  refine ⟨Event.worker :: spawning ++ Event.worker :: waiting ++ [Event.worker], ?_⟩
  simp only [List.cons_append, run_cons, run_append, run_nil]

theorem trace_prefix (h : SpawnsPublish cfg s t w) : s.trace <+: w.trace := by
  obtain ⟨spawning, rfl⟩ := h.spawning
  obtain ⟨waiting, rfl⟩ := h.waiting
  exact (run_trace cfg s (.worker :: spawning)).trans (run_trace cfg _ (.worker :: waiting))

end SpawnsPublish

/-- The command in place `n` has started, and where it passed its checks every item it put
under a key that can be sent has been accepted. -/
def Drained (trace : Trace) (n : ℕ) (c : Command) : Prop :=
  ∃ before devices after, trace = before ++ .began c devices :: after ∧
    (started before).length = n ∧
    ∀ pair ∈ adds devices c, ∃ pre x post,
      after = pre ++ .added pair.1 pair.2 x :: post ∧ started pre = [] ∧ IsItemOf pair.2 c x ∧
      (Sendable x.family (slotKey pair.1 pair.2 x) →
        Delivered (before ++ .began c devices :: pre) pair.1 pair.2 x post)

theorem accounted_reach (cfg : Config) (events : List Event) :
    Accounted cfg.env (ledgerOf (reach cfg P events).data) := by
  refine invariant_of_step (I := fun s : State P => Accounted cfg.env (ledgerOf s.data))
    (fun s e h => ?_) (ledgerOf_initial (P := P) ▸ accounted_empty cfg.env) events
  exact (step_moves s e).invariant (fun L e M hL _ hm => move_accounted hL hm) h

theorem AllAccepted.of_prefix {s t u : Trace} (h : AllAccepted s u) (hp : s <+: t) :
    AllAccepted t u :=
  fun e he => h e (List.drop_subset_drop_left u hp.length_le he)

/-- Everything a connect leaves is a plain access. -/
theorem connectedAtoms_expands {devices : Registry} {b : Bool} {a : Atom}
    (h : a ∈ connectedAtoms devices b) (connected : Bool) : a.expands connected = [] := by
  cases mem_connectedAtoms h <;> rfl

theorem work_through (cfg : Config) {front rest : List Atom} {s : State P}
    (hr : s.running = front ++ rest)
    (hplain : ∀ a ∈ front, ∀ connected, a.expands connected = []) :
    (work cfg front.length s).running = rest ∧
      started (work cfg front.length s).trace = started s.trace := by
  induction front generalizing s with
  | nil => exact ⟨hr, rfl⟩
  | cons a front ih =>
    have hs : step cfg s .worker = runAtom cfg a { s with running := front ++ rest } :=
      step_accesses hr
    obtain ⟨u, hu, hall⟩ := (runAtom_moves cfg a { s with running := front ++ rest }).trace_eq
    have hrunning : (step cfg s .worker).running = front ++ rest := by
      rw [hs, runAtom_running, hplain a List.mem_cons_self, List.nil_append]
    have hstart : started (step cfg s .worker).trace = started s.trace := by
      have htrace : (step cfg s .worker).trace = s.trace ++ u := by
        rw [hs]
        exact hu
      rw [htrace, started_startsNone (startsNone_of_accesses hall)]
    obtain ⟨hend, hkept⟩ := ih hrunning fun b hb => hplain b (List.mem_cons_of_mem _ hb)
    rw [List.length_cons, work_succ]
    exact ⟨hend, hkept.trans hstart⟩

/-- The worker, left alone after a connect that succeeds, comes to the publish it spawns. -/
theorem connect_spawns_publish (cfg : Config) {s : State P} (hr : s.running = [])
    (hq : s.queue.head? = some (.connect true))
    (hc : cfg.env.connects (s.trace ++ [Effect.began (.connect true) s.devices]) = true) :
    ∃ n m, SpawnsPublish cfg s (work cfg n (step cfg s .worker))
      (work cfg m (step cfg (work cfg n (step cfg s .worker)) .worker)) := by
  obtain ⟨queue, hqueue⟩ := List.head?_eq_some_iff.mp hq
  have hbegins : step cfg s .worker = beginCommand cfg (.connect true) queue s :=
    step_begins hr hqueue
  obtain ⟨front, hfront⟩ :
      ∃ front, connectedAtoms s.devices true = front ++ [Atom.enqueue .publish] := by
    simp only [connectedAtoms, if_true, ← List.append_assoc]
    exact ⟨_, rfl⟩
  have hrunning : (step cfg s .worker).running = front ++ [Atom.enqueue .publish] := by
    have hconnects : cfg.env.connects (s.data.log (.began (.connect true) s.devices)).trace =
        true := hc
    rw [hbegins, ← hfront]
    simp only [beginCommand, execute, hconnects, if_true]
  have hplain : ∀ a ∈ front, ∀ connected, a.expands connected = [] := by
    intro a ha
    have hmem : a ∈ connectedAtoms s.devices true := by
      rw [hfront]
      exact List.mem_append_left _ ha
    exact connectedAtoms_expands hmem
  obtain ⟨hlast, hstarted⟩ := work_through cfg hrunning hplain
  generalize ht : work cfg front.length (step cfg s .worker) = t at hlast hstarted
  have hspawned : history (step cfg t .worker) = history t ++ [Command.publish] :=
    history_enqueue hlast
  have hcount : (started (step cfg t .worker).trace).length ≤ (history t).length := by
    have hsame : started (step cfg t .worker).trace = started t.trace := by
      rw [step_accesses hlast]
      rfl
    rw [hsame, history, List.length_append, List.length_map]
    omega
  obtain ⟨m, hready, hturn⟩ := work_comes_to cfg (step cfg t .worker) hcount
    (by rw [hspawned, List.length_append]; simp)
  refine ⟨front.length, m, ?_⟩
  rw [ht]
  refine ⟨hr, hq, hc, ⟨_, ht.symm⟩, ?_, hlast, ⟨_, rfl⟩, hready, hturn⟩
  rw [hstarted, hbegins, started_begun, List.length_append]
  rfl

/-- A successful connect drains the backlog. -/
theorem connect_drains_backlog (P : Persistence) (cfg : Config) (hbuild : BuildsAll cfg.env)
    (events : List Event) (t w : State P) (h : SpawnsPublish cfg (reach cfg P events) t w)
    (hacc : AllAccepted (reach cfg P events).trace (step cfg w .worker).trace) :
    (started (step cfg w .worker).trace).map Prod.fst = history t ++ [.publish] ∧
    ∀ n c, (history t)[n]? = some c → Drained (step cfg w .worker).trace n c := by
  obtain ⟨hstarted, queue, hqueue⟩ := h.started_queue
  have hbegins : step cfg w .worker = beginCommand cfg .publish queue w :=
    step_begins h.ready hqueue
  have hall : (started (step cfg w .worker).trace).map Prod.fst =
      history t ++ [Command.publish] := by
    rw [hbegins, started_begun, List.map_append, hstarted]
    rfl
  obtain ⟨more, hrun⟩ := h.run_eq
  have hreach : step cfg w .worker = reach cfg P (events ++ more) := by
    rw [hrun, reach, reach, run_append]
  have haccounted : Accounted cfg.env (ledgerOf (step cfg w .worker).data) := by
    rw [hreach]
    exact accounted_reach cfg _
  have hempty : ∀ family key, Sendable family key →
      contentsOf (step cfg w .worker).data family key = [] := by
    intro family key hk
    have hsettles : Settles family key (w.data.log (.began .publish w.devices))
        (step cfg w .worker).data := by
      rw [hbegins]
      exact runPublish_settles cfg family key _
    refine contents_of_settles hbuild hk hsettles haccounted.audited ?_
    exact hacc.of_prefix (h.trace_prefix.trans (List.prefix_append _ _))
  refine ⟨hall, fun n c hc => ?_⟩
  have hplace : (history t ++ [Command.publish])[n]? = some c := by
    rw [List.getElem?_append_left (List.getElem?_eq_some_iff.mp hc).1]
    exact hc
  obtain ⟨before, devices, after, htrace, hn⟩ := split_of_history hall hplace
  refine ⟨before, devices, after, htrace, hn, fun pair hpair => ?_⟩
  obtain ⟨pre, x, post, rfl, hpre, hx⟩ := puts_recorded cfg (events ++ more) before c devices after
    (hreach ▸ htrace) pair hpair
  refine ⟨pre, x, post, rfl, hpre, hx, fun hk => ?_⟩
  exact delivered hbuild haccounted (htrace.trans (by simp)) hk (hempty _ _ hk)

def acceptingOnceConnected : Environment :=
  { Environment.obliging with accepts := fun trace _ => .connectCalled true ∈ trace }

def leftBehind : List Event :=
  [Event.api (.addDevice (sensorDevice ['d'] ['s'])), .api (.addSensorReading ['d'] ['s'] ['1'] 1),
    .api .publish, .api (.connect true)] ++ List.replicate 4 Event.worker

theorem connect_drains_backlog_left_behind :
    let cfg := Config.bare acceptingOnceConnected
    let s := reach cfg .inMemory leftBehind
    let t := work cfg 5 (step cfg s .worker)
    let w := work cfg 5 (step cfg t .worker)
    history t = [.addDevice (sensorDevice ['d'] ['s']), .addSensorReading ['d'] ['s'] [['1']] 1,
      .publish, .connect true, .registerDevices, .publishFirmwareVersions, .publishDeviceStatuses,
      .handleConfigurationGetCommand ['d']] ∧
    ∀ n c, (history t)[n]? = some c → Drained (step cfg w .worker).trace n c := by
  refine ⟨by decide +kernel, (connect_drains_backlog .inMemory (.bare acceptingOnceConnected)
    (fun _ _ => rfl) leftBehind _ _ ⟨?_, ?_, ?_, ⟨_, rfl⟩, ?_, ?_, ⟨_, rfl⟩, ?_, ?_⟩ ?_).2⟩
  all_goals decide +kernel

end WolkGateway.Wolk
