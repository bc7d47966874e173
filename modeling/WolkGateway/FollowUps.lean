import WolkGateway.AddCommands
import WolkGateway.RemovedDevices
import WolkGateway.FirmwareThreads

/-!
# What a command leaves to be done

A command does its own piece right behind its start, and the commands that it puts in the
buffer start later, in that order, whatever else is asked for meanwhile. So once the buffer is
empty, what every command of a run left has started behind it.
-/

namespace WolkGateway.Wolk
open DeviceModel DataService DataLedger GuardedRuns Transcripts

variable {P : Persistence} {cfg : Config} {s t : State P} {d : Str} {after : Trace}
  {devices : Registry} {c : Command}

/-- The commands start, in this order, among those that have started since, those that wait
and those the worker is about to put in the buffer. -/
def Follow (commands : List Command) (after : Trace) (s : State P) : Prop :=
  commands.Sublist ((started after).map Prod.fst ++ (s.queue ++ s.running.flatMap Atom.enqueues))

theorem Follow.of_idle {commands : List Command} {u : Trace} (h : Follow commands after s)
    (hu : StartsNone u) (more : List Command)
    (hwaits : t.queue ++ t.running.flatMap Atom.enqueues =
      s.queue ++ more ++ s.running.flatMap Atom.enqueues) : Follow commands (after ++ u) t := by
  rw [Follow, started_startsNone hu, hwaits]
  exact h.trans (.append_left (.append_right (List.sublist_append_left _ _) _) _)

theorem Follow.step {commands : List Command} {u : Trace} {e : Event}
    (hu : (step cfg s e).trace = s.trace ++ u) (h : Follow commands after s) :
    Follow commands (after ++ u) (step cfg s e) := by
  rcases stepped cfg s e with ⟨c, -, hsame, hq, hdata, -⟩ | ⟨c, queue, rfl, hr, hq, ht⟩ |
    ⟨a, rest, rfl, hr, ht⟩ | ⟨rfl, ht⟩ | ⟨-, hsame, hq, hm⟩
  · have hnil : u = [] := by
      rw [State.trace, hdata] at hu
      exact (List.append_cancel_left ((List.append_nil _).trans hu)).symm
    exact h.of_idle (by simp [hnil, StartsNone]) [c] (by rw [hq, hsame.running])
  · obtain ⟨v, hv, hall⟩ := beginCommand_trace cfg c queue s
    rw [ht, hv, List.append_assoc] at hu
    have hstarted : started (after ++ u) = started after ++ [(c, s.devices)] := by
      rw [← List.append_cancel_left hu, ← List.append_assoc,
        started_startsNone (startsNone_of_mayEmit hall), started, List.filterMap_append]
      rfl
    rw [Follow, hr, hq, List.flatMap_nil, List.append_nil] at h
    rw [Follow, hstarted, ht, List.map_append, List.append_assoc]
    exact h.trans (.append_left (.cons_cons c (List.sublist_append_left _ _)) _)
  · obtain ⟨v, hv, hall⟩ := (runAtom_moves cfg a { s with running := rest }).trace_eq
    rw [ht] at hu
    have hvu : v = u := List.append_cancel_left (hv.symm.trans hu)
    rw [← hvu, Follow, started_startsNone (startsNone_of_accesses hall), ht, runAtom_queue,
      runAtom_running, List.flatMap_append]
    rw [Follow, hr, List.flatMap_cons] at h
    refine h.trans (.append_left ?_ _)
    rw [List.append_assoc]
    exact .append_left (.append_left (List.sublist_append_right _ _) _) _
  · have hlost : u = [.connectionLost] := (List.append_cancel_left hu).symm
    refine h.of_idle (by simp [hlost, StartsNone, start]) [] ?_
    rw [List.append_nil]
    rfl
  · obtain ⟨v, hv, hall⟩ := hm.trace_eq
    have hvu : v = u := List.append_cancel_left (hv.symm.trans hu)
    refine h.of_idle (hvu ▸ startsNone_of_aside hall) [] ?_
    rw [hq, hsame.running, List.append_nil]

/-- The firmware version of the device was asked for since, or is still to be. -/
def VersionDue (d : Str) (after : Trace) (s : State P) : Prop :=
  (∃ version, .firmwareVersionProvided d version ∈ after) ∨
    .publishFirmwareVersion d ∈ s.firmwareQueue ∨
    .enqueueFirmware (.publishFirmwareVersion d) ∈ s.running

/-- A firmware command that waits is run by the firmware service, or waits on. -/
theorem firmwareQueue_step (cfg : Config) {command : FirmwareCommand}
    (h : command ∈ s.firmwareQueue) (e : Event) : command ∈ (step cfg s e).firmwareQueue ∨
      e = .firmwareWorker ∧ ∃ queue, s.firmwareQueue = command :: queue := by
  cases e with
  | firmwareWorker =>
    simp only [step]
    cases hq : s.firmwareQueue with
    | nil =>
      rw [hq] at h
      cases h
    | cons head queue =>
      rw [hq] at h
      rcases List.mem_cons.mp h with rfl | h
      · exact .inr ⟨trivial, queue, rfl⟩
      · exact .inl (List.mem_append_left _ h)
  | worker =>
    left
    simp only [step, workerStep]
    split
    · rw [runAtom_firmwareQueue]
      exact List.mem_append_left _ h
    · split <;> exact h
  | inboundWorker =>
    left
    simp only [step]
    split
    · exact h
    · rename_i listener message rest _
      obtain ⟨puts, hputs⟩ := deliver_firmwareQueue cfg listener message { s with inbox := rest }
      rw [hputs]
      exact List.mem_append_left _ h
  | installCallback => exact .inl (List.mem_append_left _ h)
  | api call =>
    left
    simp only [step, enqueueAll]
    split <;> exact h
  | connectionLostConnects | inbound | platformStatusWorker =>
    left
    simp only [step]
    split <;> exact h
  | connectionLost | tick => exact .inl h

theorem VersionDue.step {u : Trace} {e : Event} (hu : (step cfg s e).trace = s.trace ++ u)
    (h : VersionDue d after s) : VersionDue d (after ++ u) (step cfg s e) := by
  rcases h with ⟨version, hprovided⟩ | hqueue | hrunning
  · exact .inl ⟨version, List.mem_append_left _ hprovided⟩
  · rcases firmwareQueue_step cfg hqueue e with hwaits | ⟨rfl, queue, hq⟩
    · exact .inr (.inl hwaits)
    · obtain ⟨v, hv⟩ := runPublishFirmwareVersion_trace cfg.env d s.data
      have hran : (Wolk.step cfg s .firmwareWorker).trace = s.trace ++
          Effect.firmwareVersionProvided d (cfg.env.firmwareVersion s.trace d) :: v := by
        simp only [Wolk.step, hq]
        exact hv
      left
      refine ⟨cfg.env.firmwareVersion s.trace d, List.mem_append_right _ ?_⟩
      rw [List.append_cancel_left (hu.symm.trans hran)]
      exact List.mem_cons_self
  · rcases stepped cfg s e with ⟨c, -, hsame, -, -, -⟩ | ⟨c, queue, -, hr, -, -⟩ |
      ⟨a, rest, -, hr, ht⟩ | ⟨rfl, -⟩ | ⟨-, hsame, -, -⟩
    · exact .inr (.inr (hsame.running ▸ hrunning))
    · rw [hr] at hrunning
      cases hrunning
    · rw [hr] at hrunning
      rcases List.mem_cons.mp hrunning with rfl | hrest
      · right; left
        rw [ht, runAtom_firmwareQueue]
        exact List.mem_append_right _ List.mem_cons_self
      · right; right
        rw [ht, runAtom_running]
        exact List.mem_append_right _ hrest
    · exact .inr (.inr hrunning)
    · exact .inr (.inr (hsame.running ▸ hrunning))

/-- A command that started did its own piece at once, with the calls `own`, and the rest has
followed or is still to. -/
structure Carried (cfg : Config) (c : Command) (devices : Registry) (now : ℕ) (data : DataState P)
    (own later : Trace) (s : State P) : Prop where
  executed : (execute cfg devices now data c).data.trace = data.trace ++ own
  startsNone : StartsNone own
  follow : Follow ((execute cfg devices now data c).rest.flatMap Atom.enqueues) later s
  versions : ∀ d, .enqueueFirmware (.publishFirmwareVersion d) ∈
    (execute cfg devices now data c).rest → VersionDue d later s

/-- What holds of a command and the calls behind it as it starts, and stays true over the
steps that follow, holds of every start of a run. -/
theorem behind_starts_along {R : State P → Trace → Command → Registry → Trace → Prop}
    (hstep : ∀ s e u before c devices after, (step cfg s e).trace = s.trace ++ u →
      R s before c devices after → R (step cfg s e) before c devices (after ++ u))
    (hbegun : ∀ (s : State P) c queue u, StartsNone u →
      (beginCommand cfg c queue s).trace = s.trace ++ .began c s.devices :: u →
      R (beginCommand cfg c queue s) s.trace c s.devices u) (events : List Event) :
    ∀ before c devices after,
      (reach cfg P events).trace = before ++ .began c devices :: after →
      R (reach cfg P events) before c devices after := by
  refine invariant_of_step (I := fun s : State P => ∀ before c devices after,
    s.trace = before ++ .began c devices :: after → R s before c devices after)
    (fun s e ih before c devices after hsplit => ?_) ?_ events
  · rcases step_starts cfg s e with ⟨c', queue, u, -, -, -, hu, hnone, ht⟩ | ⟨u, hu, hnone⟩
    · rw [← ht] at hu
      rw [hu] at hsplit
      rcases split_append hsplit with ⟨after', rfl, hold⟩ | ⟨before', rfl, hnew⟩
      · exact hstep s e _ before c devices after' hu (ih before c devices after' hold)
      · cases before' with
        | nil =>
          obtain ⟨hbegan, rfl⟩ := List.cons.inj hnew
          obtain ⟨rfl, rfl⟩ := Effect.began.inj hbegan
          rw [List.append_nil, ht]
          exact hbegun s c' queue u hnone (ht ▸ hu)
        | cons x before' =>
          obtain ⟨-, rfl⟩ := List.cons.inj hnew
          exact absurd (List.mem_append_right _ List.mem_cons_self)
            (hnone.began_notMem c devices)
    · rw [hu] at hsplit
      rcases split_append hsplit with ⟨after', rfl, hold⟩ | ⟨before', -, rfl⟩
      · exact hstep s e u before c devices after' hu (ih before c devices after' hold)
      · exact absurd (List.mem_append_right _ List.mem_cons_self) (hnone.began_notMem c devices)
  · intro before c devices after h
    simp [State.trace, State.initial, DataState.initial] at h

def SeenTo (cfg : Config) (s : State P) (before : Trace) (c : Command) (devices : Registry)
    (after : Trace) : Prop :=
  ∃ now, ∃ data : DataState P, ∃ own later, data.trace = before ++ [.began c devices] ∧
    after = own ++ later ∧ Carried cfg c devices now data own later s

theorem carried_reach (P : Persistence) (cfg : Config) (events : List Event) :
    ∀ before c devices after, (reach cfg P events).trace = before ++ .began c devices :: after →
      SeenTo cfg (reach cfg P events) before c devices after := by
  refine behind_starts_along (R := SeenTo cfg) ?_ ?_ events
  · rintro s e u before c devices _ hu ⟨now, data, own, later, hdata, rfl, h⟩
    refine ⟨now, data, own, later ++ u, hdata, List.append_assoc _ _ _, h.executed, h.startsNone,
      h.follow.step hu, fun d hd => (h.versions d hd).step hu⟩
  · intro s c queue u hnone hu
    refine ⟨s.clock, s.data.log (.began c s.devices), u, [], rfl, (List.append_nil u).symm,
      ⟨?_, hnone, ?_, fun d hd => .inr (.inr hd)⟩⟩
    · have hexecuted : (execute cfg s.devices s.clock (s.data.log (.began c s.devices))
          c).data.trace = s.trace ++ .began c s.devices :: u := hu
      rw [hexecuted, ← List.singleton_append, ← List.append_assoc]
      rfl
    · exact List.sublist_append_right _ _

theorem Carried.puts {now : ℕ} {data : DataState P} {own later : Trace}
    (h : Carried cfg c devices now data own later s) {pair : Str × Str}
    (hpair : pair ∈ adds devices c) :
    ∃ x, .added pair.1 pair.2 x ∈ own ∧ IsItemOf pair.2 c x := by
  obtain ⟨u, hu, hx⟩ := execute_records cfg hpair now data
  rwa [List.append_cancel_left (h.executed.symm.trans hu)]

theorem Carried.left_started {now : ℕ} {data : DataState P} {own later : Trace}
    (h : Carried cfg c devices now data own later s) (hempty : s.BufferEmpty) :
    ((execute cfg devices now data c).rest.flatMap Atom.enqueues).Sublist
      ((started later).map Prod.fst) := by
  have hfollow := h.follow
  rwa [Follow, hempty.1, hempty.2, List.flatMap_nil, List.append_nil, List.append_nil] at hfollow

theorem Carried.version {now : ℕ} {data : DataState P} {own later : Trace}
    (h : Carried cfg c devices now data own later s) (hempty : s.BufferEmpty)
    (hfirmware : s.firmwareQueue = [])
    (hd : .enqueueFirmware (.publishFirmwareVersion d) ∈ (execute cfg devices now data c).rest) :
    ∃ version, .firmwareVersionProvided d version ∈ later := by
  rcases h.versions d hd with hversion | hwaits | hruns
  · exact hversion
  · rw [hfirmware] at hwaits
    cases hwaits
  · rw [hempty.1] at hruns
    cases hruns

theorem split_of_started (commands : List Command)
    (h : (commands ++ [c]).Sublist ((started after).map Prod.fst)) :
    ∃ mid devices rest, after = mid ++ .began c devices :: rest ∧
      commands.Sublist ((started mid).map Prod.fst) := by
  rw [started, List.map_filterMap] at h
  obtain ⟨mid, e, rest, rfl, he, hmid⟩ := split_of_sublist h
  rw [← List.map_filterMap] at hmid
  cases e with
  | began c' devices =>
    obtain rfl := Option.some.inj he
    exact ⟨mid, devices, rest, rfl, hmid⟩
  | _ => cases he

theorem mem_started_append (h : c ∈ (started after).map Prod.fst) (u : Trace) :
    c ∈ (started (u ++ after)).map Prod.fst := by
  rw [started, List.filterMap_append, List.map_append]
  exact List.mem_append_right _ h

theorem subset_of_startsNone {own later mid tail : Trace} (hown : StartsNone own)
    (h : mid ++ tail = own ++ later) (htail : ∀ e ∈ tail.head?, start e ≠ none) : own ⊆ mid := by
  rcases List.append_eq_append_iff.mp h with ⟨u, rfl, hu⟩ | ⟨u, rfl, -⟩
  · cases u with
    | nil =>
      rw [List.append_nil]
      exact List.Subset.refl _
    | cons e u =>
      rw [hu] at htail
      exact absurd (hown e (List.mem_append_right _ List.mem_cons_self)) (htail e rfl)
  · exact List.subset_append_left _ _

end WolkGateway.Wolk
