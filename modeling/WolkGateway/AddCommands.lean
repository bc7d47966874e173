import WolkGateway.WolkStepCases

/-!
# What the add commands put into persistence

A command that adds data, and passes its checks in the registry it starts in, makes its
puts in the step that starts it. So in the trace its puts stand behind its start, and
before the start of the next command.
-/

namespace WolkGateway.Wolk
open DeviceModel DataService DataLedger GuardedRuns Transcripts

/-- The device keys and references a command puts an item under, when it starts in the
registry `devices` and passes its checks there. -/
def adds (devices : Registry) : Command → List (Str × Str)
  | .addSensorReading d r _ _ =>
    if deviceExists devices d && sensorDefinedForDevice devices d r then [(d, r)] else []
  | .addAlarm d r _ _ =>
    if deviceExists devices d && alarmDefinedForDevice devices d r then [(d, r)] else []
  | .publishActuatorStatus d r _ => [(d, r)]
  | .publishConfiguration d _ => [(d, [])]
  | .handleActuatorSetCommand d r _ =>
    if deviceExists devices d && actuatorDefinedForDevice devices d r then [(d, r)] else []
  | .handleActuatorGetCommand d r =>
    if d.isEmpty && r.isEmpty then
      devices.toList.flatMap fun kvp => kvp.2.getActuatorReferences.map (kvp.2.key, ·)
    else if deviceExists devices d && actuatorDefinedForDevice devices d r then [(d, r)] else []
  | .handleConfigurationSetCommand d configuration =>
    if deviceExists devices d && configuration.all fun item =>
        configurationItemDefinedForDevice devices d item.reference then [(d, [])] else []
  | .handleConfigurationGetCommand d => if deviceExists devices d then [(d, [])] else []
  | _ => []

/-- The item is the one the command was given; a status or a configuration that was not
given is the one the provider answered with. -/
def IsItemOf (reference : Str) : Command → Item → Prop
  | .addSensorReading _ _ values rtc, .sensorReading reading =>
    reading.values = values ∧ reading.reference = reference ∧ (rtc ≠ 0 → reading.rtc = rtc)
  | .addAlarm _ _ active rtc, .alarm alarm => alarm = ⟨active, reference, rtc⟩
  | .publishActuatorStatus _ _ value, .actuatorStatus status => status = ⟨value, reference, .ready⟩
  | .publishConfiguration _ configurations, .configuration items => items = configurations
  | .handleActuatorSetCommand .., .actuatorStatus status => status.reference = reference
  | .handleActuatorGetCommand .., .actuatorStatus status => status.reference = reference
  | .handleConfigurationSetCommand .., .configuration _ => True
  | .handleConfigurationGetCommand _, .configuration _ => True
  | _, _ => False

variable {P : Persistence} {cfg : Config} {c : Command} {pair : Str × Str}

/-- From `s` to `t` an item of the command is put under the names. -/
def Records (c : Command) (pair : Str × Str) (s t : DataState P) : Prop :=
  ∃ u, t.trace = s.trace ++ u ∧ ∃ x, .added pair.1 pair.2 x ∈ u ∧ IsItemOf pair.2 c x

namespace Records

variable {s t u : DataState P} {env : Environment} {allowed : Effect → Prop}

theorem trans_left (hm : Moves env allowed s t) (h : Records c pair t u) : Records c pair s u := by
  obtain ⟨v, ht, -⟩ := hm.trace_eq
  obtain ⟨w, hu, x, hmem, hx⟩ := h
  exact ⟨v ++ w, by rw [hu, ht, List.append_assoc], x, List.mem_append_right _ hmem, hx⟩

theorem trans_right (h : Records c pair s t) (hm : Moves env allowed t u) :
    Records c pair s u := by
  obtain ⟨v, ht, x, hmem, hx⟩ := h
  obtain ⟨w, hu, -⟩ := hm.trace_eq
  exact ⟨v ++ w, by rw [hu, ht, List.append_assoc], x, List.mem_append_left _ hmem, hx⟩

theorem added {x : Item} (ht : t.trace = s.trace ++ [.added pair.1 pair.2 x])
    (hx : IsItemOf pair.2 c x) : Records c pair s t :=
  ⟨_, ht, x, List.mem_singleton_self _, hx⟩

theorem foldl {α : Type} {f : DataState P → α → DataState P} {l : List α} {a : α} (ha : a ∈ l)
    (hm : ∀ b s, Moves env allowed s (f s b)) (h : ∀ s, Records c pair s (f s a))
    (s : DataState P) : Records c pair s (l.foldl f s) := by
  obtain ⟨before, after, rfl⟩ := List.append_of_mem ha
  rw [List.foldl_append, List.foldl_cons]
  have hbefore : Moves env allowed s (before.foldl f s) := .foldl before (fun b _ s => hm b s) s
  exact trans_left hbefore ((h _).trans_right (.foldl after (fun b _ s => hm b s) _))

end Records

theorem refreshActuatorStatus_records {key reference : Str}
    (hc : ∀ value state, IsItemOf reference c (.actuatorStatus ⟨value, reference, state⟩))
    (s : DataState P) :
    Records c (key, reference) s (refreshActuatorStatus cfg key reference s) := by
  unfold refreshActuatorStatus
  split
  · rename_i provider _
    have hlog : Moves cfg.env (fun _ => True) s (s.log (.actuatorStatusProvided provider key
        reference (cfg.env.actuatorStatus provider s.trace key reference))) :=
      log_moves _ _ trivial trivial
    exact .trans_left hlog (.added rfl (hc _ _))
  · exact .added rfl (hc _ _)

theorem refreshConfiguration_records {key : Str}
    (hc : ∀ configuration, IsItemOf [] c (.configuration configuration)) (s : DataState P) :
    Records c (key, []) s (refreshConfiguration cfg key s) := by
  unfold refreshConfiguration
  split
  · rename_i provider _
    have hlog : Moves cfg.env (fun _ => True) s (s.log (.configurationProvided provider key
        (cfg.env.configuration provider s.trace key))) := log_moves _ _ trivial trivial
    exact .trans_left hlog (.added rfl (hc _))
  · exact .added rfl (hc _)

/-- A broadcast visits every actuator of every device. -/
theorem runActuatorGet_broadcast_records {devices : Registry}
    (h : pair ∈ adds devices (.handleActuatorGetCommand [] [])) (s : DataState P) :
    Records (.handleActuatorGetCommand [] []) pair s (runActuatorGet cfg devices [] [] s) := by
  simp only [adds, List.isEmpty_nil, Bool.and_self, if_true, List.mem_flatMap,
    List.mem_map] at h
  obtain ⟨kvp, hkvp, reference, hr, rfl⟩ := h
  have hrefresh : ∀ key reference (s : DataState P), Moves cfg.env (fun _ => True) s
      (refreshActuatorStatus cfg key reference s) :=
    fun key reference s => refreshActuatorStatus_moves key reference s (fun _ _ => trivial)
      fun _ => trivial
  have hdevice : ∀ device (s : DataState P), Moves cfg.env (fun _ => True) s
      (refreshDevice cfg device s) := by
    intro device s
    have hloop : Moves cfg.env (fun _ => True) s (device.getActuatorReferences.foldl
        (fun s reference => refreshActuatorStatus cfg device.key reference s) s) :=
      .foldl _ (fun reference _ s => hrefresh device.key reference s) s
    exact hloop.trans ((publishActuatorStatuses_moves _).mono fun _ _ => trivial)
  simp only [runActuatorGet, List.isEmpty_nil, Bool.and_self, if_true]
  refine .foldl hkvp (fun kvp s => hdevice kvp.2 s) (fun s => ?_) s
  refine .trans_right ?_ (publishActuatorStatuses_moves _)
  refine .foldl hr (fun reference s => hrefresh kvp.2.key reference s) (fun s => ?_) s
  apply refreshActuatorStatus_records
  intro _ _
  rfl

theorem mem_of_checked {α : Type} {check : Bool} {a b : α} (h : a ∈ if check then [b] else []) :
    check = true ∧ a = b := by
  split_ifs at h with hcheck
  · exact ⟨hcheck, List.mem_singleton.mp h⟩
  · cases h

theorem runActuatorSet_records {devices : Registry} {d r value : Str}
    (h : pair ∈ adds devices (.handleActuatorSetCommand d r value)) (s : DataState P) :
    Records (.handleActuatorSetCommand d r value) pair s
      (runActuatorSet cfg devices d r value s) := by
  obtain ⟨hcheck, rfl⟩ := mem_of_checked h
  obtain ⟨hd, hr⟩ := Bool.and_eq_true_iff.mp hcheck
  simp only [runActuatorSet, hd, hr, Bool.not_true, Bool.false_eq_true, if_false]
  refine .trans_right ?_ (publishActuatorStatuses_moves _)
  split
  · rename_i handler _
    have hlog : Moves cfg.env (fun _ => True) s (s.log (.actuationHandled handler d r value)) :=
      log_moves _ _ trivial trivial
    refine .trans_left hlog (refreshActuatorStatus_records ?_ _)
    intro _ _
    rfl
  · apply refreshActuatorStatus_records
    intro _ _
    rfl

theorem runConfigurationSet_records {devices : Registry} {d : Str}
    {configuration : List ConfigurationItem}
    (h : pair ∈ adds devices (.handleConfigurationSetCommand d configuration)) (s : DataState P) :
    Records (.handleConfigurationSetCommand d configuration) pair s
      (runConfigurationSet cfg devices d configuration s) := by
  obtain ⟨hcheck, rfl⟩ := mem_of_checked h
  obtain ⟨hd, hall⟩ := Bool.and_eq_true_iff.mp hcheck
  have hany : (configuration.any fun item =>
      !configurationItemDefinedForDevice devices d item.reference) = false := by
    simpa using hall
  simp only [runConfigurationSet, hd, hany, Bool.not_true, Bool.false_eq_true, if_false]
  refine .trans_right ?_ (publishConfiguration_moves _)
  split
  · rename_i handler _
    have hlog : Moves cfg.env (fun _ => True) s
        (s.log (.configurationHandled handler d configuration)) := log_moves _ _ trivial trivial
    refine .trans_left hlog (refreshConfiguration_records ?_ _)
    intro _
    trivial
  · apply refreshConfiguration_records
    intro _
    trivial

/-- A command that passes its checks makes its puts. -/
theorem execute_records (cfg : Config) {devices : Registry} (h : pair ∈ adds devices c) (now : ℕ)
    (s : DataState P) : Records c pair s (execute cfg devices now s c).data := by
  cases c with
  | addSensorReading d r values rtc =>
    obtain ⟨hcheck, rfl⟩ := mem_of_checked h
    obtain ⟨hd, hr⟩ := Bool.and_eq_true_iff.mp hcheck
    simp only [execute, runAddSensorReading, hd, hr, Bool.not_true, Bool.false_eq_true, if_false]
    exact .added rfl ⟨rfl, rfl, fun hrtc => if_pos hrtc⟩
  | addAlarm d r active rtc =>
    obtain ⟨hcheck, rfl⟩ := mem_of_checked h
    obtain ⟨hd, hr⟩ := Bool.and_eq_true_iff.mp hcheck
    simp only [execute, runAddAlarm, hd, hr, Bool.not_true, Bool.false_eq_true, if_false]
    exact .added rfl rfl
  | publishActuatorStatus d r value =>
    rw [List.mem_singleton.mp h]
    have hadded : Records (.publishActuatorStatus d r value) (d, r) s
        (addActuatorStatus d r value .ready s) := .added rfl rfl
    exact hadded.trans_right (publishActuatorStatusesOf_moves d _)
  | publishConfiguration d configurations =>
    rw [List.mem_singleton.mp h]
    have hadded : Records (.publishConfiguration d configurations) (d, []) s
        (addConfiguration d configurations s) := .added rfl rfl
    exact hadded.trans_right (publishConfiguration_moves _)
  | handleActuatorSetCommand d r value => exact runActuatorSet_records h s
  | handleActuatorGetCommand d r =>
    by_cases he : d.isEmpty && r.isEmpty
    · obtain ⟨rfl, rfl⟩ : d = [] ∧ r = [] := by simpa [List.isEmpty_iff] using he
      exact runActuatorGet_broadcast_records h s
    simp only [adds, if_neg he] at h
    obtain ⟨hcheck, rfl⟩ := mem_of_checked h
    obtain ⟨hd, hr⟩ := Bool.and_eq_true_iff.mp hcheck
    simp only [execute, runActuatorGet, he, hd, hr, Bool.not_true, Bool.false_eq_true, if_false]
    refine .trans_right ?_ (publishActuatorStatuses_moves _)
    apply refreshActuatorStatus_records
    intro _ _
    rfl
  | handleConfigurationSetCommand d configuration => exact runConfigurationSet_records h s
  | handleConfigurationGetCommand d =>
    obtain ⟨hd, rfl⟩ := mem_of_checked h
    simp only [execute, runConfigurationGet, hd, Bool.not_true, Bool.false_eq_true, if_false]
    refine .trans_right ?_ (publishConfiguration_moves _)
    apply refreshConfiguration_records
    intro _
    trivial
  | _ => cases h

/-- In the trace of a run the puts of a command stand behind its start, with no other start
between. -/
theorem puts_recorded (cfg : Config) (events : List Event) :
    ∀ before c devices after,
      (reach cfg P events).trace = before ++ Effect.began c devices :: after →
      ∀ pair ∈ adds devices c, ∃ pre x post, after = pre ++ Effect.added pair.1 pair.2 x :: post ∧
        started pre = [] ∧ IsItemOf pair.2 c x := by
  refine behind_starts ?_ ?_ events
  · intro before c devices after u h pair hpair
    obtain ⟨pre, x, post, rfl, hpre⟩ := h pair hpair
    exact ⟨pre, x, post ++ u, by simp, hpre⟩
  · intro s c queue u hnone hu pair hpair
    obtain ⟨v, hv, x, hmem, hx⟩ := execute_records cfg hpair s.clock
      (s.data.log (.began c s.devices))
    have hrun : (beginCommand cfg c queue s).trace =
        s.trace ++ [Effect.began c s.devices] ++ v := hv
    rw [hrun, List.append_assoc, List.singleton_append] at hu
    obtain ⟨-, rfl⟩ := List.cons.inj (List.append_cancel_left hu)
    obtain ⟨pre, post, rfl⟩ := List.append_of_mem hmem
    refine ⟨pre, x, post, rfl, List.filterMap_eq_nil_iff.mpr fun e he => ?_, hx⟩
    exact hnone e (List.mem_append_left _ he)

end WolkGateway.Wolk
