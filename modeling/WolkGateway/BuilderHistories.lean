import WolkGateway.BuilderMembers
import WolkGateway.GuardedRuns
import WolkGateway.LastWrites
import WolkGateway.Transcripts

/-!
# What a builder builds, after any calls

After any calls the builder holds each callback as it was set last. A `build` returns if
all it asks for is set, and the two configuration callbacks, if they are set, in the same
form. What it moves into the Wolk is gone from the builder until it is set again.
-/

namespace WolkGateway.Wolk
open DeviceModel DataService GuardedRuns LastWrites Transcripts WolkBuilder

/-- What is set in one of two forms. -/
inductive Role
  | actuationHandler | actuatorStatusProvider | configurationHandler | configurationProvider
  | deviceStatusProvider | registrationResponseHandler | platformStatusListener
  deriving DecidableEq

/-- What a call sets, and in which form; the handler of registration responses has one. -/
def BuilderCall.setting : BuilderCall → Option (Role × Form)
  | .actuationHandler handler => some (.actuationHandler, handler)
  | .actuatorStatusProvider provider => some (.actuatorStatusProvider, provider)
  | .configurationHandler handler => some (.configurationHandler, handler)
  | .configurationProvider provider => some (.configurationProvider, provider)
  | .deviceStatusProvider provider => some (.deviceStatusProvider, provider)
  | .withRegistrationResponseHandler handler =>
    some (.registrationResponseHandler, .lambda handler)
  | .withPlatformStatusListener listener => some (.platformStatusListener, listener)
  | _ => none

def BuilderCall.sets (role : Role) (call : BuilderCall) : Option Form :=
  call.setting.bind fun p => if p.1 = role then some p.2 else none

def lastSet (role : Role) (calls : List BuilderCall) : Option Form :=
  lastAt role (calls.filterMap BuilderCall.setting)

/-- All that `build` asks for is set, in one form or the other. -/
structure Complete (calls : List BuilderCall) : Prop where
  actuationHandler : (lastSet .actuationHandler calls).isSome = true
  actuatorStatusProvider : (lastSet .actuatorStatusProvider calls).isSome = true
  deviceStatusProvider : (lastSet .deviceStatusProvider calls).isSome = true
  configuration : (lastSet .configurationHandler calls).isSome =
    (lastSet .configurationProvider calls).isSome

/-- The two configuration callbacks, if both are set, are set in the same form. -/
def SameForm (calls : List BuilderCall) : Prop :=
  ∀ handler provider, lastSet .configurationHandler calls = some handler →
    lastSet .configurationProvider calls = some provider → handler.isLambda = provider.isLambda

def BuilderCall.givesPersistence : BuilderCall → Bool
  | .withPersistence _ => true
  | _ => false

def BuilderCall.givesPlatformStatusListener : BuilderCall → Bool
  | .withPlatformStatusListener _ => true
  | _ => false

/-- An earlier `build` has returned, and since then no call has given again what it moved out
of the builder. -/
def GivenAway (gives : BuilderCall → Bool) (calls : List BuilderCall) : Prop :=
  ∃ before after, calls = before ++ BuilderCall.build :: after ∧ Complete before ∧ SameForm before ∧
    ∀ call ∈ after, gives call = false

def WolkBuilder.Members.callback (m : Members) : Role → Callback
  | .actuationHandler => m.callbacks.actuationHandler
  | .actuatorStatusProvider => m.callbacks.actuatorStatusProvider
  | .configurationHandler => m.callbacks.configurationHandler
  | .configurationProvider => m.callbacks.configurationProvider
  | .deviceStatusProvider => m.callbacks.deviceStatusProvider
  | .registrationResponseHandler => ⟨none, m.callbacks.registrationResponseHandler⟩
  | .platformStatusListener => m.platformStatus

def WolkBuilder.Built.uses (wolk : Built) : Role → Option Form
  | .actuationHandler => wolk.config.callbacks.actuationHandler.used
  | .actuatorStatusProvider => wolk.config.callbacks.actuatorStatusProvider.used
  | .configurationHandler => wolk.config.callbacks.configurationHandler.used
  | .configurationProvider => wolk.config.callbacks.configurationProvider.used
  | .deviceStatusProvider => wolk.config.callbacks.deviceStatusProvider.used
  | .registrationResponseHandler =>
    wolk.config.callbacks.registrationResponseHandler.map .lambda
  | .platformStatusListener => wolk.platformStatus

variable {core : CoreLibrary} {env : Environment} {calls : List BuilderCall} {m : Members}

def builderAfter (core : CoreLibrary) (env : Environment) (calls : List BuilderCall) : Members :=
  run (Members.perform core env) .initial calls

/-- A `build` after the calls does what it should. -/
structure BuildsAsSet (core : CoreLibrary) (env : Environment) (calls : List BuilderCall) :
    Prop where
  returns : (∃ wolk, ((builderAfter core env calls).build core env).1 = .ok wolk) ↔ Complete calls
  throws : ∀ text, ((builderAfter core env calls).build core env).1 = .error text →
    ((builderAfter core env calls).build core env).2 = builderAfter core env calls
  oneForm : ∀ role, ((builderAfter core env calls).callback role).object = none ∨
    ((builderAfter core env calls).callback role).lambda = none
  usesLast : ∀ wolk, ((builderAfter core env calls).build core env).1 = .ok wolk →
    ∀ role, wolk.uses role = lastSet role calls
  hasPersistence : ∀ wolk, ((builderAfter core env calls).build core env).1 = .ok wolk →
    wolk.persistence.isSome = true

theorem lastSet_snoc (role : Role) (calls : List BuilderCall) (call : BuilderCall) :
    lastSet role (calls ++ [call]) = (call.sets role).or (lastSet role calls) := by
  rw [lastSet, List.filterMap_append, lastAt_append, BuilderCall.sets]
  cases h : call.setting <;> simp [h, lastAt, lastSet]

theorem not_givenAway_nil (gives : BuilderCall → Bool) : ¬ GivenAway gives [] := by
  rintro ⟨before, after, heq, -⟩
  simp at heq

theorem givenAway_snoc {gives : BuilderCall → Bool} {call : BuilderCall} :
    GivenAway gives (calls ++ [call]) ↔
      (call = .build ∧ Complete calls ∧ SameForm calls) ∨
        (GivenAway gives calls ∧ gives call = false) := by
  constructor
  · rintro ⟨before, after, heq, hc, hs, hall⟩
    rcases split_snoc heq with ⟨after', rfl, rfl⟩ | ⟨rfl, rfl, rfl⟩
    · refine .inr ⟨⟨before, after', rfl, hc, hs, fun x hx => ?_⟩, ?_⟩
      · exact hall x (List.mem_append_left _ hx)
      · exact hall call (List.mem_append_right _ (List.mem_singleton_self _))
    · exact .inl ⟨rfl, hc, hs⟩
  · rintro (⟨rfl, hc, hs⟩ | ⟨⟨before, after, rfl, hc, hs, hall⟩, hcall⟩)
    · exact ⟨calls, [], rfl, hc, hs, by simp⟩
    · refine ⟨before, after ++ [call], by simp, hc, hs, fun x hx => ?_⟩
      rcases List.mem_append.mp hx with hx | hx
      · exact hall x hx
      · rw [List.mem_singleton.mp hx]
        exact hcall

theorem checks_iff {builder : WolkBuilder} :
    (∃ config, builder.build core env = .ok config) ↔
      builder.callbacks.actuationHandler.unset = false ∧
      builder.callbacks.actuatorStatusProvider.unset = false ∧
      builder.callbacks.deviceStatusProvider.unset = false ∧
      unpaired builder.callbacks.configurationHandler.lambda
        builder.callbacks.configurationProvider.lambda = false ∧
      unpaired builder.callbacks.configurationHandler.object
        builder.callbacks.configurationProvider.object = false ∧
      builder.firmwareInstaller = builder.firmwareVersionProvider := by
  rw [WolkBuilder.build]
  split_ifs <;> simp_all

theorem callbacks_of_build {builder : WolkBuilder} {config : Config}
    (h : builder.build core env = .ok config) : config.callbacks = builder.callbacks := by
  simp only [WolkBuilder.build] at h
  split_ifs at h
  rw [← Except.ok.inj h]

/-- A `build` throws and leaves the builder alone, or returns and takes its share. -/
theorem build_cases (m : Members) (core : CoreLibrary) (env : Environment) :
    (∃ text, m.checked.build core env = .error text ∧ m.build core env = (.error text, m)) ∨
    ∃ config, m.checked.build core env = .ok config ∧ m.build core env =
      (.ok ⟨config, m.persistence, m.uri, m.firmwareInstaller.map (·, m.firmwareVersionProvider),
        m.platformStatus.used⟩,
       { m with persistence := none, platformStatus := m.platformStatus.moveOut }) := by
  cases h : m.checked.build core env with
  | error text => exact .inl ⟨text, rfl, by rw [Members.build, h]⟩
  | ok config => exact .inr ⟨config, rfl, by rw [Members.build, h]⟩

theorem build_callback {role : Role} (hrole : role ≠ .platformStatusListener) :
    (m.build core env).2.callback role = m.callback role := by
  rcases build_cases m core env with ⟨text, -, h⟩ | ⟨config, -, h⟩ <;> rw [h]
  cases role with
  | platformStatusListener => exact absurd rfl hrole
  | _ => rfl

theorem perform_callback {call : BuilderCall} (hcall : call ≠ .build) (role : Role) :
    (m.perform core env call).callback role =
      match call.sets role with
      | some form => (m.callback role).set form.overload
      | none => m.callback role := by
  cases call with
  | build => exact absurd rfl hcall
  | _ => cases role <;> rfl

theorem perform_holding {call : BuilderCall} (hcall : call ≠ .build) {role : Role}
    {form : Option Form} (h : m.callback role = .holding form) :
    (m.perform core env call).callback role = .holding ((call.sets role).or form) := by
  rw [perform_callback hcall]
  cases call.sets role with
  | none => exact h
  | some given => exact Callback.set_overload _ _

/-- The builder holds what was set last, but for what it has given away. -/
structure Follows (calls : List BuilderCall) (m : Members) : Prop where
  callback : ∀ role, role ≠ .platformStatusListener →
    m.callback role = .holding (lastSet role calls)
  firmware : m.firmwareInstaller.isSome = m.firmwareVersionProvider.isSome
  kept : ¬ GivenAway BuilderCall.givesPlatformStatusListener calls →
    m.platformStatus = .holding (lastSet .platformStatusListener calls)
  given : GivenAway BuilderCall.givesPlatformStatusListener calls → m.platformStatus = .holding none
  persistence : m.persistence.isSome = true ↔ ¬ GivenAway BuilderCall.givesPersistence calls

/-- Two callbacks are not paired in each form unless both are set, in the same form, or
neither is. -/
theorem unpaired_holding (handler provider : Option Form) :
    (unpaired (Callback.holding handler).lambda (Callback.holding provider).lambda = false ∧
      unpaired (Callback.holding handler).object (Callback.holding provider).object = false) ↔
    handler.isSome = provider.isSome ∧
      ∀ f g, handler = some f → provider = some g → f.isLambda = g.isLambda := by
  obtain _ | _ | _ := handler <;> obtain _ | _ | _ := provider <;>
    simp [Callback.holding, unpaired, Form.isLambda]

/-- A `build` returns exactly when all it asks for is set, and the two configuration callbacks
in the same form. -/
theorem Follows.returns_iff (h : Follows calls m) (core : CoreLibrary) (env : Environment) :
    (∃ config, m.checked.build core env = .ok config) ↔ Complete calls ∧ SameForm calls := by
  have hactuation : m.callbacks.actuationHandler = .holding (lastSet .actuationHandler calls) :=
    h.callback .actuationHandler (by decide)
  have hactuator : m.callbacks.actuatorStatusProvider =
      .holding (lastSet .actuatorStatusProvider calls) :=
    h.callback .actuatorStatusProvider (by decide)
  have hdevice : m.callbacks.deviceStatusProvider =
      .holding (lastSet .deviceStatusProvider calls) :=
    h.callback .deviceStatusProvider (by decide)
  have hhandler : m.callbacks.configurationHandler =
      .holding (lastSet .configurationHandler calls) :=
    h.callback .configurationHandler (by decide)
  have hprovider : m.callbacks.configurationProvider =
      .holding (lastSet .configurationProvider calls) :=
    h.callback .configurationProvider (by decide)
  rw [checks_iff]
  simp only [Members.checked, hactuation, hactuator, hdevice, hhandler, hprovider,
    Callback.unset_holding, h.firmware, and_true]
  rw [unpaired_holding]
  simp only [Option.isNone_eq_false_iff]
  constructor
  · rintro ⟨h1, h2, h3, h4, h5⟩
    exact ⟨⟨h1, h2, h3, h4⟩, h5⟩
  · rintro ⟨⟨h1, h2, h3, h4⟩, h5⟩
    exact ⟨h1, h2, h3, h4, h5⟩

theorem follows_initial : Follows [] .initial where
  callback role hrole := by cases role <;> rfl
  firmware := rfl
  kept _ := rfl
  given h := absurd h (not_givenAway_nil _)
  persistence := iff_of_true rfl (not_givenAway_nil _)

theorem sets_platformStatusListener (call : BuilderCall) :
    (call.sets .platformStatusListener).isSome = call.givesPlatformStatusListener := by
  cases call <;> rfl

theorem sets_build (role : Role) : BuilderCall.build.sets role = none := rfl

theorem Follows.holds (h : Follows calls m) (role : Role) :
    ∃ form, m.callback role = .holding form := by
  by_cases hrole : role = .platformStatusListener
  · rw [hrole]
    by_cases hgiven : GivenAway BuilderCall.givesPlatformStatusListener calls
    · exact ⟨none, h.given hgiven⟩
    · exact ⟨_, h.kept hgiven⟩
  · exact ⟨_, h.callback role hrole⟩

theorem follows_set {call : BuilderCall} (h : Follows calls m) (hcall : call ≠ .build) :
    Follows (calls ++ [call]) (m.perform core env call) := by
  have haway : ∀ gives : BuilderCall → Bool, GivenAway gives (calls ++ [call]) ↔
      GivenAway gives calls ∧ gives call = false := by
    intro gives
    rw [givenAway_snoc]
    simp [hcall]
  obtain ⟨form, hform⟩ := h.holds .platformStatusListener
  have hset : (m.perform core env call).platformStatus =
      .holding ((call.sets .platformStatusListener).or form) := perform_holding hcall hform
  have hsets := sets_platformStatusListener call
  refine ⟨fun role hrole => ?_, ?_, fun hkept => ?_, fun hgiven => ?_, ?_⟩
  · rw [lastSet_snoc]
    exact perform_holding hcall (h.callback role hrole)
  · cases call with
    | build => exact absurd rfl hcall
    | withFirmwareUpdate => rfl
    | _ => exact h.firmware
  · rw [haway] at hkept
    rw [hset, lastSet_snoc]
    cases hnew : call.sets .platformStatusListener with
    | some given => rfl
    | none =>
      have hnone : call.givesPlatformStatusListener = false := by rw [← hsets, hnew]; rfl
      have hold := h.kept fun hgiven => hkept ⟨hgiven, hnone⟩
      exact hform.symm.trans hold
  · rw [haway] at hgiven
    rw [hgiven.2, Option.isSome_eq_false_iff, Option.isNone_iff_eq_none] at hsets
    rw [hset, hsets]
    exact hform.symm.trans (h.given hgiven.1)
  · rw [haway]
    cases call with
    | build => exact absurd rfl hcall
    | withPersistence persistence =>
      exact iff_of_true rfl fun hgiven => Bool.noConfusion hgiven.2
    | _ => exact h.persistence.trans (not_congr (and_iff_left rfl).symm)

theorem follows_build (h : Follows calls m) :
    Follows (calls ++ [BuilderCall.build]) (m.perform core env .build) := by
  have hlast : ∀ role, lastSet role (calls ++ [BuilderCall.build]) = lastSet role calls := by
    intro role
    rw [lastSet_snoc, sets_build]
    rfl
  have hcallback : ∀ role, role ≠ .platformStatusListener →
      (m.perform core env .build).callback role =
        .holding (lastSet role (calls ++ [BuilderCall.build])) := by
    intro role hrole
    rw [hlast]
    exact (build_callback hrole).trans (h.callback role hrole)
  rcases build_cases m core env with ⟨text, hbuild, hm⟩ | ⟨config, hbuild, hm⟩
  · have hnot : ¬ (Complete calls ∧ SameForm calls) := by
      rw [← h.returns_iff core env, hbuild]
      simp
    have haway : ∀ gives : BuilderCall → Bool, gives .build = false →
        (GivenAway gives (calls ++ [BuilderCall.build]) ↔ GivenAway gives calls) := by
      intro gives hgives
      rw [givenAway_snoc, hgives]
      simp [hnot]
    have hsame : m.perform core env .build = m := congrArg Prod.snd hm
    refine ⟨hcallback, ?_, ?_, ?_, ?_⟩
    · rw [hsame]
      exact h.firmware
    · rw [hsame, haway _ rfl, hlast]
      exact h.kept
    · rw [hsame, haway _ rfl]
      exact h.given
    · rw [hsame, haway _ rfl]
      exact h.persistence
  · have hreturns : Complete calls ∧ SameForm calls := (h.returns_iff core env).mp ⟨config, hbuild⟩
    have haway : ∀ gives : BuilderCall → Bool, GivenAway gives (calls ++ [BuilderCall.build]) :=
      fun gives => givenAway_snoc.mpr (.inl ⟨rfl, hreturns⟩)
    have htaken : m.perform core env .build =
        { m with persistence := none, platformStatus := m.platformStatus.moveOut } :=
      congrArg Prod.snd hm
    refine ⟨hcallback, ?_, fun hkept => absurd (haway _) hkept, fun _ => ?_, ?_⟩
    · rw [htaken]
      exact h.firmware
    · obtain ⟨form, hform⟩ := h.holds .platformStatusListener
      have hheld : m.platformStatus = .holding form := hform
      rw [htaken]
      simp only [hheld, Callback.moveOut_holding]
    · rw [htaken]
      exact iff_of_false Bool.false_ne_true (not_not_intro (haway _))

theorem follows_run (core : CoreLibrary) (env : Environment) (calls : List BuilderCall) :
    Follows calls (builderAfter core env calls) := by
  induction calls using List.reverseRecOn with
  | nil => exact follows_initial
  | append_singleton calls call ih =>
    rw [builderAfter, run_append]
    by_cases hcall : call = .build
    · rw [hcall]
      exact follows_build ih
    · exact follows_set ih hcall

/-- The commands of a Wolk call what was set last. -/
theorem Follows.selected (h : Follows calls m) {role : Role}
    (hrole : role ≠ .platformStatusListener) :
    (m.callback role).selected = (lastSet role calls).map Form.id := by
  rw [Callback.selected_eq, h.callback role hrole, Callback.used_holding]

theorem Follows.built (h : Follows calls m) {wolk : Built}
    (hok : (m.build core env).1 = .ok wolk) :
    Complete calls ∧ SameForm calls ∧ wolk.persistence = m.persistence ∧
      wolk.uses .platformStatusListener = m.platformStatus.used ∧
      ∀ role, role ≠ .platformStatusListener → wolk.uses role = lastSet role calls := by
  rcases build_cases m core env with ⟨text, -, hm⟩ | ⟨config, hbuild, hm⟩
  · rw [hm] at hok
    cases hok
  · obtain ⟨hcomplete, hform⟩ := (h.returns_iff core env).mp ⟨config, hbuild⟩
    rw [hm] at hok
    obtain rfl := Except.ok.inj hok
    refine ⟨hcomplete, hform, rfl, rfl, fun role hrole => ?_⟩
    have hcallbacks : config.callbacks = m.callbacks := callbacks_of_build hbuild
    have hused : (m.callback role).used = lastSet role calls := by
      rw [h.callback role hrole, Callback.used_holding]
    rw [← hused]
    cases role with
    | platformStatusListener => exact absurd rfl hrole
    | registrationResponseHandler =>
      simp only [Built.uses, Members.callback, hcallbacks]
      rfl
    | _ => simp only [Built.uses, Members.callback, hcallbacks]

/-- A `build` does what it should if and only if, where all it asks for is set, the two
configuration callbacks are set in the same form, and the persistence and the platform status
listener have not been given away. -/
theorem builds_as_set_iff (core : CoreLibrary) (env : Environment) (calls : List BuilderCall) :
    BuildsAsSet core env calls ↔
      (Complete calls → SameForm calls ∧ ¬ GivenAway BuilderCall.givesPersistence calls ∧
        ((lastSet .platformStatusListener calls).isSome = true →
          ¬ GivenAway BuilderCall.givesPlatformStatusListener calls)) := by
  have hfollows := follows_run core env calls
  constructor
  · intro h hcomplete
    obtain ⟨wolk, hok⟩ := h.returns.mpr hcomplete
    obtain ⟨-, hform, hpersistence, hlistener, -⟩ := hfollows.built hok
    refine ⟨hform, ?_, fun hset hgiven => ?_⟩
    · rw [← hfollows.persistence, ← hpersistence]
      exact h.hasPersistence wolk hok
    · have hlast := h.usesLast wolk hok .platformStatusListener
      rw [hlistener, hfollows.given hgiven, Callback.used_holding] at hlast
      rw [← hlast] at hset
      cases hset
  · intro h
    refine ⟨⟨?_, fun hcomplete => ?_⟩, fun text herror => ?_, fun role => ?_, ?_, ?_⟩
    · rintro ⟨wolk, hok⟩
      exact (hfollows.built hok).1
    · obtain ⟨config, hbuild⟩ := (hfollows.returns_iff core env).mpr
        ⟨hcomplete, (h hcomplete).1⟩
      rcases build_cases (builderAfter core env calls) core env with
        ⟨text, herror, -⟩ | ⟨_, -, hm⟩
      · rw [hbuild] at herror
        cases herror
      · exact ⟨_, congrArg Prod.fst hm⟩
    · rcases build_cases (builderAfter core env calls) core env with ⟨_, -, hm⟩ | ⟨_, -, hm⟩
      · exact congrArg Prod.snd hm
      · rw [hm] at herror
        cases herror
    · obtain ⟨form, hform⟩ := hfollows.holds role
      rw [hform]
      exact Callback.holding_exclusive form
    · intro wolk hok role
      obtain ⟨hcomplete, -, -, hlistener, huses⟩ := hfollows.built hok
      by_cases hrole : role = .platformStatusListener
      · rw [hrole, hlistener]
        by_cases hgiven : GivenAway BuilderCall.givesPlatformStatusListener calls
        · have hnone : lastSet .platformStatusListener calls = none := by
            rw [← Option.not_isSome_iff_eq_none]
            exact fun hset => (h hcomplete).2.2 hset hgiven
          rw [hfollows.given hgiven, hnone, Callback.used_holding]
        · rw [hfollows.kept hgiven, Callback.used_holding]
      · exact huses role hrole
    · intro wolk hok
      obtain ⟨hcomplete, -, hpersistence, -⟩ := hfollows.built hok
      rw [hpersistence, hfollows.persistence]
      exact (h hcomplete).2.1

def bareCalls : List BuilderCall :=
  [.actuationHandler (.lambda 1), .actuatorStatusProvider (.lambda 2),
    .deviceStatusProvider (.lambda 3)]

def mixedCalls : List BuilderCall :=
  .configurationHandler (.lambda 4) :: .configurationProvider (.object 5) :: bareCalls

def builtCalls : List BuilderCall := bareCalls ++ [BuilderCall.build]

/-- With a lambda and an object for configurations `build` says that both must be set; and the
second of two builds returns a Wolk without persistence. -/
theorem not_builds_as_set :
    (Complete mixedCalls ∧
      ((builderAfter .silent .obliging mixedCalls).build .silent .obliging).1 =
        .error "Both ConfigurationProvider and ConfigurationHandler must be set.") ∧
    (∃ wolk, ((builderAfter .silent .obliging builtCalls).build .silent .obliging).1 = .ok wolk ∧
      wolk.persistence.isNone = true) ∧
    ¬ BuildsAsSet .silent .obliging mixedCalls ∧ ¬ BuildsAsSet .silent .obliging builtCalls := by
  have hcomplete : Complete mixedCalls := ⟨rfl, rfl, rfl, rfl⟩
  have herror : ((builderAfter .silent .obliging mixedCalls).build .silent .obliging).1 =
      .error "Both ConfigurationProvider and ConfigurationHandler must be set." := rfl
  have hagain : ∃ wolk, ((builderAfter .silent .obliging builtCalls).build .silent
      .obliging).1 = .ok wolk ∧ wolk.persistence.isNone = true := ⟨_, rfl, rfl⟩
  refine ⟨⟨hcomplete, herror⟩, hagain, fun h => ?_, fun h => ?_⟩
  · obtain ⟨wolk, hok⟩ := h.returns.mpr hcomplete
    rw [herror] at hok
    cases hok
  · obtain ⟨wolk, hok, hnone⟩ := hagain
    have hsome := h.hasPersistence wolk hok
    rw [Option.isNone_iff_eq_none] at hnone
    rw [hnone] at hsome
    cases hsome

end WolkGateway.Wolk
