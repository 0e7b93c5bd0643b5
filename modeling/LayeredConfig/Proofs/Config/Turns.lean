import LayeredConfig.Config.Calls
import LayeredConfig.Proofs.Options.Refusals

/-! # What a call does to a configuration

A call takes one of few steps: it compiles, fails to, applies options, refuses them, or only reads.
What may change in a configuration, and when, is read off these steps. -/

namespace LayeredConfig

/-- What a configuration publishes of its last successful compile. -/
structure Published where
  tree : Option Tree := none
  records : List String := []
  compiledAt : Option Moment := none

def Config.published (config : Config) : Published :=
  ⟨config.tree, config.records, config.compiledAt⟩

/-- The result of a build that ends at a point in time, as it is published. -/
def Compiled.published (now : Moment) (compiled : Compiled) : Published :=
  ⟨some compiled.tree, compiled.records, some now⟩

/-- The name under which a call needs a compiled tree, if it does. -/
def Config.Call.operation? : Config.Call → Option String
  | .fetch _ => some "fetch"
  | .query .. => some "unmarshal"
  | .output _ => some "marshal"
  | .withOptions _ | .compile => none

theorem Config.withOptions_of_error {disk : Disk} {now : Moment} {config : Config}
    {options : List (Offered ConfigOption)} {fault : Fault}
    (h : config.settings.applyAll options = .error fault) :
    config.withOptions disk options now = (config, .fail fault) := by
  rw [withOptions, h]

theorem Config.withOptions_of_ok {disk : Disk} {now : Moment} {config : Config}
    {options : List (Offered ConfigOption)} {settings : ConfigSettings}
    (h : config.settings.applyAll options = .ok settings) :
    config.withOptions disk options now =
      if settings.autoCompile then compile disk { config with settings } now
      else ({ config with settings }, .pure ()) := by
  rw [withOptions, h]

/-! ## Turns -/

/-- A call, with the disk as it is then and the time at which it ends. -/
structure Turn where
  disk : Disk
  now : Moment
  call : Config.Call

namespace Turn

variable {turn : Turn} {config : Config}

/-- The configuration after a turn. -/
def after (turn : Turn) (config : Config) : Config :=
  (config.perform turn.disk turn.call turn.now).1

def answer (turn : Turn) (config : Config) : Except Fault Config.Answer :=
  (config.perform turn.disk turn.call turn.now).2.result

/-- The settings that a turn compiles: those in force when it is asked to compile, or those that
accepted options lead to and that want it. -/
def settings? (turn : Turn) (config : Config) : Option ConfigSettings :=
  match turn.call with
  | .compile => some config.settings
  | .withOptions options =>
    (config.settings.applyAll options).toOption.filter ConfigSettings.autoCompile
  | _ => none

/-- What a turn builds, if it compiles and that succeeds. -/
def success? (turn : Turn) (config : Config) : Option Compiled :=
  (turn.settings? config).bind fun settings => (settings.build turn.disk).result.toOption

/-! ## What is compiled -/

theorem settings?_of_ok {options : List (Offered ConfigOption)} {settings : ConfigSettings}
    (hcall : turn.call = .withOptions options)
    (happly : config.settings.applyAll options = .ok settings) :
    turn.settings? config = if settings.autoCompile then some settings else none := by
  simp only [settings?, hcall, happly, Except.toOption]
  cases hauto : settings.autoCompile <;> simp [Option.filter, hauto]

theorem settings?_of_error {options : List (Offered ConfigOption)} {fault : Fault}
    (hcall : turn.call = .withOptions options)
    (happly : config.settings.applyAll options = .error fault) : turn.settings? config = none := by
  simp [settings?, hcall, happly, Except.toOption]

theorem settings?_of_reads {operation : String} (h : turn.call.operation? = some operation) :
    turn.settings? config = none := by
  rw [settings?]
  cases hcall : turn.call <;> simp_all [Config.Call.operation?]

/-- Settings are compiled on demand, or because accepted options lead to them. -/
theorem settings?_cases {settings : ConfigSettings} (h : turn.settings? config = some settings) :
    (turn.call = .compile ∧ config.settings = settings) ∨
      ∃ options, turn.call = .withOptions options := by
  rw [settings?] at h
  cases hcall : turn.call <;> simp_all

theorem success?_of_no_settings (h : turn.settings? config = none) :
    turn.success? config = none := by
  rw [success?, h]
  rfl

theorem success?_of_settings {settings : ConfigSettings}
    (h : turn.settings? config = some settings) :
    turn.success? config = (settings.build turn.disk).result.toOption := by
  rw [success?, h]
  rfl

/-! ## Steps -/

/-- All that a turn can do. -/
inductive Step (turn : Turn) (config : Config) : Config → Except Fault Config.Answer → Prop where
  | compiles {settings : ConfigSettings} {compiled : Compiled}
      (hsettings : turn.settings? config = some settings)
      (hbuild : (settings.build turn.disk).result = .ok compiled) :
      Step turn config ⟨settings, some compiled.tree, compiled.records, some turn.now⟩ (.ok .done)
  | fails {settings : ConfigSettings} {fault : Fault}
      (hsettings : turn.settings? config = some settings)
      (hbuild : (settings.build turn.disk).result = .error fault) :
      Step turn config { config with settings } (.error fault)
  | applies {options : List (Offered ConfigOption)} {settings : ConfigSettings}
      (hcall : turn.call = .withOptions options)
      (happly : config.settings.applyAll options = .ok settings)
      (hauto : settings.autoCompile = false) :
      Step turn config { config with settings } (.ok .done)
  | refuses {options : List (Offered ConfigOption)} {fault : Fault}
      (hcall : turn.call = .withOptions options)
      (happly : config.settings.applyAll options = .error fault) :
      Step turn config config (.error fault)
  | reads {operation : String} (hcall : turn.call.operation? = some operation)
      (answer : Except Fault Config.Answer) : Step turn config config answer

/-- A compile is a step with the settings that it compiles. -/
theorem Step.of_compile {settings : ConfigSettings} (h : turn.settings? config = some settings) :
    Step turn config (Config.compile turn.disk { config with settings } turn.now).1
      ((Config.compile turn.disk { config with settings } turn.now).2.result.map fun _ => .done) := by
  cases hbuild : (settings.build turn.disk).result with
  | ok compiled =>
      simp only [Config.compile, hbuild]
      exact .compiles h hbuild
  | error fault =>
      simp only [Config.compile, hbuild]
      exact .fails h hbuild

/-- Every turn takes one of the steps. -/
theorem step (turn : Turn) (config : Config) :
    Step turn config (turn.after config) (turn.answer config) := by
  obtain ⟨disk, now, call⟩ := turn
  cases call with
  | compile =>
      simp only [after, answer, Config.perform, Traced.result_map]
      exact .of_compile rfl
  | withOptions options =>
      simp only [after, answer, Config.perform, Traced.result_map]
      cases happly : config.settings.applyAll options with
      | error fault =>
          rw [Config.withOptions_of_error happly]
          exact .refuses rfl happly
      | ok settings =>
          rw [Config.withOptions_of_ok happly]
          cases hauto : settings.autoCompile with
          | true =>
              apply Step.of_compile
              rw [settings?_of_ok rfl happly, hauto, if_pos rfl]
          | false => exact .applies rfl happly hauto
  | fetch key => exact .reads rfl _
  | query key type options => exact .reads rfl _
  | output options => exact .reads rfl _

/-! ## What a step changes -/

variable {next : Config} {answer : Except Fault Config.Answer}

/-- A success publishes the result of building the settings that are then in force. -/
theorem Step.of_success {compiled : Compiled} (h : Step turn config next answer)
    (hsuccess : turn.success? config = some compiled) :
    next.published = compiled.published turn.now ∧
      (next.settings.build turn.disk).result = .ok compiled ∧ answer = .ok .done := by
  cases h with
  | compiles hsettings hbuild =>
      rw [success?_of_settings hsettings, hbuild] at hsuccess
      cases hsuccess
      exact ⟨rfl, hbuild, rfl⟩
  | fails hsettings hbuild =>
      rw [success?_of_settings hsettings, hbuild] at hsuccess
      cases hsuccess
  | applies hcall happly hauto =>
      have hnone := settings?_of_ok hcall happly
      rw [hauto] at hnone
      rw [success?_of_no_settings hnone] at hsuccess
      cases hsuccess
  | refuses hcall happly =>
      rw [success?_of_no_settings (settings?_of_error hcall happly)] at hsuccess
      cases hsuccess
  | reads hcall =>
      rw [success?_of_no_settings (settings?_of_reads hcall)] at hsuccess
      cases hsuccess

/-- Without a success nothing is published. -/
theorem Step.of_no_success (h : Step turn config next answer)
    (hsuccess : turn.success? config = none) : next.published = config.published := by
  cases h with
  | compiles hsettings hbuild =>
      rw [success?_of_settings hsettings, hbuild] at hsuccess
      cases hsuccess
  | fails | applies | refuses | reads => rfl

/-- A call that fails publishes nothing. -/
theorem Step.of_error {fault : Fault} (h : Step turn config next (.error fault)) :
    next.published = config.published := by
  cases h with
  | fails | refuses | reads => rfl

/-- A compile that cannot build fails. -/
theorem Step.of_build_error {settings : ConfigSettings} {fault : Fault}
    (h : Step turn config next answer) (hsettings : turn.settings? config = some settings)
    (hbuild : (settings.build turn.disk).result = .error fault) : answer = .error fault := by
  cases h with
  | compiles hsettings' hbuild' =>
      cases hsettings.symm.trans hsettings'
      rw [hbuild] at hbuild'
      cases hbuild'
  | fails hsettings' hbuild' =>
      cases hsettings.symm.trans hsettings'
      exact congrArg _ (Except.error.inj (hbuild'.symm.trans hbuild))
  | applies hcall happly hauto =>
      rw [settings?_of_ok hcall happly, hauto] at hsettings
      cases hsettings
  | refuses hcall happly =>
      rw [settings?_of_error hcall happly] at hsettings
      cases hsettings
  | reads hcall =>
      rw [settings?_of_reads hcall] at hsettings
      cases hsettings

/-- Accepted options take effect, whatever comes of a compile that they ask for. -/
theorem Step.of_accepted {options : List (Offered ConfigOption)}
    (h : Step turn config next answer) (hcall : turn.call = .withOptions options)
    (haccepted : ConfigOption.refusalsAmong options = []) :
    config.settings.applyAll options = .ok next.settings := by
  obtain ⟨settings, happly⟩ : ∃ settings, config.settings.applyAll options = .ok settings := by
    have hsettles := ConfigSettings.settles_applyAll config.settings options
    rwa [haccepted] at hsettles
  rw [happly, Except.ok.injEq]
  cases h with
  | compiles hsettings | fails hsettings =>
      rw [settings?_of_ok hcall happly] at hsettings
      split at hsettings
      · exact Option.some.inj hsettings
      · cases hsettings
  | applies hcall' happly' =>
      cases hcall.symm.trans hcall'
      exact Except.ok.inj (happly.symm.trans happly')
  | refuses hcall' happly' =>
      cases hcall.symm.trans hcall'
      cases happly.symm.trans happly'
  | reads hreads =>
      rw [hcall] at hreads
      cases hreads

/-- Options of which one is refused, at any depth of bundles, change nothing at all. -/
theorem Step.of_refused {options : List (Offered ConfigOption)} {shown : String}
    {others : List String} (h : Step turn config next answer)
    (hcall : turn.call = .withOptions options)
    (hrefused : ConfigOption.refusalsAmong options = shown :: others) :
    next = config ∧ answer = .error (.notConfigOption shown) := by
  have happly : config.settings.applyAll options = .error (.notConfigOption shown) := by
    have hsettles := ConfigSettings.settles_applyAll config.settings options
    rwa [hrefused] at hsettles
  cases h with
  | compiles hsettings | fails hsettings =>
      rw [settings?_of_error hcall happly] at hsettings
      cases hsettings
  | applies hcall' happly' =>
      cases hcall.symm.trans hcall'
      cases happly.symm.trans happly'
  | refuses hcall' happly' =>
      cases hcall.symm.trans hcall'
      exact ⟨rfl, congrArg _ (Except.error.inj (happly'.symm.trans happly))⟩
  | reads hreads =>
      rw [hcall] at hreads
      cases hreads

/-- Calls other than those that bring options keep the settings. -/
theorem Step.settings_eq (h : Step turn config next answer)
    (hcall : ∀ options, turn.call ≠ .withOptions options) : next.settings = config.settings := by
  cases h with
  | compiles hsettings | fails hsettings =>
      rcases settings?_cases hsettings with ⟨_, heq⟩ | ⟨options, heq⟩
      · exact heq.symm
      · exact absurd heq (hcall options)
  | applies heq => exact absurd heq (hcall _)
  | refuses | reads => rfl

/-- Reading changes nothing at all. -/
theorem Step.eq_of_reads {operation : String} (h : Step turn config next answer)
    (hcall : turn.call.operation? = some operation) : next = config := by
  cases h with
  | compiles hsettings | fails hsettings =>
      rw [settings?_of_reads hcall] at hsettings
      cases hsettings
  | applies heq =>
      rw [heq] at hcall
      cases hcall
  | refuses | reads => rfl

/-- Before anything is published no call gets a tree to read. -/
theorem answer_of_not_compiled {operation : String} (hcall : turn.call.operation? = some operation)
    (h : config.tree = none) : turn.answer config = .error (.notCompiledYet operation) := by
  obtain ⟨disk, now, call⟩ := turn
  have hrequire : ∀ operation, config.requireTree operation = .error (.notCompiledYet operation) := by
    intro operation
    rw [Config.requireTree, h]
  cases call with
  | fetch key =>
      cases hcall
      simp only [answer, Config.perform, Config.fetch, hrequire]
      rfl
  | query key type options =>
      cases hcall
      simp only [answer, Config.perform, Config.query, hrequire]
      rfl
  | output options =>
      cases hcall
      simp only [answer, Config.perform, Config.output, hrequire]
      rfl
  | withOptions options => cases hcall
  | compile => cases hcall

/-- What a call may do to a configuration, and what it has to leave as it was. -/
structure Lawful (turn : Turn) (config : Config) : Prop where
  /-- A compile that succeeds publishes the result of building the settings then in force. -/
  success : ∀ compiled, turn.success? config = some compiled →
    (turn.after config).published = compiled.published turn.now ∧
      ((turn.after config).settings.build turn.disk).result = .ok compiled ∧
      turn.answer config = .ok .done
  /-- A compile that cannot build fails. -/
  failedBuild : ∀ settings fault, turn.settings? config = some settings →
    (settings.build turn.disk).result = .error fault → turn.answer config = .error fault
  /-- Nothing but a compile that succeeds publishes anything. -/
  noSuccess : turn.success? config = none → (turn.after config).published = config.published
  /-- A call that fails publishes nothing. -/
  failure : ∀ fault, turn.answer config = .error fault →
    (turn.after config).published = config.published
  /-- Options take effect when none of them is refused, at any depth of bundles. -/
  accepted : ∀ options, turn.call = .withOptions options →
    ConfigOption.refusalsAmong options = [] →
    config.settings.applyAll options = .ok (turn.after config).settings
  /-- A refused option makes the call fail and the configuration remain as it was. -/
  refused : ∀ options shown others, turn.call = .withOptions options →
    ConfigOption.refusalsAmong options = shown :: others →
    turn.after config = config ∧ turn.answer config = .error (.notConfigOption shown)
  /-- Only options change the settings. -/
  settings : (∀ options, turn.call ≠ .withOptions options) →
    (turn.after config).settings = config.settings
  /-- Reading changes nothing. -/
  reading : ∀ operation, turn.call.operation? = some operation → turn.after config = config

theorem lawful (turn : Turn) (config : Config) : turn.Lawful config where
  success _ := (turn.step config).of_success
  failedBuild _ _ := (turn.step config).of_build_error
  noSuccess := (turn.step config).of_no_success
  failure fault h := by
    have hstep := turn.step config
    rw [h] at hstep
    exact hstep.of_error
  accepted _ := (turn.step config).of_accepted
  refused _ _ _ := (turn.step config).of_refused
  settings := (turn.step config).settings_eq
  reading _ := (turn.step config).eq_of_reads

end Turn

end LayeredConfig
