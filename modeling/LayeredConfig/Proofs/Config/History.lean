import LayeredConfig.Proofs.Config.Turns

/-! # Histories of configurations

A configuration goes through calls in any order, on a disk that may change in between. What it
publishes is what the last compile that succeeded has built, and nothing else touches it. -/

namespace LayeredConfig.Config

/-! ## Runs -/

/-- The configuration after turns. -/
def run (config : Config) (turns : List Turn) : Config :=
  turns.foldl (fun config turn => turn.after config) config

/-- Everything that is published in the course of a run. -/
def publications (config : Config) : List Turn → List Published
  | [] => []
  | turn :: rest =>
    ((turn.success? config).map (Compiled.published turn.now)).toList ++
      publications (turn.after config) rest

/-- What was published last stays published. -/
theorem published_run (config : Config) (turns : List Turn) :
    (config.run turns).published = (config.publications turns).getLast?.getD config.published := by
  induction turns generalizing config with
  | nil => rfl
  | cons turn rest ih =>
      have hrun : config.run (turn :: rest) = (turn.after config).run rest := rfl
      rw [hrun, ih, publications]
      cases hsuccess : turn.success? config with
      | none =>
          rw [(turn.lawful config).noSuccess hsuccess]
          rfl
      | some compiled =>
          rw [((turn.lawful config).success compiled hsuccess).1]
          simp [List.getLast?_cons]

/-! ## Runs of new configurations -/

/-- A new configuration is a blank one that has accepted its first options. -/
theorem after_of_create {disk : Disk} {registry : Registry}
    {options : List (Offered ConfigOption)} {now : Moment} {config : Config}
    (h : (create disk registry options now).result = .ok config) :
    (Turn.mk disk now (.withOptions options)).after { settings := { registry } } = config := by
  simp only [create] at h
  simp only [Turn.after, perform]
  cases hresult : (withOptions disk options { settings := { registry } } now).2.result with
  | error fault =>
      rw [hresult] at h
      cases h
  | ok done =>
      rw [hresult] at h
      exact Except.ok.inj h

/-- The state of a configuration after any calls, whichever of them failed. It publishes what the
last compile that succeeded has built, its own creation included; every call that follows keeps to
the laws; and until a compile has succeeded there is nothing to read. -/
theorem run_of_create {disk : Disk} {registry : Registry} {options : List (Offered ConfigOption)}
    {now : Moment} {config : Config} (h : (create disk registry options now).result = .ok config)
    (turns : List Turn) :
    let opening : Turn := ⟨disk, now, .withOptions options⟩
    let published := publications { settings := { registry } } (opening :: turns)
    (config.run turns).published = published.getLast?.getD {} ∧
      (∀ turn : Turn, turn.Lawful (config.run turns)) ∧
      (published = [] → ∀ turn : Turn, ∀ operation, turn.call.operation? = some operation →
        turn.answer (config.run turns) = .error (.notCompiledYet operation)) := by
  intro opening published
  have hpublished : (config.run turns).published = published.getLast?.getD {} := by
    have hrun := published_run { settings := { registry } } (opening :: turns)
    rwa [run, List.foldl_cons, after_of_create h] at hrun
  refine ⟨hpublished, fun turn => turn.lawful _, fun hnone turn operation hcall => ?_⟩
  rw [hnone] at hpublished
  exact Turn.answer_of_not_compiled hcall (congrArg Published.tree hpublished)

/-- A bundle with something in it that is no option, in front of which a delimiter is set: the
delimiter remains as it was, and there is still nothing to fetch. -/
theorem run_of_create_refused :
    let options : List (Offered ConfigOption) :=
      [.option (.delimiter "/") "set_key_delimiter('/')",
        .option (.bundle [.other "5" "5"]) "options(5)"]
    let turn : Turn := ⟨{}, .epoch, .withOptions options⟩
    let config : Config := { settings := { registry := {} } }
    (create {} {} []).result = .ok config ∧
      turn.answer config = .error (.notConfigOption "5") ∧
      (config.run [turn]).settings.delimiter = "." ∧
      (Turn.mk {} .epoch (.fetch "a")).answer (config.run [turn]) =
        .error (.notCompiledYet "fetch") := by
  intro options turn config
  have hcreate : (create {} {} []).result = .ok config := rfl
  have hrefused := ((run_of_create hcreate []).2.1 turn).refused options "5" [] rfl rfl
  have hafter : turn.after config = config := hrefused.1
  have hread := (run_of_create hcreate [turn]).2.2 rfl (Turn.mk {} .epoch (.fetch "a")) "fetch" rfl
  refine ⟨hcreate, hrefused.2, ?_, hread⟩
  rw [run, List.foldl_cons, List.foldl_nil, hafter]

end LayeredConfig.Config
