import LayeredConfig.Options.Config

/-! # Refused options

Options are accepted all together or not at all: what is offered is applied unless some of it, at
any depth of bundles, is no option. The first such thing is the one that the refusal names. -/

namespace LayeredConfig

namespace ConfigOption

mutual

/-- The words for everything in an option that is none, in order. Only a bundle can hold any. -/
def refusals : ConfigOption → List String
  | bundle options => refusalsAmong options
  | _ => []

def refusalsIn : Offered ConfigOption → List String
  | .option option _ => refusals option
  | .other _ shown => [shown]

/-- The words for everything that is offered, at any depth of bundles, and is no option. -/
def refusalsAmong : List (Offered ConfigOption) → List String
  | [] => []
  | offer :: rest => refusalsIn offer ++ refusalsAmong rest

end

end ConfigOption

namespace ConfigSettings

open ConfigOption

/-- How applying something ends that holds refused things. -/
def Settles (refused : List String) (applied : Except Fault ConfigSettings) : Prop :=
  match refused with
  | [] => ∃ settings, applied = .ok settings
  | shown :: _ => applied = .error (.notConfigOption shown)

/-- What comes first decides, unless nothing of it is refused. -/
theorem Settles.append {refused others : List String} {applied : Except Fault ConfigSettings}
    {next : ConfigSettings → Except Fault ConfigSettings} (h : Settles refused applied)
    (hnext : ∀ settings, Settles others (next settings)) :
    Settles (refused ++ others) (applied.bind next) := by
  cases refused with
  | nil =>
      obtain ⟨settings, rfl⟩ := h
      exact hnext settings
  | cons shown rest =>
      cases h
      rfl

theorem applyAll_cons (settings : ConfigSettings) (offer : Offered ConfigOption)
    (rest : List (Offered ConfigOption)) :
    settings.applyAll (offer :: rest) =
      (settings.applyOffered offer).bind fun settings => settings.applyAll rest := by
  rw [applyAll]
  cases settings.applyOffered offer <;> rfl

mutual

theorem settles_apply (settings : ConfigSettings) :
    (option : ConfigOption) → Settles (refusals option) (settings.apply option)
  | .bundle options => settles_applyAll settings options
  | .files _ | .source _ | .expand _ | .sort _ | .delimiter _ | .decoder _ | .encoder _
  | .documentation _ | .outputDefaults _ | .queryDefaults _ | .autoCompile _ => ⟨_, rfl⟩

theorem settles_applyOffered (settings : ConfigSettings) :
    (offer : Offered ConfigOption) → Settles (refusalsIn offer) (settings.applyOffered offer)
  | .option option _ => settles_apply settings option
  | .other _ _ => rfl

/-- Options are applied unless something among them is refused, and the first such thing is named. -/
theorem settles_applyAll (settings : ConfigSettings) :
    (offers : List (Offered ConfigOption)) →
      Settles (refusalsAmong offers) (settings.applyAll offers)
  | [] => ⟨settings, rfl⟩
  | offer :: rest => by
    rw [applyAll_cons]
    exact (settles_applyOffered settings offer).append fun settings =>
      settles_applyAll settings rest

end

end ConfigSettings

end LayeredConfig
