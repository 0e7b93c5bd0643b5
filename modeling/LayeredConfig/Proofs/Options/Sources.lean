import LayeredConfig.Proofs.Options.Refusals
import Mathlib.Tactic.Simps.Basic

/-! # Sources among options

The sources that options bring come one after the other into the settings, and everything else that
is offered does the same with or without them. So options are told apart by their sources and by the
rest, with all bundles opened. -/

namespace LayeredConfig

namespace Source

def name : Source → String
  | buffer source => source.name
  | value source => source.name

def isDefault : Source → Bool
  | buffer source => source.isDefault
  | value source => source.isDefault

end Source

namespace ConfigOption

mutual

/-- What is offered by an option of a label once bundles are opened, at any depth. -/
def opened (label : String) : ConfigOption → List (Offered ConfigOption)
  | bundle options => openedAll options
  | option => [.option option label]

def openedOffer : Offered ConfigOption → List (Offered ConfigOption)
  | .option option label => opened label option
  | .other label shown => [.other label shown]

def openedAll : List (Offered ConfigOption) → List (Offered ConfigOption)
  | [] => []
  | offer :: rest => openedOffer offer ++ openedAll rest

end

/-- The source that is offered, if it is one. -/
def source? : Offered ConfigOption → Option Source
  | .option (.source declared) _ => some declared
  | _ => none

/-- The sources among the options, in the order in which they are declared. -/
def sourcesAmong (options : List (Offered ConfigOption)) : List Source :=
  (openedAll options).filterMap source?

/-- Everything that is offered besides sources, in order. -/
def othersAmong (options : List (Offered ConfigOption)) : List (Offered ConfigOption) :=
  (openedAll options).filter fun offer => (source? offer).isNone

/-- What is offered is no bundle. -/
def IsPlain : Offered ConfigOption → Prop
  | .option (.bundle _) _ => False
  | _ => True

mutual

theorem isPlain_opened (label : String) :
    (option : ConfigOption) → ∀ offer ∈ opened label option, IsPlain offer
  | .bundle options => isPlain_openedAll options
  | .files _ | .source _ | .expand _ | .sort _ | .delimiter _ | .decoder _ | .encoder _
  | .documentation _ | .outputDefaults _ | .queryDefaults _ | .autoCompile _ => by
    intro offer hoffer
    cases List.mem_singleton.mp hoffer
    trivial

theorem isPlain_openedOffer :
    (offer : Offered ConfigOption) → ∀ part ∈ openedOffer offer, IsPlain part
  | .option option label => isPlain_opened label option
  | .other _ _ => by
    intro part hpart
    cases List.mem_singleton.mp hpart
    trivial

theorem isPlain_openedAll :
    (options : List (Offered ConfigOption)) → ∀ part ∈ openedAll options, IsPlain part
  | [] => nofun
  | offer :: rest => by
    intro part hpart
    rcases List.mem_append.mp hpart with hfirst | hrest
    · exact isPlain_openedOffer offer part hfirst
    · exact isPlain_openedAll rest part hrest

end

end ConfigOption

namespace ConfigSettings

open ConfigOption

/-! ## Bundles -/

theorem applyAll_append (settings : ConfigSettings) (options others : List (Offered ConfigOption)) :
    settings.applyAll (options ++ others) =
      (settings.applyAll options).bind fun settings => settings.applyAll others := by
  induction options generalizing settings with
  | nil => rfl
  | cons offer rest ih =>
      rw [List.cons_append, applyAll_cons, applyAll_cons]
      cases settings.applyOffered offer with
      | error fault => rfl
      | ok settings => exact ih settings

theorem applyAll_singleton (settings : ConfigSettings) (offer : Offered ConfigOption) :
    settings.applyAll [offer] = settings.applyOffered offer := by
  rw [applyAll_cons]
  cases settings.applyOffered offer <;> rfl

mutual

theorem applyAll_opened (settings : ConfigSettings) (label : String) :
    (option : ConfigOption) → settings.applyAll (opened label option) = settings.apply option
  | .bundle options => applyAll_openedAll settings options
  | .files _ | .source _ | .expand _ | .sort _ | .delimiter _ | .decoder _ | .encoder _
  | .documentation _ | .outputDefaults _ | .queryDefaults _ | .autoCompile _ =>
    applyAll_singleton settings _

theorem applyAll_openedOffer (settings : ConfigSettings) :
    (offer : Offered ConfigOption) →
      settings.applyAll (openedOffer offer) = settings.applyOffered offer
  | .option option label => applyAll_opened settings label option
  | .other _ _ => applyAll_singleton settings _

/-- A bundle is as good as its options in its place. -/
theorem applyAll_openedAll (settings : ConfigSettings) :
    (options : List (Offered ConfigOption)) →
      settings.applyAll (openedAll options) = settings.applyAll options
  | [] => rfl
  | offer :: rest => by
    have hrest : ∀ settings : ConfigSettings,
        settings.applyAll (openedAll rest) = settings.applyAll rest :=
      fun settings => applyAll_openedAll settings rest
    rw [openedAll, applyAll_append, applyAll_openedOffer, applyAll_cons]
    simp only [hrest]

end

/-! ## Sources apart from the rest -/

/-- The settings with other sources in place of theirs. -/
@[simps]
def withSources (settings : ConfigSettings) (sources : List Source) : ConfigSettings :=
  { settings with sources }

variable (settings : ConfigSettings) (sources : List Source)

/-- What is neither a source nor a bundle does the same whatever sources there are. -/
theorem applyOffered_withSources {offer : Offered ConfigOption} (hplain : IsPlain offer)
    (hsource : source? offer = none) :
    (settings.withSources sources).applyOffered offer =
      (settings.applyOffered offer).map fun applied => applied.withSources sources := by
  cases offer with
  | other => rfl
  | option option =>
      cases option with
      | source => cases hsource
      | bundle => cases hplain
      | _ => rfl

theorem applyOffered_source {offer : Offered ConfigOption} {source : Source}
    (hsource : source? offer = some source) :
    (settings.withSources sources).applyOffered offer =
      .ok (settings.withSources (sources ++ [source])) := by
  cases offer with
  | other => cases hsource
  | option option =>
      cases option with
      | source => cases hsource; rfl
      | _ => cases hsource

/-- Options without bundles: the sources go behind those that are there, the rest does not see them. -/
theorem applyAll_plain {options : List (Offered ConfigOption)}
    (hplain : ∀ offer ∈ options, IsPlain offer) :
    (settings.withSources sources).applyAll options =
      (settings.applyAll (options.filter fun offer => (source? offer).isNone)).map fun applied =>
        applied.withSources (sources ++ options.filterMap source?) := by
  induction options generalizing settings sources with
  | nil => simp [applyAll, Except.map]
  | cons offer rest ih =>
      have hrest : ∀ offer ∈ rest, IsPlain offer :=
        fun other hother => hplain other (List.mem_cons_of_mem _ hother)
      rw [applyAll_cons]
      cases hsource : source? offer with
      | some source =>
          rw [applyOffered_source settings sources hsource, List.filterMap_cons_some hsource,
            List.filter_cons_of_neg (by simp [hsource])]
          have hbehind := ih settings (sources ++ [source]) hrest
          rwa [List.append_assoc] at hbehind
      | none =>
          rw [applyOffered_withSources settings sources (hplain offer List.mem_cons_self) hsource,
            List.filterMap_cons_none hsource, List.filter_cons_of_pos (by simp [hsource]),
            applyAll_cons]
          cases settings.applyOffered offer with
          | error fault => rfl
          | ok applied => exact ih applied sources hrest

/-- The settings that options lead to are those that the rest of them leads to, with their sources
behind those that are there. -/
theorem applyAll_withSources (options : List (Offered ConfigOption)) :
    (settings.withSources sources).applyAll options =
      (settings.applyAll (othersAmong options)).map fun applied =>
        applied.withSources (sources ++ sourcesAmong options) := by
  rw [← applyAll_openedAll]
  exact applyAll_plain settings sources (isPlain_openedAll options)

theorem sources_of_applyAll {settings applied : ConfigSettings}
    {options : List (Offered ConfigOption)} (h : settings.applyAll options = .ok applied) :
    applied.sources = settings.sources ++ sourcesAmong options := by
  have hwith := applyAll_withSources settings settings.sources options
  have hself : settings.withSources settings.sources = settings := rfl
  rw [hself, h] at hwith
  cases hbase : settings.applyAll (othersAmong options) with
  | error fault =>
      rw [hbase] at hwith
      cases hwith
  | ok base =>
      rw [hbase] at hwith
      cases hwith
      rfl

/-- Options that differ in their sources alone lead to settings that differ in these alone. -/
theorem applyAll_of_othersAmong_eq {options others : List (Offered ConfigOption)}
    (h : othersAmong others = othersAmong options) :
    settings.applyAll others = (settings.applyAll options).map fun applied =>
      applied.withSources (settings.sources ++ sourcesAmong others) := by
  have hself : settings.withSources settings.sources = settings := rfl
  have hfirst := applyAll_withSources settings settings.sources options
  have hsecond := applyAll_withSources settings settings.sources others
  rw [hself] at hfirst hsecond
  rw [hfirst, hsecond, h]
  cases settings.applyAll (othersAmong options) <;> rfl

end ConfigSettings

end LayeredConfig
