import LayeredConfig.Options.Config

/-!
# Options of any kind

What a caller hands over, before it is known where it will be used. In a place for another kind it
is only something that can be shown.
-/

namespace LayeredConfig

inductive AnyOption
  | config (offer : Offered ConfigOption)
  | output (offer : Offered OutputOption)
  | query (offer : Offered QueryOption)
  | source (offer : Offered SourceOption)
  /-- No option at all. -/
  | thing (value : Value)

namespace AnyOption

def label : AnyOption → String
  | config offer => offer.label
  | output offer => offer.label
  | query offer => offer.label
  | source offer => offer.label
  | thing value => value.toText

/-- The words for it where it is out of place. -/
def shown : AnyOption → String
  | config offer => ConfigOption.shownOffer offer
  | output offer => ConfigOption.shownOf OutputOption.shown offer
  | query offer => ConfigOption.shownOf QueryOption.shown offer
  | source offer => ConfigOption.shownOf SourceOption.shown offer
  | thing value => value.literal

def asConfig : AnyOption → Offered ConfigOption
  | config offer => offer
  | any => .other any.label any.shown

def asOutput : AnyOption → Offered OutputOption
  | output offer => offer
  | any => .other any.label any.shown

def asQuery : AnyOption → Offered QueryOption
  | query offer => offer
  | any => .other any.label any.shown

def asSource : AnyOption → Offered SourceOption
  | source offer => offer
  | query offer => offer.map .query
  | any => .other any.label any.shown

end AnyOption

end LayeredConfig
