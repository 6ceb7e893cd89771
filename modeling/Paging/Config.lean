import Paging.Path

/-! What can be chosen about a pager before it is built. -/
namespace Paging

/-- What a pager is built with. -/
structure Config where
  /-- How many files may be open at once. -/
  maxOpenFiles : Nat := 8192
  /-- Where the log is kept. -/
  logPath : Path := ⟨"db.log"⟩
  deriving DecidableEq

namespace Config

/-- The settings used where nothing else is asked for. -/
def standard : Config := {}

/-- Two configurations are the same when their limits are equal and their log
paths are the same. The spelling of the log path makes no difference. -/
def SameAs (config other : Config) : Prop :=
  config.maxOpenFiles = other.maxOpenFiles ∧ config.logPath.SameAs other.logPath

instance (config other : Config) : Decidable (config.SameAs other) :=
  inferInstanceAs (Decidable (_ ∧ _))

end Config

/-- Why a configuration is refused. -/
inductive ConfigFault
  | noOpenFiles
  | tooManyOpenFiles
  deriving DecidableEq

/-- The words in which a configuration is refused. -/
def ConfigFault.message : ConfigFault → String
  | noOpenFiles => "max_fd must be > 0"
  | tooManyOpenFiles => "max_fd must fit in a u32"

end Paging
