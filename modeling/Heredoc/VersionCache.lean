import Heredoc.Assoc
import Heredoc.Buffer

/-!
# Version cache

Which version of each buffer was checked last.
-/

namespace Heredoc

/-- The last checked version of each buffer. -/
abbrev VersionCache := Assoc BufferId Nat

/-- Whether exactly this version was checked last. -/
def VersionCache.isCurrent (cache : VersionCache) (id : BufferId) (version : Nat) : Bool :=
  Assoc.get? cache id = some version

end Heredoc
