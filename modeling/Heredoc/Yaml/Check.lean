import Heredoc.Diagnostic
import Heredoc.Text.Offset
import Heredoc.Yaml.Load

/-!
# Checking YAML

The first failure of a stream becomes an error at the one character where it is shown.
-/

namespace Heredoc.Yaml

/-- The diagnostic of a failure. -/
def diagnosticOf (failure : Failure) : LocalDiagnostic :=
  .error (Text.stripLocation failure.message)
    (.singleChar (clamp32 failure.mark.line) (clamp32 failure.mark.column))

/-- The first failure of a body. -/
def check (body : String) : Option LocalDiagnostic :=
  (firstFailure body.toList).map diagnosticOf

end Heredoc.Yaml
