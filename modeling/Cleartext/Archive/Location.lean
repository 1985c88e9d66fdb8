import Cleartext.Host.Path
import Cleartext.Text.Url

/-!
# Locations

The location that classes of an archive report as the source of their code.
-/

namespace Cleartext.Archive

/-- The location that classes from the archive at an absolute path report. -/
def codeSource (path : String) : String :=
  "file:" ++ Text.lossy (Text.escapeUrl .path (Bytes.ofText (Host.cleanPath path)))

end Cleartext.Archive
