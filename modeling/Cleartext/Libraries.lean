import Cleartext.Isolation.Workbench
import Cleartext.Replay.SavedCall

/-!
# Libraries

What the program leaves to others and is given when it starts: charsets, a cache, a format of
documents, and conversions of loosely typed data.
-/

namespace Cleartext

/-- The libraries that the program works with. -/
structure Libraries where
  charsets : Text.Charsets
  caching : Isolation.Caching
  format : Yaml.Format
  cast : Replay.Cast

/-- The usual libraries. -/
def Libraries.standard : Libraries :=
  { charsets := .standard, caching := .leastRecent, format := .standard, cast := .standard }

end Cleartext
