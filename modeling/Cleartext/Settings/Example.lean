/-!
# The example of a configuration

The document that is written as a start for one's own settings.
-/

namespace Cleartext.Settings

/-- The example of a configuration, with every setting at its default. -/
def exampleDocument : String :=
  "\n".intercalate [
    "# This is an example destringer config.yaml with the default settings.",
    "# It is read from $HOME/.config/destringer/config.yaml unless --config is given.",
    "# Every key can also be set from the environment, e.g. DESTRINGER_DECRYPT_TIMEOUT=10s",
    "verbose: false",
    "color: false",
    "no-color: false",
    "",
    "decrypt:",
    "  # where the patched archive is written (default: <input>.decrypted.jar)",
    "  output: \"\"",
    "  # wall clock limit for a single decrypt call",
    "  timeout: 5s",
    "  # bytecode instruction limit for a single decrypt call",
    "  max-steps: 5000000",
    "  # number of prepared decrypt routines kept loaded",
    "  cache-size: 256",
    "  # classes parsed concurrently (default: number of CPUs)",
    "  parallelism: 0",
    "  # run decrypt routines without neutralizing their integrity checks",
    "  raw: false",
    "  dry-run: false",
    "  # write a JSON report of every call site (\"-\" for stdout)",
    "  json: \"\"",
    "  progress: false",
    "  # log every executed instruction",
    "  trace: false",
    "  # save a replayable state file for every failed call site",
    "  state-dir: \"\"",
    "  # abort the whole run after this long (0 disables)",
    "  deadline: 0s",
    "",
    "# modelines, feel free to remove those if you don't want/use them:",
    "# yaml-language-server: $schema=destringer.schema.json",
    "# vim: set ts=2 sw=2 tw=0 fo=cnqoj",
    ""]

end Cleartext.Settings
