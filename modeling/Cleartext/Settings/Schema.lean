import Cleartext.Text.Json

/-!
# The schema of a configuration file

A description of all settings that editors and checkers understand.
-/

namespace Cleartext.Settings

open Text (Json)

/-- What a setting may hold. -/
inductive SettingType
  | boolean
  | integer
  | string
  | duration
  /-- The settings of a section. -/
  | section_ (name : String)

/-- A description of what a setting may hold. -/
def SettingType.schema : SettingType → Json
  | .boolean => .object [("type", .text "boolean")]
  | .integer => .object [("type", .text "integer")]
  | .string => .object [("type", .text "string")]
  | .duration =>
    .object [("type", .text "string"), ("pattern", .text "^(-?[0-9.]+(ns|us|µs|ms|s|m|h))+$|^0$")]
  | .section_ name => .object [("$ref", .text ("#/$defs/" ++ name))]

/-- The settings outside of sections. -/
def generalSettings : List (String × SettingType) :=
  [("verbose", .boolean), ("color", .boolean), ("no-color", .boolean), ("decrypt", .section_ "Decrypt")]

/-- The settings of a decryption. -/
def decryptionSettings : List (String × SettingType) :=
  [("output", .string), ("timeout", .duration), ("max-steps", .integer), ("cache-size", .integer),
    ("parallelism", .integer), ("raw", .boolean), ("dry-run", .boolean), ("json", .string),
    ("progress", .boolean), ("trace", .boolean), ("state-dir", .string), ("deadline", .duration)]

/-- A description of settings, all of which are required. -/
def settingsSchema (settings : List (String × SettingType)) : Json :=
  .object [("properties", .object (settings.map fun (k, t) => (k, t.schema))),
    ("additionalProperties", .bool false), ("type", .text "object"),
    ("required", .list (settings.map fun (k, _) => .text k))]

/-- The description of a configuration file. -/
def schema : Json :=
  .object [("$schema", .text "https://json-schema.org/draft/2020-12/schema"),
    ("$id", .text "https://github.com/blacktop/destringer/internal/config/config"),
    ("$ref", .text "#/$defs/Config"),
    ("$defs", .object [("Config", settingsSchema generalSettings),
      ("Decrypt", settingsSchema decryptionSettings)]),
    ("description", .text "destringer configuration definition file")]

end Cleartext.Settings
