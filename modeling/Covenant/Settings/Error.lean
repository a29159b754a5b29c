import Covenant.Settings.Key
import Covenant.Settings.Layer

namespace Covenant.Settings

inductive LoadError where
  | fileNotFound (path : String)
  | unreadable (path : String)
  | unknownFileFormat (path : String)
  | unknownFormat (name : String)
  | malformed (format : Format)
  | malformedVariables
  | badVariable (name : String) (expected : Expected)
  | invalid (setting : InvalidSetting)
deriving DecidableEq, Repr

def LoadError.text : LoadError → String
  | .fileNotFound path => s!"configuration file not found: {path}"
  | .unreadable path => s!"failed to read configuration file: {path}"
  | .unknownFileFormat path =>
    s!"configuration validation failed: unsupported configuration file format: {path}"
  | .unknownFormat name =>
    s!"configuration validation failed: unsupported configuration format: {name}"
  | .malformed .toml => "failed to parse TOML configuration"
  | .malformed .json => "failed to parse JSON configuration"
  | .malformedVariables => "failed to load .env file"
  | .badVariable name expected =>
    s!"failed to parse environment variable {name}: " ++ expected.text
  | .invalid setting => setting.text

end Covenant.Settings
