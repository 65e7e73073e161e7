import Remapping.Value.Basic

/-!
# Settings

The settings of the converter and those that all tools share. A setting keeps whatever value it
is given; what a value of the wrong type means is decided where the setting is used. A section of
a settings file overrides the settings that it names, and leaves the others.
-/

namespace Remapping

/-- The version of the toolkit. -/
def toolkitVersion : Text := "1.0.0"

/-- The settings that all tools share. -/
structure SharedSettings where
  logLevel : Value := .text "INFO"
  logFile : Value := .null
  logJson : Value := .bool false
  debug : Value := .bool false
  version : Value := .text toolkitVersion

namespace SharedSettings

/-- Settings in which the entries of a section replace the values given before. -/
def override (s : SharedSettings) (entries : List (Text × Value)) : SharedSettings where
  logLevel := (Value.find? entries "log_level").getD s.logLevel
  logFile := (Value.find? entries "log_file").getD s.logFile
  logJson := (Value.find? entries "log_json").getD s.logJson
  debug := (Value.find? entries "debug").getD s.debug
  version := (Value.find? entries "version").getD s.version

/-- The settings as a value. -/
def toValue (s : SharedSettings) : Value :=
  .table [("log_level", s.logLevel), ("log_file", s.logFile), ("log_json", s.logJson),
    ("debug", s.debug), ("version", s.version)]

end SharedSettings

/-- The settings of the converter. -/
structure ConverterSettings where
  supportedVersion : Value := .text "v1"
  inputEncoding : Value := .text "utf-8"
  outputEncoding : Value := .text "utf-8"
  atomicWrite : Value := .bool true
  maxWarningsShown : Value := .int 20

namespace ConverterSettings

/-- Settings in which the entries of a section replace the values given before. -/
def override (s : ConverterSettings) (entries : List (Text × Value)) : ConverterSettings where
  supportedVersion := (Value.find? entries "supported_version").getD s.supportedVersion
  inputEncoding := (Value.find? entries "input_encoding").getD s.inputEncoding
  outputEncoding := (Value.find? entries "output_encoding").getD s.outputEncoding
  atomicWrite := (Value.find? entries "atomic_write").getD s.atomicWrite
  maxWarningsShown := (Value.find? entries "max_warnings_shown").getD s.maxWarningsShown

/-- The settings as a value. -/
def toValue (s : ConverterSettings) : Value :=
  .table [("supported_version", s.supportedVersion), ("input_encoding", s.inputEncoding),
    ("output_encoding", s.outputEncoding), ("atomic_write", s.atomicWrite),
    ("max_warnings_shown", s.maxWarningsShown)]

end ConverterSettings

/-- All settings. -/
structure Settings where
  shared : SharedSettings := {}
  converter : ConverterSettings := {}

/-- The settings as a value. -/
def Settings.toValue (s : Settings) : Value :=
  .table [("global_settings", s.shared.toValue), ("converter", s.converter.toValue)]

end Remapping
