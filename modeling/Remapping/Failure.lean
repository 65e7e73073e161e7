import Remapping.Descriptor.Basic
import Remapping.Files.Tree
import Remapping.Layout.Yarn
import Remapping.Record.Checked

/-!
# Failures

A conversion error ends a conversion with a message for the user. The other failures are
problems of encodings, settings and files that no message of a conversion covers.
-/

namespace Remapping

/-- Why a conversion is aborted. -/
inductive ConversionError
  | inputMissing (path : Text)
  | inputIsDirectory (path : Text)
  | unsupportedVersion (e : Yarn.UnsupportedVersion)
  | descriptor (e : DescriptorError)
  | outputIsDirectory (path : Text)
  | outputFailed (path : Text) (cause : FileError)
  deriving DecidableEq

namespace ConversionError

/-- The start of the message about an output that cannot be written. -/
def outputFailedLead (path : Text) : Text := "Cannot write " ++ path ++ ": "

/-- The message of a conversion error. -/
def message : ConversionError → Text
  | inputMissing path => "Yarn mappings file does not exist: " ++ path
  | inputIsDirectory path => "Yarn mappings file is a directory: " ++ path
  | unsupportedVersion e => e.message
  | descriptor e => e.message
  | outputIsDirectory path => "Output path is a directory: " ++ path
  | outputFailed path cause => outputFailedLead path ++ cause.message

end ConversionError

/-- Why an operation fails. -/
inductive Failure
  | conversion (e : ConversionError)
  /-- Bytes that are no text in the encoding of the input. -/
  | undecodable (fault : DecodeFault)
  /-- A text that the codec of the output has no bytes for. -/
  | unencodable
  | unknownEncoding
  | file (e : FileError)
  /-- A record with values of the wrong type. -/
  | invalidRecord (issues : List Issue)
  /-- A setting whose value has the wrong type for its use. -/
  | wrongType
  /-- A section or a level that is not of the kind it must be to be looked into. -/
  | wrongShape
  /-- A configuration file that does not exist. -/
  | configurationMissing (path : Text)
  | malformedConfiguration
  /-- An attribute of a log record that may not be given. -/
  | reservedAttribute
  deriving DecidableEq

/-- The words for a failure. -/
def Failure.message : Failure → Text
  | conversion e => e.message
  | undecodable _ => "The file is not text in the encoding that was expected"
  | unencodable => "The text has a character that the encoding does not have"
  | unknownEncoding => "Unknown encoding"
  | file e => e.message
  | invalidRecord _ => "A record has values of the wrong type"
  | wrongType => "A setting has a value of the wrong type"
  | wrongShape => "A section is not a table"
  | configurationMissing path => "Configuration file not found: " ++ path
  | malformedConfiguration => "The configuration file is malformed"
  | reservedAttribute => "An attribute of a log record is reserved"

end Remapping
