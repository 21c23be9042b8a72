import BuildConstants.Document.DecodeError
import BuildConstants.Path

/-!
# Failures

What stops a run as a whole. A problem with a single declaration is a diagnostic and stops nothing.
-/

namespace BuildConstants

/-- Why files could not be used. -/
inductive FileError where
  | missing
  | alreadyExists
  | notDirectory
  | isDirectory
  | nameTooLong
  | zeroInName
  | notText
  /-- Any other reason, with its text. -/
  | other (text : String)
deriving DecidableEq

/-- The reason as the system words it. -/
def FileError.message : FileError → String
  | missing => "No such file or directory (os error 2)"
  | alreadyExists => "File exists (os error 17)"
  | notDirectory => "Not a directory (os error 20)"
  | isDirectory => "Is a directory (os error 21)"
  | nameTooLong => "File name too long (os error 36)"
  | zeroInName => "file name contained an unexpected NUL byte"
  | notText => "stream did not contain valid UTF-8"
  | other text => text

/-- Why a document could not be used: the problem met while reading it, or a text that says it. -/
inductive DocumentProblem where
  | decode (error : DecodeError)
  | text (reason : String)
deriving DecidableEq

def DocumentProblem.message : DocumentProblem → String
  | decode error => error.message
  | text reason => reason

/-- Why a run stops. -/
inductive Failure where
  | file (error : FileError)
  | cancelled
  | configUnreadable (problem : DocumentProblem)
  | manifestUnreadable (path : Path) (problem : DocumentProblem)
  | unsupportedManifestFormat (extension : String)
  | missingManifest
deriving DecidableEq

namespace Failure

def message : Failure → String
  | file error => error.message
  | cancelled => "generation was cancelled"
  | configUnreadable problem => s!"failed to parse config file: {problem.message}"
  | manifestUnreadable path problem =>
    s!"failed to parse declaration manifest `{path.text}`: {problem.message}"
  | unsupportedManifestFormat extension =>
    s!"unsupported declaration manifest format: `{extension}`"
  | missingManifest => "no declaration manifest configured"

/-- The name that a failure can be looked up by. -/
def code : Failure → String
  | file _ => "bakeprop::io_error"
  | cancelled => "bakeprop::cancelled"
  | configUnreadable _ => "bakeprop::config_parse"
  | manifestUnreadable _ _ => "bakeprop::manifest_parse"
  | unsupportedManifestFormat _ => "bakeprop::unsupported_manifest_format"
  | missingManifest => "bakeprop::missing_manifest"

/-- What to do about a failure. -/
def help? : Failure → Option String
  | file _ | cancelled => none
  | configUnreadable _ =>
    some
      ("check that bakeprop.toml is valid TOML with `properties`, `declarations` and " ++
        "`output` keys")
  | manifestUnreadable _ _ =>
    some "each `[[container]]` needs a `name` and a list of `[[container.member]]` entries"
  | unsupportedManifestFormat _ => some "supported formats: toml, json, yaml, yml"
  | missingManifest => some "pass `--declarations <path>` or set `declarations` in bakeprop.toml"

end Failure

end BuildConstants
