import Rowflow.Pipeline.Read
import Rowflow.Pipeline.Validation
import Rowflow.Reading.Document
import Rowflow.Reading.Toml

/-!
# Pipeline files

A pipeline is defined in a file whose name tells its format: TOML if the name has the extension
`toml`, in any case of letters, and YAML otherwise. What the file holds is given by its bytes.
-/

namespace Rowflow

/-- The formats of pipeline files. -/
inductive FileFormat where
  | yaml
  | toml
  deriving DecidableEq, Repr

/-- Why the bytes of a file cannot be had. -/
inductive ReadFailure where
  | notFound
  | isFolder
  | notText
  /-- Any other failure, in the words of the system. -/
  | other (text : String)
  deriving DecidableEq, Repr

/-- The text of a failure. -/
protected def ReadFailure.render : ReadFailure → String
  | .notFound => "No such file or directory (os error 2)"
  | .isFolder => "Is a directory (os error 21)"
  | .notText => "stream did not contain valid UTF-8"
  | .other text => text

/-- Why a file defines no pipeline. -/
inductive FileError where
  | unreadable (path : String) (failure : ReadFailure)
  | yaml (detail : String)
  | toml (detail : String)
  | invalid (errors : List ValidationError)

namespace FileError

/-- The text of an error. -/
protected def render : FileError → String
  | .unreadable path failure => "Failed to read pipeline file '" ++ path ++ "': " ++ failure.render
  | .yaml detail => "Invalid YAML pipeline definition: " ++ detail
  | .toml detail => "Invalid TOML pipeline definition: " ++ detail
  | .invalid errors =>
    "Configuration validation failed:\n" ++ String.intercalate "\n" (errors.map (·.render))

/-- The texts of an error and of what has caused it. -/
def causes (e : FileError) : List String :=
  match e with
  | .unreadable _ failure => [e.render, failure.render]
  | .yaml detail => [e.render, detail]
  | .toml detail => [e.render, detail]
  | .invalid _ => [e.render]

end FileError

/-! ### Formats -/

/-- The last part of a path, unless it names no file. -/
def fileName (path : List Char) : List Char :=
  let name (cs : List Char) : List Char := (cs.reverse.takeWhile (· ≠ '/')).reverse
  name (path.reverse.dropWhile (· = '/')).reverse

/-- The extension of a file name: what follows its last dot, unless that dot is its first character
or the name is that of a folder. -/
def extension? (name : List Char) : Option (List Char) :=
  if name = ['.', '.'] || name = ['.'] then none
  else
    let ending := (name.reverse.takeWhile (· ≠ '.')).reverse
    if ending.length + 1 < name.length then some ending else none

/-- The format of the file at a path. -/
def FileFormat.ofPath (path : String) : FileFormat :=
  match extension? (fileName path.toList) with
  | some ending => if ending.map Char.toLower = "toml".toList then .toml else .yaml
  | none => .yaml

namespace Pipeline

/-! ### Texts -/

/-- The pipeline that a YAML text defines. -/
def ofYamlText (s : String) : Reading.Result Pipeline :=
  match Yaml.Document.parse? s with
  | some d => Reading.readPipeline (Reading.documentSource d) ⟨d.root, Yaml.Document.depthLimit⟩
  | none => .error (.other "invalid document")

/-- The pipeline that a TOML text defines. -/
def ofTomlText (s : String) : Reading.Result Pipeline :=
  match Toml.parse? s with
  | some v => Reading.readPipeline Reading.tomlSource v
  | none => .error (.other "invalid document")

/-- The pipeline that a text defines in a format. -/
def ofText (format : FileFormat) (s : String) : Except FileError Pipeline :=
  match format with
  | .yaml => (ofYamlText s).mapError (FileError.yaml ·.render)
  | .toml => (ofTomlText s).mapError (FileError.toml ·.render)

/-! ### Files -/

/-- The pipeline in the file at a path, given its bytes or why there are none. -/
def ofFile (path : String) (bytes : Except ReadFailure ByteArray) : Except FileError Pipeline :=
  match bytes with
  | .error failure => .error (.unreadable path failure)
  | .ok bytes =>
    match String.fromUTF8? bytes with
    | some s => ofText (.ofPath path) s
    | none => .error (.unreadable path .notText)

/-- The same, refusing a pipeline that is not valid. -/
def ofValidFile (path : String) (bytes : Except ReadFailure ByteArray) :
    Except FileError Pipeline := do
  let p ← ofFile path bytes
  match p.validate with
  | .ok () => return p
  | .error errors => .error (.invalid errors)

end Pipeline

end Rowflow
