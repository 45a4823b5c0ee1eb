import Abacus.Answer
import Abacus.Files
import Abacus.Text.Lines
import Abacus.Text.Utf8
import Abacus.Yaml.Read
/-!
# Settings of a project

A project directory may hold a document of settings, merged over the defaults.  Settings that the calculator does
not know are kept.  Two of them have to be numbers: the places of an answer and the threshold of large results.
-/
namespace Abacus

def settingsName : List Char := "exprcalc.yaml".toList

structure Settings where
  places : Int
  threshold : Float
  others : Mapping

inductive SettingsError
  | file (e : FileError)
  | encoding (e : Utf8.DecodeError)
  | document (e : Yaml.ReadError)
  | notAMapping
  | conversion (e : ConversionError)

namespace Settings

def placesKey : Yaml := .str "precision".toList

def thresholdKey : Yaml := .str "large_result_threshold".toList

def enabledName : List Char := "logging_enabled".toList

def syncName : List Char := "logging_fsync".toList

def tailBytesName : List Char := "logging_tail_bytes".toList

def defaultMapping : Mapping :=
  [(placesKey, .int defaultPlaces), (thresholdKey, .double Status.defaultThreshold),
   (.str enabledName, .bool true), (.str syncName, .bool false), (.str tailBytesName, .null)]

def ofMapping (m : Mapping) : Except ConversionError Settings := do
  let places ← ((m.find? "precision".toList).getD .null).toInt
  let threshold ← ((m.find? "large_result_threshold".toList).getD .null).toDouble
  .ok ⟨places, threshold, m.filter fun (k, _) => !(k.sameKey placesKey || k.sameKey thresholdKey)⟩

/-- The settings of a document.  One that is not true counts as an empty mapping. -/
def ofDocument (document : Yaml) : Except SettingsError Settings :=
  let mapping : Except SettingsError Mapping :=
    if !document.truthy then .ok []
    else
      match document with
      | .map entries => .ok entries
      | _            => .error .notAMapping
  match mapping with
  | .ok m    => (ofMapping (Mapping.update defaultMapping m)).mapError .conversion
  | .error e => .error e

def entries (s : Settings) : Mapping :=
  (placesKey, .int s.places) :: (thresholdKey, .double s.threshold) :: s.others

def default : Settings where
  places := defaultPlaces
  threshold := Status.defaultThreshold
  others := [(.str enabledName, .bool true), (.str syncName, .bool false), (.str tailBytesName, .null)]

def logs (s : Settings) : Bool := ((s.others.find? enabledName).getD (.bool true)).truthy

def syncs (s : Settings) : Bool := ((s.others.find? syncName).getD (.bool false)).truthy

def tailBytes (s : Settings) : Except ConversionError (Option Int) :=
  match (s.others.find? tailBytesName).getD .null with
  | .null => .ok none
  | value => value.toInt.map some

def readDocument (bytes : List UInt8) : Except SettingsError Yaml :=
  match Utf8.decode? bytes with
  | .error e => .error (.encoding e)
  | .ok text => (Yaml.read (unifyNewlines text)).mapError .document

def load (fs : Files) (dir : Path) : Except SettingsError Settings :=
  let path := dir.child settingsName
  match fs.exists? path with
  | .error e   => .error (.file e)
  | .ok false  => ofDocument .null
  | .ok true   =>
    match fs.read path with
    | .error e  => .error (.file e)
    | .ok bytes =>
      match readDocument bytes with
      | .ok document => ofDocument document
      | .error e     => .error e

def template : List Char :=
  ("# exprcalc project configuration\nprecision: 10\nlarge_result_threshold: 1.0e+12\nlogging_enabled: true\n" ++
    "# logging_fsync: false\n# logging_tail_bytes: 2097152\n").toList

end Settings

inductive TemplateError
  | file (e : FileError)
  | present (path : Path)

def TemplateError.message : TemplateError → List Char
  | .present path => "Config already exists: ".toList ++ path.text
  | .file _       => []

/-- Writes the template into a directory, which is made if it is not there.  The store comes back changed even if
the template is not written. -/
def Settings.create (fs : Files) (dir : Path) : Files × Except TemplateError Path :=
  let path := dir.child settingsName
  match fs.makeDirs dir with
  | (fs, some e) => (fs, .error (.file e))
  | (fs, none)   =>
    match fs.exists? path with
    | .error e   => (fs, .error (.file e))
    | .ok true   => (fs, .error (.present path))
    | .ok false  =>
      match fs.write path (Utf8.encode Settings.template) with
      | .ok fs   => (fs, .ok path)
      | .error e => (fs, .error (.file e))

namespace Utf8

def Reason.message : Reason → List Char
  | .start        => "invalid start byte".toList
  | .continuation => "invalid continuation byte".toList
  | .ending       => "unexpected end of data".toList

def DecodeError.message (e : DecodeError) : List Char :=
  "'utf-8' codec can't decode ".toList ++
    (match e.part with
      | [b] => "byte 0x".toList ++ hexDigits 2 b.toNat ++ " in position ".toList ++ natText e.position
      | part =>
        "bytes in position ".toList ++ natText e.position ++ '-' :: natText (e.position + part.length - 1)) ++
    ": ".toList ++ e.reason.message

end Utf8

namespace SettingsError

/-- What goes beyond what there is room for, which is no fault of the document's form. -/
def overflow? : SettingsError → Option Overflow
  | .conversion (.overflow o) => some o
  | .document e               => e.overflow?
  | _                         => none

def message (path : Path) : SettingsError → List Char
  | .file _       => []
  | .encoding e   => e.message
  | .document e   =>
    match e.message? with
    | some message => message
    | none         => "Invalid YAML in ".toList ++ path.text
  | .notAMapping  => path.text ++ " must contain a mapping".toList
  | .conversion (.overflow o) => o.message
  | .conversion e => "Invalid numeric setting in ".toList ++ path.text ++ ": ".toList ++ e.message

end SettingsError

end Abacus
