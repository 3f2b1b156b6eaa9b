import QualityGate.Json.Reader
import QualityGate.Json.Writer
import QualityGate.Schema.Reader
import QualityGate.Text.Utf8

/-! What can go wrong, by cause, and the text that reports it. -/

namespace QualityGate

def EncodingFault.message (f : EncodingFault) : String :=
  let which :=
    if f.stop = f.start + 1 then
      "byte 0x" ++ String.ofList (hexDigits 2 f.byte) ++ " in position " ++ toString f.start
    else "bytes in position " ++ toString f.start ++ "-" ++ toString (f.stop - 1)
  "'utf-8' codec can't decode " ++ which ++ ": " ++ f.reason

inductive FileFault where
  | notFound
  | alreadyExists
  | isDirectory
  | notDirectory
  | tooManyLinks
  | notPermitted
  deriving DecidableEq, Repr

def FileFault.number : FileFault → Nat
  | notPermitted => 1
  | notFound => 2
  | alreadyExists => 17
  | notDirectory => 20
  | isDirectory => 21
  | tooManyLinks => 40

def FileFault.text : FileFault → String
  | notPermitted => "Operation not permitted"
  | notFound => "No such file or directory"
  | alreadyExists => "File exists"
  | notDirectory => "Not a directory"
  | isDirectory => "Is a directory"
  | tooManyLinks => "Too many levels of symbolic links"

/-- What is known about a failure: a sentence, or the faults that a schema found. -/
inductive Detail where
  | text (s : String)
  /-- What was checked, and its faults; there are none where it could not be read at all. -/
  | faults (subject : String) (fs : List Schema.Fault)
  deriving DecidableEq, Repr

/-- The first line of the report about faults. -/
def faultCount (subject : String) (fs : List Schema.Fault) : String :=
  let n := max 1 fs.length
  toString n ++ " validation error" ++ (if n == 1 then "" else "s") ++ " for " ++ subject ++ "\n"

def Detail.message : Detail → String
  | text s => s
  | faults subject fs => faultCount subject fs

inductive Failure where
  | toolUnavailable (tool detail : String)
  | toolTimeout (tool : String) (seconds : Float)
  | unparsable (tool : String) (detail : Detail)
  | configInvalid (file : String) (detail : Detail)
  /-- The project could not be classified. -/
  | unclassified (detail : String)
  | hook (detail : String)
  /-- Any other failure the gate itself reports. -/
  | gate (detail : String)
  | invalid (faults : List Schema.Fault)
  | badValue (detail : String)
  | badType (detail : String)
  | missingKey (name : String)
  | missingMember (detail : String)
  | overflow (detail : String)
  | outOfRange (detail : String)
  | tooDeep (detail : String)
  | badPattern (detail : String)
  | json (fault : Json.LocatedFault)
  | encoding (fault : EncodingFault)
  | yaml
  | glob (pattern : String)
  | access (fault : FileFault) (path : String)
  | system (detail : String)
  | runtime (detail : String)
  /-- A text to be shown closes a style that is not open. -/
  | markup (detail : String)
  /-- The user asked to stop. -/
  | interrupted (detail : String)
  | cancelled

namespace Failure

def about (subject : String) (detail : String) : String :=
  if detail == "" then subject else subject ++ ": " ++ detail

/-- The last component of a path. -/
def baseName (path : String) : String :=
  let parts := (Text.splitAtChar '/' path.toList).filter fun p => !p.isEmpty && p != ['.']
  match parts.getLast? with
  | some p => String.ofList p
  | none => ""

def message : Failure → String
  | toolUnavailable tool detail => about ("Tool '" ++ tool ++ "' is not available") detail
  | toolTimeout tool seconds => "Tool '" ++ tool ++ "' timed out after " ++ Decimal.generalText seconds ++ " seconds"
  | unparsable tool detail => about ("Could not parse output of '" ++ tool ++ "'") detail.message
  | configInvalid file detail => about ("Invalid configuration file " ++ baseName file) detail.message
  | unclassified detail | hook detail | gate detail => detail
  | invalid faults => faultCount "Config" faults
  | badValue detail | badType detail | missingMember detail | overflow detail | outOfRange detail | tooDeep detail
  | badPattern detail => detail
  | missingKey name => Plain.quoted name
  | json fault => fault.message
  | encoding fault => fault.message
  | yaml => "the document is malformed"
  | glob pattern => "Invalid git pattern: " ++ Plain.quoted pattern
  | access fault path => "[Errno " ++ toString fault.number ++ "] " ++ fault.text ++ ": " ++ Plain.quoted path
  | system detail | runtime detail | markup detail | interrupted detail => detail
  | cancelled => ""

/-- Whether the sentence that reports the failure is the gate's own. -/
def isWorded : Failure → Bool
  | unparsable _ (.faults ..) | configInvalid _ (.faults ..) => false
  | _ => true

/-- Failures that end the whole run instead of being reported. -/
def endsRun : Failure → Bool
  | interrupted _ | cancelled => true
  | _ => false

/-- Failures that the gate itself reports. -/
def isGateFailure : Failure → Bool
  | toolUnavailable .. | toolTimeout .. | unparsable .. | configInvalid .. | unclassified _ | hook _ | gate _ => true
  | _ => false

/-- Failures of the file system. -/
def isSystem : Failure → Bool
  | access .. | system _ => true
  | _ => false

end Failure

/-- The outcome of something that can fail. -/
abbrev Outcome (α : Type) := Except Failure α

namespace Failure

/-- What it means that a text could not be read as JSON. -/
def ofJson (f : Json.LocatedFault) : Failure :=
  match f.problem with
  | .tooManyDigits _ => .badValue f.message
  | .tooDeep _ => .tooDeep f.message
  | _ => .json f

/-- A text is quoted in a report up to this many characters. -/
def quotedLength : Nat := 200

def ofNumeral (base : Nat) (cs : List Char) : Numeral.Fault → Failure
  | .tooLong digits => .badValue (Numeral.tooLongText digits)
  | .malformed =>
    let quoted := (Plain.quoted (String.ofList cs)).toList.take quotedLength
    .badValue ("invalid literal for int() with base " ++ toString base ++ ": " ++ String.ofList quoted)

def wholeNumber (base : Nat) (cs : List Char) : Outcome Int := (Numeral.whole base cs).mapError (ofNumeral base cs)

end Failure

def Schema.Checked.toOutcome {α : Type} (c : Schema.Checked α) : Outcome α :=
  Except.mapError Failure.invalid c

end QualityGate
