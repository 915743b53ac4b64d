import RecordCodec.Text.Quoted

/-!
This module contains the faults that every stage of the library reports: what went wrong, in which
stage, at which field, and how that reads as one line of text.
-/

namespace RecordCodec

structure Phase where
  name : String
  deriving DecidableEq, Repr, Inhabited

namespace Phase

def classify : Phase := ⟨"classify"⟩
def plan : Phase := ⟨"plan"⟩
def bind : Phase := ⟨"bind"⟩
def encode : Phase := ⟨"encode"⟩
def decode : Phase := ⟨"decode"⟩
def emit : Phase := ⟨"emit"⟩
def load : Phase := ⟨"load"⟩

end Phase

structure FaultKind where
  name : String
  deriving DecidableEq, Repr, Inhabited

namespace FaultKind

def unsupportedType : FaultKind := ⟨"unsupported_type"⟩
def emissionFailure : FaultKind := ⟨"emission_failure"⟩
def duplicateField : FaultKind := ⟨"duplicate_field"⟩
def invalidName : FaultKind := ⟨"invalid_name"⟩
def typeMismatch : FaultKind := ⟨"type_mismatch"⟩
def fieldMissing : FaultKind := ⟨"field_missing"⟩
def nilPointer : FaultKind := ⟨"nil_pointer"⟩
def invalidInput : FaultKind := ⟨"invalid_input"⟩
def notFound : FaultKind := ⟨"not_found"⟩
def emptyRecord : FaultKind := ⟨"empty_record"⟩

end FaultKind

/--
What led to a fault: another fault, a remark in words, or a failure of the surrounding system, whose
words are not ours.
-/
inductive Cause (α : Type) where
  | fault (f : α)
  | remark (text : String)
  | system
  deriving Repr

/--
A failure of one stage. `record` and `path` locate the field; `hostType` and `typeText` name the two
sides of a binding. Empty texts are unknown ones.
-/
structure Fault where
  phase : Phase
  kind : FaultKind
  record : String := ""
  path : List String := []
  hostType : String := ""
  typeText : String := ""
  value : Option String := none
  detail : String := ""
  cause : Option (Cause Fault) := none
  deriving Repr, Inhabited

namespace Fault

def location (f : Fault) : String :=
  if f.record == "" then ".".intercalate f.path
  else if f.path.isEmpty then f.record
  else f.record ++ "." ++ ".".intercalate f.path

def types (f : Fault) : String :=
  if f.hostType != "" && f.typeText != "" then
    "Go type " ++ f.hostType ++ ", type " ++ f.typeText
  else if f.hostType != "" then "Go type " ++ f.hostType
  else if f.typeText != "" then "type " ++ f.typeText
  else ""

def headline (f : Fault) : String :=
  let start := "[" ++ f.phase.name ++ "] " ++ f.kind.name
  let start := if f.location == "" then start else start ++ " at " ++ f.location
  let (start, sep) := if f.types == "" then (start, ": ") else (start ++ ": " ++ f.types, " - ")
  if f.detail == "" then start else start ++ sep ++ f.detail

def message : Fault → String
  | f@⟨_, _, _, _, _, _, _, _, cause⟩ =>
    match cause with
    | some (.fault g) => f.headline ++ " (caused by: " ++ message g ++ ")"
    | some (.remark text) => f.headline ++ " (caused by: " ++ text ++ ")"
    | some .system | none => f.headline

def isLike (f target : Fault) : Bool :=
  f.kind == target.kind && (target.phase.name == "" || target.phase == f.phase)

def chainIsLike (target : Fault) : Fault → Bool
  | f@⟨_, _, _, _, _, _, _, _, cause⟩ =>
    f.isLike target ||
      match cause with
      | some (.fault g) => chainIsLike target g
      | _ => false

def isForeign (f : Fault) : Bool :=
  match f.cause with
  | some .system => true
  | _ => false

def unsupportedType (record field typeText : String) : Fault where
  phase := .classify
  kind := .unsupportedType
  record := record
  path := [field]
  typeText := typeText

def emissionFailure (detail : String) (cause : Option (Cause Fault) := none) : Fault where
  phase := .emit
  kind := .emissionFailure
  detail := detail
  cause := cause

def duplicateField (record field : String) : Fault where
  phase := .plan
  kind := .duplicateField
  record := record
  path := [field]
  detail := "field " ++ Text.quote field ++ " declared more than once"

def invalidName (phase : Phase) (record name : String) : Fault where
  phase := phase
  kind := .invalidName
  record := record
  value := some name
  detail := Text.quote name ++ " is not a valid identifier"

def typeMismatch (phase : Phase) (record : String) (path : List String)
    (hostType typeText : String) : Fault where
  phase := phase
  kind := .typeMismatch
  record := record
  path := path
  hostType := hostType
  typeText := typeText

def fieldMissing (phase : Phase) (record field : String) : Fault where
  phase := phase
  kind := .fieldMissing
  record := record
  path := [field]
  detail := "required field " ++ Text.quote field ++ " not found"

def nilPointer (phase : Phase) (hostType : String) : Fault where
  phase := phase
  kind := .nilPointer
  hostType := hostType
  detail := "nil pointer"

def notFound (phase : Phase) (what name : String) (cause : Option (Cause Fault) := none) :
    Fault where
  phase := phase
  kind := .notFound
  path := [name]
  detail := what ++ " " ++ Text.quote name ++ " not found"
  cause := cause

def invalidInput (phase : Phase) (detail : String) : Fault where
  phase := phase
  kind := .invalidInput
  detail := detail

def wrap (phase : Phase) (kind : FaultKind) (detail : String)
    (cause : Option (Cause Fault) := none) : Fault where
  phase := phase
  kind := kind
  detail := detail
  cause := cause

end Fault

end RecordCodec
