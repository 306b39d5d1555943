import FlowAtlas.Text.Quoted
import FlowAtlas.Text.Search
import FlowAtlas.Text.Utf8

/-! What stops a request. -/

namespace FlowAtlas

/-- What is wrong with a day or a time of a day. The offset is from the time of the prime meridian, in
seconds. -/
inductive MomentProblem where
  | year
  | month
  | day
  | hour
  | minute
  | second
  | offset (seconds : Int)
  deriving DecidableEq, Repr

namespace MomentProblem

def spanText (seconds : Int) : String :=
  let days := seconds.fdiv 86400
  let rest := seconds.fmod 86400
  let parts :=
    (if days = 0 then [] else ["days=" ++ toString days]) ++
      if rest = 0 then [] else ["seconds=" ++ toString rest]
  "datetime.timedelta(" ++ (if parts.isEmpty then "0" else Text.joinWith ", " parts) ++ ")"

def message : MomentProblem → String
  | year => "year 0 is out of range"
  | month => "month must be in 1..12"
  | day => "day is out of range for month"
  | hour => "hour must be in 0..23"
  | minute => "minute must be in 0..59"
  | second => "second must be in 0..59"
  | offset seconds =>
    "offset must be a timedelta strictly between -timedelta(hours=24) and timedelta(hours=24), not " ++
      spanText seconds ++ "."

end MomentProblem

inductive Fault where
  /-- A part of the settings is read like a mapping and is none; `kind` says what it is. -/
  | notAMapping (kind : String)
  | notAList (kind : String)
  | notAName (kind : String)
  | notAssignable (kind : String)
  | listAtKey
  | notANumber (kind : String)
  | badNumeral (text : String)
  | tooLarge
  | unknownHome
  | notADirectory (path : String)
  | linkLoop (path : String)
  | nullInPath
  /-- No names can be looked up in a directory on the way. -/
  | denied (path : String)
  | nameTooLong (path : String)
  | conflictingPatterns (patterns : List String)
  | undecodable (failure : Text.Utf8.Failure)
  | badInteger (base : Nat) (text : String)
  | tooManyDigits (count : Nat)
  | emptyNumeral
  | notAnAnswer (text : String)
  | noCharacter (code : Nat)
  | notAMoment
  | badMoment (problem : MomentProblem)
  deriving DecidableEq, Repr

namespace Fault

/-- Whether it is what the system says of a place, rather than of what is asked for there. -/
def isOfSystem : Fault → Bool
  | linkLoop _ | denied _ | nameTooLong _ => true
  | _ => false

def message : Fault → String
  | notAMapping kind => "'" ++ kind ++ "' object has no attribute 'get'"
  | notAList kind => "'" ++ kind ++ "' object is not iterable"
  | notAName kind => "unhashable type: '" ++ kind ++ "'"
  | notAssignable kind => "'" ++ kind ++ "' object does not support item assignment"
  | listAtKey => "list indices must be integers or slices, not str"
  | notANumber kind => "float() argument must be a string or a real number, not '" ++ kind ++ "'"
  | badNumeral text => "could not convert string to float: " ++ Text.quoted text
  | tooLarge => "int too large to convert to float"
  | unknownHome => "Could not determine home directory."
  | notADirectory path => "Path to watch must be a valid directory: " ++ path
  | linkLoop path => "Symlink loop from " ++ Text.quoted path
  | nullInPath => "embedded null byte"
  | denied path => "[Errno 13] Permission denied: " ++ Text.quoted path
  | nameTooLong path => "[Errno 36] File name too long: " ++ Text.quoted path
  | conflictingPatterns patterns =>
    "conflicting patterns \x60\x7b" ++ Text.joinWith ", " (patterns.map Text.quoted) ++
      "\x7d\x60 included and excluded"
  | undecodable failure => failure.message
  | badInteger base text =>
    "invalid literal for int() with base " ++ toString base ++ ": " ++ Text.quoted text
  | tooManyDigits count =>
    "Exceeds the limit (4300 digits) for integer string conversion: value has " ++ toString count ++
      " digits; use sys.set_int_max_str_digits() to increase the limit"
  | emptyNumeral => "string index out of range"
  | notAnAnswer text => Text.quoted text
  | noCharacter code =>
    if code < 0x80000000 then "chr() arg not in range(0x110000)"
    else "Python int too large to convert to C int"
  | notAMoment => "'NoneType' object has no attribute 'groupdict'"
  | badMoment problem => problem.message

end Fault
end FlowAtlas
