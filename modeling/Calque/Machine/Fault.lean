namespace Calque.Machine

inductive Fault
  | notPermitted
  | notFound
  | formatUnknown
  | accessDenied
  | busy
  | alreadyExists
  | notDirectory
  | isDirectory
  | nameTooLong
  | tooManyLevels
  | notText
  | nulInName
  | nulInArgument
  /-- A fault that is known by its text alone. -/
  | other (text : String)
  deriving DecidableEq, Repr

def withCode (text : String) (code : Nat) : String :=
  text ++ " (os error " ++ toString code ++ ")"

def Fault.message : Fault → String
  | .notPermitted => withCode "Operation not permitted" 1
  | .notFound => withCode "No such file or directory" 2
  | .formatUnknown => withCode "Exec format error" 8
  | .accessDenied => withCode "Permission denied" 13
  | .busy => withCode "Device or resource busy" 16
  | .alreadyExists => withCode "File exists" 17
  | .notDirectory => withCode "Not a directory" 20
  | .isDirectory => withCode "Is a directory" 21
  | .nameTooLong => withCode "File name too long" 36
  | .tooManyLevels => withCode "Too many levels of symbolic links" 40
  | .notText => "stream did not contain valid UTF-8"
  | .nulInName => "file name contained an unexpected NUL byte"
  | .nulInArgument => "nul byte found in provided data"
  | .other text => text

end Calque.Machine
