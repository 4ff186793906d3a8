import Calque.Json.Token

namespace Calque.Json

inductive Frame
  | list
  | object
  deriving DecidableEq, Repr

inductive Expected
  /-- A value, or nothing right after the opening of a container (`first`). -/
  | value (first : Bool)
  | key
  | colon
  /-- A separator or the end of the innermost container. -/
  | more
  deriving DecidableEq, Repr

/-- The state in the middle of a value; with no frame left and `more` expected the value is over. -/
structure Skipping where
  expected : Expected
  frames : List Frame
  deriving DecidableEq, Repr

def Frame.unfinished : Frame → Unfinished
  | .list => .list
  | .object => .object

def Frame.missingSeparator : Frame → Fault
  | .list => .expectedListSeparator
  | .object => .expectedObjectSeparator

def Frame.closes : Frame → Token → Bool
  | .list, .closeBracket => true
  | .object, .closeBrace => true
  | _, _ => false

def Frame.entry : Frame → Expected
  | .list => .value false
  | .object => .key

namespace Skipping

def passValue (frames : List Frame) : Token → Except Fault Skipping
  | .openBracket => .ok ⟨.value true, .list :: frames⟩
  | .openBrace => .ok ⟨.value true, .object :: frames⟩
  | .scalar _ pass => pass.map fun _ => ⟨.more, frames⟩
  | .string _ pass => pass.map fun _ => ⟨.more, frames⟩
  | _ => .error .expectedValue

def passKey (frames : List Frame) : Token → Except Fault Skipping
  | .string _ pass => pass.map fun _ => ⟨.colon, frames⟩
  | _ => .error .keyNotString

def passEntry (frames : List Frame) : Expected → Token → Except Fault Skipping
  | .key, t => passKey frames t
  | _, t => passValue frames t

def step (s : Skipping) (t : Token) : Except Fault Skipping :=
  match s.expected, s.frames with
  | .value true, f :: fs =>
    if f.closes t then .ok ⟨.more, fs⟩ else passEntry (f :: fs) f.entry t
  | .value _, fs => passValue fs t
  | .key, fs => passKey fs t
  | .colon, fs =>
    match t with
    | .colon => .ok ⟨.value false, fs⟩
    | _ => .error .expectedColon
  | .more, [] => .ok s
  | .more, f :: fs =>
    if f.closes t then .ok ⟨.more, fs⟩
    else match t with
      | .comma => .ok ⟨f.entry, f :: fs⟩
      | _ => .error f.missingSeparator

def unfinished (s : Skipping) : Unfinished :=
  match s.expected, s.frames with
  | .value false, _ => .value
  | _, [] => .value
  | _, f :: _ => f.unfinished

def isOver (s : Skipping) : Bool := s.expected = .more && s.frames.isEmpty

end Skipping

def skipFrom (s : Skipping) : List Token → Except Fault (List Token)
  | [] => if s.isOver then .ok [] else .error (.ended s.unfinished)
  | t :: ts =>
    if s.isOver then .ok (t :: ts)
    else match s.step t with
      | .ok s => skipFrom s ts
      | .error fault => .error fault

def skip (ts : List Token) : Except Fault (List Token) := skipFrom ⟨.value false, []⟩ ts

end Calque.Json
