/-
  ConfigTemplate.Log.Line — one event as a line of the log file.

  (1) `Event.line`: a JSON object with the time, the level, the message with the
      event's fields, and the target.
-/
import ConfigTemplate.Log.Event
import ConfigTemplate.Json.Write

namespace ConfigTemplate.Log

open Json (writeText)

def Field.write : Field → List Char
  | .text s => writeText s
  | .count n => Nat.toDigits 10 n
  | .flag true => ['t', 'r', 'u', 'e']
  | .flag false => ['f', 'a', 'l', 's', 'e']

def writeField (f : String × Field) : List Char := ',' :: writeText f.1 ++ ':' :: f.2.write

def Event.line (e : Event) (stamp : String) : String :=
  String.ofList (
    "\x7b\"timestamp\":".toList ++ writeText stamp ++ ",\"level\":".toList ++ writeText e.level.upper ++
    ",\"fields\":\x7b\"message\":".toList ++ writeText e.message ++ e.fields.flatMap writeField ++
    "\x7d,\"target\":".toList ++ writeText e.target ++ "\x7d\n".toList)

end ConfigTemplate.Log
