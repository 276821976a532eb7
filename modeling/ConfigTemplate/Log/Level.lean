/-
  ConfigTemplate.Log.Level — how severe an event is.

  (1) `Level`, from the most to the least severe, and its two spellings.
  (2) `Level.ofName?`: a level by its name, in any case.
-/
import ConfigTemplate.Text.Caseless

namespace ConfigTemplate.Log

inductive Level where
  | error
  | warn
  | info
  | debug
  | trace
  deriving DecidableEq, Repr

namespace Level

/-- Lower is more severe. -/
def rank : Level → Nat
  | error => 1
  | warn => 2
  | info => 3
  | debug => 4
  | trace => 5

def upper : Level → String
  | error => "ERROR"
  | warn => "WARN"
  | info => "INFO"
  | debug => "DEBUG"
  | trace => "TRACE"

def ofName? (s : String) : Option Level :=
  if Text.isWord "trace" s then some trace
  else if Text.isWord "debug" s then some debug
  else if Text.isWord "info" s then some info
  else if Text.isWord "warn" s then some warn
  else if Text.isWord "error" s then some error
  else none

end Level

end ConfigTemplate.Log
