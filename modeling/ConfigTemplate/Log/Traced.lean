/-
  ConfigTemplate.Log.Traced — a computation that may fail, with the events it reports
  on the way.

  (1) `Traced`: the events in order, and the result. The events before a failure stay.
  (2) `ok`, `fail`, `report`, `bind`: a failure ends the computation.
-/
import ConfigTemplate.Log.Event

namespace ConfigTemplate.Log

structure Traced (ε α : Type) where
  events : List Event
  result : Except ε α

namespace Traced

def ok (a : α) : Traced ε α := ⟨[], .ok a⟩

def fail (e : ε) : Traced ε α := ⟨[], .error e⟩

def report (event : Event) : Traced ε Unit := ⟨[event], .ok ()⟩

def bind (t : Traced ε α) (f : α → Traced ε β) : Traced ε β :=
  match t.result with
  | .ok a => ⟨t.events ++ (f a).events, (f a).result⟩
  | .error e => ⟨t.events, .error e⟩

instance : Monad (Traced ε) where
  pure := ok
  bind := bind

def ofExcept : Except ε α → Traced ε α
  | .ok a => ok a
  | .error e => fail e

/-- The same with another kind of failure. -/
def mapError (f : ε → ε') (t : Traced ε α) : Traced ε' α := ⟨t.events, t.result.mapError f⟩

end Traced

end ConfigTemplate.Log
