/-
  ConfigTemplate.Log.Filter — which events are kept.

  (1) `Filter.keeps`: of the directives that fit an event, the one with the longest
      target decides, then one that names a field; without one, nothing is kept.
  (2) `Filter.ofText?`: directives separated by commas; if there is none at all, errors
      are kept.
-/
import ConfigTemplate.Log.Directive
import ConfigTemplate.Text.Split

namespace ConfigTemplate.Log

abbrev Filter := List Directive

namespace Filter

/-! ## (1) Keeping events -/

/-- One more directive: it takes the place of one that yields to it. -/
def prefer (best : Option Directive) (d : Directive) : Option Directive :=
  match best with
  | none => some d
  | some b => if b.yields d then some d else some b

/-- The directive that decides; of two that say the same, the later. -/
def deciding (f : Filter) (e : Event) : Option Directive := (f.filter (·.fits e)).foldl prefer none

def keeps (f : Filter) (e : Event) : Bool :=
  match (f.deciding e).bind (·.upTo) with
  | none => false
  | some level => e.level.rank ≤ level.rank

/-- The program's own events up to a level. -/
def upTo (level : Level) : Filter := [{ target := some "cfgtemplate", upTo := some level }]

/-! ## (2) Reading directives -/

def ofText? (text : String) : Option Filter :=
  match ((Text.splitText ',' text).filter (· != "")).mapM Directive.ofText? with
  | some [] => some [{ target := none, upTo := some .error }]
  | r => r

end Filter

end ConfigTemplate.Log
