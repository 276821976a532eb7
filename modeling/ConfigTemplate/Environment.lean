/-
  ConfigTemplate.Environment — the variables of the process environment.

  (1) `Environment.get?`: the text of a variable; a value that is no UTF-8 counts as
      not set.
-/

namespace ConfigTemplate

structure Environment where
  entries : List (String × ByteArray)

def Environment.get? (env : Environment) (name : String) : Option String :=
  (env.entries.lookup name).bind String.fromUTF8?

end ConfigTemplate
