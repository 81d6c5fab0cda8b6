import CheckedPass.Value.Form
/-!
# Environments

Finite maps from names to values. Binding a name again shadows what it stood for.
-/

namespace CheckedPass.Env

def get? (env : Env) (name : String) : Option Value :=
  Ascending.get? name env

def bind (env : Env) (name : String) (value : Value) : Env :=
  Ascending.put name value env

/-- The environment extended by `bindings`, one after the other, so a later one shadows. -/
def extend (env : Env) (bindings : List (String × Value)) : Env :=
  Ascending.putAll env bindings

def ofBindings (bindings : List (String × Value)) : Env :=
  extend [] bindings

def contains (env : Env) (name : String) : Bool :=
  (env.get? name).isSome

/-- The bound names, ascending. -/
def names (env : Env) : List String :=
  Ascending.keys env

/-- The values, in the order of their names. -/
def values (env : Env) : List Value :=
  env.map Prod.snd

/-- Both bind the same names. -/
def sameNames (env env' : Env) : Bool :=
  env.names = env'.names

/-- By the bindings in turn, a name before its value. -/
def order (env env' : Env) : Ordering :=
  Value.orderEnv env env'

end CheckedPass.Env

namespace CheckedPass

/-- An environment in order throughout: its names ascend, and so do elements, keys and names in all
that it binds. -/
structure OrderedEnv where
  bindings : Env
  names_ascending : Ascending.isAscending bindings.names = true
  values_ordered : Value.isOrderedEnv bindings = true

end CheckedPass
