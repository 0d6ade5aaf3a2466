import BlogLedger.Transition.Handler

/-!
# Routes

Which handler answers the messages of a path.  The ledger keeps two tables: one for transactions and
one for messages fired by the scheduler.

An account and the scheduler may both ask for the deletion of an article, under one path.  Two
tables keep their handlers apart, since the one needs a signature and the other a task.

## Main Definitions

* `Routes` — a table of handlers by path, in the order of paths.
* `Routes.add`, `Routes.route` — register a handler, and find the one for a message.
* `Routes.submitted`, `Routes.fired` — the two tables of the ledger.
-/

namespace BlogLedger

/-- Handlers by path, in ascending order of paths. -/
abbrev Routes := List (String × Handler)

namespace Routes

/-- Put a handler in the place of its path. -/
def insert (path : String) (handler : Handler) : Routes → Routes
  | [] => [(path, handler)]
  | r :: rest =>
    if path < r.1 then (path, handler) :: r :: rest
    else r :: insert path handler rest

/-- Register a handler; a path has one at most. -/
def add (path : String) (handler : Handler) (routes : Routes) : Except Failure Routes :=
  if (routes.lookup path).isSome then fail (.pathTaken path)
  else .ok (routes.insert path handler)

/-- The paths, ascending. -/
def paths (routes : Routes) : List String := routes.map Prod.fst

/-- The handler for a message. -/
def route (routes : Routes) (m : Message) : Except Failure Handler :=
  match routes.lookup m.path with
  | some handler => .ok handler
  | none => fail (.noHandler m.path)

/-- Register the handlers of all submitted messages, up to the first path that is taken. -/
def addAll : List Message.Kind → Routes → Except Failure Unit × Routes
  | [], routes => (.ok (), routes)
  | kind :: rest, routes =>
    match routes.add kind.path (.submitted kind) with
    | .ok routes => addAll rest routes
    | .error f => (.error f, routes)

/-- Register the handlers of all submitted messages. -/
def addSubmitted (routes : Routes) : Except Failure Unit × Routes :=
  addAll Message.Kind.all routes

/-- Register the handler of the messages fired by the scheduler. -/
def addFired (routes : Routes) : Except Failure Routes :=
  routes.add Message.Kind.deleteArticle.path .firedDeletion

/-- The table for transactions. -/
def submitted : Routes := (addSubmitted []).2

/-- The table for messages fired by the scheduler. -/
def fired : Routes := [(Message.Kind.deleteArticle.path, .firedDeletion)]

/-- A table in words. -/
def display (routes : Routes) : String :=
  "Router \x7b paths: [" ++ String.intercalate ", " (routes.paths.map Quoted.text) ++ "] \x7d"

end Routes

end BlogLedger
