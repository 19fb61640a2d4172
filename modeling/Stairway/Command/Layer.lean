import Stairway.Controller.Settings

/-!
# Layers of settings

The settings of a run come from three places: the command line with its environment, a file, and
what is built in. Each of the first two is a `Layer`, which says something about some settings and
nothing about others; `Layer.onto` puts one on top of another and `Layer.resolve` puts what is built
in below.
-/

namespace Stairway.Command

structure Layer where
  migrationsPath : Option String := none
  timeoutSeconds : Option Nat := none
  host : Option String := none
  port : Option Nat := none
  user : Option String := none
  password : Option String := none
  database : Option String := none
  sslMode : Option String := none
  attempts : Option Nat := none
  initialDelayMillis : Option Nat := none
  limitDelayMillis : Option Nat := none
  deriving DecidableEq, Repr

/-- The settings of one run. -/
structure RunSettings where
  controller : Settings
  /-- How long connecting and the operation may take together. -/
  timeout : Option Duration
  deriving DecidableEq, Repr

namespace Layer

/-- What the upper layer says, and where it says nothing what the lower one does. -/
def onto (upper lower : Layer) : Layer where
  migrationsPath := upper.migrationsPath.or lower.migrationsPath
  timeoutSeconds := upper.timeoutSeconds.or lower.timeoutSeconds
  host := upper.host.or lower.host
  port := upper.port.or lower.port
  user := upper.user.or lower.user
  password := upper.password.or lower.password
  database := upper.database.or lower.database
  sslMode := upper.sslMode.or lower.sslMode
  attempts := upper.attempts.or lower.attempts
  initialDelayMillis := upper.initialDelayMillis.or lower.initialDelayMillis
  limitDelayMillis := upper.limitDelayMillis.or lower.limitDelayMillis

/-- The settings with everything built in that the layer leaves open. A timeout of zero seconds is
none. -/
def resolve (l : Layer) : RunSettings :=
  let s : Settings := {}
  let d := s.database
  { controller :=
      { s with
        migrationsPath := l.migrationsPath.getD s.migrationsPath
        database :=
          { host := l.host.getD d.host
            port := l.port.getD d.port
            user := l.user.getD d.user
            password := l.password.getD d.password
            name := l.database.getD d.name
            sslMode := l.sslMode.getD d.sslMode }
        retry :=
          { attempts := l.attempts.getD s.retry.attempts
            initialDelay := (l.initialDelayMillis.map Duration.ofMillis).getD s.retry.initialDelay
            limitDelay := (l.limitDelayMillis.map Duration.ofMillis).getD s.retry.limitDelay } }
    timeout := (l.timeoutSeconds.filter (0 < ·)).map Duration.ofSeconds }

end Layer

end Stairway.Command
