import Stairway.Controller.Settings

/-!
# Servers for trials

Three releases of the server are kept at hand to try migrations on. Each is a service with a
published port; the ports follow the releases.
-/

namespace Stairway.Postgres

inductive Release where
  | fourteen
  | fifteen
  | sixteen
  deriving DecidableEq, Repr

namespace Release

def major : Release → Nat
  | fourteen => 14
  | fifteen => 15
  | sixteen => 16

def name (r : Release) : String := "postgres " ++ toString r.major

def service (r : Release) : String := "postgres" ++ toString r.major

def port (r : Release) : Nat := 15432 + (r.major - 14)

def ofMajor? (n : Nat) : Option Release := [fourteen, fifteen, sixteen].find? (·.major == n)

end Release

/-- How a server for trials is reached. -/
structure TrialServer where
  release : Release
  host : String := "localhost"
  user : String := "keel"
  password : String := "keel_test"
  /-- The database from which others are made. -/
  adminDatabase : String := "keel_test"
  deriving DecidableEq, Repr

namespace TrialServer

/-- The address of a database, its parts put together as they are. -/
def urlFor (t : TrialServer) (database : String) : String :=
  "postgres://" ++ t.user ++ ":" ++ t.password ++ "@" ++ t.host ++ ":" ++
    toString t.release.port ++ "/" ++ database

def adminUrl (t : TrialServer) : String := t.urlFor t.adminDatabase

/-- Settings of a controller for a database. -/
def settings (t : TrialServer) (database : String) : DatabaseSettings where
  host := t.host
  port := t.release.port
  user := t.user
  password := t.password
  name := database
  sslMode := "disable"

end TrialServer

end Stairway.Postgres
