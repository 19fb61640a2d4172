import Stairway.Command.Home
import Stairway.Command.Invocation
import Stairway.Command.Report
import Stairway.Controller.Connect
import Stairway.Controller.Schedule
import Stairway.Postgres.Engine

/-!
# Running an operation

One run connects, performs one transition and closes. Connecting and the transition share the time
that the settings give; closing has ten seconds of its own, so that a transition that ran out of
time is still stopped in good order. What the transition reports comes before what closing reports.

`execute` is a whole invocation: the command line, the settings file, the directory for logs, the
run, and what is said of its failure.
-/

namespace Stairway.Command

open Postgres

/-- How long closing may take. -/
def closeTimeout : Duration := Duration.ofSeconds 10

/-- Writes a line to the session's log. -/
def note (s : Site) (line : String) : Site :=
  { s with session := { s.session with log := s.session.log ++ [line] } }

/-- What a run reports: what the transition reports, else what closing reports. -/
def conclude (kind : Transition) (version : Nat) (outcome closed : Except Failure Unit) (s : Site) :
    Except Failure Unit × Site :=
  match outcome, closed with
  | .ok (), .ok () => (.ok (), note s (kind.name ++ " " ++ toString version ++ " finished"))
  | .ok (), .error f => (.error f, s)
  | .error f, .ok () => (.error f, s)
  | .error f, .error g => (.error f, note s ("Failed to close migrator: " ++ g.message))

/-- Performs a transition with an open engine and closes it. `none`: the run never ends. -/
def operate (plant : Plant) (alreadyClosed : Pattern) (kind : Transition) (version : Nat)
    (deadline expiry : Option Instant) (sched : Schedule interface Site) :
    Option (Except Failure Unit × Site) := do
  let (outcome, sched) := sched.perform plant.engine kind version deadline expiry
  let (closed, sched) :=
    sched.close plant.engine alreadyClosed.isMatch (Instant.later? sched.now closeTimeout)
  return conclude kind version (← outcome) (← closed) sched.engine

/-- One run, from the instant 0. `interrupt` is when somebody asks for it to be broken off. -/
def run (s : RunSettings) (kind : Transition) (version : Nat) (interrupt : Option Instant)
    (site : Site) :
    Option (Except Failure Unit × Site) :=
  let deadline := s.timeout.bind (Instant.later? 0)
  let expiry := Instant.earlier deadline interrupt
  let site := note site ("Migrations source " ++ s.controller.migrationsPath)
  match s.controller.address with
  | .error f => some (.error f, site)
  | .ok address =>
    let body := s.controller.connecting (fun line => Program.request (I := interface) (.log line))
      (Postgres.connect address.sourceUrl address.databaseUrl)
    match runUnder 0 expiry site body with
    | (none, _) => none
    | (some (_, .error f), p) => some (.error f, p.machine)
    | (some (t, .ok plant), p) =>
      operate plant address.alreadyClosed kind version deadline expiry
        { engine := note p.machine s.controller.connected, now := t }

/-- The instant right after a statement with this text in it first came to the server. -/
def firstSight (s : Server) (text : String) : Option Instant :=
  (s.events.find? fun (_, e) =>
    match e with
    | .statement q => occursIn text.toList q.sql.toList
    | .connected _ _ _ => false).map (·.1 + 1)

/-- One run that is broken off as soon as a statement with a certain text comes to the server. -/
def runUntil (s : RunSettings) (kind : Transition) (version : Nat) (text : Option String)
    (site : Site) :
    Option (Except Failure Unit × Site) :=
  match text, run s kind version none site with
  | some text, some (_, after) =>
    match firstSight after.server text with
    | some t => run s kind version (some t) site
    | none => run s kind version none site
  | _, result => result

/-! ## A whole invocation -/

/-- What surrounds an invocation. -/
structure Surroundings where
  arguments : List String
  environment : List (String × String) := []
  /-- The home that belongs to the account which the program runs under. -/
  accountHome : Option String := none
  site : Site := {}
  /-- A statement on whose arrival the run is broken off. -/
  interruptOn : Option String := none

/-- What is left of an invocation. -/
structure Aftermath where
  exitCode : UInt32
  /-- What is said to the person who runs the program. -/
  messages : List String := []
  site : Site

/-- Makes the directory for logs; a failure is a warning. -/
def prepareLogs (s : Surroundings) : List String × Site :=
  let homes : Homes :=
    ⟨s.environment.lookup "KEEL_HOME", s.environment.lookup "HOME", s.accountHome⟩
  match homes.ensureLogs s.site.session.files with
  | .ok (_, files) => ([], { s.site with session := { s.site.session with files } })
  | .error e =>
    (["Warning: failed to initialize logging: Failed to ensure log directory: " ++ e.message],
      s.site)

/-- Reads the settings file, if one is named, and runs. `none`: the run never ends. -/
def carryOut (i : Invocation) (interruptOn : Option String) (site : Site) :
    Option (Except Report Unit × Site) := do
  match i.config.elim (.ok {}) (Layer.load site.session.files) with
  | .error e => return (.error (.ofFile e), site)
  | .ok file =>
    let (result, site) ← runUntil (i.layer.onto file).resolve i.operation i.version interruptOn site
    return (result.mapError .ofFailure, site)

/-- A whole invocation. `none`: it never ends. -/
def execute (s : Surroundings) : Option Aftermath :=
  match Invocation.parse s.arguments s.environment with
  | .error e => some { exitCode := e.exitCode, site := s.site }
  | .ok i => do
    let (warnings, site) := prepareLogs s
    match ← carryOut i s.interruptOn site with
    | (.ok (), site) => return { exitCode := 0, messages := warnings, site }
    | (.error report, site) =>
      let messages := warnings ++ ["Error: " ++ report.message]
      return { exitCode := report.exitCode, messages, site }

end Stairway.Command
