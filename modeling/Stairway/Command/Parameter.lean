import Stairway.Command.Layer
import Stairway.Text.Number

/-!
# Parameters of the command line

Everything that takes a value: how it is written on the command line, which variable of the
environment gives it where the command line does not, and which texts are values of it.
-/

namespace Stairway.Command

/-- Why a command line is not carried out, by kind; asking for help is one of them. -/
inductive UsageError where
  | displayHelp
  | displayVersion
  /-- Nothing was said at all. -/
  | helpOnMissing
  | invalidSubcommand
  | missingSubcommand
  | missingRequiredArgument
  | unknownArgument
  | argumentConflict
  /-- A value is missing, or may not be empty. -/
  | invalidValue
  | valueValidation
  | tooManyValues
  deriving DecidableEq, Repr

/-- Help that was asked for is no failure. -/
def UsageError.exitCode : UsageError → UInt32
  | displayHelp | displayVersion => 0
  | _ => 2

inductive Parameter where
  | config
  | migrations
  | host
  | port
  | user
  | password
  | database
  | sslMode
  | timeoutSeconds
  | retryAttempts
  | retryInitialDelay
  | retryLimitDelay
  deriving DecidableEq, Repr

namespace Parameter

/-- In the order in which they are looked up in the environment. -/
def all : List Parameter :=
  [config, migrations, host, port, user, password, database, sslMode, timeoutSeconds, retryAttempts,
    retryInitialDelay, retryLimitDelay]

/-- The name after the two dashes. -/
def flag : Parameter → String
  | config => "config"
  | migrations => "migrations"
  | host => "host"
  | port => "port"
  | user => "user"
  | password => "password"
  | database => "database"
  | sslMode => "sslmode"
  | timeoutSeconds => "timeout-secs"
  | retryAttempts => "retry-attempts"
  | retryInitialDelay => "retry-initial-delay-ms"
  | retryLimitDelay => "retry-limit-delay-ms"

/-- The variable of the environment. -/
def variable_ : Parameter → String
  | config => "KEEL_CONFIG"
  | migrations => "KEEL_MIGRATIONS"
  | host => "KEEL_HOST"
  | port => "KEEL_PORT"
  | user => "KEEL_USER"
  | password => "KEEL_PASSWORD"
  | database => "KEEL_DATABASE"
  | sslMode => "KEEL_SSLMODE"
  | timeoutSeconds => "KEEL_TIMEOUT_SECS"
  | retryAttempts => "KEEL_RETRY_ATTEMPTS"
  | retryInitialDelay => "KEEL_RETRY_INITIAL_DELAY_MS"
  | retryLimitDelay => "KEEL_RETRY_LIMIT_DELAY_MS"

def ofFlag? (name : String) : Option Parameter := all.find? (·.flag == name)

/-- A number that is read with a sign; of the negative ones only zero is small enough. -/
def readSigned? (largest : Nat) (s : String) : Option Nat :=
  match s.toList with
  | '-' :: digits =>
    match Text.readNumber largest digits with
    | .ok 0 => if digits.head? = some '+' then none else some 0
    | _ => none
  | _ => Text.readNumber? largest s

/-- The number that a text means as a value of the parameter, where that is a number. -/
def number? (p : Parameter) (s : String) : Option Nat :=
  match p with
  | port => readSigned? 0xFFFF s
  | retryAttempts => readSigned? 0xFFFFFFFF s
  | _ => Text.readNumber? 0xFFFFFFFFFFFFFFFF s

/-- Refuses a text that is no value of the parameter. -/
def check (p : Parameter) (s : String) : Except UsageError Unit :=
  match p with
  | config | migrations => if s.isEmpty then .error .invalidValue else .ok ()
  | host | user | password | database | sslMode => .ok ()
  | _ => if (p.number? s).isSome then .ok () else .error .valueValidation

end Parameter

/-- The layer that texts for parameters make. -/
def Layer.ofTexts (text : Parameter → Option String) : Layer :=
  let number (p : Parameter) : Option Nat := (text p).bind p.number?
  { migrationsPath := text .migrations
    timeoutSeconds := number .timeoutSeconds
    host := text .host
    port := number .port
    user := text .user
    password := text .password
    database := text .database
    sslMode := text .sslMode
    attempts := number .retryAttempts
    initialDelayMillis := number .retryInitialDelay
    limitDelayMillis := number .retryLimitDelay }

end Stairway.Command
