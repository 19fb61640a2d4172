import Stairway.Controller.Transition
import Stairway.Postgres.Engine
import Stairway.Proofs.Migrations.Plan
import Stairway.Proofs.Program.Protocol

/-!
# What a session knows

`Standing` is what a session has been told so far, kept beside its program: how often it holds the
lock, what its transaction would leave recorded, which rows it has read since its operation began,
and the row that it knows to be recorded because nobody else can have written since. `Standing.hear`
goes on with an answer.

`etiquette` is the protocol of an operation in these terms. It allows a script and the writing of a
version only under the lock, and only such as follow from what was read: with one row read, a
rollback may mark its dirty version clean; with a second row, read under the lock, steps lead from
there to the version that is desired. The protocol says nothing about the recorded row itself, which
others may write.
-/

namespace Stairway.Postgres

/-- What a row says of a schema; one without a version is clean at 0. -/
def schemaOf (row : Option Row) : SchemaVersion := (Plant.ofRow row).getD ⟨0, false⟩

/-- The version that a row stands for. -/
abbrev level (row : Option Row) : Nat := (schemaOf row).version

abbrev isDirty (row : Option Row) : Bool := (schemaOf row).dirty

/-- The row that writing a version leaves. -/
def written (version : Int) (dirty : Bool) : Option Row :=
  if Plant.hasRow version dirty then some ⟨version, dirty⟩ else none

/-- What a transaction under way would leave recorded. -/
inductive Draft where
  | closed
  /-- The transaction has written nothing yet. -/
  | blank
  | row (r : Option Row)
  deriving DecidableEq

structure Standing where
  /-- How often the session holds the lock. -/
  locks : Nat := 0
  draft : Draft := .closed
  owesRollback : Bool := false
  /-- The rows that the operation has read, in order. -/
  reads : List (Option Row) := []
  /-- The recorded row, where it was read or written under the lock. -/
  known : Option (Option Row) := none
  /-- The script that was read last. -/
  script : Option (Direction × Nat) := none
  /-- Whether the operation has written a version. -/
  hasWritten : Bool := false
  deriving DecidableEq

namespace Standing

/-! ## Answers -/

/-- A transaction is committed. -/
def publish (s : Standing) : Standing :=
  match s.draft with
  | .row r => { s with draft := .closed, known := some r, hasWritten := true }
  | _ => { s with draft := .closed }

def hearReply (s : Standing) : (q : Statement) → q.Reply → Standing
  | .tryLock _, gotIt => if gotIt then { s with locks := s.locks + 1 } else s
  | .unlock _, hadIt => if hadIt then { s with locks := s.locks - 1, known := none } else s
  | .createTable _, _ => s
  | .selectRow _, row =>
    { s with reads := s.reads ++ [row], known := if 0 < s.locks then some row else none }
  | .beginTransaction, _ => { s with draft := .blank }
  | .truncate _, _ => { s with draft := .row none }
  | .insert _ row, _ => { s with draft := .row (some row) }
  | .commit, _ => s.publish
  | .rollback, _ => { s with draft := .closed }
  | .script .., _ => s

/-- Only the session itself decides what it owes. -/
theorem hearReply_owed {s : Standing} (q : Statement) (reply : q.Reply) :
    (s.hearReply q reply).owesRollback = s.owesRollback := by
  cases q with
  | tryLock key | unlock key =>
    simp only [hearReply]
    split <;> rfl
  | commit =>
    simp only [hearReply, publish]
    split <;> rfl
  | _ => rfl

def hear (s : Standing) : (r : Request) → r.Answer → Standing
  | .statement q, .ok reply => s.hearReply q reply
  | .statement .commit, .error _ => { s with draft := .closed }
  | .oweRollback, _ => { s with owesRollback := true }
  | .takeOwedRollback, _ => { s with owesRollback := false }
  | .readScript d v _, .ok _ => { s with script := some (d, v) }
  | _, _ => s

/-- What a session remembers when its next operation begins. -/
def fresh (s : Standing) : Standing :=
  { s with reads := [], known := none, script := none, hasWritten := false }

end Standing

/-! ## The protocol of an operation -/

/-- Whether an operation moves the schema, once it has read this row. -/
def Migrates : Transition → Nat → Option Row → Prop
  | .assert, _, _ => False
  | .apply, desired, first => isDirty first = false ∧ level first < desired
  | .rollback, desired, first => desired < level first

/-- A step on the way from a row to the version that is desired: a dirty row is one step further, a
clean one confirms the version that is recorded. -/
def Advances (desired : Nat) (again before after : Option Row) : Prop :=
  ∃ d : Direction, d.Leads (level again) desired ∧
    if isDirty after then d.Leads (level before) (level after) else level after = level before

/-- What a rollback makes of the dirty row that it has read. -/
def Mends (kind : Transition) (first after : Option Row) : Prop :=
  kind = .rollback ∧ isDirty first = true ∧ after = some ⟨level first, false⟩

/-- Whether an operation may write a version. What a step leads to is said of sources whose versions
fit the version table; any other version is recorded as a different one. -/
def Writes (p : Plant) (kind : Transition) (desired : Nat) (s : Standing)
    (after : Option Row) : Prop :=
  match s.reads with
  | [first] => s.hasWritten = false ∧ Mends kind first after
  | [first, again] =>
    Migrates kind desired first ∧
      (p.source.Fits → ∃ before, s.known = some before ∧ Advances desired again before after)
  | _ => False

/-- Whether an operation may run a script of a direction. -/
def Runs (kind : Transition) (desired : Nat) (s : Standing) (d : Direction) : Prop :=
  match s.reads with
  | [first, again] => Migrates kind desired first ∧ d.Leads (level again) desired
  | _ => False

variable (p : Plant) (kind : Transition) (desired : Nat)

def Standing.AllowsStatement (s : Standing) : Statement → Prop
  | .tryLock key => key = p.target.lockKey
  | .unlock key => key = p.target.lockKey
  | .selectRow t => t = p.table ∧ s.draft = .closed
  | .truncate t => t = p.table ∧ s.draft ≠ .closed
  | .insert t _ => t = p.table ∧ s.draft ≠ .closed
  | .commit => 0 < s.locks ∧ ∃ r, s.draft = .row r ∧ Writes p kind desired s r
  | .script .. => 0 < s.locks ∧ ∃ d v, s.script = some (d, v) ∧ Runs kind desired s d
  | .beginTransaction => s.draft = .closed
  | .createTable _ | .rollback => True

def Standing.Allows (s : Standing) : Request → Prop
  | .statement q => s.AllowsStatement p kind desired q
  | .connect _ => False
  | _ => True

/-- What is known of an answer before it comes. A rollback is never refused: a server that does not
end a transaction has lost the client. -/
def Standing.Expects (s : Standing) : (r : Request) → r.Answer → Prop
  | .takeOwedRollback, owed => owed = s.owesRollback
  | .statement .rollback, a => a = .ok ()
  | _, _ => True

/-- The protocol of an operation of one kind, with the version that it shall lead to. -/
def etiquette : Protocol interface Standing where
  allows s r := s.Allows p kind desired r
  leads s r a t := s.Expects r a ∧ t = s.hear r a

end Stairway.Postgres
