import Stairway.Proofs.Postgres.Answer

/-!
# How a call of an engine behaves under the lock

The calls of an engine are opening it, reading the version, migrating and forcing. `Bearings` is
what a session knows while one of them runs: beside its `Standing`, whether it is between the grant
of the lock and the end of the section that was granted, and how far it has come there (`Leg`). A
migration reads a row, plans, and then goes from mark to script to mark along its plan; `Leg.hear`
follows it from answer to answer.

`conduct` is the protocol of a call. It allows scripts, and whatever writes or creates a version
table, only inside the section, and a script or a mark only where the leg says that it is due. It
does not say that the row a session has read is still recorded; that depends on the others. Nor does
it rely on a rollback being carried out: a session whose rollback was refused may be inside a
transaction that it does not know of (`lost`), and what it reads in a later call is not trusted
(`blind`).
-/

namespace Stairway

/-- The row that a step records, before its script and after it. -/
def Step.mark (t : Step) (dirty : Bool) : Option Postgres.Row :=
  Postgres.written (Postgres.Plant.recorded t.target) dirty

namespace Postgres

/-! ## Calls -/

/-- What the owner of an engine can have it do, one at a time. -/
inductive Call where
  | establish (sourceUrl databaseUrl : String)
  | version
  | migrateTo (version : Nat)
  | force (version : Int)
  deriving DecidableEq

namespace Call

def program (p : Plant) : Call → Program interface (Except EngineError Unit)
  | establish sourceUrl databaseUrl =>
    (connect sourceUrl databaseUrl).bind fun r => .done (r.map fun _ => ())
  | version => p.engine.version.bind fun r => .done (r.map fun _ => ())
  | migrateTo v => p.engine.migrateTo v
  | force v => p.engine.force v

/-- Whether a call uses the lock of a plant; opening takes the lock of the address that it
is given. -/
def Suits (p : Plant) : Call → Prop
  | establish _ databaseUrl =>
    ∀ target, Target.parse databaseUrl = .ok target → target.lockKey = p.target.lockKey
  | _ => True

/-- Whether a call opens an engine. -/
def isOpening : Call → Bool
  | establish _ _ => true
  | _ => false

/-- The steps that a call plans from a row. -/
def plan? (p : Plant) (row : Option Row) : Call → Option (List Step)
  | migrateTo v =>
    if isDirty row then none
    else (p.source.plan ((Plant.ofRow row).map (·.version)) v).toOption
  | _ => none

end Call

/-- Whether a session is between a grant of the lock and the end of the section that was granted,
once a request has been answered. The section ends when the lock is given back, whatever the server
says to it. -/
def Request.section (key : Int) (inside : Bool) : (r : Request) → r.Answer → Bool
  | .statement (.tryLock k), .ok gotIt => inside || (decide (k = key) && gotIt)
  | .statement (.unlock k), _ => inside && decide (k ≠ key)
  | _, _ => inside

/-! ## Legs -/

/-- How far a call has come inside its section. -/
inductive Leg where
  | idle
  /-- Nothing is under way; `rest` is still to be done. -/
  | steady (row : Option Row) (rest : List Step)
  /-- The script of the next step has been read. -/
  | primed (row : Option Row) (step : Step) (text : String) (rest : List Step)
  /-- A step has been marked dirty over a row; `ran` says how its script ended, once it was sent. -/
  | begun (base : Option Row) (step : Step) (text : String) (ran : Option Bool) (rest : List Step)
  /-- The section is over; `arrived` says whether all that was planned had been done. -/
  | left (arrived : Bool)

namespace Leg

def look (p : Plant) (c : Call) (inside : Bool) (row : Option Row) : Leg → Leg
  | idle => if inside then (c.plan? p row).elim idle (steady row) else idle
  | leg => leg

def read (text : String) : Leg → Leg
  | steady row (t :: rest) => primed row t text rest
  | leg => leg

/-- A mark has been committed: the first of a step, or its second. -/
def mark : Leg → Leg
  | primed row t text rest => begun row t text none rest
  | begun _ t _ _ rest => steady (t.mark false) rest
  | leg => leg

def ran (ok : Bool) : Leg → Leg
  | begun base t text _ rest => begun base t text (some ok) rest
  | leg => leg

def hasArrived : Leg → Bool
  | steady _ [] => true
  | _ => false

/-- Whether a leg is on its way along a plan. -/
def isUnderWay : Leg → Bool
  | idle | left _ => false
  | _ => true

section UnderWay

variable {leg : Leg}

@[simp] theorem isUnderWay_read (text : String) : (leg.read text).isUnderWay = leg.isUnderWay := by
  cases leg with
  | steady row rest => cases rest <;> rfl
  | _ => rfl

@[simp] theorem isUnderWay_mark : leg.mark.isUnderWay = leg.isUnderWay := by
  cases leg <;> rfl

@[simp] theorem isUnderWay_ran (ok : Bool) : (leg.ran ok).isUnderWay = leg.isUnderWay := by
  cases leg <;> rfl

theorem isUnderWay_look {p : Plant} {c : Call} {inside : Bool} {row : Option Row}
    (h : (leg.look p c inside row).isUnderWay = true) : leg.isUnderWay = true ∨ inside = true := by
  cases leg with
  | idle =>
    cases inside with
    | false => cases h
    | true => exact .inr rfl
  | left arrived => cases h
  | _ => exact .inl rfl

end UnderWay

def hear (p : Plant) (c : Call) (inside : Bool) (leg : Leg) : (r : Request) → r.Answer → Leg
  | .statement (.selectRow _), .ok row => leg.look p c inside row
  | .readScript _ _ _, .ok text => leg.read text
  | .statement .commit, .ok _ => leg.mark
  | .statement (.script ..), a => leg.ran a.isOk
  | .statement (.unlock _), _ => left leg.hasArrived
  | _, _ => leg

/-- Whether a row is due to be recorded. -/
def Marks (c : Call) (row : Option Row) : Leg → Prop
  | idle => ∃ v, c = .force v ∧ row = written v false
  | primed _ t _ _ => row = t.mark true
  | begun _ t text ran _ =>
    row = t.mark false ∧ (ran = some true ∨ ran = none ∧ Plant.isBlank text = true)
  | _ => False

/-- Whether a script is due to be sent; one that is blank never is. -/
def Runs (text : String) : Leg → Prop
  | begun _ _ text' none _ => text = text' ∧ Plant.isBlank text = false
  | _ => False

/-- Whether a script is due to be read. -/
def Reads (d : Direction) (version : Nat) : Leg → Prop
  | steady _ (t :: _) => t.direction = d ∧ t.version = version
  | _ => False

end Leg

/-! ## Bearings -/

/-- What a session knows in the course of a call. -/
structure Bearings extends Standing where
  inside : Bool := false
  /-- A rollback has been refused. -/
  lost : Bool := false
  /-- It had been when the call began. -/
  blind : Bool := false
  leg : Leg := .idle

/-- Whether an answer refuses a rollback. -/
def Request.strands : (r : Request) → r.Answer → Bool
  | .statement .rollback, .error _ => true
  | _, _ => false

namespace Bearings

def hear (p : Plant) (c : Call) (s : Bearings) (r : Request) (a : r.Answer) : Bearings where
  toStanding := s.toStanding.hear r a
  inside := r.section p.target.lockKey s.inside a
  lost := r.strands a || s.lost
  blind := s.blind
  leg := s.leg.hear p c s.inside r a

@[simp] theorem hear_toStanding (p : Plant) (c : Call) (s : Bearings) (r : Request) (a : r.Answer) :
    (s.hear p c r a).toStanding = s.toStanding.hear r a := rfl

/-- What is known when a call begins. -/
def fresh (s : Bearings) : Bearings := { s with blind := s.lost, leg := .idle }

def AllowsStatement (p : Plant) (c : Call) (s : Bearings) : Statement → Prop
  | .selectRow t => t = p.table ∧ (s.blind = true ∨ s.draft = .closed)
  | .commit => s.inside = true ∧ ∃ row, s.draft = .row row ∧ s.leg.Marks c row
  | .script _ text => s.inside = true ∧ s.leg.Runs text
  | .createTable _ | .truncate _ | .insert _ _ => s.inside = true
  | _ => True

def Allows (p : Plant) (c : Call) (s : Bearings) : Request → Prop
  | .statement q => s.toStanding.Proper p q ∧ s.AllowsStatement p c q
  | .readScript d version _ => s.inside = true ∧ s.leg.Reads d version
  | .connect _ => s.owesRollback = false
  | _ => True

def Expects (s : Bearings) : (r : Request) → r.Answer → Prop
  | .takeOwedRollback, owed => owed = s.owesRollback
  | _, _ => True

end Bearings

/-- The protocol of a call. -/
def conduct (p : Plant) (c : Call) : Protocol interface Bearings where
  allows s r := s.Allows p c r
  leads s r a t := s.Expects r a ∧ t = s.hear p c r a

end Postgres

end Stairway
