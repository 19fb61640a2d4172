import Stairway.Proofs.Postgres.Sections

/-!
# What a call leaves in the journal

Of all that stands in a journal only three kinds of entries tell how a schema moved: a script that
was read, a version that was recorded, and a script that was sent. A `trail` is what is left of a
journal if one looks for these `Footprint`s.

`Stride` lists what one answer can do to a leg, with the footprint that it leaves and the row that
is recorded afterwards. `stride` says that there is nothing else, for a client that reads what is
recorded; whatever is proved of legs is proved by its cases.
-/

namespace Stairway.Postgres

/-! ## Footprints -/

inductive Footprint where
  | read (i : ClientId) (d : Direction) (version : Nat) (text : String)
  /-- A row was recorded in place of another. -/
  | marked (i : ClientId) (before after : Option Row)
  | ran (i : ClientId) (text : String) (ok : Bool)
  deriving DecidableEq

def Request.footprint? (i : ClientId) (before after : Option Row) :
    (r : Request) → r.Answer → Option Footprint
  | .readScript d version _, .ok text => some (.read i d version text)
  | .statement .commit, .ok _ => some (.marked i before after)
  | .statement (.script _ text), a => some (.ran i text a.isOk)
  | _, _ => none

def Entry.footprint? (table : String) (e : Entry) : Option Footprint :=
  e.request.footprint? e.client (e.before.lookup table).join (e.after.lookup table).join e.answer

/-- What a journal says about the schema. -/
def trail (table : String) (journal : List Entry) : List Footprint :=
  journal.filterMap (Entry.footprint? table)

@[simp] theorem trail_snoc (table : String) (journal : List Entry) (e : Entry) :
    trail table (journal ++ [e]) = trail table journal ++ (e.footprint? table).toList := by
  rw [trail, List.filterMap_append, trail]
  cases h : e.footprint? table <;> simp [h]

/-- Who leaves a footprint is inside its section. -/
theorem inside_of_footprint {p : Plant} {c : Call} {i : ClientId} {s : Bearings} {r : Request}
    {a : r.Answer} {before after : Option Row} (hr : s.Allows p c r)
    (hf : (r.footprint? i before after a).isSome = true) :
    s.inside = true := by
  cases r with
  | statement q =>
    cases q with
    | commit => exact hr.2.1
    | script multi text => exact hr.2.1
    | _ => cases hf
  | readScript d version path => exact hr.1
  | _ => cases hf

/-! ## Strides -/

/-- What an answer can do to a leg where `row` is recorded: the footprint that it leaves, the row
that is recorded then, and the leg that follows. -/
inductive Stride (p : Plant) (c : Call) (i : ClientId) (row : Option Row) :
    Leg → Option Footprint → Option Row → Leg → Prop where
  | still (leg : Leg) : Stride p c i row leg none row leg
  | look {steps : List Step} (hplan : c.plan? p row = some steps) :
    Stride p c i row .idle none row (.steady row steps)
  | read (base : Option Row) (t : Step) (text : String) (rest : List Step) :
    Stride p c i row (.steady base (t :: rest)) (some (.read i t.direction t.version text)) row
      (.primed base t text rest)
  | enter (base : Option Row) (t : Step) (text : String) (rest : List Step) :
    Stride p c i row (.primed base t text rest) (some (.marked i row (t.mark true))) (t.mark true)
      (.begun base t text none rest)
  | run (base : Option Row) (t : Step) (text : String) (ok : Bool) (rest : List Step)
    (hfull : Plant.isBlank text = false) :
    Stride p c i row (.begun base t text none rest) (some (.ran i text ok)) row
      (.begun base t text (some ok) rest)
  | finish (base : Option Row) (t : Step) (text : String) {ran : Option Bool} (rest : List Step)
    (hran : ran = some true ∨ ran = none ∧ Plant.isBlank text = true) :
    Stride p c i row (.begun base t text ran rest)
      (some (.marked i row (t.mark false))) (t.mark false)
      (.steady (t.mark false) rest)
  | force {v : Int} (hc : c = .force v) :
    Stride p c i row .idle (some (.marked i row (written v false))) (written v false) .idle
  | leave (leg : Leg) : Stride p c i row leg none row (.left leg.hasArrived)

section Strides

variable {p : Plant} {c : Call} {i : ClientId} {s : Bearings} {row : Option Row}

/-- A row that is read under the lock is the one to plan from. -/
theorem stride_look (leg : Leg) (inside : Bool) :
    Stride p c i row leg none row (leg.look p c inside row) := by
  cases leg with
  | idle =>
    cases inside with
    | false => exact .still _
    | true =>
      simp only [Leg.look, if_true]
      cases hplan : c.plan? p row with
      | none => exact .still _
      | some steps => exact .look hplan
  | _ => exact .still _

theorem stride_commit {leg : Leg} {after : Option Row} (h : leg.Marks c after) :
    Stride p c i row leg (some (.marked i row after)) after leg.mark := by
  cases leg with
  | idle =>
    obtain ⟨v, hc, rfl⟩ := h
    exact .force hc
  | primed base t text rest =>
    cases h
    exact .enter base t text rest
  | begun base t text ran rest =>
    obtain ⟨rfl, hran⟩ := h
    exact .finish base t text rest hran
  | steady => exact h.elim
  | left => exact h.elim

/-- **What an answer does to a leg** is one of a few things. -/
theorem stride {r : Request} {a : r.Answer} {row' : Option Row} (hr : s.Allows p c r)
    (hrow : row' = (s.toStanding.published r a).getD row) (htruthful : r.Truthful p row a) :
    Stride p c i row s.leg (r.footprint? i row row' a) row' (s.hear p c r a).leg := by
  cases r with
  | statement q =>
    cases q with
    | commit =>
      obtain ⟨-, -, after, hdraft, hmarks⟩ := hr
      cases a with
      | error e =>
        obtain rfl : row' = row := hrow
        exact .still _
      | ok _ =>
        obtain rfl : row' = after := by simpa [Standing.published, hdraft] using hrow
        exact stride_commit hmarks
    | script multi text =>
      obtain rfl : row' = row := hrow
      obtain ⟨-, -, hruns⟩ := hr
      cases hleg : s.leg with
      | begun base t text' ran rest =>
        cases ran with
        | some ok => simp [Leg.Runs, hleg] at hruns
        | none =>
          obtain ⟨rfl, hfull⟩ : text = text' ∧ Plant.isBlank text = false := by
            simpa [Leg.Runs, hleg] using hruns
          rw [Bearings.hear, hleg]
          exact .run base t text a.isOk rest hfull
      | _ => simp [Leg.Runs, hleg] at hruns
    | selectRow table =>
      obtain ⟨-, htable, -⟩ := hr
      obtain rfl : row' = row := hrow
      cases a with
      | error e => exact .still _
      | ok read =>
        obtain rfl : read = row' := htruthful htable
        exact stride_look s.leg s.inside
    | unlock key =>
      obtain rfl : row' = row := hrow
      exact .leave _
    | _ =>
      obtain rfl : row' = row := hrow
      cases a <;> exact .still _
  | readScript d version path =>
    obtain rfl : row' = row := hrow
    obtain ⟨-, hreads⟩ := hr
    cases a with
    | error e => exact .still _
    | ok text =>
      cases hleg : s.leg with
      | steady base rest =>
        cases rest with
        | nil => simp [Leg.Reads, hleg] at hreads
        | cons t rest =>
          obtain ⟨rfl, rfl⟩ : t.direction = d ∧ t.version = version := by
            simpa [Leg.Reads, hleg] using hreads
          rw [Bearings.hear, hleg]
          exact .read base t text rest
      | _ => simp [Leg.Reads, hleg] at hreads
  | _ =>
    obtain rfl : row' = row := hrow
    exact .still _

end Strides

/-- One request of a client that is not blind, as the trail shows it. -/
theorem Traffic.Sound.ask_stride {plants : ClientId → Plant} {key : Int}
    {heard : ClientId → Bearings} {w : Traffic} {i : ClientId} (h : w.Sound plants key heard)
    {r : Request} {next : r.Answer → Program interface (Except EngineError Unit)}
    (hrest : (w.lines i).rest = .ask r next) (hblind : (heard i).blind = false) (e : Weather) :
    ∃ f : Option Footprint,
      trail (plants i).table (w.ask i e r next).journal = trail
        (plants i).table w.journal ++ f.toList ∧
      (f.isSome = true → (heard i).inside = true) ∧
      Stride (plants i) (w.lines i).call i (w.server.rowIn (plants i).table) (heard i).leg f
        ((w.ask i e r next).server.rowIn (plants i).table)
        ((heard i).hear (plants i) (w.lines i).call r
          ((w.lines i).session.answer w.server e r).1).leg := by
  have hallows := h.allows hrest
  have hreplied := replied (h.tied i) hallows e
  have htruthful := hreplied.truthful fun t ht => by
    subst ht
    exact hallows.2.2.resolve_left (by simp [hblind])
  refine ⟨_, ?_, inside_of_footprint hallows, stride hallows hreplied.recorded htruthful⟩
  rw [ask_journal, trail_snoc]
  rfl

end Stairway.Postgres
