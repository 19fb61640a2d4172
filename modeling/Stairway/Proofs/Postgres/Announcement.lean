import Mathlib.Order.Interval.Finset.Nat
import Stairway.Proofs.Migrations.Routes
import Stairway.Proofs.Postgres.Asides
import Stairway.Proofs.Postgres.ReadBack

/-!
# What is announced and what is run

An operation that migrates says first how many migrations it is about to run
(`Direction.announcement`). The number is how far the desired version is from the recorded one; the
engine runs what it plans from the scripts. Both are read off the transcript: the lines of the log
(`lines`) and the scripts that are read, one for each step (`moves`).

Few programs of the engine read a script, so most of them leave the account of an operation alone,
whatever they are answered (`Work.Asks.keeps`). With what the session would read next kept beside
it, the steps of an operation that succeeds are those of the plan from the version that it announced
them from (`announced`). A plan has one step for each known version that is passed, so the number is
right just if all of them are known (`plan_length_iff`).
-/

namespace Stairway

/-! ## Distances -/

namespace Direction

/-- The operation that moves the schema in a direction. -/
def transition : Direction → Transition
  | up => .apply
  | down => .rollback

/-- How far it is from one version to another. -/
def distance : Direction → Nat → Nat → Nat
  | up, c, desired => desired - c
  | down, c, desired => c - desired

/-- Whether a version is passed on the way from one to another. -/
def Passes : Direction → Nat → Nat → Nat → Prop
  | up, c, desired, v => c < v ∧ v ≤ desired
  | down, c, desired, v => desired < v ∧ v ≤ c

/-- The line that announces so many migrations. -/
def announcement : Direction → Nat → String
  | up, n => toString n ++ " migrations to be applied"
  | down, n => toString n ++ " migrations to be rolled back"

end Direction

/-- As many numbers as there are between two bounds are all the numbers there are. -/
theorem length_eq_iff {l : List Nat} {known : Nat → Prop} {lo hi : Nat} (hnodup : l.Nodup)
    (hmem : ∀ v, v ∈ l ↔ known v ∧ lo < v ∧ v ≤ hi) :
    hi - lo = l.length ↔ ∀ v, lo < v ∧ v ≤ hi → known v := by
  have hsub : l.toFinset ⊆ Finset.Ioc lo hi := fun v hv =>
    Finset.mem_Ioc.2 ((hmem v).1 (List.mem_toFinset.1 hv)).2
  rw [← Nat.card_Ioc, ← List.toFinset_card_of_nodup hnodup]
  constructor
  · intro hcard v hv
    have hall : l.toFinset = Finset.Ioc lo hi :=
      Finset.eq_of_subset_of_card_le hsub (Nat.le_of_eq hcard)
    have hin : v ∈ l.toFinset := hall ▸ Finset.mem_Ioc.2 hv
    exact ((hmem v).1 (List.mem_toFinset.1 hin)).1
  · intro hknown
    have hall : Finset.Ioc lo hi ⊆ l.toFinset := fun v hv =>
      List.mem_toFinset.2 ((hmem v).2 ⟨hknown v (Finset.mem_Ioc.1 hv), Finset.mem_Ioc.1 hv⟩)
    rw [hsub.antisymm hall]

namespace Source

variable {s : Source} {current : Option Nat} {target : Nat} {steps : List Step} {d : Direction}

/-- **A plan goes one way**, through the known versions that are passed. -/
theorem plan_passes (hplan : s.plan current target = .ok steps)
    (hleads : d.Leads (current.getD 0) target) :
    (∀ t ∈ steps, t.direction = d) ∧ (steps.map Step.version).Nodup ∧
      ∀ v, v ∈ steps.map Step.version ↔ s.Knows v ∧ d.Passes (current.getD 0) target v := by
  obtain ⟨htarget, hcurrent⟩ := plan_reaches hplan
  cases d with
  | up =>
    rw [plan_up htarget hcurrent (Nat.le_of_lt hleads)] at hplan
    cases hplan
    have hclimbs := s.climb_climbs (current.getD 0) target
    exact ⟨hclimbs.up, hclimbs.ascending.imp Nat.ne_of_lt, hclimbs.mem_iff⟩
  | down =>
    rw [plan_down htarget hcurrent (Nat.le_of_lt hleads)] at hplan
    cases hplan
    have hdescends := descend_descends hcurrent htarget (Nat.le_of_lt hleads)
    exact ⟨hdescends.down, hdescends.descending.imp Nat.ne_of_gt, hdescends.mem_iff⟩

theorem mem_plan_moves (hplan : s.plan current target = .ok steps)
    (hleads : d.Leads (current.getD 0) target) (move : Direction × Nat) :
    move ∈ steps.map Step.move ↔
      move.1 = d ∧ s.Knows move.2 ∧ d.Passes (current.getD 0) target move.2 := by
  obtain ⟨hway, -, hmem⟩ := plan_passes hplan hleads
  rw [← hmem, List.mem_map, List.mem_map]
  constructor
  · rintro ⟨t, ht, rfl⟩
    exact ⟨hway t ht, t, ht, rfl⟩
  · rintro ⟨hdirection, t, ht, hversion⟩
    exact ⟨t, ht, Prod.ext ((hway t ht).trans hdirection.symm) hversion⟩

/-- **A plan has as many steps as its way is long** just if every version that is passed
is known. -/
theorem plan_length_iff (hplan : s.plan current target = .ok steps)
    (hleads : d.Leads (current.getD 0) target) :
    d.distance (current.getD 0) target = steps.length ↔ ∀ v,
      d.Passes (current.getD 0) target v → s.Knows v := by
  obtain ⟨-, hnodup, hmem⟩ := plan_passes hplan hleads
  have hlength : (steps.map Step.version).length = steps.length := List.length_map _
  rw [← hlength]
  cases d with
  | up => exact length_eq_iff hnodup hmem
  | down => exact length_eq_iff hnodup hmem

end Source

namespace Postgres

open Program (hearing onSuccess obeys_andThen)

/-! ## Accounts -/

/-- The line that a request writes. -/
def Request.line? : Request → Option String
  | .log line => some line
  | _ => none

/-- The step whose script a request reads. -/
def Request.move? : Request → Option (Direction × Nat)
  | .readScript d v _ => some (d, v)
  | _ => none

/-- The lines that have been written to the log. -/
def lines (asked : List (Exchange interface)) : List String := asked.filterMap (·.request.line?)

/-- The steps whose scripts have been read. -/
def moves (asked : List (Exchange interface)) : List (Direction × Nat) :=
  asked.filterMap (·.request.move?)

/-- The first line that has been written, and the steps that have been begun. -/
structure Account (line : Option String) (made : List (Direction × Nat))
    (asked : List (Exchange interface)) :
    Prop where
  first : (lines asked).head? = line
  made : moves asked = made

section Account

variable {line : Option String} {made : List (Direction × Nat)} {asked : List (Exchange interface)}
  {e : Exchange interface}

theorem lines_snoc (asked : List (Exchange interface)) (e : Exchange interface) :
    lines (asked ++ [e]) = lines asked ++ e.request.line?.toList := by
  unfold lines
  rw [List.filterMap_append]
  cases h : e.request.line? <;> simp [h]

theorem moves_snoc (asked : List (Exchange interface)) (e : Exchange interface) :
    moves (asked ++ [e]) = moves asked ++ e.request.move?.toList := by
  unfold moves
  rw [List.filterMap_append]
  cases h : e.request.move? <;> simp [h]

/-- The first line is written only once. -/
theorem Account.snoc (h : Account line made asked) (e : Exchange interface) :
    Account (line.or e.request.line?) (made ++ e.request.move?.toList) (asked ++ [e]) := by
  obtain ⟨rfl, rfl⟩ := h
  refine ⟨?_, moves_snoc asked e⟩
  rw [lines_snoc, List.head?_append]
  cases e.request.line? <;> rfl

/-- Whether a request leaves an account alone that has this first line, if any. -/
def Request.Spares (line : Option String) (r : Request) : Prop :=
  r.move? = none ∧ line.or r.line? = line

theorem Account.spared (h : Account line made asked) (he : e.request.Spares line) :
    Account line made (asked ++ [e]) := by
  have hsnoc := h.snoc e
  rwa [he.1, he.2, Option.toList_none, List.append_nil] at hsnoc

end Account

/-! ## Work that leaves the account alone -/

section Spares

variable {α : Type} {line : Option String} {made : List (Direction × Nat)}
  {asked : List (Exchange interface)}

/-- Work that asks nothing but what leaves an account alone leaves it as it is. -/
theorem Work.Asks.keeps {w : Work α} (hw : w.Asks (Request.Spares line))
    (h : Account line made asked) :
    w.run.Obeys (hearing fun _ => True)
      (onSuccess (fun _ t => Account line made t) fun _ => True) asked := by
  have hkept := (hw asked).keeps (fun _ _ he ht => Account.spared ht he) h
  refine (hkept.allowing fun _ _ => trivial).mono ?_
  rintro ((e | a) | _) t ⟨-, ht⟩
  · exact trivial
  · exact ht
  · exact trivial

theorem Request.spares_of_silent {r : Request} (hmove : r.move? = none)
    (hline : r.line? = none) : r.Spares line :=
  ⟨hmove, by rw [hline, Option.or_none]⟩

theorem Request.IsPlain.spares (r : Request) (h : r.IsPlain) : r.Spares line := by
  cases r with
  | readScript | log => exact h.elim
  | _ => exact Request.spares_of_silent rfl rfl

theorem spares_send (q : Statement) : (send q).Asks (Request.Spares line) :=
  asks_send (Request.spares_of_silent rfl rfl) (Request.spares_of_silent rfl rfl)
    (Request.spares_of_silent rfl rfl)

/-- The log is written to without a trace once it has a first line. -/
theorem spares_log (first text : String) :
    (Work.ask (.log text)).Asks (Request.Spares (some first)) :=
  asks_ask ⟨rfl, rfl⟩

theorem spares_release (first : String) (key : Int) :
    (release key).Asks (Request.Spares (some first)) :=
  asks_release (Request.spares_of_silent rfl rfl) (Request.spares_of_silent rfl rfl)
    (Request.spares_of_silent rfl rfl) fun _ => ⟨rfl, rfl⟩

end Spares

/-! ## Steps -/

section Steps

variable {p : Plant} {line : Option String} {first : String} {made : List (Direction × Nat)}
  {asked : List (Exchange interface)}

theorem hearing_readScript {d : Direction} {version : Nat} (h : Account line made asked) :
    (p.readScript d version).run.Obeys (hearing fun _ => True)
      (onSuccess (fun _ t => Account line (made ++ [(d, version)]) t) fun _ => True) asked := by
  refine obeys_andThen (asks_get.keeps h) ?_
  intro script t ht
  refine obeys_andThen (R := fun _ u => Account line (made ++ [(d, version)]) u) ⟨trivial, ?_⟩ ?_
  · rintro a _ ⟨sent, answered, rfl⟩
    have hsnoc : Account (line.or none) (made ++ [(d, version)]) _ :=
      ht.snoc ⟨.readScript d version script.path, sent, a, answered⟩
    rwa [Option.or_none] at hsnoc
  · exact fun a u hu => asks_get.keeps hu

/-- A step that succeeds has read its script, and no other. -/
theorem hearing_takeStep {t : Step} (h : Account (some first) made asked) :
    (p.takeStep t).run.Obeys (hearing fun _ => True)
      (onSuccess (fun _ u => Account (some first) (made ++ [t.move]) u) fun _ => True) asked := by
  refine obeys_andThen (hearing_readScript h) ?_
  intro text u hu
  have hwrite : ∀ dirty, (p.writeVersion (Plant.recorded t.target) dirty).Asks
      (Request.Spares (some first)) :=
    fun _ => asks_writeVersion Request.IsPlain.spares
  have hrun : (p.runScript text).Asks (Request.Spares (some first)) :=
    asks_runScript Request.IsPlain.spares
  exact ((hwrite true).seq fun _ => hrun.seq fun _ => (hwrite false).seq fun _ =>
    spares_log first _).keeps hu

/-- **Steps that succeed have read their scripts**, one after the other. -/
theorem hearing_takeSteps (steps : List Step) (h : Account (some first) made asked) :
    (p.takeSteps steps).run.Obeys (hearing fun _ => True)
      (onSuccess (fun _ u => Account (some first) (made ++ steps.map Step.move) u)
        fun _ => True) asked := by
  induction steps generalizing made asked with
  | nil =>
    rw [List.map_nil, List.append_nil]
    exact h
  | cons t rest ih =>
    rw [takeSteps_cons]
    refine obeys_andThen ((asks_ask (Request.spares_of_silent rfl rfl)).keeps h) ?_
    intro stop u hu
    split
    · exact obeys_andThen ((spares_log first _).keeps hu) fun _ _ _ => trivial
    · refine obeys_andThen (hearing_takeStep hu) ?_
      intro _ v hv
      rw [List.map_cons, List.append_cons]
      exact ih hv

end Steps

/-! ## What is read and what is run -/

section Glances

variable {p : Plant} {reasons : List String} {g : Glimpse} {row : Option Row} {connected : Bool}
  {line : Option String} {first : String} {made : List (Direction × Nat)}
    {asked : List (Exchange interface)} {desired : Nat}

/-- What is glanced at and what is heard, where a program succeeds. -/
theorem heard_success {ε α : Type} {w : Program interface (Except ε α)} {ok : α → Glimpse → Prop}
    {R : α → List (Exchange interface) → Prop}
    (hglance : w.Obeys (glancing p reasons) (onSuccess ok fun _ => True) g)
    (hheard : w.Obeys (hearing fun _ => True) (onSuccess R fun _ => True) asked) :
    w.Obeys (glancing p reasons).heard
      (onSuccess (fun a t => ok a t.1 ∧ R a t.2) fun _ => True) (g, asked) := by
  refine (hglance.heard hheard).mono ?_
  rintro ((e | a) | _) t ht
  · exact trivial
  · exact ht
  · exact trivial

/-- A session that owes nothing reads what it would read, and would read it again. -/
theorem glance_readVersion_paid : p.readVersion.run.Obeys (glancing p reasons)
    (onSuccess (fun v h => v = Plant.ofRow row ∧ h = ⟨row, false, connected⟩) fun _ => True)
    ⟨row, false, connected⟩ := by
  refine obeys_andThen (glance_send_paid rfl) ?_
  rintro _ _ ⟨_, ⟨rfl, rfl⟩, -, rfl⟩
  exact ⟨rfl, rfl⟩

/-- The plan from a row has been run. -/
def Ran (p : Plant) (row : Option Row) (desired : Nat) (first : String)
    (t : Glimpse × List (Exchange interface)) :
    Prop :=
  ∃ steps, p.source.plan ((Plant.ofRow row).map (·.version)) desired = .ok steps ∧
    Account (some first) (steps.map Step.move) t.2

theorem heard_migrateLocked (h : Account (some first) [] asked) :
    (p.migrateLocked desired).run.Obeys (glancing p reasons).heard
      (onSuccess (fun _ t => Ran p row desired first t) fun _ => True)
      (⟨row, false, true⟩, asked) := by
  rw [migrateLocked_eq]
  refine obeys_andThen
    (heard_success glance_readVersion_paid ((asks_readVersion Request.IsPlain.spares).keeps h)) ?_
  rintro _ ⟨_, asked⟩ ⟨⟨rfl, rfl⟩, h⟩
  split
  · exact trivial
  · refine obeys_andThen
      (R := fun steps t => p.source.plan ((Plant.ofRow row).map (·.version)) desired = .ok steps ∧
        t = (⟨row, false, true⟩, asked))
          (obeys_get (fun steps hsteps => ⟨hsteps, rfl⟩) fun _ _ => trivial) ?_
    rintro steps _ ⟨hplan, rfl⟩
    refine (heard_success (glance_takeSteps steps) (hearing_takeSteps steps h)).imp_ok ?_
    exact fun _ t ht => ⟨steps, hplan, ht.2⟩

/-- A request that changes neither what would be read nor the account. -/
theorem heard_idle {r : Request} (hr : r.Permitted p.table)
    (hstill : ∀ a h, g.Leads reasons r a h → h = g) (hspares : r.Spares line)
    (h : Account line made asked) :
    (Work.ask r).run.Obeys (glancing p reasons).heard
      (onSuccess (fun _ t => t.1 = g ∧ Account line made t.2) fun _ => True) (g, asked) :=
  heard_success (glance_ask hr hstill) ((asks_ask hspares).keeps h)

theorem heard_entrance : Entrance (glancing p reasons).heard p.target.lockKey
    (fun t => t.1 = ⟨row, false, true⟩ ∧ Account line made t.2)
    (fun t => t.1 = ⟨row, false, true⟩ ∧ Account line made t.2) fun _ => True where
  tryLock := by
    rintro ⟨_, asked⟩ ⟨rfl, h⟩
    refine (heard_success (glance_send_paid (q := .tryLock p.target.lockKey) trivial)
      ((spares_send _).keeps h)).imp_ok ?_
    rintro gotIt t ⟨⟨_, rfl, -, ht⟩, hheard⟩
    cases gotIt <;> exact ⟨ht, hheard⟩
  now := by
    rintro ⟨_, asked⟩ ⟨rfl, h⟩
    exact heard_idle (r := .now) trivial (fun _ _ hg => hg) (Request.spares_of_silent rfl rfl) h
  lockTimeout := by
    rintro ⟨_, asked⟩ ⟨rfl, h⟩
    exact heard_idle (r := .lockTimeout) trivial (fun _ _ hg => hg)
      (Request.spares_of_silent rfl rfl) h
  giveUp _ := trivial

theorem heard_migrateTo (h : Account (some first) [] asked) :
    (p.engine.migrateTo desired).Obeys (glancing p reasons).heard
    (onSuccess (fun _ t => Ran p row desired first t) fun _ => True)
      (⟨row, false, true⟩, asked) := by
  refine obeys_inEngineWords (obeys_andThen
    (heard_success glance_requireConnection
      ((asks_requireConnection Request.IsPlain.spares).keeps h)) ?_)
  rintro _ ⟨_, asked⟩ ⟨⟨rfl, -⟩, h⟩
  refine heard_entrance.locked (R := fun _ t => Ran p row desired first t) (L := fun _ => True)
    ⟨rfl, h⟩ ?_ ?_ ?_
  · rintro ⟨_, asked⟩ ⟨rfl, h⟩
    exact heard_migrateLocked h
  · rintro _ ⟨g, asked⟩ ⟨steps, hplan, h⟩
    refine (heard_success glance_release ((spares_release first _).keeps h)).imp_ok ?_
    exact fun _ t ht => ⟨steps, hplan, ht.2⟩
  · rintro ⟨g, asked⟩ -
    refine (glance_release.heard (spares_release first _ asked)).mono ?_
    rintro ((e | a) | _) t - <;> exact trivial

theorem heard_current (h : Account line made asked) :
    p.engine.current.run.Obeys (glancing p reasons).heard
    (onSuccess (fun c t => c = schemaOf row ∧ t.1 = ⟨row, false, true⟩ ∧ Account line made t.2)
      fun _ => True)
    (⟨row, false, connected⟩, asked) := by
  have hversion : p.engine.version.Obeys (glancing p reasons).heard (onSuccess (fun v t =>
      v = Plant.ofRow row ∧ t.1 = ⟨row, false, true⟩ ∧ Account line made t.2) fun _ => True)
      (⟨row, false, connected⟩, asked) := by
    refine obeys_inEngineWords (obeys_andThen
      (heard_success glance_requireConnection
        ((asks_requireConnection Request.IsPlain.spares).keeps h)) ?_)
    rintro _ ⟨_, asked⟩ ⟨⟨rfl, hconnected⟩, h⟩
    obtain rfl : connected = true := hconnected
    refine (heard_success glance_readVersion_paid
      ((asks_readVersion Request.IsPlain.spares).keeps h)).imp_ok ?_
    exact fun _ t ht => ⟨ht.1.1, ht.1.2, ht.2⟩
  refine obeys_andThen (Attempt.obeys_ofEngine hversion) ?_
  rintro _ t ⟨rfl, ht⟩
  exact ⟨rfl, ht⟩

theorem heard_info {text : String} (h : Account line made asked) : (p.engine.info text).run.Obeys
    (glancing p reasons).heard
      (onSuccess (fun _ t => t.1 = g ∧ Account (line.or (some text)) made t.2) fun _ => True)
    (g, asked) := by
  refine ⟨trivial, ?_⟩
  rintro a ⟨g', asked'⟩ ⟨hg, sent, answered, hasked⟩
  obtain rfl : asked' = asked ++ [⟨.log text, sent, a, answered⟩] := hasked
  have hsnoc : Account (line.or (some text)) (made ++ []) _ := h.snoc ⟨.log text, sent, a, answered⟩
  rw [List.append_nil] at hsnoc
  exact ⟨hg, hsnoc⟩

/-- **A migration that is announced and succeeds has run the plan** from the row that was read
before. -/
theorem heard_migration (confirmed : String) (h : Account none [] asked) :
    (do
      p.engine.info first
      Attempt.ofEngine (p.engine.migrateTo desired)
      p.engine.info confirmed : Attempt interface Unit).run.Obeys (glancing p reasons).heard
      (onSuccess (fun _ t => Ran p row desired first t) fun _ => True)
        (⟨row, false, true⟩, asked) := by
  refine obeys_andThen (heard_info h) ?_
  rintro _ ⟨_, asked⟩ ⟨rfl, h⟩
  refine obeys_andThen (Attempt.obeys_ofEngine (heard_migrateTo h)) ?_
  rintro _ ⟨g, asked⟩ ⟨steps, hplan, h⟩
  refine (heard_info (g := g) h).imp_ok ?_
  exact fun _ t ht => ⟨steps, hplan, ht.2⟩

variable {d : Direction} {c : Nat}

theorem heard_perform (hschema : schemaOf row = ⟨c, false⟩) (hleads : d.Leads c desired)
    (h : Account none [] asked) :
    (p.engine.perform d.transition desired).run.Obeys (glancing p reasons).heard
      (onSuccess (fun _ t => Ran p row desired (d.announcement (d.distance c desired)) t)
        fun _ => True)
      (⟨row, false, connected⟩, asked) := by
  cases d with
  | up =>
    have hlt : c < desired := hleads
    simp only [Direction.transition, Engine.perform, Engine.applyVersion_eq]
    refine obeys_andThen (heard_current h) ?_
    rintro _ ⟨_, asked⟩ ⟨rfl, rfl, h⟩
    rw [hschema, if_neg Bool.false_ne_true, if_neg (Nat.ne_of_lt hlt), if_neg (Nat.lt_asymm hlt)]
    exact heard_migration _ h
  | down =>
    have hlt : desired < c := hleads
    simp only [Direction.transition, Engine.perform, Engine.rollbackVersion_eq]
    refine obeys_andThen (heard_current h) ?_
    rintro _ ⟨_, asked⟩ ⟨rfl, rfl, h⟩
    rw [hschema, if_neg Bool.false_ne_true]
    have hskip : (pure () : Attempt interface Unit).run.Obeys (glancing p reasons).heard
        (onSuccess (fun _ t => t = (⟨row, false, true⟩, asked)) fun _ => True)
        (⟨row, false, true⟩, asked) := rfl
    refine obeys_andThen hskip ?_
    rintro _ _ rfl
    rw [Engine.lower, if_neg (Nat.ne_of_gt hlt), if_neg (Nat.lt_asymm hlt)]
    exact heard_migration _ h

/-- An operation that migrates and succeeds, from a session that owes nothing. -/
theorem heard_operation (hschema : schemaOf row = ⟨c, false⟩) (hleads : d.Leads c desired)
    (remaining : Option Duration) : (p.engine.operation d.transition desired remaining).Obeys
      (glancing p reasons).heard
      (onSuccess (fun _ t => Ran p row desired (d.announcement (d.distance c desired)) t)
        fun _ => True)
      (⟨row, false, connected⟩, []) := by
  have hbody : ∀ asked, Account none [] asked →
      (Program.ensuring (p.engine.perform d.transition desired).run
        p.engine.restoreLockTimeout).Obeys
        (glancing p reasons).heard
        (onSuccess (fun _ t => Ran p row desired (d.announcement (d.distance c desired)) t)
          fun _ => True)
        (⟨row, false, connected⟩, asked) := by
    intro asked h
    refine Program.obeys_ensuring.2 ((heard_perform hschema hleads h).mono ?_)
    rintro ((e | a) | _) t ht
    · exact ⟨trivial, fun _ _ _ => trivial⟩
    · obtain ⟨steps, hplan, ht⟩ := ht
      refine ⟨trivial, ?_⟩
      rintro _ ⟨_, _⟩ ⟨-, sent, answered, rfl⟩
      exact ⟨steps, hplan, ht.spared (Request.spares_of_silent rfl rfl)⟩
    · exact ⟨trivial, fun _ _ _ => trivial⟩
  have hnew : Account none [] ([] : List (Exchange interface)) := ⟨rfl, rfl⟩
  cases remaining with
  | none => exact hbody [] hnew
  | some limit =>
    refine ⟨trivial, ?_⟩
    rintro a ⟨_, _⟩ ⟨rfl, sent, answered, rfl⟩
    exact hbody _ (hnew.spared (Request.spares_of_silent rfl rfl))

end Glances

/-! ## Announcements -/

section Announcements

variable {p : Plant} {site : Site} {d : Direction} {c desired : Nat} {remaining : Option Duration}
  {now : Instant}

/-- The reasons for which a server may still refuse a statement of a session. -/
def Site.reasons (s : Site) : List String :=
  s.server.rules.filterMap (·.failure) ++ (s.server.verdicts.lookup s.session.client).join.toList

theorem glimpsed_site (hbounded : site.server.Bounded) : Glimpsed p site.reasons
    ⟨site.server.rowOf site.session.client p.table, site.session.owesRollback,
      site.session.isConnected⟩ site := by
  refine ⟨rfl, rfl, rfl, hbounded, ?_, ?_⟩
  · intro r hr text htext
    exact List.mem_append_left _ (List.mem_filterMap.2 ⟨r, hr, htext⟩)
  · intro text htext
    exact List.mem_append_right _ (by rw [htext]; exact List.mem_singleton_self text)

variable (p d desired remaining now site) in
/-- What an operation asks that moves the schema in a direction. -/
def Plant.asked : List (Exchange interface) :=
  (p.engine.operation d.transition desired remaining).transcript now site

section Migrated

variable (hbounded : site.server.Bounded) (hpaid : site.session.owesRollback = false)
  (hread : schemaOf (site.server.rowOf site.session.client p.table) = ⟨c, false⟩)
  (hleads : d.Leads c desired)
  (hdone : ((p.engine.operation d.transition desired remaining).finish now site).outcome =
    .finished (.ok ()))

include hbounded hpaid hread hleads hdone

/-- **An operation that succeeds by migrating** announces how far it is, and runs what
is planned. -/
theorem announced : ∃ steps,
    p.source.plan ((Plant.ofRow (site.server.rowOf site.session.client p.table)).map (·.version))
      desired = .ok steps ∧
      Account (some (d.announcement (d.distance c desired))) (steps.map Step.move)
        (p.asked site d desired remaining now) := by
  have hlinked := glimpsed_site (p := p) hbounded
  rw [hpaid] at hlinked
  obtain ⟨t, -, hend⟩ :=
    (heard_operation hread hleads remaining).heard_transcript glancing_governs hlinked now
  rw [hdone] at hend
  exact hend

/-- **The announced number is that of the steps that are run** if and only if every version that is
passed is known. The steps are those of the known ones among them. -/
theorem announced_iff :
    (lines (p.asked site d desired remaining now)).head? =
      some (d.announcement (d.distance c desired)) ∧
      (∀ move, move ∈ moves (p.asked site d desired remaining now) ↔
        move.1 = d ∧ p.source.Knows move.2 ∧ d.Passes c desired move.2) ∧
      (d.distance c desired = (moves (p.asked site d desired remaining now)).length ↔
        ∀ v, d.Passes c desired v → p.source.Knows v) := by
  obtain ⟨steps, hplan, haccount⟩ := announced hbounded hpaid hread hleads hdone
  have hlevel :
      ((Plant.ofRow (site.server.rowOf site.session.client p.table)).map (·.version)).getD 0 =
        c := by
    rw [← level_eq, level, hread]
  rw [← hlevel] at hleads
  have hmem := Source.mem_plan_moves hplan hleads
  have hlength := Source.plan_length_iff hplan hleads
  rw [hlevel] at hmem hlength
  rw [haccount.made, List.length_map]
  exact ⟨haccount.first, hmem, hlength⟩

end Migrated

/-- An apply of both versions of a source without gaps. -/
theorem announced_iff_oneAndTwo : opened.server.Bounded ∧ opened.session.owesRollback = false ∧
    schemaOf (opened.server.rowOf opened.session.client oneAndTwo.table) = ⟨0, false⟩ ∧
      Direction.up.Leads 0 2 ∧
        ((oneAndTwo.engine.operation .apply 2 none).finish 0 opened).outcome = .finished (.ok ()) ∧
          (lines (oneAndTwo.asked opened .up 2 none 0)).head? = some "2 migrations to be applied" ∧
          (moves (oneAndTwo.asked opened .up 2 none 0)).length = 2 := by
  have hdone : ((oneAndTwo.engine.operation .apply 2 none).finish 0 opened).outcome =
      .finished (.ok ()) :=
    finish_apply (by decide) (by decide) oneAndTwo_scripts
  have hleads : Direction.up.Leads 0 2 := by decide
  obtain ⟨hfirst, -, hcount⟩ := announced_iff (d := .up) opened_bounded rfl rfl hleads hdone
  have hknown : ∀ v, Direction.up.Passes 0 2 v → oneAndTwo.source.Knows v := by
    rintro v ⟨hpos, hle⟩
    have hmem : v ∈ oneAndTwo.source.versions := by
      have hversions : oneAndTwo.source.versions = [1, 2] := by rfl
      rw [hversions]
      obtain rfl | rfl : v = 1 ∨ v = 2 := by omega
      · decide
      · decide
    exact Source.mem_versions.1 hmem
  exact ⟨opened_bounded, rfl, rfl, hleads, hdone, hfirst, (hcount.2 hknown).symm⟩

/-- A source whose versions have gaps before and between them. -/
def sparse : Plant := plantOf [(2, "up1", "down1"), (5, "up2", "down2")]

theorem sparse_scripts : sparse.HasScripts 5 opened := by
  refine hasScripts_two (v := 2) (w := 5) (by rfl) ?_ ?_
  · intro d
    cases d with
    | up => exact ⟨"UP ONE;", by cbv⟩
    | down => exact ⟨"DOWN ONE;", by cbv⟩
  · intro d
    cases d with
    | up => exact ⟨"UP TWO;", by cbv⟩
    | down => exact ⟨"DOWN TWO;", by cbv⟩

/-- **An apply announces more migrations than it runs**: five for the two that there are. -/
theorem sparse_overstated :
    ((sparse.engine.operation .apply 5 none).finish 0 opened).outcome = .finished (.ok ()) ∧
      (lines (sparse.asked opened .up 5 none 0)).head? = some "5 migrations to be applied" ∧
        moves (sparse.asked opened .up 5 none 0) = [(.up, 2), (.up, 5)] := by
  have hdone : ((sparse.engine.operation .apply 5 none).finish 0 opened).outcome =
      .finished (.ok ()) :=
    finish_apply (by decide) (by decide) sparse_scripts
  have hleads : Direction.up.Leads 0 5 := by decide
  obtain ⟨steps, hplan, haccount⟩ := announced (d := .up) opened_bounded rfl rfl hleads hdone
  have hsteps : sparse.source.plan none 5 = .ok [.up 2, .up 5] := by rfl
  obtain rfl : steps = [.up 2, .up 5] := Except.ok.inj (hplan.symm.trans hsteps)
  exact ⟨hdone, haccount.first, haccount.made⟩

end Announcements

end Postgres

end Stairway
