import Stairway.Proofs.Controller.Prompts
import Stairway.Proofs.Postgres.Conduct
import Stairway.Proofs.Postgres.Discipline

/-!
# An engine that nobody disturbs

A session is `Undisturbed` while it is connected, no statement fails and nobody else holds a lock:
what it records then depends on its own statements alone. Each of the engine's programs is followed
here from such a site to the next: what it answers with, which row it leaves recorded and which
statements it sends, in order (`yields_send` up to `ensures_migrateTo`).

Statements may take any time. Taking the lock breaks off where the clock cannot show its deadline,
so what is done under the lock is said up to the last instant at which it can.
-/

namespace Stairway.Postgres

open Program (Ensures Yields)

/-! ## Sites -/

/-- The statements that a server has seen. -/
def Server.statements (s : Server) : List Statement :=
  s.events.filterMap fun e => match e.2 with
    | .statement q => some q
    | .connected .. => none

/-- A session that goes on as `base` began, with a row recorded and these statements sent since, and
nobody in its way. -/
structure Undisturbed (p : Plant) (base : Site) (draft : Draft) (row : Option Row)
    (sent : List Statement) (s : Site) : Prop where
  client : s.session.client = base.session.client
  files : s.session.files = base.session.files
  lockTimeout : s.session.lockTimeout = base.session.lockTimeout
  stop : s.session.stop = {}
  connected : s.session.isConnected = true
  paid : s.session.owesRollback = false
  unfailing : ∀ r ∈ s.server.rules, r.failure = none
  quiet : base.server.rules = [] → s.server.rules = []
  granting : s.server.deniedLocks = 0
  alone : ∀ holder ∈ s.server.locks, holder.1 = s.session.client
  draft : draft.Matches p.table (s.server.transactions.lookup s.session.client)
  row : s.server.rowIn p.table = row
  sent : s.server.statements = base.server.statements ++ sent

/-- A session that has just opened its engine on a database without a version, where nothing fails
and nobody else holds a lock. -/
abbrev Site.Fresh (p : Plant) (s : Site) : Prop := Undisturbed p s .closed none [] s

namespace Server

variable {s : Server} {i : ClientId}

theorem apply_rules (q : Statement) : (s.apply i q).2.rules = s.rules := by
  cases q with
  | tryLock key | unlock key | createTable t =>
    simp only [apply]
    repeat' split
    all_goals rfl
  | truncate t | insert t row =>
    simp only [apply, write]
    split <;> rfl
  | _ => rfl

theorem apply_verdicts (q : Statement) : (s.apply i q).2.verdicts = s.verdicts := by
  cases q with
  | tryLock key | unlock key | createTable t =>
    simp only [apply]
    repeat' split
    all_goals rfl
  | truncate t | insert t row =>
    simp only [apply, write]
    split <;> rfl
  | _ => rfl

theorem apply_events (q : Statement) : (s.apply i q).2.events = s.events := by
  cases q with
  | tryLock key | unlock key | createTable t =>
    simp only [apply]
    repeat' split
    all_goals rfl
  | truncate t | insert t row =>
    simp only [apply, write]
    split <;> rfl
  | _ => rfl

theorem apply_deniedLocks (h : s.deniedLocks = 0) (q : Statement) :
    (s.apply i q).2.deniedLocks = 0 := by
  cases q with
  | tryLock key | unlock key | createTable t =>
    simp only [apply]
    repeat' split
    all_goals simp [h]
  | truncate t | insert t row =>
    simp only [apply, write]
    split <;> exact h
  | _ => exact h

/-- A client that alone holds locks stays alone. -/
theorem apply_alone (h : ∀ holder ∈ s.locks, holder.1 = i) (q : Statement) :
    ∀ holder ∈ (s.apply i q).2.locks, holder.1 = i := by
  cases q with
  | tryLock key =>
    simp only [apply]
    repeat' split
    · exact h
    · exact h
    · intro holder hmem
      rcases List.mem_append.1 hmem with hmem | hmem
      · exact h holder hmem
      · rw [List.mem_singleton.1 hmem]
  | unlock key =>
    simp only [apply]
    split
    · exact fun holder hmem => h holder (List.mem_of_mem_erase hmem)
    · exact h
  | createTable t =>
    simp only [apply]
    split <;> exact h
  | truncate t | insert t row =>
    rw [apply, write_locks]
    exact h
  | _ => exact h

end Server

variable {p : Plant} {base : Site} {draft : Draft} {row : Option Row} {sent : List Statement}
  {s : Site}

namespace Undisturbed

theorem arrive (h : Undisturbed p base draft row sent s) (now : Instant) (q : Statement) :
    Undisturbed p base draft row (sent ++ [q])
      { s with server := (s.server.arrive now s.session.client q).2 } where
  client := h.client
  files := h.files
  lockTimeout := h.lockTimeout
  stop := h.stop
  connected := h.connected
  paid := h.paid
  unfailing := by
    intro r hr
    obtain ⟨r', hr', rfl⟩ := List.mem_map.1 hr
    have hfailure := h.unfailing r' hr'
    unfold Rule.count
    split <;> exact hfailure
  quiet hbase := by simp [Server.arrive, h.quiet hbase]
  granting := h.granting
  alone := h.alone
  draft := h.draft
  row := h.row
  sent := by
    have hsent := h.sent
    unfold Server.statements at hsent ⊢
    simp [Server.arrive, hsent]

theorem verdict (h : Undisturbed p base draft row sent s) (now : Instant) (q : Statement) :
    ((s.server.arrive now s.session.client q).2.verdicts.lookup s.session.client).join = none := by
  have hnone : ((s.server.rules.map (Rule.count q.sql)).filter (Rule.strikes · q.sql)).findSome?
      (·.failure) = none := by
    rw [List.findSome?_eq_none_iff]
    intro r hr
    exact (h.arrive now q).unfailing r (List.mem_filter.1 hr).1
  simp only [Server.arrive, hnone, List.lookup_append, Server.lookup_filter_self]
  simp

theorem apply (h : Undisturbed p base draft row sent s) {q : Statement}
    (hq : ({ draft } : Standing).Proper p q) :
    Undisturbed p base
      (({ draft } : Standing).hearReply q (s.server.apply s.session.client q).1).draft
      ((({ draft } : Standing).published (.statement q)
        (.ok (s.server.apply s.session.client q).1)).getD row)
      sent { s with server := (s.server.apply s.session.client q).2 } where
  client := h.client
  files := h.files
  lockTimeout := h.lockTimeout
  stop := h.stop
  connected := h.connected
  paid := h.paid
  unfailing := by
    rw [Server.apply_rules]
    exact h.unfailing
  quiet hbase := by
    rw [Server.apply_rules]
    exact h.quiet hbase
  granting := Server.apply_deniedLocks h.granting q
  alone := Server.apply_alone h.alone q
  draft := draft_apply hq h.draft
  row := by
    rw [← h.row]
    exact recorded_apply hq h.draft
  sent := by
    rw [← h.sent]
    simp only [Server.statements, Server.apply_events]

theorem undelayed (h : Undisturbed p base draft row sent s) (hbase : base.server.rules = [])
    (now : Instant) (q : Statement) : (s.server.arrive now s.session.client q).1 = 0 := by
  simp [Server.arrive, h.quiet hbase]

theorem granted (h : Undisturbed p base draft row sent s) (key : Int) :
    (s.server.apply s.session.client (.tryLock key)).1 = true := by
  have hfree : s.server.isHeldByOther s.session.client key = false := by
    unfold Server.isHeldByOther
    rw [List.any_eq_false]
    intro holder hmem
    simp [h.alone holder hmem]
  simp [Server.apply, h.granting, hfree]

/-- What is read outside a transaction is what is recorded. -/
theorem selected (h : Undisturbed p base .closed row sent s) :
    (s.server.apply s.session.client (.selectRow p.table)).1 = row := by
  rw [← h.row]
  exact Server.rowOf_eq h.draft

end Undisturbed

/-! ## Asking -/

/-- The clock up to a limit; it stands where the server has no rules. -/
def Site.clock (base : Site) (limit : Instant) : Program.Clock where
  limit := limit
  stands := base.server.rules = []

variable {limit : Instant} {m : Prompted Site} {α β : Type}

theorem yields_request {r : Request} {ok : r.Answer → Prompted Site → Prop}
    (h : ∀ now, (Program.waitFor (I := interface) r now m).2.2 < limit →
      ok (Program.waitFor (I := interface) r now m).1
        (Program.waitFor (I := interface) r now m).2.1)
    (hstands : base.server.rules = [] → ∀ now,
      (Program.waitFor (I := interface) r now m).2.2 = now) :
    (Work.ask r).run.Yields (base.clock limit) ok m :=
  ⟨fun now hlimit => ⟨_, rfl, h now hlimit⟩, fun hrules now _ => hstands hrules now⟩

/-- Anything but a statement is answered at once. -/
theorem yields_ask {r : Request} {ok : r.Answer → Prompted Site → Prop}
    (h : ∀ now < limit,
      ok (Program.waitFor (I := interface) r now m).1
        (Program.waitFor (I := interface) r now m).2.1)
    (hnow : ∀ now, (Program.waitFor (I := interface) r now m).2.2 = now) :
    (Work.ask r).run.Yields (base.clock limit) ok m :=
  yields_request (fun now hlimit => h now (hnow now ▸ hlimit)) fun _ => hnow

theorem yields_get {ε : Type} {wrap : ε → DatabaseError} {a : α} {ok : α → Prompted Site → Prop}
    (h : ok a m) : (Work.get wrap (.ok a)).run.Yields (base.clock limit) ok m :=
  Yields.done h

/-- What holds of a prompted site that is undisturbed, with prompts that are left. -/
structure Goes (p : Plant) (base : Site) (draft : Draft) (row : Option Row) (sent : List Statement)
    (prompts : List Bool) (m : Prompted Site) : Prop extends
    Undisturbed p base draft row sent m.machine where
  prompts : m.prompts = prompts

variable {prompts : List Bool}

theorem yields_log {line : String} (h : Goes p base draft row sent prompts m) :
    (Work.ask (.log line)).run.Yields (base.clock limit)
      (fun _ n => Goes p base draft row sent prompts n) m :=
  yields_ask (fun _ _ => ⟨⟨h.client, h.files, h.lockTimeout, h.stop, h.connected, h.paid,
    h.unfailing, h.quiet, h.granting, h.alone, h.draft, h.row, h.sent⟩, h.prompts⟩) fun _ => rfl

/-- **A statement that is sent succeeds.** -/
theorem yields_send {q : Statement} (h : Goes p base draft row sent prompts m)
    (hq : ({ draft } : Standing).Proper p q) :
    (send q).run.Yields (base.clock limit) (fun reply n =>
      (∃ s, Undisturbed p base draft row (sent ++ [q]) s ∧
        reply = (s.server.apply s.session.client q).1) ∧
        Goes p base (({ draft } : Standing).hearReply q reply).draft
          ((({ draft } : Standing).published (.statement q) (.ok reply)).getD row)
          (sent ++ [q]) prompts n) m := by
  have hpaid : payDebt.run.Yields (base.clock limit)
      (fun _ n => Goes p base draft row sent prompts n) m := by
    refine Yields.andThen (R := fun owed n => owed = false ∧ Goes p base draft row sent prompts n)
      ?_ ?_
    · exact yields_ask (fun _ _ => ⟨h.paid, ⟨h.client, h.files, h.lockTimeout, h.stop, h.connected,
        rfl, h.unfailing, h.quiet, h.granting, h.alone, h.draft, h.row, h.sent⟩, h.prompts⟩)
          fun _ => rfl
    · rintro _ n ⟨rfl, hn⟩
      exact Yields.done hn
  rw [send_eq]
  refine Yields.andThen hpaid ?_
  intro _ n hn
  refine Yields.andThen (R := fun (a : Except ConnectionError q.Reply) u => ∃ reply, a = .ok reply ∧
      (∃ s, Undisturbed p base draft row (sent ++ [q]) s ∧
        reply = (s.server.apply s.session.client q).1) ∧
        Goes p base (({ draft } : Standing).hearReply q reply).draft
          ((({ draft } : Standing).published (.statement q) (.ok reply)).getD row)
          (sent ++ [q]) prompts u) ?_ ?_
  · have hserved : ∀ now, Program.waitFor (I := interface) (.statement q) now n =
        (.ok
          ((n.machine.server.arrive now n.machine.session.client q).2.apply
            n.machine.session.client q).1,
          ⟨{ n.machine with
            server := ((n.machine.server.arrive now n.machine.session.client q).2.apply
              n.machine.session.client q).2 }, n.prompts⟩,
          now + (n.machine.server.arrive now n.machine.session.client q).1) := by
      intro now
      simp [Program.waitFor, Machine.answer, Machine.arrive, Site.arrive, Site.serve, Session.serve,
        Server.finish, Stoppable.isLook, hn.verdict now q]
    refine yields_request ?_ ?_
    · intro now _
      have harrived := hn.arrive now q
      rw [hserved]
      exact ⟨_, rfl, ⟨_, harrived, rfl⟩, harrived.apply hq, hn.prompts⟩
    · intro hrules now
      rw [hserved]
      exact congrArg (now + ·) (hn.undelayed hrules now q)
  · rintro _ u ⟨reply, rfl, hu⟩
    exact yields_get hu

theorem yields_statement {q : Statement} {draft' : Draft} {row' : Option Row}
    (h : Goes p base draft row sent prompts m) (hq : ({ draft } : Standing).Proper p q)
    (hdraft : ∀ reply, (({ draft } : Standing).hearReply q reply).draft = draft')
    (hrow : ∀ reply,
      ((({ draft } : Standing).published (.statement q) (.ok reply)).getD row) = row') :
    (send q).run.Yields (base.clock limit)
      (fun _ n => Goes p base draft' row' (sent ++ [q]) prompts n) m := by
  refine (yields_send h hq).mono ?_
  rintro reply n ⟨-, hn⟩
  rwa [hdraft, hrow] at hn

/-! ## Versions -/

theorem yields_readVersion (h : Goes p base .closed row sent prompts m) :
    p.readVersion.run.Yields (base.clock limit) (fun v n => v = Plant.ofRow row ∧
      Goes p base .closed row (sent ++ [.selectRow p.table]) prompts n) m := by
  refine Yields.andThen (yields_send h trivial) ?_
  rintro reply n ⟨⟨s, hs, rfl⟩, hn⟩
  exact Yields.done ⟨congrArg Plant.ofRow hs.selected, hn⟩

namespace Plant

variable (p) in
/-- The statements by which a version is written. -/
def marking (version : Int) (dirty : Bool) : List Statement :=
  [.beginTransaction, .truncate p.table] ++
    (if hasRow version dirty then [.insert p.table ⟨version, dirty⟩] else []) ++ [.commit]

end Plant

theorem yields_replaceRow {version : Int} {dirty : Bool}
    (h : Goes p base .blank row sent prompts m) :
    (p.replaceRow version dirty).run.Yields (base.clock limit) (fun _ n =>
      Goes p base .closed (written version dirty) (sent ++ [.truncate p.table] ++
        (if Plant.hasRow version dirty then [.insert p.table ⟨version, dirty⟩] else []) ++
          [.commit])
        prompts n) m := by
  rw [replaceRow_eq]
  have htruncate : (send (.truncate p.table)).run.Yields (base.clock limit) (fun _ n =>
      Goes p base (.row none) row (sent ++ [.truncate p.table]) prompts n) m :=
    yields_statement h ⟨rfl, by simp⟩ (fun _ => rfl) fun _ => rfl
  refine Yields.andThen htruncate ?_
  intro _ n hn
  refine Yields.andThen (R := fun _ u => Goes p base (.row (written version dirty)) row
    (sent ++ [.truncate p.table] ++
      (if Plant.hasRow version dirty then [.insert p.table ⟨version, dirty⟩] else [])) prompts u)
      ?_ ?_
  · by_cases hhas : Plant.hasRow version dirty = true
    · simp only [hhas, if_true, written]
      exact yields_statement hn ⟨rfl, by simp⟩ (fun _ => rfl) fun _ => rfl
    · simp only [hhas, written, Bool.false_eq_true, if_false, List.append_nil]
      exact Yields.done hn
  · intro _ u hu
    exact yields_statement hu ⟨_, rfl⟩ (fun _ => rfl) fun _ => rfl

/-- **A version is written** by one transaction. -/
theorem yields_writeVersion {version : Int} {dirty : Bool}
    (h : Goes p base .closed row sent prompts m) :
    (p.writeVersion version dirty).run.Yields (base.clock limit) (fun _ n =>
      Goes p base .closed (written version dirty)
        (sent ++ p.marking version dirty) prompts n) m := by
  have hbegin : (send .beginTransaction).run.Yields (base.clock limit) (fun _ n =>
      Goes p base .blank row (sent ++ [.beginTransaction]) prompts n) m :=
    yields_statement h trivial (fun _ => rfl) fun _ => rfl
  refine Yields.andThen hbegin ?_
  intro _ n hn
  refine Yields.andThen (R := fun (r : Except DatabaseError Unit) u => r = .ok () ∧
    Goes p base .closed (written version dirty) (sent ++ p.marking version dirty) prompts u) ?_ ?_
  · refine Ensures.bind (p := (p.replaceRow version dirty).run) (yields_replaceRow hn) ?_ ?_
    · rintro r u ⟨a, ha, hu⟩
      cases ha
      have hmarked : Goes p base .closed (written version dirty)
          (sent ++ p.marking version dirty) prompts u := by
        simpa [Plant.marking] using hu
      exact Yields.done ⟨rfl, hmarked⟩
    · rintro u ⟨a, ⟨⟩, -⟩
  · rintro _ u ⟨rfl, hu⟩
    exact Yields.done hu

/-! ## Steps -/

namespace Plant

variable (p) in
/-- The statements of a step whose script says this. -/
def conversation (t : Step) (text : String) : List Statement :=
  p.marking (recorded t.target) true ++
    (if isBlank text then [] else [.script p.target.multiStatement text]) ++
    p.marking (recorded t.target) false

variable (p) in
/-- The text of the script that a step runs. -/
def scriptText (files : Files.Tree) (t : Step) : Except SourceError String :=
  p.source.readScript files t.direction t.version

variable (p) in
/-- The statements of a step, with the script as it stands in the files. -/
def talk (files : Files.Tree) (t : Step) : List Statement :=
  match p.scriptText files t with
  | .ok text => p.conversation t text
  | .error _ => []

end Plant

/-- Whether a statement sets the dirty mark with which a step begins. -/
def Statement.beginsStep : Statement → Bool
  | .insert _ row => row.dirty
  | _ => false

theorem countP_talk {files : Files.Tree} {t : Step} {text : String}
    (h : p.scriptText files t = .ok text) :
    (p.talk files t).countP (·.beginsStep) = 1 := by
  have htalk : p.talk files t = p.conversation t text := by
    unfold Plant.talk
    rw [h]
  have hmarking : ∀ dirty, (p.marking (Plant.recorded t.target) dirty).countP (·.beginsStep) =
      if dirty then 1 else 0 := by
    intro dirty
    unfold Plant.marking
    cases dirty with
    | true => simp [Plant.hasRow, Statement.beginsStep]
    | false =>
      split <;> simp [Statement.beginsStep]
  have hscript : (if Plant.isBlank text then [] else
      [Statement.script p.target.multiStatement text]).countP (·.beginsStep) = 0 := by
    split <;> simp [Statement.beginsStep]
  rw [htalk, Plant.conversation, List.countP_append, List.countP_append, hmarking, hmarking,
    hscript]
  rfl

/-- **Steps are told by their dirty marks**, one for each. -/
theorem countP_talks {files : Files.Tree} {steps : List Step}
    (h : ∀ t ∈ steps, ∃ text, p.scriptText files t = .ok text) :
    (steps.flatMap (p.talk files)).countP (·.beginsStep) = steps.length := by
  induction steps with
  | nil => rfl
  | cons t rest ih =>
    obtain ⟨text, htext⟩ := h t List.mem_cons_self
    rw [List.flatMap_cons, List.countP_append, countP_talk htext,
      ih fun t' ht' => h t' (List.mem_cons_of_mem t ht'), List.length_cons, Nat.add_comm]

theorem yields_readScript {t : Step} {text : String} (h : Goes p base .closed row sent prompts m)
    (htext : p.scriptText base.session.files t = .ok text) :
    (p.readScript t.direction t.version).run.Yields (base.clock limit) (fun a n => a = text ∧
      Goes p base .closed row sent prompts n) m := by
  unfold Plant.scriptText Source.readScript at htext
  unfold Plant.readScript
  cases hscript : p.source.script t.direction t.version with
  | error e =>
    rw [hscript] at htext
    cases htext
  | ok script =>
    rw [hscript] at htext
    refine Yields.andThen (R := fun a n => a = script ∧ Goes p base .closed row sent prompts n)
      (yields_get ⟨rfl, h⟩) ?_
    rintro script n ⟨rfl, hn⟩
    refine Yields.andThen (R := fun (a : Except IoError String) u => a = .ok text ∧
      Goes p base .closed row sent prompts u) ?_ ?_
    · refine yields_ask (fun now _ => ⟨?_, hn⟩) fun _ => rfl
      have hread : (base.session.files.readText script.path).mapError SourceError.io = .ok text :=
        htext
      change n.machine.session.files.readText script.path = .ok text
      rw [hn.files]
      cases hcontent : base.session.files.readText script.path with
      | error e =>
        rw [hcontent] at hread
        cases hread
      | ok content =>
        rw [hcontent] at hread
        cases hread
        rfl
    · rintro _ u ⟨rfl, hu⟩
      exact yields_get ⟨rfl, hu⟩

theorem yields_runScript (text : String) (h : Goes p base .closed row sent prompts m) :
    (p.runScript text).run.Yields (base.clock limit) (fun _ n => Goes p base .closed row
      (sent ++ if Plant.isBlank text then [] else [.script p.target.multiStatement text])
      prompts n) m := by
  unfold Plant.runScript
  split
  · rw [List.append_nil]
    exact Yields.done h
  · exact yields_statement h trivial (fun _ => rfl) fun _ => rfl

/-- **A step is taken** from mark to script to mark. -/
theorem yields_takeStep {t : Step} {text : String} (h : Goes p base .closed row sent prompts m)
    (htext : p.scriptText base.session.files t = .ok text) :
    (p.takeStep t).run.Yields (base.clock limit) (fun _ n =>
      Goes p base .closed (t.mark false) (sent ++ p.talk base.session.files t) prompts n) m := by
  refine Yields.andThen (yields_readScript h htext) ?_
  rintro text n ⟨rfl, hn⟩
  refine Yields.andThen (yields_writeVersion hn) ?_
  intro _ n hn
  refine Yields.andThen (yields_runScript text hn) ?_
  intro _ n hn
  refine Yields.andThen (yields_writeVersion hn) ?_
  intro _ n hn
  refine (yields_log hn).mono fun _ u hu => ?_
  have htalk : p.talk base.session.files t = p.conversation t text := by
    unfold Plant.talk
    rw [htext]
  have hmark : t.mark false = written (Plant.recorded t.target) false := rfl
  rw [htalk, hmark]
  simpa only [Plant.conversation, List.append_assoc] using hu

/-- A look finds what the first prompt says, and the slot is empty again. -/
theorem yields_takeStop (h : Goes p base .closed row sent prompts m) :
    (Work.ask .takeStop).run.Yields (base.clock limit) (fun b n => b = prompts.headD false ∧
      Goes p base .closed row sent prompts.tail n) m := by
  obtain ⟨s, asked⟩ := m
  obtain rfl : asked = prompts := h.prompts
  have hempty : s.session.stop = {} := h.stop
  have hgoes : ∀ stop : StopSlot, stop = {} → Goes p base .closed row sent asked.tail
      ⟨{ s with session := { s.session with stop } }, asked.tail⟩ := by
    rintro _ rfl
    exact ⟨⟨h.client, h.files, h.lockTimeout, rfl, h.connected, h.paid, h.unfailing, h.quiet,
      h.granting, h.alone, h.draft, h.row, h.sent⟩, rfl⟩
  have hfound : s.session.stop.take.1 = false := by rw [hempty]; rfl
  have hleft : s.session.stop.take.2 = {} := by rw [hempty]; rfl
  have hfound' : s.session.stop.request.2.take.1 = true := by rw [hempty]; rfl
  have hleft' : s.session.stop.request.2.take.2 = {} := by rw [hempty]; rfl
  rcases asked with _ | ⟨_ | _, rest⟩
  · exact yields_ask (fun _ _ => ⟨hfound, hgoes _ hleft⟩) fun _ => rfl
  · exact yields_ask (fun _ _ => ⟨hfound, hgoes _ hleft⟩) fun _ => rfl
  · exact yields_ask (fun _ _ => ⟨hfound', hgoes _ hleft'⟩) fun _ => rfl

/-- The row that is recorded after steps. -/
def rowAfter (row : Option Row) (steps : List Step) : Option Row :=
  (steps.getLast?.map (·.mark false)).getD row

theorem rowAfter_cons (row : Option Row) (t : Step) (rest : List Step) :
    rowAfter row (t :: rest) = rowAfter (t.mark false) rest := by
  unfold rowAfter
  cases rest with
  | nil => rfl
  | cons t' rest =>
    rw [List.getLast?_cons_cons, List.getLast?_eq_some_getLast (List.cons_ne_nil t' rest)]
    rfl

/-- **Steps are taken** up to the first look that finds a request. -/
theorem ensures_takeSteps {steps : List Step} {row : Option Row} {sent : List Statement}
    {prompts : List Bool} {m : Prompted Site}
    (hreadable : ∀ t ∈ steps, ∃ text, p.scriptText base.session.files t = .ok text)
    (h : Goes p base .closed row sent prompts m) :
    (p.takeSteps steps).run.Ensures (base.clock limit) (fun o n =>
      o = .finished (if (heed steps prompts).2.1 then .error .stopped else .ok ()) ∧
        Goes p base .closed (rowAfter row (heed steps prompts).1)
          (sent ++ (heed steps prompts).1.flatMap (p.talk base.session.files))
          (heed steps prompts).2.2 n) m := by
  induction steps generalizing row sent prompts m with
  | nil =>
    rw [← List.append_nil sent] at h
    exact Ensures.done ⟨rfl, h⟩
  | cons t rest ih =>
    rw [takeSteps_cons]
    refine Yields.ensures_andThen (yields_takeStop h) ?_
    rintro stop n ⟨rfl, hn⟩
    simp only [heed]
    by_cases hstop : prompts.headD false = true
    · simp only [hstop, if_true, rowAfter, List.getLast?_nil, Option.map_none, Option.getD_none,
        List.flatMap_nil, List.append_nil]
      exact Yields.ensures_andThen (yields_log hn) fun _ _ hu => Ensures.done ⟨rfl, hu⟩
    · simp only [hstop, if_false, Bool.false_eq_true]
      obtain ⟨text, htext⟩ := hreadable t List.mem_cons_self
      refine Yields.ensures_andThen (yields_takeStep hn htext) ?_
      intro _ u hu
      have hrest := ih (fun t' ht' => hreadable t' (List.mem_cons_of_mem t ht')) hu
      rw [rowAfter_cons]
      simpa only [List.flatMap_cons, List.append_assoc] using hrest

/-! ## The lock -/

/-- **The lock is granted at once**, as long as the clock can show when the waiting would end. -/
theorem yields_acquire (hlimit : limit + base.session.lockTimeout ≤ Instant.horizon)
    (h : Goes p base .closed row sent prompts m) :
    (acquire p.target.lockKey base.session.lockTimeout).run.Yields (base.clock limit) (fun _ n =>
      Goes p base .closed row (sent ++ [.tryLock p.target.lockKey]) prompts n) m := by
  refine Yields.andThen (R := fun start n => start < limit ∧
    Goes p base .closed row sent prompts n) ?_ ?_
  · exact yields_ask (fun now hlimit => ⟨hlimit, h⟩) fun _ => rfl
  · rintro start n ⟨hstart, hn⟩
    have hlater : Instant.later? start base.session.lockTimeout =
        some (start + base.session.lockTimeout) := by
      have hshown : start + base.session.lockTimeout < Instant.horizon :=
        Nat.lt_of_lt_of_le (Nat.add_lt_add_right hstart _) hlimit
      unfold Instant.later?
      rw [if_pos hshown]
    simp only [hlater]
    rw [poll]
    refine Yields.andThen (R := fun gotIt u => gotIt = true ∧
      Goes p base .closed row (sent ++ [.tryLock p.target.lockKey]) prompts u) ?_ ?_
    · refine (yields_send (q := .tryLock p.target.lockKey) hn rfl).mono ?_
      rintro reply u ⟨⟨s, hs, rfl⟩, hu⟩
      have hgranted := hs.granted p.target.lockKey
      rw [hgranted] at hu
      exact ⟨hgranted, hu⟩
    · rintro _ u ⟨rfl, hu⟩
      exact Yields.done hu

theorem yields_release (h : Goes p base .closed row sent prompts m) :
    (release p.target.lockKey).run.Yields (base.clock limit) (fun _ n =>
      Goes p base .closed row (sent ++ [.unlock p.target.lockKey]) prompts n) m := by
  have hdraft : ∀ reply,
      (({ draft := .closed } : Standing).hearReply (.unlock p.target.lockKey) reply).draft =
      .closed := by
    intro reply
    cases reply <;> rfl
  refine Yields.andThen (yields_statement h rfl hdraft fun _ => rfl) ?_
  intro hadIt n hn
  cases hadIt with
  | true => exact Yields.done hn
  | false => exact Yields.andThen (yields_log hn) fun _ u hu => Yields.done hu

/-- How work ends and what it leaves, when nobody disturbs it. -/
structure Trip (α : Type) where
  result : Except DatabaseError α
  row : Option Row
  sent : List Statement
  prompts : List Bool

/-- **What is done under the lock** stands between taking the lock and giving it back, however it
ends. -/
theorem ensures_locked {body : Work α} {trip : Trip α}
    (hlimit : limit + base.session.lockTimeout ≤ Instant.horizon)
    (h : Goes p base .closed row sent prompts m)
    (hbody : ∀ n, Goes p base .closed row (sent ++ [.tryLock p.target.lockKey]) prompts n →
      body.run.Ensures (base.clock limit) (fun o u => o = .finished trip.result ∧
        Goes p base .closed trip.row (sent ++ [.tryLock p.target.lockKey] ++ trip.sent)
          trip.prompts u) n) :
    (locked p.target.lockKey body).run.Ensures (base.clock limit)
      (fun o n => o = .finished trip.result ∧
        Goes p base .closed trip.row
          (sent ++ [.tryLock p.target.lockKey] ++ trip.sent ++ [.unlock p.target.lockKey])
          trip.prompts n) m := by
  refine Yields.ensures_andThen (R := fun timeout n => timeout = base.session.lockTimeout ∧
    Goes p base .closed row sent prompts n)
      (yields_ask (fun _ _ => ⟨h.lockTimeout, h⟩) fun _ => rfl) ?_
  rintro _ n ⟨rfl, hn⟩
  refine Yields.ensures_andThen (yields_acquire hlimit hn) ?_
  intro _ n hn
  refine Yields.ensures_andThen
    (R := fun result u => result = trip.result ∧ Goes p base .closed trip.row
      (sent ++ [.tryLock p.target.lockKey] ++ trip.sent) trip.prompts u) ?_ ?_
  · refine Ensures.bind (p := body.run) (hbody n hn) ?_ ?_
    · rintro result u ⟨hresult, hu⟩
      cases hresult
      exact Yields.done ⟨rfl, hu⟩
    · rintro u ⟨⟨⟩, -⟩
  · rintro result u ⟨rfl, hu⟩
    refine Yields.ensures_andThen
      (R := fun (released : Except DatabaseError Unit) n => released = .ok () ∧
        Goes p base .closed trip.row
          (sent ++ [.tryLock p.target.lockKey] ++ trip.sent ++ [.unlock p.target.lockKey])
          trip.prompts n) ?_ ?_
    · refine Ensures.bind (p := (release p.target.lockKey).run) (yields_release hu) ?_ ?_
      · rintro released n ⟨a, ha, hn⟩
        cases ha
        exact Yields.done ⟨rfl, hn⟩
      · rintro n ⟨a, ⟨⟩, -⟩
    · rintro _ n ⟨rfl, hn⟩
      cases trip.result with
      | error e => exact Ensures.done ⟨rfl, hn⟩
      | ok a => exact Ensures.done ⟨rfl, hn⟩

/-! ## Migrating -/

namespace Plant

variable (p) in
/-- What a migration does under the lock, from a row that is not dirty. -/
def trip (files : Files.Tree) (row : Option Row) (prompts : List Bool) (target : Nat) : Trip Unit :=
  match p.source.plan ((ofRow row).map (·.version)) target with
  | .error e => ⟨.error (.source e), row, [.selectRow p.table], prompts⟩
  | .ok steps =>
    let (taken, stopped, left) := heed steps prompts
    ⟨if stopped then .error .stopped else .ok (), rowAfter row taken,
      .selectRow p.table :: taken.flatMap (p.talk files), left⟩

end Plant

theorem ensures_migrateLocked {target : Nat} (h : Goes p base .closed row sent prompts m)
    (hclean : isDirty row = false)
    (hreadable : ∀ steps, p.source.plan ((Plant.ofRow row).map (·.version)) target = .ok steps →
      ∀ t ∈ steps, ∃ text, p.scriptText base.session.files t = .ok text) :
    (p.migrateLocked target).run.Ensures (base.clock limit) (fun o n =>
      o = .finished (p.trip base.session.files row prompts target).result ∧
        Goes p base .closed (p.trip base.session.files row prompts target).row
          (sent ++ (p.trip base.session.files row prompts target).sent)
          (p.trip base.session.files row prompts target).prompts n) m := by
  rw [migrateLocked_eq]
  refine Yields.ensures_andThen (yields_readVersion h) ?_
  rintro _ n ⟨rfl, hn⟩
  have hclean' : (Plant.ofRow row).any (·.dirty) = false := by
    unfold isDirty schemaOf at hclean
    cases hrow : Plant.ofRow row with
    | none => rfl
    | some c =>
      rw [hrow] at hclean
      exact hclean
  rw [hclean', if_neg Bool.false_ne_true]
  unfold Plant.trip
  cases hplan : p.source.plan ((Plant.ofRow row).map (·.version)) target with
  | error e => exact Ensures.done ⟨rfl, hn⟩
  | ok steps =>
    refine Yields.ensures_andThen (R := fun a u => a = steps ∧
      Goes p base .closed row (sent ++ [.selectRow p.table]) prompts u) (yields_get ⟨rfl, hn⟩) ?_
    rintro steps u ⟨rfl, hu⟩
    simpa only [List.append_assoc, List.singleton_append] using
      ensures_takeSteps (hreadable _ hplan) hu

theorem yields_requireConnection (h : Goes p base draft row sent prompts m) :
    Plant.requireConnection.run.Yields (base.clock limit)
      (fun _ n => Goes p base draft row sent prompts n) m := by
  refine Yields.andThen
    (R := fun connected n => connected = true ∧ Goes p base draft row sent prompts n)
    (yields_ask (fun _ _ => ⟨h.connected, h⟩) fun _ => rfl) ?_
  rintro _ n ⟨rfl, hn⟩
  exact Yields.done hn

/-- **A migration** takes the lock, makes its trip and gives the lock back. -/
theorem ensures_migrateTo {target : Nat}
    (hlimit : limit + base.session.lockTimeout ≤ Instant.horizon)
    (h : Goes p base .closed row sent prompts m) (hclean : isDirty row = false)
    (hreadable : ∀ steps, p.source.plan ((Plant.ofRow row).map (·.version)) target = .ok steps →
      ∀ t ∈ steps, ∃ text, p.scriptText base.session.files t = .ok text) :
    (p.engine.migrateTo target).Ensures (base.clock limit) (fun o n =>
      o = .finished
        ((p.trip base.session.files row prompts target).result.mapError DatabaseError.toEngine) ∧
        Goes p base .closed (p.trip base.session.files row prompts target).row
          (sent ++ [.tryLock p.target.lockKey] ++
            (p.trip base.session.files row prompts target).sent ++ [.unlock p.target.lockKey])
            (p.trip base.session.files row prompts target).prompts n) m := by
  have hmove : (p.migrateTo target).run.Ensures (base.clock limit) (fun o n =>
      o = .finished (p.trip base.session.files row prompts target).result ∧
        Goes p base .closed (p.trip base.session.files row prompts target).row
          (sent ++ [.tryLock p.target.lockKey] ++
            (p.trip base.session.files row prompts target).sent ++ [.unlock p.target.lockKey])
            (p.trip base.session.files row prompts target).prompts n) m := by
    refine Yields.ensures_andThen (yields_requireConnection h) ?_
    intro _ n hn
    exact ensures_locked hlimit hn fun u hu => ensures_migrateLocked hu hclean hreadable
  refine Ensures.bind (p := (p.migrateTo target).run) hmove ?_ ?_
  · rintro r n ⟨hr, hn⟩
    cases hr
    exact Ensures.done ⟨rfl, hn⟩
  · rintro n ⟨⟨⟩, -⟩

/-- **The version that an engine tells** is the one that is recorded. -/
theorem ensures_version (h : Goes p base .closed row sent prompts m) :
    p.engine.version.Ensures (base.clock limit) (fun o n => o = .finished (.ok (Plant.ofRow row)) ∧
      Goes p base .closed row (sent ++ [.selectRow p.table]) prompts n) m := by
  have hread : p.version.run.Yields (base.clock limit) (fun v n => v = Plant.ofRow row ∧
      Goes p base .closed row (sent ++ [.selectRow p.table]) prompts n) m := by
    refine Yields.andThen (yields_requireConnection h) ?_
    exact fun _ n hn => yields_readVersion hn
  refine Ensures.bind (p := p.version.run) hread ?_ ?_
  · rintro r n ⟨v, hv, rfl, hn⟩
    cases hv
    exact Ensures.done ⟨rfl, hn⟩
  · rintro n ⟨v, ⟨⟩, -⟩

end Stairway.Postgres
