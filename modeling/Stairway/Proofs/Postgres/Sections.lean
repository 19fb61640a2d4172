import Stairway.Proofs.Postgres.Compliance
import Stairway.Proofs.Postgres.Interference
import Stairway.Proofs.Postgres.Traffic

/-!
# Sections of the lock exclude each other

Whatever the clients of a server do and however they take turns, there are `Bearings` for each of
them that are true of the server (`Traffic.Sound`). They hold at the beginning and a turn keeps
them: the client that asks goes on as its call's protocol says, and the others are left alone.
`Preserves.run` is the induction over the turns of a run, for this and for whatever else is to be
shown of every run.

`sections_exclude` reads off what the lock is for. At most one client is in a section of it;
scripts, and writes and creations of version tables, belong to sections; and what a client reads
inside its section stays recorded until it writes itself or the section ends. That a client which is
outside its section may still hold the lock is not excluded: giving it back can be refused.
-/

namespace Stairway.Postgres

/-! ## What is known of the clients -/

/-- One client has heard something. -/
def retell (heard : ClientId → Bearings) (i : ClientId) (s : Bearings) : ClientId → Bearings :=
  fun j => if j = i then s else heard j

section Retell

variable {heard : ClientId → Bearings} {i j : ClientId} {s : Bearings}

@[simp] theorem retell_self : retell heard i s i = s := if_pos rfl

@[simp] theorem retell_of_ne (h : j ≠ i) : retell heard i s j = heard j := if_neg h

end Retell

/-- Whether an entry refuses a rollback. -/
def Entry.strands (e : Entry) : Bool := e.request.strands e.answer

/-- The version tables after all this has happened. -/
def tablesAfter (initial : List (String × Option Row)) (journal : List Entry) :
    List (String × Option Row) :=
  (journal.getLast?.map (·.after)).getD initial

@[simp] theorem tablesAfter_snoc (initial : List (String × Option Row)) (journal : List Entry)
    (e : Entry) :
    tablesAfter initial (journal ++ [e]) = e.after := by
  simp [tablesAfter]

/-- Where the last entry of a journal is new, it comes after all the others. -/
theorem split_snoc {α : Type} {journal front back : List α} {e f : α}
    (h : journal ++ [e] = front ++ f :: back) :
    (∃ back', journal = front ++ f :: back') ∨ journal = front ∧ e = f := by
  rcases List.eq_nil_or_concat back with rfl | ⟨back', g, rfl⟩
  · right
    have := List.append_inj' h rfl
    exact ⟨this.1, by simpa using this.2⟩
  · left
    refine ⟨back', ?_⟩
    have hsplit : journal ++ [e] = (front ++ f :: back') ++ [g] := by simpa using h
    exact (List.append_inj' hsplit rfl).1

namespace Traffic

/-- What is true of the server and its clients in every run. -/
structure Sound (plants : ClientId → Plant) (key : Int) (heard : ClientId → Bearings)
    (w : Traffic) :
    Prop where
  tied : ∀ i, Tied (plants i) i (w.lines i).session (heard i).toStanding w.server
  exclusive : w.server.Exclusive
  obeys : ∀ i, (w.lines i).rest.Obeys (conduct (plants i) (w.lines i).call)
    (w.lines i).call.Closes (heard i)
  inside : ∀ i, (heard i).inside = inSection key i w.journal
  locked : ∀ i, (heard i).inside = true → 0 < (heard i).locks
  wary : ∀ i, (heard i).blind = true → (heard i).lost = true
  lost : ∀ i, (heard i).lost = true → ∃ e ∈ w.journal, e.client = i ∧ e.strands = true

namespace Sound

variable {plants : ClientId → Plant} {key : Int} {heard : ClientId → Bearings} {w : Traffic}
  {i : ClientId}

theorem mem_locks (h : w.Sound plants key heard) (hkey : ∀ j, (plants j).target.lockKey = key)
    (hinside : inSection key i w.journal = true) : (i, key) ∈ w.server.locks := by
  have hlocked : 0 < (heard i).locks := h.locked i (by rw [h.inside i, hinside])
  rw [← (h.tied i).locks, hkey i] at hlocked
  exact List.count_pos_iff.1 hlocked

/-- Only one client is in a section. -/
theorem alone (h : w.Sound plants key heard) (hkey : ∀ j, (plants j).target.lockKey = key)
    {j : ClientId} (hi : inSection key i w.journal = true)
    (hj : inSection key j w.journal = true) : i = j :=
  h.exclusive i j key (h.mem_locks hkey hi) (h.mem_locks hkey hj)

theorem opening (plants : ClientId → Plant) (key : Int) (server : Server)
    (sessions : ClientId → Session) :
    (Traffic.opening server sessions).Sound plants key fun _ => {} where
  tied _ := ⟨rfl, rfl, rfl, rfl⟩
  exclusive _ _ _ := nofun
  obeys _ := ⟨.inr (Standing.settled_of_closed rfl), nofun⟩
  inside _ := rfl
  locked _ := nofun
  wary _ := nofun
  lost _ := nofun

/-- A client that asks is allowed to. -/
theorem allows (h : w.Sound plants key heard) {r : Request}
    {next : r.Answer → Program interface (Except EngineError Unit)}
    (hrest : (w.lines i).rest = .ask r next) :
    (heard i).Allows (plants i) (w.lines i).call r := by
  have hobeys := h.obeys i
  rw [hrest] at hobeys
  exact hobeys.1

/-- What is known of a client changes, but nothing on the server. -/
theorem put (h : w.Sound plants key heard) {line : Line} {s : Bearings}
    (htied : Tied (plants i) i line.session s.toStanding w.server)
    (hobeys : line.rest.Obeys (conduct (plants i) line.call) line.call.Closes s)
    (hinside : s.inside = (heard i).inside) (hlocks : s.locks = (heard i).locks)
    (hwary : s.blind = true → s.lost = true) (hlost : s.lost = (heard i).lost) :
    (w.put i line).Sound plants key (retell heard i s) where
  tied j := by
    by_cases hj : j = i
    · subst hj
      simpa [Traffic.put] using htied
    · simpa [Traffic.put, hj] using h.tied j
  exclusive := h.exclusive
  obeys j := by
    by_cases hj : j = i
    · subst hj
      simpa [Traffic.put] using hobeys
    · simpa [Traffic.put, hj] using h.obeys j
  inside j := by
    by_cases hj : j = i
    · subst hj
      simpa [Traffic.put, hinside] using h.inside j
    · simpa [Traffic.put, hj] using h.inside j
  locked j := by
    by_cases hj : j = i
    · subst hj
      simpa [hinside, hlocks] using h.locked j
    · simpa [hj] using h.locked j
  wary j := by
    by_cases hj : j = i
    · subst hj
      simpa using hwary
    · simpa [hj] using h.wary j
  lost j := by
    by_cases hj : j = i
    · subst hj
      simpa [Traffic.put, hlost] using h.lost j
    · simpa [Traffic.put, hj] using h.lost j

theorem retell_same (heard : ClientId → Bearings) (i : ClientId) :
    retell heard i (heard i) = heard := by
  funext j
  by_cases hj : j = i
  · subst hj
    simp
  · simp [hj]

/-- A client whose knowledge does not change goes on. -/
theorem step (h : w.Sound plants key heard) {line : Line}
    (htied : Tied (plants i) i line.session (heard i).toStanding w.server)
    (hobeys : line.rest.Obeys (conduct (plants i) line.call) line.call.Closes (heard i)) :
    (w.put i line).Sound plants key heard := by
  have hput := h.put htied hobeys rfl rfl (h.wary i) rfl
  rwa [retell_same] at hput

/-- Who has just been granted the lock holds it. -/
theorem locked_hear {p : Plant} {c : Call} {s : Bearings} (h : s.inside = true → 0 < s.locks)
    (r : Request) (a : r.Answer) (hproper : ∀ q, r = .statement q → s.toStanding.Proper p q) :
    (s.hear p c r a).inside = true → 0 < (s.hear p c r a).locks := by
  cases r with
  | statement q =>
    cases q with
    | tryLock k =>
      have hk : k = p.target.lockKey := hproper _ rfl
      cases a with
      | error e => exact h
      | ok gotIt =>
        cases gotIt with
        | false => simpa [Bearings.hear, Request.section, Standing.hear, Standing.hearReply] using h
        | true => exact fun _ => Nat.succ_pos _
    | unlock k =>
      have hk : k = p.target.lockKey := hproper _ rfl
      intro hinside
      simp [Bearings.hear, Request.section, hk] at hinside
    | commit =>
      cases a with
      | error e => exact h
      | ok _ =>
        simp only [Bearings.hear, Standing.hear, Standing.hearReply, Standing.publish]
        split <;> exact h
    | _ => cases a <;> exact h
  | readScript d v path => cases a <;> exact h
  | _ => exact h

/-- **One statement of one client** keeps all clients sound. -/
theorem ask (h : w.Sound plants key heard) (hkey : ∀ j, (plants j).target.lockKey = key)
    {r : Request} {next : r.Answer → Program interface (Except EngineError Unit)}
    (hrest : (w.lines i).rest = .ask r next) (e : Weather) :
    (w.ask i e r next).Sound plants key (retell heard i
      ((heard i).hear (plants i) (w.lines i).call r
        ((w.lines i).session.answer w.server e r).1)) := by
  have hallows := h.allows hrest
  have hreplied := replied (h.tied i) hallows e
  have hobeys := h.obeys i
  rw [hrest] at hobeys
  refine ⟨fun j => ?_, hreplied.exclusive h.exclusive, fun j => ?_, fun j => ?_, fun j => ?_,
    fun j => ?_, fun j => ?_⟩
  · by_cases hj : j = i
    · subst hj
      simpa [Traffic.ask] using hreplied.tied
    · obtain ⟨hclient, howed, hlocks, hdraft⟩ := h.tied j
      simp only [Traffic.ask, if_neg hj, retell_of_ne hj]
      exact ⟨hclient, howed, (hreplied.frame.locks j _ hj).trans hlocks,
        (hreplied.frame.transactions j hj) ▸ hdraft⟩
  · by_cases hj : j = i
    · subst hj
      simpa [Traffic.ask] using hobeys.2 _ _ ⟨hreplied.expected, rfl⟩
    · simpa [Traffic.ask, hj] using h.obeys j
  · rw [ask_journal, inSection_snoc]
    by_cases hj : j = i
    · subst hj
      simp [Bearings.hear, hkey, h.inside j]
    · simp [hj, Ne.symm hj, h.inside j]
  · by_cases hj : j = i
    · subst hj
      rw [retell_self]
      refine locked_hear (h.locked j) _ _ ?_
      rintro q rfl
      exact hallows.1
    · simpa [hj] using h.locked j
  · by_cases hj : j = i
    · subst hj
      intro hblind
      have hlost := h.wary j (by simpa [Bearings.hear] using hblind)
      simp [Bearings.hear, hlost]
    · simpa [hj] using h.wary j
  · intro hlost
    by_cases hj : j = i
    · subst hj
      rw [retell_self] at hlost
      rcases Bool.or_eq_true_iff.1 hlost with hstrands | hlost
      · exact ⟨_, List.mem_append_right _ List.mem_cons_self, rfl, hstrands⟩
      · obtain ⟨f, hf, hclient⟩ := h.lost j hlost
        exact ⟨f, List.mem_append_left _ hf, hclient⟩
    · rw [retell_of_ne hj] at hlost
      obtain ⟨f, hf, hclient⟩ := h.lost j hlost
      exact ⟨f, List.mem_append_left _ hf, hclient⟩

/-- A client that is at nothing begins its next call. -/
theorem begin (h : w.Sound plants key heard) {call : Call} (hsuits : call.Suits (plants i))
    (hsafe : (heard i).Safe)
    (hunused : call.isOpening = true → (w.lines i).session.isUnused = true) :
    (w.put i { w.lines i with call, rest := call.program (plants i) }).Sound plants key
      (retell heard i (heard i).fresh) := by
  obtain ⟨hclient, howed, hlocks, hdraft⟩ := h.tied i
  have hpaid : call.isOpening = true → (heard i).owesRollback = false := by
    intro hopening
    have hnothing := hunused hopening
    simp only [Session.isUnused, Bool.and_eq_true, Bool.not_eq_true'] at hnothing
    rw [← howed, hnothing.2]
  exact h.put ⟨hclient, howed, hlocks, hdraft⟩ (call.obeys hsuits hsafe hpaid) rfl rfl id rfl

end Sound

/-! ## Runs -/

/-- What one turn keeps: a condition on the journal and the server, and on what the clients know. -/
structure Preserves (plants : ClientId → Plant) (key : Int) (T : Turn → Prop)
    (Inv : (ClientId → Bearings) → Traffic → Prop) : Prop where
  /-- Nothing is asked and no call begins. -/
  aside : ∀ {heard w w'}, Inv heard w → w'.journal = w.journal → w'.server = w.server →
    (∀ j, (w'.lines j).call = (w.lines j).call) → Inv heard w'
  begin : ∀ {heard w} i call, T (.begin i call) → w.Sound plants key heard → Inv heard w →
    Inv (retell heard i (heard i).fresh)
      (w.put i { w.lines i with call, rest := call.program (plants i) })
  ask : ∀ {heard w} i e r next, T (.advance i e) → w.Sound plants key heard → Inv heard w →
    (w.lines i).rest = .ask r next →
    Inv (retell heard i
      ((heard i).hear (plants i) (w.lines i).call r ((w.lines i).session.answer w.server e r).1))
      (w.ask i e r next)

namespace Preserves

variable {plants : ClientId → Plant} {key : Int} {T : Turn → Prop}
  {Inv : (ClientId → Bearings) → Traffic → Prop} {heard : ClientId → Bearings} {w : Traffic}

theorem put_call {i : ClientId} {line : Line} (hcall : line.call = (w.lines i).call)
    (j : ClientId) :
    ((w.put i line).lines j).call = (w.lines j).call := by
  by_cases hj : j = i
  · subst hj
    simpa [Traffic.put] using hcall
  · simp [Traffic.put, hj]

/-- A client goes on without a word to the server. -/
theorem step (hP : Preserves plants key T Inv) {i : ClientId} {line : Line}
    (h : w.Sound plants key heard) (hI : Inv heard w) (hcall : line.call = (w.lines i).call)
    (htied : Tied (plants i) i line.session (heard i).toStanding w.server)
    (hobeys : line.rest.Obeys (conduct (plants i) line.call) line.call.Closes (heard i)) :
    ∃ heard', (w.put i line).Sound plants key heard' ∧ Inv heard' (w.put i line) :=
  ⟨heard, h.step htied hobeys, hP.aside hI rfl rfl (put_call hcall)⟩

theorem turn (hP : Preserves plants key T Inv) (hkey : ∀ j, (plants j).target.lockKey = key)
    (h : w.Sound plants key heard) (hI : Inv heard w) (t : Turn) (hsuits : t.Suits plants)
    (hT : T t) :
    ∃ heard', (w.turn plants t).Sound plants key heard' ∧ Inv heard' (w.turn plants t) := by
  cases t with
  | requestStop i =>
    obtain ⟨hclient, howed, hlocks, hdraft⟩ := h.tied i
    exact hP.step h hI rfl ⟨hclient, howed, hlocks, hdraft⟩ (h.obeys i)
  | advance i e =>
    have hobeys := h.obeys i
    simp only [Traffic.turn, Traffic.advance]
    split
    · exact ⟨heard, h, hI⟩
    · exact ⟨heard, h, hI⟩
    · next d next hrest =>
      rw [hrest] at hobeys
      exact hP.step h hI rfl (h.tied i) hobeys
    · next d next hrest =>
      rw [hrest] at hobeys
      exact hP.step h hI rfl (h.tied i) (hobeys e.cut)
    · next r next hrest => exact ⟨_, h.ask hkey hrest e, hP.ask i e r next hT h hI hrest⟩
  | begin i call =>
    have hobeys := h.obeys i
    have hbegin : (heard i).Safe → ∃ heard',
        (if !call.isOpening || (w.lines i).session.isUnused then
          w.put i { w.lines i with call, rest := call.program (plants i) } else w).Sound
            plants key heard' ∧
        Inv heard' (if !call.isOpening || (w.lines i).session.isUnused then
          w.put i { w.lines i with call, rest := call.program (plants i) } else w) := by
      intro hsafe
      split
      · next hmay =>
        refine ⟨_, h.begin hsuits hsafe ?_, hP.begin i call hT h hI⟩
        intro hopening
        simpa [hopening] using hmay
      · exact ⟨heard, h, hI⟩
    simp only [Traffic.turn, Traffic.start]
    split
    · next hrest =>
      rw [hrest] at hobeys
      exact hbegin hobeys.1
    · next hrest =>
      rw [hrest] at hobeys
      exact hbegin hobeys.1
    · exact ⟨heard, h, hI⟩

/-- **What a turn keeps holds of every run.** -/
theorem run (hP : Preserves plants key T Inv) (hkey : ∀ j, (plants j).target.lockKey = key)
    (turns : List Turn) (hturns : ∀ t ∈ turns, t.Suits plants ∧ T t) (h : w.Sound plants key heard)
    (hI : Inv heard w) :
    ∃ heard', (w.run plants turns).Sound plants key heard' ∧ Inv heard' (w.run plants turns) := by
  induction turns generalizing w heard with
  | nil => exact ⟨heard, h, hI⟩
  | cons t rest ih =>
    have ht := hturns t List.mem_cons_self
    obtain ⟨heard', h', hI'⟩ := hP.turn hkey h hI t ht.1 ht.2
    exact ih (fun t' ht' => hturns t' (List.mem_cons_of_mem t ht')) h' hI'

end Preserves

/-! ## What the lock is for -/

/-- What can be said of an entry after what has happened before. -/
structure Keeps (plants : ClientId → Plant) (key : Int) (initial : List (String × Option Row))
    (front : List Entry) (e : Entry) : Prop where
  alone : ∀ i j, inSection key i front = true → inSection key j front = true → i = j
  within : ∀ q, e.request = .statement q → q.touches = true → inSection key e.client front = true
  others : ∀ i, inSection key i front = true → e.client ≠ i → e.after = e.before
  reading : (∀ q, e.request = .statement q → q.touches = false) → e.after = e.before
  found : e.before = tablesAfter initial front
  truthful : (∀ f ∈ front, f.client = e.client → f.strands = false) →
    e.request.Truthful (plants e.client) (e.before.lookup (plants e.client).table).join e.answer

section Journals

variable {plants : ClientId → Plant} {key : Int} {heard : ClientId → Bearings} {w : Traffic}
  {i : ClientId}

/-- Only what is allowed inside a section touches the version tables. -/
theorem Sound.within (h : w.Sound plants key heard) {r : Request}
    {next : r.Answer → Program interface (Except EngineError Unit)}
    (hrest : (w.lines i).rest = .ask r next) {q : Statement} (hq : r = .statement q)
    (htouches : q.touches = true) :
    inSection key i w.journal = true := by
  subst hq
  have hallows := (h.allows hrest).2
  rw [← h.inside i]
  cases q with
  | createTable t => exact hallows
  | truncate t => exact hallows
  | insert t row => exact hallows
  | commit => exact hallows.1
  | script multi text => exact hallows.1
  | _ => cases htouches

theorem Sound.keeps (h : w.Sound plants key heard) (hkey : ∀ j, (plants j).target.lockKey = key)
    {initial : List (String × Option Row)}
    (htables : w.server.tables = tablesAfter initial w.journal) {r : Request}
    {next : r.Answer → Program interface (Except EngineError Unit)}
    (hrest : (w.lines i).rest = .ask r next) (e : Weather) :
    Keeps plants key initial w.journal ⟨i, r, ((w.lines i).session.answer w.server e r).1,
      w.server.tables, (w.ask i e r next).server.tables⟩ := by
  have hreplied := replied (h.tied i) (h.allows hrest) e
  have hreading : (∀ q, r = .statement q → q.touches = false) →
      (w.ask i e r next).server.tables = w.server.tables := hreplied.tables
  refine ⟨fun _ _ => h.alone hkey, fun _ => h.within hrest, ?_, hreading, htables, ?_⟩
  · -- Were it to touch the tables, the other one would be in a section as well.
    intro j hj hne
    refine hreading fun q hq => ?_
    cases htouches : q.touches with
    | false => rfl
    | true => exact absurd (h.alone hkey (h.within hrest hq htouches) hj) hne
  · intro hnone
    refine hreplied.truthful fun t ht => ?_
    subst ht
    rcases (h.allows hrest).2.2 with hblind | hclosed
    · obtain ⟨f, hf, hclient, hstrands⟩ := h.lost i (h.wary i hblind)
      rw [hnone f hf hclient] at hstrands
      cases hstrands
    · exact hclosed

/-- Every entry of the journal is as it should be, and the tables are as the last one left them. -/
def Kept (plants : ClientId → Plant) (key : Int) (initial : List (String × Option Row))
    (journal : List Entry) : Prop :=
  ∀ front e back, journal = front ++ e :: back → Keeps plants key initial front e

theorem Kept.snoc {initial : List (String × Option Row)} {journal : List Entry} {e : Entry}
    (h : Kept plants key initial journal) (he : Keeps plants key initial journal e) :
    Kept plants key initial (journal ++ [e]) := by
  intro front f back hsplit
  rcases split_snoc hsplit with ⟨back', hback⟩ | ⟨rfl, rfl⟩
  · exact h front f back' hback
  · exact he

theorem Kept.front {initial : List (String × Option Row)} {front journal : List Entry}
    (h : Kept plants key initial journal) (hfront : front <+: journal) :
    Kept plants key initial front := by
  obtain ⟨back, rfl⟩ := hfront
  intro front' e back' hsplit
  refine h front' e (back' ++ back) ?_
  rw [hsplit]
  simp

theorem kept_preserved (hkey : ∀ j, (plants j).target.lockKey = key)
    (initial : List (String × Option Row)) :
    Preserves plants key (fun _ => True) fun _ w =>
      Kept plants key initial w.journal ∧ w.server.tables = tablesAfter initial w.journal where
  aside hI hjournal hserver _ := by
    rw [hjournal, hserver]
    exact hI
  begin _ _ _ _ hI := hI
  ask i e r next _ h hI hrest := by
    rw [ask_journal, tablesAfter_snoc]
    exact ⟨hI.1.snoc (h.keeps hkey hI.2 hrest e), rfl⟩

/-- As long as a client is in its section and writes nothing, the tables stay as they are. -/
theorem Kept.unchanged {initial : List (String × Option Row)} {front middle : List Entry}
    (h : Kept plants key initial (front ++ middle))
    (hinside : ∀ m, m <+: middle → inSection key i (front ++ m) = true)
    (hown : ∀ f ∈ middle, f.client = i → ∀ q, f.request = .statement q → q.touches = false) :
    tablesAfter initial (front ++ middle) = tablesAfter initial front := by
  induction middle generalizing front with
  | nil => rw [List.append_nil]
  | cons f rest ih =>
    have hkeeps : Keeps plants key initial front f := h front f rest rfl
    have hsame : f.after = f.before := by
      by_cases hf : f.client = i
      · exact hkeeps.reading (hown f List.mem_cons_self hf)
      · refine hkeeps.others i ?_ hf
        simpa using hinside [] List.nil_prefix
    have hsplit : front ++ f :: rest = (front ++ [f]) ++ rest := by simp
    have hrest : tablesAfter initial ((front ++ [f]) ++ rest) =
        tablesAfter initial (front ++ [f]) := by
      refine ih (hsplit ▸ h) ?_ fun g hg => hown g (List.mem_cons_of_mem f hg)
      intro m hm
      simpa using hinside (f :: m) (List.cons_prefix_cons.2 ⟨rfl, hm⟩)
    rw [hsplit, hrest, tablesAfter_snoc, hsame, hkeeps.found]

/-- What the lock is for, said of a journal. -/
structure Guarded (plants : ClientId → Plant) (key : Int) (journal : List Entry) : Prop where
  /-- At every moment at most one client is in a section. -/
  alone : ∀ front, front <+: journal → ∀ i j, inSection key i front = true →
    inSection key j front = true → i = j
  /-- Version tables are created and written, and scripts are run, inside sections only. -/
  within : ∀ front e back, journal = front ++ e :: back → ∀ q, e.request = .statement q →
    q.touches = true → inSection key e.client front = true
  /-- While a client is in a section, no other changes a version table. -/
  others : ∀ front e back, journal = front ++ e :: back → ∀ i, inSection key i front = true →
    e.client ≠ i → e.after = e.before
  /-- A row that a client has read in its section stays recorded until it writes or the section
  ends, unless one of its rollbacks had been refused, so that it may have read what it had not
  committed. -/
  reading : ∀ front i row before after middle,
    front ++ ⟨i, .statement (.selectRow (plants i).table), .ok row, before, after⟩ ::
      middle <+: journal →
    (∀ f ∈ front, f.client = i → f.strands = false) →
    (∀ m, m <+: middle → inSection key i (front ++ ⟨i, .statement (.selectRow (plants i).table),
      .ok row, before, after⟩ :: m) = true) →
    (∀ f ∈ middle, f.client = i → ∀ q, f.request = .statement q → q.touches = false) →
    ∀ f ∈ middle, (f.after.lookup (plants i).table).join = row

/-- Every prefix of a journal that ends before its end is what some entry came after. -/
theorem alone_of_kept {initial : List (String × Option Row)} {journal : List Entry}
    (h : Kept plants key initial journal)
    (hnow : ∀ i j, inSection key i journal = true → inSection key j journal = true → i = j) :
    ∀ front, front <+: journal → ∀ i j, inSection key i front = true →
      inSection key j front = true → i = j := by
  intro front hfront
  obtain ⟨back, rfl⟩ := hfront
  cases back with
  | nil => simpa using hnow
  | cons e back => exact (h front e back rfl).alone

theorem reading_of_kept {initial : List (String × Option Row)} {journal front middle : List Entry}
    {row : Option Row} {before after : List (String × Option Row)}
    (h : Kept plants key initial journal)
    (hjournal : front ++
      ⟨i, .statement (.selectRow (plants i).table), .ok row, before, after⟩ :: middle
      <+: journal)
    (hpaid : ∀ f ∈ front, f.client = i → f.strands = false)
    (hinside : ∀ m, m <+: middle → inSection key i (front ++
      ⟨i, .statement (.selectRow (plants i).table), .ok row, before, after⟩ :: m) = true)
    (hown : ∀ f ∈ middle, f.client = i → ∀ q, f.request = .statement q → q.touches = false) :
    ∀ f ∈ middle, (f.after.lookup (plants i).table).join = row := by
  intro f hf
  obtain ⟨back, hback⟩ := hjournal
  obtain ⟨m, m', rfl⟩ := List.append_of_mem hf
  generalize hread :
    (⟨i, .statement (.selectRow (plants i).table), .ok row, before, after⟩ : Entry) = e
    at hback hinside
  have hkeeps : Keeps plants key initial front e :=
    h front e (m ++ f :: m' ++ back) (by simp [← hback])
  -- The journal up to `f`, split after the reading.
  have hupto : Kept plants key initial ((front ++ [e]) ++ (m ++ [f])) :=
    h.front ⟨m' ++ back, by simp [← hback]⟩
  have hsame : tablesAfter initial ((front ++ [e]) ++ (m ++ [f])) =
      tablesAfter initial (front ++ [e]) := by
    refine hupto.unchanged ?_ fun g hg => hown g ?_
    · intro k hk
      have hk' : k <+: m ++ f :: m' := hk.trans ⟨m', by simp⟩
      simpa using hinside k hk'
    · simp only [List.mem_append, List.mem_cons, List.not_mem_nil, or_false] at hg ⊢
      exact hg.imp_right .inl
  have hafter : f.after = e.after := by
    simpa [← List.append_assoc] using hsame
  have hrow : (e.before.lookup (plants i).table).join = row := by
    subst hread
    exact (hkeeps.truthful hpaid rfl).symm
  have hkept : e.after = e.before := by
    subst hread
    refine hkeeps.reading ?_
    rintro q ⟨⟩
    rfl
  rw [hafter, hkept, hrow]

end Journals

/-- **Sections of the lock exclude each other**, in every run of any number of clients whose engines
share a lock key: whoever is in a section holds the lock on the server, and nobody else does; and
all that the lock is for holds at every moment of the run. -/
theorem sections_exclude (plants : ClientId → Plant) (key : Int)
    (hkey : ∀ i, (plants i).target.lockKey = key) (server : Server) (sessions : ClientId → Session)
    (turns : List Turn) (hturns : ∀ t ∈ turns, t.Suits plants) :
    let w := (Traffic.opening server sessions).run plants turns
    Guarded plants key w.journal ∧
      (∀ i, inSection key i w.journal = true → (i, key) ∈ w.server.locks) ∧ ∀ i j,
        (i, key) ∈ w.server.locks → (j, key) ∈ w.server.locks → i = j := by
  intro w
  have hopening : Kept plants key server.tables [] := by
    intro front e back h
    simp at h
  obtain ⟨heard, hsound, hkept, -⟩ := (kept_preserved hkey server.tables).run hkey turns
    (fun t ht => ⟨hturns t ht, trivial⟩) (Sound.opening plants key server sessions) ⟨hopening, rfl⟩
  refine ⟨⟨?_, ?_, ?_, ?_⟩, fun i => hsound.mem_locks hkey, fun i j => hsound.exclusive i j key⟩
  · exact alone_of_kept hkept fun i j => hsound.alone hkey
  · exact fun front e back hsplit => (hkept front e back hsplit).within
  · exact fun front e back hsplit => (hkept front e back hsplit).others
  · exact fun front i row before after middle => reading_of_kept hkept

end Traffic

/-! ### Two migrations that cross -/

/-- One client goes on for so many answers; every script says something. -/
def strides (i : ClientId) (answers : Nat) : List Turn :=
  List.replicate answers (.advance i { content := .ok "SELECT 1" })

/-- A client migrates to version 2, and another to version 3 while the first is in its section. -/
def crossing : List Turn :=
  [.begin 0 (.migrateTo 2)] ++ strides 0 20 ++ [.begin 1 (.migrateTo 3)] ++ strides 1 20 ++
    strides 0 60 ++ strides 1 60

theorem strides_suit (plants : ClientId → Plant) (i : ClientId) (answers : Nat) :
    ∀ t ∈ strides i answers, t.Suits plants := by
  intro t ht
  rw [List.eq_of_mem_replicate ht]
  trivial

theorem crossing_suits : ∀ t ∈ crossing, t.Suits fun _ => threeVersions := by
  simp only [crossing, List.forall_mem_append, List.forall_mem_singleton]
  exact ⟨⟨⟨⟨⟨trivial, strides_suit _ _ _⟩, trivial⟩, strides_suit _ _ _⟩, strides_suit _ _ _⟩,
    strides_suit _ _ _⟩

/-- What those two leave behind. -/
def crossed : Traffic :=
  (Traffic.opening atVersionOne connected).run (fun _ => threeVersions) crossing

theorem sections_exclude_crossing :
    inSection threeVersions.target.lockKey 0 (crossed.journal.take 30) = true ∧
      inSection threeVersions.target.lockKey 1 (crossed.journal.take 70) = true ∧
      Traffic.Guarded (fun _ => threeVersions) threeVersions.target.lockKey crossed.journal :=
  ⟨by decide +kernel, by decide +kernel,
    (Traffic.sections_exclude (fun _ => threeVersions) _
      (fun _ => rfl) atVersionOne connected crossing
      crossing_suits).1⟩
end Stairway.Postgres
