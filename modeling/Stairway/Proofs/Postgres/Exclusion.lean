import Stairway.Proofs.Postgres.Answer
import Stairway.Proofs.Postgres.Discipline

/-!
# What holds of every world

Whatever the sessions do and however they take turns, what each of them has heard is true of the
server (`Tied`), and what it has read is what the others have left recorded since (`Informed`). Both
hold at the beginning, and a move keeps them (`World.Sound`): the one who asks goes on as its
protocol says, and the others are left alone, but that they may be told of a row that was published.

A row is published only under the lock, so whoever holds the lock knows what is recorded. What an
operation does to the schema is therefore decided by the rows that were recorded after it read first
(`Deed.Lawful`), and `run_lawful` says so of every deed of every run.
-/

namespace Stairway.Postgres

/-! ## Deeds -/

namespace Deed

/-- The row that the deed found recorded when it took its bearings: what was read first, or what
others have recorded since. -/
def found (d : Deed) : Option Row := lastRow d.first d.between

/-- What a deed can be: nothing but what follows from the row that was read first and the row that
was found under the lock, while nobody else holds the lock. -/
structure Lawful (p : Plant) (d : Deed) : Prop where
  alone : ∀ c ∈ d.holders, c = d.client
  act : match d.act with
    | .ran dir _ => Migrates d.kind d.desired d.first ∧ dir.Leads (level d.found) d.desired
    | .marked before after =>
      Migrates d.kind d.desired d.first ∧ (p.source.Fits → Advances d.desired d.found before after)
    | .mended before after =>
      Mends d.kind d.first after ∧ before = d.found ∧ ∀ e ∈ d.between, e.1 ≠ d.client

end Deed

/-! ## What the rows say -/

/-- What a session has read is what others have left recorded since. -/
structure Informed (i : ClientId) (recorded : Option Row) (s : Standing)
    (between : List (ClientId × Option Row)) : Prop where
  known : ∀ k, s.known = some k → 0 < s.locks ∧ recorded = k
  unread : s.reads = [] → between = []
  first : ∀ first, s.reads = [first] → recorded = lastRow first between
  again : ∀ first again, s.reads = [first, again] → again = lastRow first between
  others : s.hasWritten = false → ∀ e ∈ between, e.1 ≠ i

theorem noted_nil (s : Standing) (between : List (ClientId × Option Row)) :
    noted s between [] = between := by
  unfold noted
  split
  · exact List.append_nil between
  · rfl

theorem lastRow_append (first row : Option Row) (i : ClientId)
    (between : List (ClientId × Option Row)) :
    lastRow first (between ++ [(i, row)]) = row := by
  simp [lastRow]

namespace Informed

variable {i j : ClientId} {recorded : Option Row} {s t : Standing}
  {between : List (ClientId × Option Row)} {news : Option (Option Row)}

/-- A row is published while another session holds the lock. -/
theorem told (h : Informed j recorded s between) (hij : i ≠ j) (hfree : news.isSome → s.locks = 0) :
    Informed j (news.getD recorded) s (noted s between (news.toList.map fun row => (i, row))) := by
  cases news with
  | none =>
    rw [Option.toList_none, List.map_nil, noted_nil]
    exact h
  | some row =>
    refine ⟨fun k hk => ?_, fun hreads => ?_, fun first hreads => ?_, fun first again hreads => ?_,
      ?_⟩
    · exact absurd (hfree rfl) (Nat.ne_of_gt (h.known k hk).1)
    · simpa [noted, hreads] using h.unread hreads
    · simp [noted, hreads, lastRow_append]
    · simpa [noted, hreads] using h.again first again hreads
    · intro hnew e he
      unfold noted at he
      split at he
      · rcases List.mem_append.1 he with he | he
        · exact h.others hnew e he
        · obtain rfl : e = (i, row) := by simpa using he
          exact hij
      · exact h.others hnew e he

/-- The session itself is answered. -/
theorem learns (h : Informed i recorded s between) (hl : Learns s recorded news t) :
    Informed i (news.getD recorded) t (noted t between (news.toList.map fun row => (i, row))) := by
  cases hl with
  | published row hlocked =>
    refine ⟨fun k hk => ⟨hlocked, by simpa using hk⟩, fun hreads => ?_, fun first hreads => ?_,
      fun first again hreads => ?_, nofun⟩
    · have hreads' : s.reads = [] := hreads
      simpa [noted, hreads'] using h.unread hreads
    · have hreads' : s.reads = [first] := hreads
      simp [noted, hreads', lastRow_append]
    · have hreads' : s.reads = [first, again] := hreads
      simpa [noted, hreads'] using h.again first again hreads
  | read =>
    rw [Option.toList_none, List.map_nil, noted_nil]
    refine ⟨fun k hk => ?_, fun hreads => ?_, fun first hreads => ?_, fun first again hreads => ?_,
      h.others⟩
    · simp only at hk ⊢
      split at hk
      · next hlocked => exact ⟨hlocked, by simpa using hk⟩
      · cases hk
    · simp at hreads
    · have hreads' : s.reads = [] ∧ recorded = first := by
        simpa [List.append_eq_singleton_iff] using hreads
      rw [h.unread hreads'.1]
      exact hreads'.2
    · -- The second reading finds what was recorded last since the first.
      have hreads' : s.reads = [first] ∧ recorded = again := by
        have hsplit : s.reads ++ [recorded] = [first] ++ [again] := hreads
        exact (List.append_inj' hsplit rfl).imp_right fun h => by simpa using h
      exact hreads'.2 ▸ h.first first hreads'.1
  | other _ hreads hnew hknown =>
    rw [Option.toList_none, List.map_nil, noted_nil]
    refine ⟨fun k hk => ?_, hreads ▸ h.unread, hreads ▸ h.first, hreads ▸ h.again, hnew ▸ h.others⟩
    obtain ⟨hold, hle⟩ := hknown k hk
    exact ⟨Nat.lt_of_lt_of_le (h.known k hold).1 hle, (h.known k hold).2⟩

end Informed

/-! ## Worlds -/

/-- Only a script and a commit complete a deed. -/
theorem Seat.act_eq_some {seat : Seat} {recorded : Option Row} {r : Request} {a : r.Answer}
    {act : Act} (h : seat.act recorded r a = some act) :
    (∃ multi text d version, r = .statement (.script multi text) ∧
      seat.heard.script = some (d, version) ∧ act = .ran d version) ∨
    ∃ after, r = .statement .commit ∧ seat.heard.draft = .row after ∧
      act = if seat.heard.reads.length = 1 then .mended recorded after
        else .marked recorded after := by
  cases r with
  | statement q =>
    cases q with
    | script multi text =>
      obtain ⟨⟨d, version⟩, hlast, rfl⟩ := Option.map_eq_some_iff.1 h
      exact .inl ⟨multi, text, d, version, rfl, hlast, rfl⟩
    | commit =>
      obtain ⟨after, hpublished, rfl⟩ := Option.map_eq_some_iff.1 h
      refine .inr ⟨after, rfl, ?_, rfl⟩
      cases a with
      | error err => cases hpublished
      | ok reply =>
        simp only [Seat.published] at hpublished
        split at hpublished
        · next row hdraft =>
          cases hpublished
          exact hdraft
        · cases hpublished
    | _ => cases h
  | _ => cases h

/-- What holds of every world that sessions can come to. -/
structure World.Sound (p : Plant) (w : World) : Prop where
  tied : ∀ i, Tied p i (w.seats i).session (w.seats i).heard w.server
  exclusive : w.server.Exclusive
  informed : ∀ i, Informed i (w.recorded p) (w.seats i).heard (w.seats i).between
  obeys : ∀ i, (w.seats i).rest.Obeys (etiquette p (w.seats i).job.kind (w.seats i).job.desired)
    (fun _ s => s.Settled) (w.seats i).heard
  lawful : ∀ d ∈ w.deeds, d.Lawful p

namespace World.Sound

variable {p : Plant} {w : World}

theorem mem_locks (h : w.Sound p) {i : ClientId} (hlocked : 0 < (w.seats i).heard.locks) :
    (i, p.target.lockKey) ∈ w.server.locks := by
  rw [← (h.tied i).locks] at hlocked
  exact List.count_pos_iff.1 hlocked

/-- Only one session has the lock. -/
theorem alone (h : w.Sound p) {i : ClientId} (hlocked : 0 < (w.seats i).heard.locks) :
    ∀ c ∈ w.holders p, c = i := by
  intro c hc
  obtain ⟨l, hl, rfl⟩ := List.mem_map.1 hc
  obtain ⟨hmem, hkey⟩ := List.mem_filter.1 hl
  have hkey' : l.2 = p.target.lockKey := by simpa using hkey
  refine h.exclusive l.1 i p.target.lockKey ?_ (h.mem_locks hlocked)
  rw [← hkey']
  exact hmem

theorem unlocked (h : w.Sound p) {i j : ClientId} (hij : i ≠ j)
    (hlocked : 0 < (w.seats i).heard.locks) :
    (w.seats j).heard.locks = 0 := by
  refine Decidable.byContradiction fun hj => ?_
  exact hij (h.exclusive i j _ (h.mem_locks hlocked) (h.mem_locks (Nat.pos_of_ne_zero hj)))

/-- **What an operation may ask, it may do**: the deed that the answer completes is lawful. -/
theorem deed (h : w.Sound p) {i : ClientId} {r : Request} {a : r.Answer}
    (hr : (w.seats i).heard.Allows p (w.seats i).job.kind (w.seats i).job.desired r) :
    ∀ d ∈ w.deed? p i r a, d.Lawful p := by
  intro d hd
  obtain ⟨act, hact, rfl⟩ := Option.map_eq_some_iff.1 hd
  have hinformed := h.informed i
  rcases Seat.act_eq_some hact with
    ⟨_, _, dir, version, rfl, hlast, rfl⟩ | ⟨after, rfl, hdraft, rfl⟩
  · obtain ⟨hlocked, dir', version', hlast', hruns⟩ := hr
    obtain ⟨rfl, rfl⟩ : dir' = dir ∧ version' = version := by simpa [hlast] using hlast'.symm
    refine ⟨h.alone hlocked, ?_⟩
    unfold Runs at hruns
    split at hruns
    · next first again hreads =>
      rw [hinformed.again first again hreads] at hruns
      simpa [Deed.found, hreads] using hruns
    · exact hruns.elim
  · obtain ⟨hlocked, after', hdraft', hwrites⟩ := hr
    obtain rfl : after' = after := by simpa [hdraft] using hdraft'.symm
    refine ⟨h.alone hlocked, ?_⟩
    unfold Writes at hwrites
    split at hwrites
    · next first hreads =>
      obtain ⟨hnew, hmends⟩ := hwrites
      simpa [Deed.found, hreads, ← hinformed.first first hreads] using
        And.intro hmends (hinformed.others hnew)
    · next first again hreads =>
      obtain ⟨hmig, hstep⟩ := hwrites
      have hadvances : p.source.Fits →
          Advances (w.seats i).job.desired (lastRow first (w.seats i).between)
            (w.recorded p) after' := by
        intro hfits
        obtain ⟨before, hknown, hadvances⟩ := hstep hfits
        rwa [(hinformed.known before hknown).2, ← hinformed.again first again hreads]
      simpa [Deed.found, hreads] using And.intro hmig hadvances
    · exact hwrites.elim

/-! ## Moves -/

/-- A session goes on without a word to the server. -/
theorem put (h : w.Sound p) {i : ClientId} {seat : Seat}
    (htied : Tied p i seat.session seat.heard w.server)
    (hinformed : Informed i (w.recorded p) seat.heard seat.between)
    (hobeys : seat.rest.Obeys (etiquette p seat.job.kind seat.job.desired) (fun _ s => s.Settled)
      seat.heard) :
    (w.put i seat).Sound p where
  tied j := by
    by_cases hj : j = i
    · subst hj
      simpa using htied
    · simpa [hj] using h.tied j
  exclusive := h.exclusive
  informed j := by
    by_cases hj : j = i
    · subst hj
      simpa using hinformed
    · simpa [hj] using h.informed j
  obeys j := by
    by_cases hj : j = i
    · subst hj
      simpa using hobeys
    · simpa [hj] using h.obeys j
  lawful := h.lawful

/-- **One statement of one session** keeps the whole world sound. -/
theorem ask (h : w.Sound p) {i : ClientId} {r : Request} {next : r.Answer → Program interface Unit}
    (hrest : (w.seats i).rest = .ask r next) (e : Weather) : (w.ask p i e r next).Sound p := by
  have hobeys := h.obeys i
  rw [hrest] at hobeys
  obtain ⟨hr, hnext⟩ := hobeys
  have hanswered := answered (h.tied i) hr e
  have hrecorded : (w.ask p i e r next).recorded p =
      ((w.seats i).published r ((w.seats i).answer w.server e r).1).getD (w.recorded p) :=
        hanswered.recorded
  -- Only a session that holds the lock publishes, so nobody else holds it then.
  have hfree : ∀ j, i ≠ j → ((w.seats i).published r ((w.seats i).answer w.server e r).1).isSome →
      (w.seats j).heard.locks = 0 :=
    fun j hij hsome => h.unlocked hij (hanswered.learns.locked hsome)
  refine ⟨fun j => ?_, hanswered.exclusive h.exclusive, fun j => ?_, fun j => ?_, ?_⟩
  · by_cases hj : j = i
    · subst hj
      simpa [World.ask, Seat.told] using hanswered.tied
    · obtain ⟨hclient, howed, hlocks, hdraft⟩ := h.tied j
      simp only [World.ask, if_neg hj, Seat.told]
      exact ⟨hclient, howed, (hanswered.frame.locks j _ hj).trans hlocks,
        (hanswered.frame.transactions j hj) ▸ hdraft⟩
  · rw [hrecorded]
    by_cases hj : j = i
    · subst hj
      simpa [World.ask, Seat.told] using (h.informed j).learns hanswered.learns
    · simp only [World.ask, if_neg hj, Seat.told]
      exact (h.informed j).told (Ne.symm hj) (hfree j (Ne.symm hj))
  · by_cases hj : j = i
    · subst hj
      simpa [World.ask, Seat.told] using hnext _ _ ⟨hanswered.expected, rfl⟩
    · simpa [World.ask, Seat.told, hj] using h.obeys j
  · intro d hd
    rcases List.mem_append.1 hd with hd | hd
    · exact h.lawful d hd
    · exact h.deed hr d (Option.mem_toList.1 hd)

theorem advance (h : w.Sound p) (i : ClientId) (e : Weather) : (w.advance p i e).Sound p := by
  have hobeys := h.obeys i
  simp only [World.advance]
  split
  · exact h
  · exact h
  · next d next hrest =>
    rw [hrest] at hobeys
    exact h.put (h.tied i) (h.informed i) hobeys
  · next d next hrest =>
    rw [hrest] at hobeys
    exact h.put (h.tied i) (h.informed i) (hobeys e.cut)
  · next r next hrest => exact h.ask hrest e

/-- A session that is at nothing begins its next job with all debts known. -/
theorem start (h : w.Sound p) (i : ClientId) (job : Job) :
    (w.start p i job).Sound p := by
  have hbegin : (w.seats i).heard.Settled → (w.put i { w.seats i with
      job, rest := job.program p, heard := (w.seats i).heard.fresh, between := [] }).Sound p := by
    intro hsettled
    obtain ⟨hclient, howed, hlocks, hdraft⟩ := h.tied i
    exact h.put ⟨hclient, howed, hlocks, hdraft⟩ ⟨nofun, fun _ => rfl, nofun, nofun, fun _ => nofun⟩
      (job.obeys hsettled)
  have hobeys := h.obeys i
  simp only [World.start]
  split
  · next hrest =>
    rw [hrest] at hobeys
    exact hbegin hobeys
  · next hrest =>
    rw [hrest] at hobeys
    exact hbegin hobeys
  · exact h

theorem move (h : w.Sound p) (m : Move) : (w.move p m).Sound p := by
  cases m with
  | begin i job => exact h.start i job
  | advance i e => exact h.advance i e
  | requestStop i =>
    obtain ⟨hclient, howed, hlocks, hdraft⟩ := h.tied i
    exact h.put ⟨hclient, howed, hlocks, hdraft⟩ (h.informed i) (h.obeys i)

theorem run (h : w.Sound p) (moves : List Move) : (w.run p moves).Sound p := by
  induction moves generalizing w with
  | nil => exact h
  | cons m rest ih => exact ih (h.move m)

theorem opening (p : Plant) (server : Server) (sessions : ClientId → Session) :
    (World.opening server sessions).Sound p where
  tied _ := ⟨rfl, rfl, rfl, rfl⟩
  exclusive _ _ _ := nofun
  informed _ := ⟨nofun, fun _ => rfl, nofun, nofun, fun _ => nofun⟩
  obeys _ := Standing.settled_of_closed rfl
  lawful _ := nofun

end World.Sound

/-- **Every deed is lawful**, in every run of any number of sessions. -/
theorem run_lawful (p : Plant) (server : Server) (sessions : ClientId → Session)
    (moves : List Move) :
    ∀ d ∈ ((World.opening server sessions).run p moves).deeds, d.Lawful p :=
  ((World.Sound.opening p server sessions).run moves).lawful

end Stairway.Postgres
