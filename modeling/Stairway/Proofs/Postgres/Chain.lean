import Stairway.Proofs.Postgres.Resumption

/-!
# Migrations of many clients form one chain

Clients that share a source and a version table migrate to whatever versions they like, and their
statements interleave. Each plans from a row that it has read itself, so that no migration is run
twice or passed over needs more than the plan: between the reading and the last mark the row must
not have been moved by others. Sections of the lock see to that.

`Leg.Holds` ties the leg of whoever is in a section to the recorded row and to the end of the trail,
and `Chained` is what a trail then looks like: a script follows its own mark, and its mark replaces
a clean row that is one step before it. After a script that has failed there is nothing any more.
Versions that are forced are left out, and so are sessions whose rollback was refused; those may
plan from a row that they never committed.
-/

namespace Stairway.Postgres

/-! ## Trails -/

/-- Whether a row stands where a script is to be run: clean, and for an up script at the largest
known version below, or at 0 if there is none; for a down script at the version itself. -/
def Precedes (s : Source) (d : Direction) (v : Nat) (row : Option Row) : Prop :=
  isDirty row = false ∧ v ∈ s.versions ∧ match d with
    | .up => level row < v ∧ (level row = 0 ∨ level row ∈ s.versions) ∧ ∀ w ∈ s.versions,
        w < v → w ≤ level row
    | .down => level row = v

theorem precedes_of_from {s : Source} {t : Step} {row : Option Row} (h : t.From s (level row))
    (hclean : isDirty row = false) : Precedes s t.direction t.version row := by
  cases t with
  | up v => exact ⟨hclean, h.1, h.2.1, h.2.2.1, h.2.2.2⟩
  | down v result => exact ⟨hclean, h.1, h.2.1.symm⟩

/-- What the trail of migrations looks like. -/
structure Chained (p : Plant) (tr : List Footprint) : Prop where
  /-- A step begins from the row beside it, right after its script was read. -/
  begun : ∀ front i before after back, tr = front ++ .marked i before after :: back →
    isDirty after = true → ∃ front' d v text, front = front' ++ [.read i d v text] ∧
      Precedes p.source d v before
  /-- A script that is sent was read for the step that has just begun. -/
  ran : ∀ front i text ok back, tr = front ++ .ran i text ok :: back → ∃ front' d v before after,
    front = front' ++ [.read i d v text, .marked i before after] ∧ isDirty after = true ∧
      Precedes p.source d v before
  /-- After a script has failed nobody does anything more. -/
  stopped : ∀ front i text back, tr = front ++ .ran i text false :: back → back = []

/-- Whether a trail ends with a script that has failed. -/
def HasFailed (tr : List Footprint) : Prop := ∃ front i text, tr = front ++ [.ran i text false]

/-- What may come next. -/
def MayFollow (p : Plant) (tr : List Footprint) : Footprint → Prop
  | .read .. => True
  | .marked i before after => isDirty after = true →
    ∃ front d v text, tr = front ++ [.read i d v text] ∧ Precedes p.source d v before
  | .ran i text _ => ∃ front d v before after,
    tr = front ++ [.read i d v text, .marked i before after] ∧ isDirty after = true ∧
      Precedes p.source d v before

theorem Chained.snoc {p : Plant} {tr : List Footprint} {f : Footprint} (h : Chained p tr)
    (hgoing : ¬ HasFailed tr) (hf : MayFollow p tr f) : Chained p (tr ++ [f]) where
  begun front i before after back hsplit hdirty := by
    rcases split_snoc hsplit with ⟨back', hback⟩ | ⟨rfl, rfl⟩
    · exact h.begun front i before after back' hback hdirty
    · exact hf hdirty
  ran front i text ok back hsplit := by
    rcases split_snoc hsplit with ⟨back', hback⟩ | ⟨rfl, rfl⟩
    · exact h.ran front i text ok back' hback
    · exact hf
  stopped front i text back hsplit := by
    rcases split_snoc hsplit with ⟨back', hback⟩ | ⟨rfl, rfl⟩
    · obtain rfl := h.stopped front i text back' hback
      exact absurd ⟨front, i, text, hback⟩ hgoing
    · simpa using hsplit

/-! ## Legs -/

/-- What a leg means for the recorded row and the trail. -/
def Leg.Holds (p : Plant) (i : ClientId) (row : Option Row) (tr : List Footprint) : Leg → Prop
  | idle | left _ => True
  | steady base rest => base = row ∧ isDirty row = false ∧ p.source.Follows (level row) rest
  | primed base t text rest =>
    base = row ∧ isDirty row = false ∧ p.source.Follows (level row) (t :: rest) ∧
      ∃ front, tr = front ++ [.read i t.direction t.version text]
  | begun base t text ran rest =>
    row = t.mark true ∧ isDirty base = false ∧ p.source.Follows (level base) (t :: rest) ∧
      ∃ front, tr = front ++ [.read i t.direction t.version text, .marked i base row] ++
        (ran.map (.ran i text)).toList

/-- What one client's answers keep: what its leg means, and the chain. -/
structure Orderly (p : Plant) (i : ClientId) (row : Option Row) (tr : List Footprint)
    (leg : Leg) : Prop where
  holds : leg.Holds p i row tr
  chained : Chained p tr
  failed : HasFailed tr → isDirty row = true

theorem target_fits {p : Plant} (hfits : p.source.Fits) {t : Step} {c : Nat}
    (h : t.From p.source c) :
    ∀ v, t.target = some v → v < 0x8000000000000000 := by
  intro v hv
  cases t with
  | up w =>
    cases hv
    exact hfits v h.1
  | down w result =>
    obtain rfl : result = some v := hv
    exact hfits v (Source.prev?_mem h.2.2.symm).1

theorem level_mark {p : Plant} (hfits : p.source.Fits) {t : Step} {c : Nat}
    (h : t.From p.source c) :
    level (t.mark false) = t.level := by
  rw [level, Step.mark, schemaOf_written (target_fits hfits h), Step.level]

theorem not_hasFailed_of_clean {p : Plant} {i : ClientId} {row : Option Row} {tr : List Footprint}
    {leg : Leg} (h : Orderly p i row tr leg) (hclean : isDirty row = false) : ¬ HasFailed tr := by
  intro hfailed
  rw [h.failed hfailed] at hclean
  cases hclean

theorem not_hasFailed_snoc {tr : List Footprint} {f : Footprint}
    (hf : ∀ i text, f ≠ .ran i text false) :
    ¬ HasFailed (tr ++ [f]) := by
  rintro ⟨front, i, text, hsplit⟩
  have hlast := (List.append_inj' hsplit rfl).2
  exact hf i text (by simpa using hlast)

theorem not_hasFailed_mark {front : List Footprint} {r : Footprint} {i : ClientId}
    {before after : Option Row} :
    ¬ HasFailed (front ++ [r, .marked i before after]) := by
  have hsplit : front ++ [r, .marked i before after] = (front ++ [r]) ++
      [.marked i before after] := by simp
  rw [hsplit]
  exact not_hasFailed_snoc nofun

/-- **A stride of the one who is in the section** keeps the chain. -/
theorem Orderly.stride {p : Plant} (hfits : p.source.Fits) {c : Call} (hc : ∀ v, c ≠ .force v)
    {i : ClientId} {row row' : Option Row} {tr : List Footprint} {leg leg' : Leg}
    {f : Option Footprint} (h : Orderly p i row tr leg) (hs : Stride p c i row leg f row' leg') :
    Orderly p i row' (tr ++ f.toList) leg' := by
  cases hs with
  | still => simpa using h
  | leave =>
    rw [Option.toList_none, List.append_nil]
    exact ⟨trivial, h.chained, h.failed⟩
  | force hforce => exact absurd hforce (hc _)
  | look hplan =>
    rw [Option.toList_none, List.append_nil]
    refine ⟨?_, h.chained, h.failed⟩
    cases c with
    | migrateTo target =>
      obtain ⟨hclean, hsteps⟩ := plan?_eq_some.1 hplan
      refine ⟨rfl, hclean, ?_⟩
      rw [level_eq]
      exact Source.plan_follows hsteps
    | _ => cases hplan
  | read base t text rest =>
    obtain ⟨rfl, hclean, hfollows⟩ := h.holds
    have hgoing := not_hasFailed_of_clean h hclean
    refine ⟨⟨rfl, hclean, hfollows, tr, rfl⟩, h.chained.snoc hgoing trivial, fun hfailed => ?_⟩
    exact absurd hfailed (not_hasFailed_snoc nofun)
  | enter base t text rest =>
    obtain ⟨rfl, hclean, hfollows, front, rfl⟩ := h.holds
    have hgoing := not_hasFailed_of_clean h hclean
    refine ⟨⟨rfl, hclean, hfollows, front, by simp⟩, h.chained.snoc hgoing fun _ => ?_,
      fun _ => by simp⟩
    exact ⟨front, _, _, _, rfl, precedes_of_from hfollows.1 hclean⟩
  | run base t text ok rest hfull =>
    obtain ⟨rfl, hclean, hfollows, front, htrail⟩ := h.holds
    have hend : tr = front ++
        [.read i t.direction t.version text, .marked i base (t.mark true)] := by
      simpa using htrail
    have hgoing : ¬ HasFailed tr := hend ▸ not_hasFailed_mark
    refine ⟨⟨rfl, hclean, hfollows, front, by simp [hend]⟩, h.chained.snoc hgoing ?_,
      fun _ => by simp⟩
    exact ⟨front, _, _, _, _, hend, by simp, precedes_of_from hfollows.1 hclean⟩
  | @finish base t text ran rest hran =>
    obtain ⟨rfl, hclean, hfollows, front, htrail⟩ := h.holds
    have hgoing : ¬ HasFailed tr := by
      rw [htrail]
      rcases hran with rfl | ⟨rfl, -⟩
      · exact not_hasFailed_snoc nofun
      · simpa using not_hasFailed_mark
    refine ⟨⟨rfl, by simp, ?_⟩, h.chained.snoc hgoing ?_, fun hfailed => ?_⟩
    · rw [level_mark hfits hfollows.1]
      exact hfollows.2
    · intro hdirty
      simp at hdirty
    · exact absurd hfailed (not_hasFailed_snoc nofun)

theorem stride_silent {p : Plant} {c : Call} {i : ClientId} {row row' : Option Row} {leg leg' : Leg}
    (h : Stride p c i row leg none row' leg') : row' = row := by
  cases h <;> rfl

/-- A leg is under way in a section only. -/
theorem underWay_hear {p : Plant} {c : Call} {s : Bearings}
    (h : s.leg.isUnderWay = true → s.inside = true) (r : Request) (a : r.Answer) :
    (s.hear p c r a).leg.isUnderWay = true → (s.hear p c r a).inside = true := by
  intro hleg
  cases r with
  | statement q =>
    cases q with
    | tryLock key =>
      cases a with
      | error e => exact h hleg
      | ok gotIt => simp [Bearings.hear, Request.section, h hleg]
    | selectRow table =>
      cases a with
      | error e => exact h hleg
      | ok row => exact (Leg.isUnderWay_look hleg).elim h id
    | unlock key => cases hleg
    | commit =>
      cases a with
      | error e => exact h hleg
      | ok _ => exact h (by simpa [Bearings.hear, Leg.hear] using hleg)
    | script multi text => exact h (by simpa [Bearings.hear, Leg.hear] using hleg)
    | _ => cases a <;> exact h hleg
  | readScript d version path =>
    cases a with
    | error e => exact h hleg
    | ok text => exact h (by simpa [Bearings.hear, Leg.hear] using hleg)
  | _ => exact h hleg

/-! ## Runs -/

/-- Whether a turn begins to force a version. -/
def Turn.Forces : Turn → Prop
  | begin _ (.force _) => True
  | _ => False

theorem holds_of_not_underWay {p : Plant} {i : ClientId} {row : Option Row} {tr : List Footprint}
    {leg : Leg} (h : leg.isUnderWay = false) : leg.Holds p i row tr := by
  cases leg with
  | idle => trivial
  | left _ => trivial
  | _ => cases h

/-- What holds of all clients together, as long as no rollback is refused. -/
structure InChain (p : Plant) (heard : ClientId → Bearings) (w : Traffic) : Prop where
  underWay : ∀ i, (heard i).leg.isUnderWay = true → (heard i).inside = true
  calls : ∀ i v, (w.lines i).call ≠ .force v
  orderly : (∀ e ∈ w.journal, e.strands = false) →
    ∀ i, Orderly p i (w.server.rowIn p.table) (trail p.table w.journal) (heard i).leg

namespace InChain

variable {p : Plant} {heard : ClientId → Bearings} {w : Traffic} {i : ClientId}

/-- Where one client takes a stride, the others that are under way have to wait for
their section. -/
theorem orderly_ask (hfits : p.source.Fits) (hI : InChain p heard w)
    (h : w.Sound (fun _ => p) p.target.lockKey heard) {r : Request}
    {next : r.Answer → Program interface (Except EngineError Unit)}
    (hrest : (w.lines i).rest = .ask r next) (e : Weather)
    (hpaid : ∀ f ∈ (w.ask i e r next).journal, f.strands = false) (j : ClientId) :
    Orderly p j ((w.ask i e r next).server.rowIn p.table) (trail p.table (w.ask i e r next).journal)
      (retell heard i
        ((heard i).hear p (w.lines i).call r
          ((w.lines i).session.answer w.server e r).1) j).leg := by
  have hbefore : ∀ f ∈ w.journal, f.strands = false := by
    intro f hf
    refine hpaid f ?_
    rw [Traffic.ask_journal]
    exact List.mem_append_left _ hf
  have hblind : (heard i).blind = false := by
    cases hblind : (heard i).blind with
    | false => rfl
    | true =>
      obtain ⟨f, hf, -, hstrands⟩ := h.lost i (h.wary i hblind)
      rw [hbefore f hf] at hstrands
      cases hstrands
  obtain ⟨f, htrail, hinside, hstride⟩ := h.ask_stride hrest hblind e
  have hnext := (hI.orderly hbefore i).stride hfits (hI.calls i) hstride
  by_cases hj : j = i
  · subst hj
    rw [retell_self, htrail]
    exact hnext
  · rw [retell_of_ne hj, htrail]
    refine ⟨?_, hnext.chained, hnext.failed⟩
    cases hunder : (heard j).leg.isUnderWay with
    | false => exact holds_of_not_underWay hunder
    | true =>
      have hjin : inSection p.target.lockKey j w.journal = true := by
        rw [← h.inside j]
        exact hI.underWay j hunder
      have hnone : f = none := by
        cases f with
        | none => rfl
        | some g =>
          have hiin : inSection p.target.lockKey i w.journal = true := by
            rw [← h.inside i]
            exact hinside rfl
          exact absurd (h.alone (fun _ => rfl) hjin hiin) hj
      subst hnone
      have hrow := stride_silent hstride
      rw [hrow, Option.toList_none, List.append_nil]
      exact (hI.orderly hbefore j).holds

theorem preserved (hfits : p.source.Fits) :
    Traffic.Preserves (fun _ => p) p.target.lockKey (fun t => ¬ t.Forces) (InChain p) where
  aside hI hjournal hserver hcalls := by
    refine ⟨hI.underWay, fun i v => ?_, ?_⟩
    · rw [hcalls i]
      exact hI.calls i v
    · rw [hjournal, hserver]
      exact hI.orderly
  begin i call hT h hI := by
    refine ⟨fun j => ?_, fun j v => ?_, fun hpaid j => ?_⟩
    · by_cases hj : j = i
      · subst hj
        simp [Bearings.fresh, Leg.isUnderWay]
      · simpa [hj] using hI.underWay j
    · by_cases hj : j = i
      · subst hj
        intro hforce
        refine hT ?_
        simp only [Traffic.put, if_true] at hforce
        rw [hforce]
        trivial
      · simpa [Traffic.put, hj] using hI.calls j v
    · have horderly := hI.orderly hpaid j
      by_cases hj : j = i
      · subst hj
        rw [retell_self]
        exact ⟨trivial, horderly.chained, horderly.failed⟩
      · rw [retell_of_ne hj]
        exact horderly
  ask i e r next hT h hI hrest := by
    refine ⟨fun j => ?_, fun j v => ?_, hI.orderly_ask hfits h hrest e⟩
    · by_cases hj : j = i
      · subst hj
        rw [retell_self]
        exact underWay_hear (hI.underWay j) _ _
      · simpa [hj] using hI.underWay j
    · by_cases hj : j = i
      · subst hj
        simpa [Traffic.ask] using hI.calls j v
      · simpa [Traffic.ask, hj] using hI.calls j v

theorem opening (p : Plant) (server : Server) (sessions : ClientId → Session) :
    InChain p (fun _ => {}) (Traffic.opening server sessions) where
  underWay _ := nofun
  calls _ _ := nofun
  orderly _ _ := by
    refine ⟨trivial, ⟨?_, ?_, ?_⟩, ?_⟩
    · intro front i before after back h
      simp [trail, Traffic.opening] at h
    · intro front i text ok back h
      simp [trail, Traffic.opening] at h
    · intro front i text back h
      simp [trail, Traffic.opening] at h
    · rintro ⟨front, i, text, h⟩
      simp [trail, Traffic.opening] at h

end InChain

/-- **Migrations form one chain**, in every run of any number of clients that share a source and a
version table, wherever they migrate to and whatever the table holds at the beginning: no version is
forced, and no rollback refused. -/
theorem migrations_chained (p : Plant) (hfits : p.source.Fits) (server : Server)
    (sessions : ClientId → Session) (turns : List Turn)
    (hturns : ∀ t ∈ turns, t.Suits (fun _ => p) ∧ ¬ t.Forces) :
    let w := (Traffic.opening server sessions).run (fun _ => p) turns
    (∀ e ∈ w.journal, e.strands = false) → Chained p (trail p.table w.journal) := by
  intro w hpaid
  obtain ⟨heard, -, hI⟩ := (InChain.preserved hfits).run (fun _ => rfl) turns hturns
    (Traffic.Sound.opening (fun _ => p) p.target.lockKey server sessions)
    (InChain.opening p server sessions)
  exact (hI.orderly hpaid 0).chained

/-! ### Two migrations that cross, from an empty table -/

/-- What the two leave on a server where nothing was ever recorded. -/
def crossedFromNothing : Traffic :=
  (Traffic.opening {} connected).run (fun _ => threeVersions) crossing

theorem migrations_chained_crossing :
    (∀ e ∈ crossedFromNothing.journal, e.strands = false) ∧
      sent (trail threeVersions.table crossedFromNothing.journal) = ["SELECT 1", "SELECT 1",
        "SELECT 1"] ∧
      Chained threeVersions (trail threeVersions.table crossedFromNothing.journal) := by
  have hpaid : ∀ e ∈ crossedFromNothing.journal, e.strands = false := by decide +kernel
  refine ⟨hpaid, by decide +kernel,
    migrations_chained threeVersions (by decide) {} connected crossing ?_ hpaid⟩
  intro t ht
  refine ⟨crossing_suits t ht, ?_⟩
  have hstrides : ∀ i n, ∀ t ∈ strides i n, ¬ t.Forces := by
    intro i n t ht
    rw [List.eq_of_mem_replicate ht]
    exact id
  simp only [crossing, List.mem_append, List.mem_singleton] at ht
  rcases ht with ((((rfl | ht) | rfl) | ht) | ht) | ht
  · exact id
  · exact hstrides _ _ t ht
  · exact id
  · exact hstrides _ _ t ht
  · exact hstrides _ _ t ht
  · exact hstrides _ _ t ht

end Stairway.Postgres
