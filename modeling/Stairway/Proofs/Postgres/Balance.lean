import Stairway.Proofs.Postgres.Asides
import Stairway.Proofs.Postgres.Conduct
import Stairway.Proofs.Postgres.Interference

/-!
# The lock is given back

A call of the engine that needs the lock runs its part between a grant and giving the lock back.
`Section` is how such a part goes, read off the transcript: what was asked before the grant, the
grant, what the part itself asks, and how the lock was given back, with the verdict of it all.

`balanced_iff` is about every call on every machine: it either was not granted the lock and sends no
unlock, or sends exactly one, after its part has ended in whatever way, and its verdict is the
part's own error, else what came of the unlock. There is one way to miss it. A transaction that was
given up owes a rollback, which goes before the unlock; where the server refuses it, the unlock is
never sent (`force_strands`).
-/

namespace Stairway.Postgres

open Program (hearing onSuccess)

/-! ## Grants and unlocks -/

/-- Whether a lock is granted by an answer, or asked to be given back. -/
def Request.touches : (r : Request) → r.Answer → Bool
  | .statement (.tryLock _), .ok gotIt => gotIt
  | .statement (.unlock _), _ => true
  | _, _ => false

/-- Neither is a lock granted nor is one given back. -/
def Quiet (asked : List (Exchange interface)) : Prop :=
  ∀ e ∈ asked, e.request.touches e.answer = false

/-- The lock is given back by one unlock; `released` is what came of it. -/
inductive Unlocks (key : Int) : List (Exchange interface) → Except DatabaseError Unit → Prop
  | mk {before after : List (Exchange interface)} (hbefore : Quiet before) (hafter : Quiet after)
      (sent : Instant) (a : Except ConnectionError Bool) (answered : Instant) :
      Unlocks key (before ++ ⟨.statement (.unlock key), sent, a, answered⟩ :: after)
        ((a.mapError .connection).map fun _ => ())

/-- The rollback that goes before the unlock is refused, and that is the last that is asked. -/
inductive Refuses : List (Exchange interface) → Except DatabaseError Unit → Prop
  | mk {before : List (Exchange interface)} (hbefore : Quiet before) (sent : Instant)
      (e : ConnectionError)
      (answered : Instant) :
      Refuses (before ++ [⟨.statement .rollback, sent, .error e, answered⟩])
        (.error (.connection e))

/-- How a part goes that runs with the lock, and its verdict: an error of the part comes first. -/
inductive Section {σ : Type} [Machine interface σ]
    (Back : List (Exchange interface) → Except DatabaseError Unit → Prop) (key : Int)
    (body : Work Unit) :
    List (Exchange interface) → Except DatabaseError Unit → Prop
  | mk {front back : List (Exchange interface)} {sent granted start : Instant} {m : σ}
      {result released : Except DatabaseError Unit} (hfront : Quiet front)
      (hbody : Quiet (body.run.transcript start m))
      (hresult : (body.run.finish start m).outcome = .finished result)
      (hback : Back back released) :
      Section Back key body
        (front ++ ⟨.statement (.tryLock key), sent, .ok true, granted⟩ ::
          (body.run.transcript start m ++ back))
        (do result; released)

/-! ## What is said of a call -/

/-- The part of a call that runs with a lock, and the key of the lock. -/
inductive Call.Locks (p : Plant) : Call → Int → Work Unit → Prop
  | establish {sourceUrl databaseUrl : String} {target : Target}
      (h : Target.parse databaseUrl = .ok target) :
      Locks p (.establish sourceUrl databaseUrl) target.lockKey
        (send (.createTable (String.ofList target.table)))
  | migrateTo (v : Nat) : Locks p (.migrateTo v) p.target.lockKey (p.migrateLocked v)
  | force (v : Int) : Locks p (.force v) p.target.lockKey (p.writeVersion v false)

/-- What a call asks and how it ends, where the lock is given back. -/
def Balanced (σ : Type) [Machine interface σ] (p : Plant) (c : Call)
    (asked : List (Exchange interface)) (o : Outcome (Except EngineError Unit)) : Prop :=
  (Quiet asked ∧ (o = .finished (.ok ()) → c = .version)) ∨ ∃ key body verdict, c.Locks p key body ∧
    Section (σ := σ) (Unlocks key) key body asked verdict ∧
      o = .finished (verdict.mapError DatabaseError.toEngine)

/-- And where the lock is kept, because a rollback is refused. -/
def Stranded (σ : Type) [Machine interface σ] (p : Plant) (c : Call)
    (asked : List (Exchange interface)) (o : Outcome (Except EngineError Unit)) : Prop :=
  ∃ key body verdict, c.Locks p key body ∧ Section (σ := σ) Refuses key body asked verdict ∧
    o = .finished (verdict.mapError DatabaseError.toEngine)

/-! ## Exchanges that touch no lock -/

section Quiet

variable {asked more : List (Exchange interface)}

theorem quiet_nil : Quiet [] := List.forall_mem_nil _

theorem Quiet.append (h : Quiet asked) (h' : Quiet more) : Quiet (asked ++ more) := by
  intro e he
  exact (List.mem_append.1 he).elim (h e) (h' e)

theorem quiet_single {e : Exchange interface}
    (h : e.request.touches e.answer = false) : Quiet [e] := by
  simpa [Quiet] using h

theorem Request.IsAside.touches {r : Request} (h : r.IsAside) (a : r.Answer) :
    r.touches a = false := by
  cases r with
  | statement q => cases q <;> first | exact h.elim | rfl
  | _ => rfl

theorem Asides.quiet (h : Asides asked) : Quiet asked := fun e he => (h e he).touches e.answer

theorem Work.Aside.quiet {σ α : Type} [Machine interface σ] {w : Work α} (hw : w.Aside)
    (now : Instant) (m : σ) : Quiet (w.run.transcript now m) :=
  Asides.quiet (hw.ends now m).1

end Quiet

/-! ## Giving back -/

/-- Giving the lock back: by an unlock, unless a rollback is refused before it. -/
theorem hearing_release {ok : Request → Prop} {key : Int} (hpay : ok .takeOwedRollback)
    (hrollback : ok (.statement .rollback)) (hunlock : ok (.statement (.unlock key)))
    (hlog : ∀ line, ok (.log line)) (s : List (Exchange interface)) :
    (release key).run.Obeys (hearing ok) (fun o t => ∃ back released, t = s ++ back ∧
      o = .finished released ∧ (Unlocks key back released ∨ Refuses back released)) s := by
  refine Program.Obeys.andThen ((hearing_send hpay hrollback hunlock).mono ?_)
  rintro _ _ (⟨haside, sent, a, answered⟩ | ⟨haside, sent, e, answered⟩)
  · have hgiven := fun after (hafter : Quiet after) =>
      @Unlocks.mk key _ _ haside.quiet hafter sent a answered
    rcases a with e | _ | _
    · exact ⟨_, _, List.append_assoc .., rfl, .inl (hgiven [] quiet_nil)⟩
    · refine ⟨hlog _, ?_⟩
      rintro ⟨⟩ _ ⟨sent', answered', rfl⟩
      have hnote : Quiet [⟨.log "Migration lock was not held", sent', (), answered'⟩] :=
        quiet_single rfl
      refine ⟨_, _, ?_, rfl, .inl (hgiven _ hnote)⟩
      simp only [List.append_assoc, List.cons_append, List.nil_append]
    · exact ⟨_, _, List.append_assoc .., rfl, .inl (hgiven [] quiet_nil)⟩
  · exact ⟨_, _, List.append_assoc .., rfl, .inr (.mk haside.quiet sent e answered)⟩

/-! ## Taking -/

/-- What has been asked ends with a grant, the first one. -/
def Granted (key : Int) (asked : List (Exchange interface)) : Prop :=
  ∃ front sent granted, Quiet front ∧
    asked = front ++ [⟨.statement (.tryLock key), sent, .ok true, granted⟩]

theorem hearing_entrance (key : Int) :
    Entrance (hearing fun _ => True) key Quiet (Granted key) Quiet where
  tryLock {s} hs := by
    refine (hearing_send trivial trivial trivial).mono ?_
    rintro _ _ (⟨haside, sent, a, answered⟩ | ⟨haside, sent, e, answered⟩)
    · have hbefore := hs.append haside.quiet
      rcases a with e | _ | _
      · exact hbefore.append (quiet_single rfl)
      · exact hbefore.append (quiet_single rfl)
      · exact ⟨_, sent, answered, hbefore, rfl⟩
    · exact (hs.append haside.quiet).append (quiet_single rfl)
  now {s} hs := by
    refine ⟨trivial, ?_⟩
    rintro a _ ⟨sent, answered, rfl⟩
    exact hs.append (quiet_single rfl)
  lockTimeout {s} hs := by
    refine ⟨trivial, ?_⟩
    rintro a _ ⟨sent, answered, rfl⟩
    exact hs.append (quiet_single rfl)
  giveUp := id

/-! ## The bracket -/

section Locked

variable {σ α β : Type} [Machine interface σ]

/-- Going on after an attempt, whose end is a value. -/
theorem attempt_andThen {w : Work α} {f : Except DatabaseError α → Work β} {now : Instant} {m : σ}
    {r : Except DatabaseError α} (h : (w.run.finish now m).outcome = .finished r) :
    (w.attempt >>= f).run.finish now m = (f r).run.finish (w.run.finish now m).now
      (w.run.finish now m).machine ∧
      (w.attempt >>= f).run.transcript now m = w.run.transcript now m ++
        (f r).run.transcript (w.run.finish now m).now (w.run.finish now m).machine := by
  have hend : w.attempt.run.finish now m =
      ⟨.finished (.ok r), (w.run.finish now m).machine, (w.run.finish now m).now⟩ := by
    refine (Program.finish_bindDone w.run _ now m).trans ?_
    rw [h]
    rfl
  have hasked : w.attempt.run.transcript now m = w.run.transcript now m :=
    Program.transcript_bindDone w.run _ now m
  obtain ⟨hfinish, htranscript⟩ := Program.andThen_ok (f := f) (a := r) (by rw [hend])
  rw [hasked] at htranscript
  rw [hend] at hfinish htranscript
  exact ⟨hfinish, htranscript⟩

/-- What is said of a part and of giving the lock back. -/
def sentence (result released : Except DatabaseError Unit) : Work Unit :=
  match result, released with
  | .error e, _ => throw e
  | .ok _, .error e => throw e
  | .ok a, .ok () => return a

theorem sentence_eq (result released : Except DatabaseError Unit) :
    sentence result released = ExceptT.mk (.done (do result; released)) := by
  rcases result with e | _ <;> rcases released with e' | _ <;> rfl

/-- What follows the grant: the part, and giving the lock back. -/
def withLock (key : Int) (body : Work Unit) : Work Unit :=
  body.attempt >>= fun result => (release key).attempt >>= sentence result

theorem asks_withLock {ok : Request → Prop} {key : Int} {body : Work Unit} (hbody : body.Asks ok)
    (hrelease : (release key).Asks ok) : (withLock key body).Asks ok := by
  refine hbody.attempt.seq fun result => hrelease.attempt.seq fun released => ?_
  rcases result with e | _ <;> rcases released with e' | _
  · exact .throw e
  · exact .throw e
  · exact .throw e'
  · exact .pure ()

theorem locked_eq (key : Int) (body : Work Unit) :
    locked key body = (Work.ask .lockTimeout >>= acquire key) >>= fun _ => withLock key body := by
  unfold locked withLock
  rw [bind_assoc]
  congr; funext timeout
  congr; funext _
  congr; funext result
  congr; funext released
  rcases result with e | _ <;> rcases released with e' | _ <;> rfl

/-- How the lock is given back. -/
def GivesBack (key : Int) (back : List (Exchange interface))
    (released : Except DatabaseError Unit) : Prop :=
  Unlocks key back released ∨ Refuses back released

/-- The part runs to its end, and then the lock is given back. -/
theorem withLock_ends (key : Int) {body : Work Unit} (hbody : body.Aside) (start : Instant)
    (m : σ) :
    ∃ result released back, (body.run.finish start m).outcome = .finished result ∧
      GivesBack key back released ∧
      ((withLock key body).run.finish start m).outcome = .finished (do result; released) ∧
      ((withLock key body).run.finish start m).machine =
        ((release key).run.finish (body.run.finish start m).now
          (body.run.finish start m).machine).machine ∧
      (withLock key body).run.transcript start m = body.run.transcript start m ++ back := by
  obtain ⟨-, result, hresult⟩ := hbody.ends start m
  obtain ⟨hfinish, htranscript⟩ := attempt_andThen (f := fun result =>
    (release key).attempt >>= sentence result) hresult
  have hrelease :=
    @hearing_release (fun _ => True) key trivial trivial trivial (fun _ => trivial) []
  obtain ⟨-, back, released, hback, hreleased, hgiven⟩ := hrelease.transcript
    (body.run.finish start m).now (body.run.finish start m).machine
  obtain ⟨hfinish', htranscript'⟩ := attempt_andThen (f := sentence result) hreleased
  rw [List.nil_append, List.nil_append] at hback
  rw [sentence_eq] at hfinish' htranscript'
  refine ⟨result, released, back, hresult, hgiven, ?_, ?_, ?_⟩
  · unfold withLock
    rw [hfinish, hfinish']
    rfl
  · unfold withLock
    rw [hfinish, hfinish']
    rfl
  · unfold withLock
    rw [htranscript, htranscript', hback]
    exact congrArg _ (List.append_nil back)

/-- Whether an end says the same as a verdict; a value that it has besides does not matter. -/
def Says (o : Outcome (Except DatabaseError α)) (verdict : Except DatabaseError Unit) : Prop :=
  ∃ r, o = .finished r ∧ r.map (fun _ => ()) = verdict

/-- What holds of work that may take a lock for a part: it is not granted the lock and fails, or it
goes as a section of that part goes. -/
def Work.Brackets (σ : Type) [Machine interface σ] (locks : Int → Work Unit → Prop)
    (w : Work α) : Prop :=
  ∀ (now : Instant) (m : σ),
    (Quiet (w.run.transcript now m) ∧ ∀ a, (w.run.finish now m).outcome ≠ .finished (.ok a)) ∨
    ∃ key body verdict, locks key body ∧
      Section (σ := σ) (GivesBack key) key body (w.run.transcript now m) verdict ∧
        Says (w.run.finish now m).outcome verdict

variable {locks : Int → Work Unit → Prop}

/-- **A part that runs with the lock**, from asking for the lock to giving it back. -/
theorem locked_brackets {key : Int} {body : Work Unit} (hlocks : locks key body)
    (hbody : body.Aside) :
    (locked key body).Brackets σ locks := by
  intro now m
  have hentrance := hearing_entrance key
  have henter : (Work.ask .lockTimeout >>= acquire key).run.Obeys (hearing fun _ => True)
      (onSuccess (fun _ t => Granted key t) Quiet) [] :=
    Program.obeys_andThen (hentrance.lockTimeout quiet_nil) fun _ _ ht => hentrance.acquire ht
  obtain ⟨-, hfirst⟩ := henter.transcript now m
  rw [List.nil_append] at hfirst
  rw [locked_eq]
  generalize (Work.ask .lockTimeout >>= acquire key) = enter at hfirst ⊢
  rcases ho : (enter.run.finish now m).outcome with (e | _) | _
  · obtain ⟨hfinish, htranscript⟩ := Program.andThen_error (f := fun _ => withLock key body) ho
    rw [ho] at hfirst
    rw [hfinish, htranscript]
    exact .inl ⟨hfirst, nofun⟩
  · obtain ⟨hfinish, htranscript⟩ := Program.andThen_ok (f := fun _ => withLock key body) ho
    rw [ho] at hfirst
    obtain ⟨front, sent, granted, hfront, hasked⟩ := hfirst
    obtain ⟨result, released, back, hresult, hgiven, hverdict, -, hrest⟩ := withLock_ends key hbody
      (enter.run.finish now m).now (enter.run.finish now m).machine
    rw [hfinish, htranscript, hasked, hverdict, hrest, List.append_assoc]
    refine .inr ⟨key, body, _, hlocks, .mk hfront (hbody.quiet _ _) hresult hgiven, _, rfl,
      ?_⟩
    cases (do result; released : Except DatabaseError Unit) <;> rfl
  · obtain ⟨hfinish, htranscript⟩ := Program.andThen_crashed (f := fun _ => withLock key body) ho
    rw [ho] at hfirst
    rw [hfinish, htranscript]
    exact .inl ⟨hfirst, nofun⟩

/-! ### What comes before and after -/

/-- A section ends in one of two ways. -/
theorem Section.ends {key : Int} {body : Work Unit} {asked : List (Exchange interface)}
    {verdict : Except DatabaseError Unit}
    (h : Section (σ := σ) (GivesBack key) key body asked verdict) :
    Section (σ := σ) (Unlocks key) key body asked verdict ∨
      Section (σ := σ) Refuses key body asked verdict := by
  obtain ⟨hfront, hbody, hresult, hback⟩ := h
  exact hback.imp (.mk hfront hbody hresult) (.mk hfront hbody hresult)

theorem Section.behind {Back : List (Exchange interface) → Except DatabaseError Unit → Prop}
    {key : Int} {body : Work Unit} {before asked : List (Exchange interface)}
    {verdict : Except DatabaseError Unit} (h : Section (σ := σ) Back key body asked verdict)
    (hbefore : Quiet before) :
    Section (σ := σ) Back key body (before ++ asked) verdict := by
  obtain ⟨hfront, hbody, hresult, hback⟩ := h
  rw [← List.append_assoc]
  exact .mk (hbefore.append hfront) hbody hresult hback

/-- What is asked afterwards, where all has gone well. -/
theorem Section.ahead {key : Int} {body : Work Unit} {asked after : List (Exchange interface)}
    (h : Section (σ := σ) (GivesBack key) key body asked (.ok ())) (hafter : Quiet after) :
    Section (σ := σ) (GivesBack key) key body (asked ++ after) (.ok ()) := by
  generalize hv : (.ok () : Except DatabaseError Unit) = verdict at h ⊢
  obtain ⟨hfront, hbody, hresult, hback⟩ := h
  rename_i result released
  rw [List.append_assoc, List.cons_append, List.append_assoc]
  refine .mk hfront hbody hresult ?_
  rcases hback with hback | ⟨_, _, e, _⟩
  · obtain ⟨hbefore, hrest, sent, a, answered⟩ := hback
    rw [List.append_assoc, List.cons_append]
    exact .inl (.mk hbefore (hrest.append hafter) sent a answered)
  · cases result <;> cases hv

theorem brackets_behind {w : Work α} {f : α → Work β} (hw : w.Aside)
    (hf : ∀ a, (f a).Brackets σ locks) :
    (w >>= f).Brackets σ locks := by
  intro now m
  have hbefore := hw.quiet now m
  obtain ⟨-, r, hr⟩ := hw.ends now m
  rcases r with e | a
  · obtain ⟨hfinish, htranscript⟩ := Program.andThen_error (f := f) hr
    rw [hfinish, htranscript]
    exact .inl ⟨hbefore, nofun⟩
  · obtain ⟨hfinish, htranscript⟩ := Program.andThen_ok (f := f) hr
    rw [hfinish, htranscript]
    rcases hf a (w.run.finish now m).now (w.run.finish now m).machine with ⟨hquiet, hfails⟩ |
      ⟨key, body, verdict, hlocks, hsection, hsays⟩
    · exact .inl ⟨hbefore.append hquiet, hfails⟩
    · exact .inr ⟨key, body, verdict, hlocks, hsection.behind hbefore, hsays⟩

/-- What is done once all has gone well, if it asks nothing of a lock and does not fail. -/
theorem brackets_ahead {w : Work α} {f : α → Work β} (hw : w.Brackets σ locks)
    (hf : ∀ a, (f a).Aside)
    (hok : ∀ a now (m : σ), ∃ b, ((f a).run.finish now m).outcome = .finished (.ok b)) :
    (w >>= f).Brackets σ locks := by
  intro now m
  rcases ho : (w.run.finish now m).outcome with (e | a) | _
  · obtain ⟨hfinish, htranscript⟩ := Program.andThen_error (f := f) ho
    rw [hfinish, htranscript]
    rcases hw now m with ⟨hquiet, -⟩ | ⟨key, body, verdict, hlocks, hsection, r, hr, hverdict⟩
    · exact .inl ⟨hquiet, nofun⟩
    · rw [ho] at hr
      cases hr
      exact .inr ⟨key, body, verdict, hlocks, hsection, _, rfl, hverdict⟩
  · obtain ⟨hfinish, htranscript⟩ := Program.andThen_ok (f := f) ho
    obtain ⟨b, hb⟩ := hok a (w.run.finish now m).now (w.run.finish now m).machine
    rw [hfinish, htranscript, hb]
    rcases hw now m with ⟨-, hfails⟩ | ⟨key, body, verdict, hlocks, hsection, r, hr, hverdict⟩
    · exact absurd ho (hfails a)
    · rw [ho] at hr
      cases hr
      obtain rfl : .ok () = verdict := hverdict
      exact .inr ⟨key, body, .ok (), hlocks, hsection.ahead ((hf a).quiet _ _), _, rfl, rfl⟩
  · obtain ⟨hfinish, htranscript⟩ := Program.andThen_crashed (f := f) ho
    rw [hfinish, htranscript]
    rcases hw now m with ⟨hquiet, -⟩ | ⟨key, body, verdict, hlocks, hsection, r, hr, hverdict⟩
    · exact .inl ⟨hquiet, nofun⟩
    · rw [ho] at hr
      cases hr

theorem brackets_throw (e : DatabaseError) : (throw e : Work α).Brackets σ locks :=
  fun _ _ => .inl ⟨quiet_nil, nofun⟩

theorem brackets_get {ε : Type} {wrap : ε → DatabaseError} {x : Except ε α} {f : α → Work β}
    (hf : ∀ a, x = .ok a → (f a).Brackets σ locks) : (Work.get wrap x >>= f).Brackets σ locks := by
  cases x with
  | error e => exact brackets_throw (wrap e)
  | ok a => exact hf a rfl

end Locked

/-! ## Calls -/

section Calls

variable {σ : Type} [Machine interface σ] {p : Plant}

theorem brackets_migrateTo (v : Nat) : (p.migrateTo v).Brackets σ ((Call.migrateTo v).Locks p) :=
  brackets_behind (asks_requireConnection Request.IsPlain.aside) fun _ =>
    locked_brackets (.migrateTo v) aside_migrateLocked

theorem brackets_force (v : Int) : (p.force v).Brackets σ ((Call.force v).Locks p) := by
  unfold Plant.force
  split
  · exact brackets_throw _
  refine brackets_behind (asks_requireConnection Request.IsPlain.aside) fun _ => ?_
  refine brackets_ahead ?_ (fun _ => asks_ask trivial) fun _ _ _ => ⟨_, rfl⟩
  exact locked_brackets (.force v) (asks_writeVersion Request.IsPlain.aside)

theorem brackets_openPlant (sourceUrl databaseUrl : String) :
    (openPlant sourceUrl databaseUrl).Brackets σ
      ((Call.establish sourceUrl databaseUrl).Locks p) := by
  refine brackets_behind (asks_ask trivial) fun opened => brackets_get fun source _ => ?_
  refine brackets_get fun target htarget => brackets_get fun options _ => ?_
  refine brackets_behind (asks_ask trivial) fun answer => brackets_get fun _ _ => ?_
  refine brackets_ahead ?_ (fun _ => .pure _) fun _ _ _ => ⟨_, rfl⟩
  exact brackets_behind (asks_requireConnection Request.IsPlain.aside) fun _ =>
    locked_brackets (.establish htarget) (asks_send trivial trivial trivial)

/-! ### In the words of engines -/

section Words

variable {α : Type} (w : Work α) (now : Instant) (m : σ)

theorem inEngineWords_transcript :
    (Plant.inEngineWords w).transcript now m = w.run.transcript now m :=
  Program.transcript_bindDone w.run _ now m

theorem inEngineWords_outcome : ((Plant.inEngineWords w).finish now m).outcome =
    (w.run.finish now m).outcome.map fun r => r.mapError DatabaseError.toEngine :=
  Program.outcome_bindDone w.run _ now m

end Words

/-- What a call comes to that is work of the engine, but for its value and the words of
its error. -/
theorem Work.Brackets.settle {α : Type} {w : Work α} {c : Call} (hw : w.Brackets σ (c.Locks p))
    {now : Instant} {m : σ} {call : Program interface (Except EngineError Unit)}
    (hasked : call.transcript now m = w.run.transcript now m) (hend : (call.finish now m).outcome =
      (w.run.finish now m).outcome.map fun r =>
        (r.map fun _ => ()).mapError DatabaseError.toEngine) :
    Balanced σ p c (call.transcript now m) (call.finish now m).outcome ∨
      Stranded σ p c (call.transcript now m) (call.finish now m).outcome := by
  rw [hasked, hend]
  rcases hw now m with ⟨hquiet, hfails⟩ | ⟨key, body, verdict, hlocks, hsection, r, hr, rfl⟩
  · refine .inl (.inl ⟨hquiet, ?_⟩)
    intro h
    rcases ho : (w.run.finish now m).outcome with (e | a) | _
    · rw [ho] at h
      cases h
    · exact absurd ho (hfails a)
    · rw [ho] at h
      cases h
  · rw [hr]
    exact hsection.ends.imp (fun h => .inr ⟨key, body, _, hlocks, h, rfl⟩)
      fun h => ⟨key, body, _, hlocks, h, rfl⟩

theorem map_unit {ε : Type} (r : Except ε Unit) : (r.map fun _ => ()) = r := by
  cases r <;> rfl

/-- A call is balanced, or it is stranded. -/
theorem balanced_or_stranded (p : Plant) (c : Call) (now : Instant) (m : σ) :
    Balanced σ p c ((c.program p).transcript now m) ((c.program p).finish now m).outcome ∨
      Stranded σ p c ((c.program p).transcript now m) ((c.program p).finish now m).outcome := by
  cases c with
  | establish sourceUrl databaseUrl =>
    refine (brackets_openPlant sourceUrl databaseUrl).settle ?_ ?_
    · exact (Program.transcript_bindDone (connect sourceUrl databaseUrl) _ now m).trans
        (inEngineWords_transcript _ now m)
    · refine (Program.outcome_bindDone (connect sourceUrl databaseUrl) _ now m).trans ?_
      have hwords : ((connect sourceUrl databaseUrl).finish now m).outcome = _ :=
        inEngineWords_outcome _ now m
      rw [hwords]
      rcases ((openPlant sourceUrl databaseUrl).run.finish now m).outcome with (e | a) | _ <;> rfl
  | version =>
    have hw : p.version.Aside := (asks_requireConnection Request.IsPlain.aside).seq fun _ =>
      asks_readVersion Request.IsPlain.aside
    have hasked : ((Call.version.program p).transcript now m) = p.version.run.transcript now m :=
      (Program.transcript_bindDone p.engine.version _ now m).trans
        (inEngineWords_transcript p.version now m)
    rw [hasked]
    exact .inl (.inl ⟨hw.quiet now m, fun _ => rfl⟩)
  | migrateTo v =>
    refine (brackets_migrateTo v).settle (inEngineWords_transcript _ now m) ?_
    refine (inEngineWords_outcome _ now m).trans ?_
    simp only [map_unit]
  | force v =>
    refine (brackets_force v).settle (inEngineWords_transcript _ now m) ?_
    refine (inEngineWords_outcome _ now m).trans ?_
    simp only [map_unit]

/-! ## The balance -/

/-- How often a lock is granted or given back. -/
def touched (asked : List (Exchange interface)) : Nat :=
  asked.countP fun e => e.request.touches e.answer

theorem Quiet.untouched {asked : List (Exchange interface)} (h : Quiet asked) : touched asked = 0 :=
  List.countP_eq_zero.2 fun e he => by simp [h e he]

theorem touched_append (asked more : List (Exchange interface)) :
    touched (asked ++ more) = touched asked + touched more :=
  List.countP_append

theorem touched_cons {e : Exchange interface} (h : e.request.touches e.answer = true)
    (more : List (Exchange interface)) : touched (e :: more) = touched more + 1 :=
  List.countP_cons_of_pos h

theorem Unlocks.touched {key : Int} {back : List (Exchange interface)}
    {released : Except DatabaseError Unit} (h : Unlocks key back released) : touched back = 1 := by
  obtain ⟨hbefore, hafter, sent, a, answered⟩ := h
  rw [touched_append, touched_cons rfl, hbefore.untouched, hafter.untouched]

theorem Refuses.touched {back : List (Exchange interface)} {released : Except DatabaseError Unit}
    (h : Refuses back released) : touched back = 0 := by
  obtain ⟨hbefore, sent, e, answered⟩ := h
  exact (hbefore.append (quiet_single rfl)).untouched

theorem Section.touched {Back : List (Exchange interface) → Except DatabaseError Unit → Prop}
    {key : Int} {body : Work Unit} {asked : List (Exchange interface)}
    {verdict : Except DatabaseError Unit} (h : Section (σ := σ) Back key body asked verdict) :
    ∃ back released, Back back released ∧ touched asked = touched back + 1 := by
  obtain ⟨hfront, hbody, hresult, hback⟩ := h
  refine ⟨_, _, hback, ?_⟩
  rw [touched_append, touched_cons rfl, touched_append, hfront.untouched, hbody.untouched,
    Nat.zero_add, Nat.zero_add]

theorem Balanced.touched {c : Call} {asked : List (Exchange interface)}
    {o : Outcome (Except EngineError Unit)} (h : Balanced σ p c asked o) :
    touched asked = 0 ∨ touched asked = 2 := by
  obtain ⟨hquiet, _⟩ | ⟨_, _, _, _, hsection, _⟩ := h
  · exact .inl hquiet.untouched
  · obtain ⟨back, _, hback, htouched⟩ := hsection.touched
    rw [hback.touched] at htouched
    exact .inr htouched

theorem Stranded.touched {c : Call} {asked : List (Exchange interface)}
    {o : Outcome (Except EngineError Unit)} (h : Stranded σ p c asked o) : touched asked = 1 := by
  obtain ⟨_, _, _, _, hsection, _⟩ := h
  obtain ⟨back, _, hback, htouched⟩ := hsection.touched
  rwa [hback.touched] at htouched

/-- **The lock is balanced**, unless a rollback that is owed is refused when the lock shall be given
back. -/
theorem balanced_iff (p : Plant) (c : Call) (now : Instant) (m : σ) :
    Balanced σ p c ((c.program p).transcript now m) ((c.program p).finish now m).outcome ↔
      ¬ Stranded σ p c ((c.program p).transcript now m) ((c.program p).finish now m).outcome := by
  refine ⟨fun hbalanced hstranded => ?_, (balanced_or_stranded p c now m).resolve_right⟩
  have htouched := hbalanced.touched
  rw [hstranded.touched] at htouched
  exact absurd htouched (by decide)

end Calls

/-! ### A server that refuses -/

/-- Neither an insertion nor a rollback is served. -/
def refusing : Site where
  session := { isConnected := true }
  server :=
    { rules := [{ pattern := "INSERT", failure := some "" },
        { pattern := "ROLLBACK", failure := some "" }] }

/-- Forcing a version there does not give the lock back: the server still has it when the call is
over. -/
theorem force_strands :
    ¬ Balanced Site threeVersions (.force 1)
      (((Call.force 1).program threeVersions).transcript 0 refusing)
        (((Call.force 1).program threeVersions).finish 0 refusing).outcome ∧
      (((Call.force 1).program threeVersions).finish 0 refusing).machine.server.locks =
        [(0, threeVersions.target.lockKey)] := by
  have htouched : touched (((Call.force 1).program threeVersions).transcript 0 refusing) = 1 := by
    decide +kernel
  refine ⟨fun hbalanced => ?_, by decide +kernel⟩
  rcases hbalanced.touched with h | h
  · rw [htouched] at h
    cases h
  · rw [htouched] at h
    cases h

end Stairway.Postgres
