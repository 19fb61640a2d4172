import Stairway.Proofs.Controller.Assembly
import Stairway.Proofs.Controller.Connecting
import Stairway.Proofs.Program.Matching

/-!
# Credentials are kept to themselves

Two runs are compared, by settings that differ in the user and the password. The two addresses say
the same to an engine, or are refused for the same reason, and of a password nothing is shown. Over
connectors that cannot tell the two addresses apart, connecting looks the same from outside: the
caller gets the same at the same instant, and the same is said and tried, each at its instant
(`credentials_kept`).

What is seen from outside is an `account`: a connector is watched, and what it is asked for is noted
without the address of the database.
-/

namespace Stairway

open Url Program

/-- The settings with another user and another password. -/
def Settings.withCredentials (s : Settings) (user password : String) : Settings :=
  { s with database := { s.database with user := user, password := password } }

/-! ## Watching a connector -/

namespace Connecting

variable {ε σ τ : Type} [Machine (interface ε) σ] [Machine (interface ε) τ]

/-- What is seen of connecting: a line of the log, or a try. -/
inductive Sight where
  | said (line : String)
  | tried (sourceUrl : String)
  deriving DecidableEq, Repr

def Request.sight : Request → Sight
  | .said line => .said line
  | .opening source _ => .tried source

/-- A connector, and what has been seen of it, each sight with its instant. -/
structure Watched (σ : Type) where
  machine : σ
  seen : List (Instant × Sight) := []

instance : Machine (interface ε) (Watched σ) where
  arrive r now w :=
    let (delay, m) := Machine.arrive (I := interface ε) r now w.machine
    (delay, ⟨m, w.seen ++ [(now, r.sight)]⟩)
  answer r now w :=
    let (a, m) := Machine.answer (I := interface ε) r now w.machine
    (a, { w with machine := m })

/-- What a caller is told who has got an engine. -/
def greeting (s : Settings) : Option (Instant × Except Failure ε) → List (Instant × Sight)
  | some (t, .ok _) => [(t, .said s.connected)]
  | _ => []

/-- Connecting as it looks from outside: what the caller gets and when, and all that is said and
tried, also by what a caller leaves behind. -/
def account (ε : Type) [Machine (interface ε) σ] (s : Settings) (connector : σ) (start : Instant)
    (expiry : Option Instant) :
    Except Failure (Option (Instant × Except Failure ε) × List (Instant × Sight)) :=
  s.address.map fun a =>
    let found := runUnder start expiry (⟨connector, []⟩ : Watched σ) (connecting ε s a)
    let settled := found.2.activity.run expiry none found.2.now found.2.machine
    (found.1, settled.machine.seen ++ greeting s found.1)

/-- Connectors that behave the same for two addresses of a database: however they are related, they
take as long and answer the same. -/
structure Indistinct (ε : Type) [Machine (interface ε) σ] [Machine (interface ε) τ]
    (R : σ → τ → Prop) (source url url' : String) : Prop where
  said : ∀ line now m n, R m n →
    Tally R (waitFor (I := interface ε) (.said line) now m)
      (waitFor (I := interface ε) (.said line) now n)
  opening : ∀ now m n, R m n →
    Tally R (waitFor (I := interface ε) (.opening source url) now m)
      (waitFor (I := interface ε) (.opening source url') now n)

/-- Related connectors of which the same has been seen. -/
def Watching (R : σ → τ → Prop) (w : Watched σ) (v : Watched τ) : Prop :=
  R w.machine v.machine ∧ w.seen = v.seen

/-- Watched connectors tally where the connectors do, if the same has been seen and is seen. -/
theorem watched_tally {α : Type} {R : σ → τ → Prop} {x : α × σ × Instant} {y : α × τ × Instant}
    (h : Tally R x y) {w : Watched σ} {v : Watched τ} (hseen : w.seen = v.seen)
    (sight : Instant × Sight) :
    Tally (Watching R) (x.1, (⟨x.2.1, w.seen ++ [sight]⟩ : Watched σ), x.2.2)
      (y.1, (⟨y.2.1, v.seen ++ [sight]⟩ : Watched τ), y.2.2) where
  answer := h.answer
  instant := h.instant
  machine := ⟨h.machine, congrArg (· ++ [sight]) hseen⟩

namespace Indistinct

variable {R : σ → τ → Prop} {source url url' : String}

theorem said_matches (h : Indistinct ε R source url url') (line : String) :
    Matches (Watching R) (request (I := interface ε) (.said line))
      (request (I := interface ε) (.said line)) :=
  .of_ends (run_request _) (run_request _) fun now _ _ hR =>
    watched_tally (h.said line now _ _ hR.1) hR.2 (now, .said line)

theorem opening_matches (h : Indistinct ε R source url url') :
    Matches (Watching R) (request (I := interface ε) (.opening source url))
      (request (I := interface ε) (.opening source url')) :=
  .of_ends (run_request _) (run_request _) fun now _ _ hR =>
    watched_tally (h.opening now _ _ hR.1) hR.2 (now, .tried source)

end Indistinct

/-- **Connecting matches** over connectors that cannot tell the addresses apart, by settings that
say the same of the tries and of the database's name. -/
theorem connecting_matches {R : σ → τ → Prop} {s s' : Settings} {a a' : Address}
    (hretry : s'.retry = s.retry) (hname : s'.database.name = s.database.name)
    (hsource : a'.sourceUrl = a.sourceUrl)
    (h : Indistinct ε R a.sourceUrl a.databaseUrl a'.databaseUrl) :
    Matches (Watching R) (connecting ε s a) (connecting ε s' a') := by
  unfold connecting Settings.connecting
  rw [hretry, hname, hsource]
  refine .bind (.retrying s.retry fun n => ?_) fun r => .done _
  exact .bind (h.said_matches _) fun _ => h.opening_matches

theorem account_eq {R : σ → τ → Prop} {s s' : Settings} {a a' : Address} (hs : s.address = .ok a)
    (hs' : s'.address = .ok a') (hretry : s'.retry = s.retry)
    (hname : s'.database.name = s.database.name) (hsource : a'.sourceUrl = a.sourceUrl)
    (h : Indistinct ε R a.sourceUrl a.databaseUrl a'.databaseUrl) {m : σ} {n : τ} (hR : R m n)
    (start : Instant) (expiry : Option Instant) :
    account ε s' n start expiry = account ε s m start expiry := by
  obtain ⟨o, w, v, t, hw, hv, -, hseen⟩ := connecting_matches hretry hname hsource h expiry start
    (⟨m, []⟩ : Watched σ) (⟨n, []⟩ : Watched τ) ⟨hR, rfl⟩
  obtain ⟨hanswer, hsettled⟩ := runUnder_whole hw
  obtain ⟨hanswer', hsettled'⟩ := runUnder_whole hv
  have hgreeting : ∀ found : Option (Instant × Except Failure ε),
      greeting s' found = greeting s found := by
    intro found
    unfold greeting Settings.connected
    rw [hname]
  rw [account, account, hs, hs']
  simp only [Except.map, hanswer, hanswer', hsettled, hsettled', hseen, hgreeting]

/-- A connector that goes by its plan does not look at addresses. -/
theorem Connector.indistinct (source url url' : String) :
    Indistinct ε
      (fun c c' : Connector ε => c.plan = c'.plan ∧ c.calls = c'.calls) source url url' := by
  constructor
  · intro line now c c' hsame
    exact ⟨rfl, rfl, hsame⟩
  · intro now c c' hsame
    obtain ⟨plan, calls, events⟩ := c
    obtain ⟨plan', calls', events'⟩ := c'
    obtain ⟨rfl, rfl⟩ := hsame
    exact ⟨rfl, rfl, rfl, rfl⟩

end Connecting

/-! ## Two runs -/

/-- What an address says that an engine accepts, and what is shown of it. -/
def Postgres.Target.shown (t : Postgres.Target) : List Char × List Char × Bool × Int × String :=
  (t.database, t.table, t.multiStatement, t.lockKey, t.debug)

theorem Postgres.Target.shown_congr {f f' : Except TargetFault Target}
    (h : f'.map reading = f.map reading) :
    f'.map shown = f.map shown := by
  cases f with
  | error fault =>
    cases f' with
    | error fault' =>
      obtain rfl : fault' = fault := by simpa [Except.map] using h
      rfl
    | ok t' => cases h
  | ok t =>
    cases f' with
    | error fault' => cases h
    | ok t' =>
      obtain ⟨url, database, table, multiStatement⟩ := t
      obtain ⟨url', database', table', multiStatement'⟩ := t'
      simp only [Except.map, reading, Except.ok.injEq, Prod.mk.injEq, Options.mk.injEq] at h
      obtain ⟨rfl, rfl, rfl⟩ := h
      rfl

/-- Settings, with their addresses, that tell nothing of the user and the password in which they
differ. -/
structure KeepCredentials (s s' : Settings) (url url' : Url) : Prop where
  /-- Engines read the same of both addresses, or refuse both for the same reason. -/
  read : (Postgres.Target.parse url'.render).map Postgres.Target.shown =
    (Postgres.Target.parse url.render).map Postgres.Target.shown
  /-- A password is not shown. -/
  shown : s'.database.user = s.database.user →
    s'.database.debug = s.database.debug ∧ s'.debug = s.debug ∧
      ∀ idle, s'.controllerDebug idle = s.controllerDebug idle
  /-- Connecting looks the same from outside, over connectors that cannot tell the addresses apart.
  -/
  account : ∀ (ε : Type) {σ τ : Type} [Machine (Connecting.interface ε) σ]
    [Machine (Connecting.interface ε) τ] (R : σ → τ → Prop),
    Connecting.Indistinct ε R s.sourceUrl url.render url'.render → ∀ m n, R m n →
      ∀ start expiry, Connecting.account ε s' n start expiry = Connecting.account ε s m start expiry

/-- **Credentials do not leak and do not steer.** With any other user and password there is an
address again, and nothing tells which they are. -/
theorem credentials_kept {s : Settings} {url : Url} (user password : String)
    (h : s.database.connectionUrl = .ok url) :
    ∃ url', (s.withCredentials user password).database.connectionUrl = .ok url' ∧
      KeepCredentials s (s.withCredentials user password) url url' := by
  obtain ⟨base, a, hbase, hauthority, hhost, hurl⟩ := DatabaseSettings.connectionUrl_eq_ok_iff.1 h
  have h' : (s.withCredentials user password).database.connectionUrl =
      .ok ((s.withCredentials user password).database.assembled base a) :=
    DatabaseSettings.connectionUrl_eq_ok_iff.2 ⟨base, a, hbase, hauthority, hhost, rfl⟩
  obtain ⟨b, -, -, hspelled, -, -⟩ := DatabaseSettings.connectionUrl_spelled h
  obtain ⟨b', -, -, hspelled', -, -⟩ := DatabaseSettings.connectionUrl_spelled h'
  subst hurl
  have hplace : b'.place = b.place := by
    rw [← Option.some_inj.1 hspelled.hasAuthority, ← Option.some_inj.1 hspelled'.hasAuthority]
    rfl
  refine ⟨_, h', ?_, ?_, ?_⟩
  · refine Postgres.Target.shown_congr ?_
    rw [Postgres.Target.reading_render hspelled, Postgres.Target.reading_render hspelled', hplace]
    rfl
  · intro huser
    have hdatabase : (s.withCredentials user password).database.debug = s.database.debug := by
      unfold DatabaseSettings.debug
      rw [huser]
      rfl
    have hsettings : (s.withCredentials user password).debug = s.debug := by
      unfold Settings.debug
      rw [hdatabase]
      rfl
    refine ⟨hdatabase, hsettings, fun idle => ?_⟩
    unfold Settings.controllerDebug
    rw [hsettings]
  · intro ε σ τ _ _ R hR m n hmn start expiry
    have hs := Connecting.address_eq s
    have hs' := Connecting.address_eq (s.withCredentials user password)
    rw [h] at hs
    rw [h'] at hs'
    cases hpattern : Pattern.parse? s.alreadyClosedPattern with
    | none =>
      have hpattern' : Pattern.parse?
          (s.withCredentials user password).alreadyClosedPattern = none := hpattern
      rw [hpattern] at hs
      rw [hpattern'] at hs'
      rw [Connecting.account, Connecting.account, hs, hs']
      rfl
    | some p =>
      have hpattern' : Pattern.parse? (s.withCredentials user password).alreadyClosedPattern =
          some p := hpattern
      rw [hpattern] at hs
      rw [hpattern'] at hs'
      exact Connecting.account_eq hs hs' rfl rfl rfl hR hmn start expiry

/-- Settings with three tries. -/
def patient : Settings := { retry := ⟨3, 100, 100⟩ }

/-- A password is changed while the database comes up late. -/
theorem credentials_kept_refusedTwice :
    ∃ url url', patient.database.connectionUrl = .ok url ∧
      (patient.withCredentials "postgres" "a:/?#@").database.connectionUrl = .ok url' ∧
      KeepCredentials patient (patient.withCredentials "postgres" "a:/?#@") url url' ∧
      Connecting.account Unit (patient.withCredentials "postgres" "a:/?#@")
          (⟨Connecting.refusedTwice, 0, []⟩ : Connecting.Connector Unit) 0 (some 60) =
        Connecting.account Unit patient
          (⟨Connecting.refusedTwice, 0, []⟩ : Connecting.Connector Unit) 0 (some 60) := by
  obtain ⟨url', h', hkept⟩ := credentials_kept (s := patient) "postgres" "a:/?#@" rfl
  exact ⟨_, url', rfl, h', hkept,
    hkept.account Unit _ (Connecting.Connector.indistinct _ _ _) _ _ ⟨rfl, rfl⟩ 0 (some 60)⟩

end Stairway
