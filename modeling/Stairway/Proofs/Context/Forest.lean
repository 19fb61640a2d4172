import Mathlib.Data.List.Forall2
import Mathlib.Order.Bounds.Basic
import Stairway.Context

/-!
# The forest of contexts

A program makes contexts, each on its own, under an earlier one or as a copy of an earlier one; it
cancels some of them, and time passes. `Forest` is what such a program has made: its contexts in the
order in which they were made, each with how it came to be (`Origin`), and the numbers of those that
were cancelled. `Forest.perform` does one act, by the functions of `Context` alone.

`Descends i k` says from the origins alone that a cancel of `i` is to reach `k`: it reaches `i` and
its copies, and whatever lies under these. `forest_lawful` is what holds of every forest: a context
is done exactly where one was cancelled from which it descends or its deadline has come, nothing
outlives what it descends from, and whoever waits for a context is told at the first instant at
which it is done.

The invariant is `Planted`: a token is a number that was fresh on top of the token above, and copies
have one token. So the tokens tell who descends from whom (`Planted.descends_iff`).
-/

namespace Stairway

/-! ## Waiting for a context and looking at it

Both are folds over the same entries; one remembers the first that counts, the other asks whether
any does. -/

theorem Instant.any_earlier (a b : Option Instant) (t : Instant) :
    (Instant.earlier a b).any (· ≤ t) = (a.any (· ≤ t) || b.any (· ≤ t)) := by
  cases a <;> cases b <;> simp [Instant.earlier]

theorem Cancellations.any_cancelledFrom (c : Cancellations) (token : Token) (t : Instant) :
    (c.cancelledFrom token).any (· ≤ t) = c.isCancelled t token := by
  -- the fold starts from what the entries before have given
  have hfold : ∀ (entries : List (Instant × Token)) (first : Option Instant),
      (entries.foldl (fun first entry =>
        if token.isUnder entry.2 then Instant.earlier first (some entry.1) else first) first).any
          (· ≤ t) =
        (first.any (· ≤ t) || entries.any fun entry => entry.1 ≤ t && token.isUnder entry.2) := by
    intro entries
    induction entries with
    | nil => simp
    | cons entry entries ih =>
      intro first
      rw [List.foldl_cons, ih]
      cases hunder : token.isUnder entry.2 <;> simp [hunder, Instant.any_earlier, Bool.or_assoc]
  exact (hfold c.entries none).trans (Bool.false_or _)

theorem Context.any_expiry (ctx : Context) (c : Cancellations) (t : Instant) :
    (ctx.expiry c).any (· ≤ t) = ctx.isDone c t := by
  rw [expiry, Instant.any_earlier, Cancellations.any_cancelledFrom, isDone, Bool.or_comm]

/-- What is entered for later instants does not count yet. -/
theorem Context.isDone_later (ctx : Context) {c c' : Cancellations} {t : Instant}
    {later : List (Instant × Token)} (hentries : c'.entries = c.entries ++ later)
    (hlater : ∀ entry ∈ later, t < entry.1) : ctx.isDone c' t = ctx.isDone c t := by
  have hnone : (later.any fun entry => entry.1 ≤ t && ctx.token.isUnder entry.2) = false := by
    rw [List.any_eq_false]
    intro entry hentry
    simp [Nat.not_le.2 (hlater entry hentry)]
  have hsame : c'.isCancelled t ctx.token = c.isCancelled t ctx.token := by
    rw [Cancellations.isCancelled, hentries, List.any_append]
    exact (congrArg _ hnone).trans (Bool.or_false _)
  rw [isDone, isDone, hsame]

/-- A context that is done stays so. -/
theorem Context.isDone_mono (ctx : Context) {c c' : Cancellations} {t t' : Instant} (ht : t ≤ t')
    (hentries : c.entries <+: c'.entries) (h : ctx.isDone c t) : ctx.isDone c' t' := by
  obtain ⟨later, hlater⟩ := hentries
  simp only [isDone, Cancellations.isCancelled, ← hlater, List.any_append, Bool.or_eq_true,
    List.any_eq_true, Option.any_eq_true, Bool.and_eq_true, decide_eq_true_eq] at h ⊢
  rcases h with ⟨entry, hentry, hi, hunder⟩ | ⟨d, hd, hdt⟩
  · exact Or.inl (Or.inl ⟨entry, hentry, hi.trans ht, hunder⟩)
  · exact Or.inr ⟨d, hd, hdt.trans ht⟩

/-- What is above a token that is above another is above that one, too. -/
theorem Cancellations.isCancelled_of_suffix {c : Cancellations} {t : Instant} {above token : Token}
    (hsuffix : above <:+ token) (h : c.isCancelled t above = true) :
    c.isCancelled t token = true := by
  simp only [isCancelled, List.any_eq_true, Bool.and_eq_true, Token.isUnder,
    List.isSuffixOf_iff_suffix] at h ⊢
  obtain ⟨entry, hentry, hle, hunder⟩ := h
  exact ⟨entry, hentry, hle, hunder.trans hsuffix⟩

/-! ## Forests -/

/-- How a context came to be: on its own, under the context of a number, or as its copy. -/
inductive Origin where
  | root
  | child (parent : Nat)
  | clone (original : Nat)
  deriving DecidableEq

structure Member where
  context : Context
  origin : Origin

/-- The contexts in the order in which they were made, and the numbers of those that
were cancelled. -/
structure Forest where
  now : Instant
  cancellations : Cancellations := {}
  members : List Member := []
  cancelled : List Nat := []

/-- What a program can do with its contexts. It can cancel one itself or by the token it
was handed. -/
inductive Act where
  | background
  | withTimeout (timeout : Duration)
  | withDeadline (deadline : Instant)
  | child (parent : Nat) (timeout : Duration)
  | clone (original : Nat)
  | cancel (k : Nat)
  | cancelToken (k : Nat)
  | wait (d : Duration)

namespace Forest

def context? (f : Forest) (k : Nat) : Option Context := f.members[k]?.map (·.context)

def origin? (f : Forest) (k : Nat) : Option Origin := f.members[k]?.map (·.origin)

def deadline? (f : Forest) (k : Nat) : Option Instant := (f.context? k).bind (·.deadline)

def remaining? (f : Forest) (k : Nat) : Option Duration := (f.context? k).bind (·.remaining f.now)

def isDone (f : Forest) (k : Nat) : Bool := (f.context? k).any (·.isDone f.cancellations f.now)

/-- The forest with a context that has just been made. -/
def grow (f : Forest) (origin : Origin) (made : Context × Cancellations) : Forest :=
  { f with members := f.members ++ [⟨made.1, origin⟩], cancellations := made.2 }

/-- One act. There is nothing to do with a context that has not been made. -/
def perform (f : Forest) : Act → Forest
  | .background => f.grow .root (Context.background f.cancellations)
  | .withTimeout timeout => f.grow .root (Context.withTimeout f.cancellations f.now timeout)
  | .withDeadline deadline => f.grow .root (Context.withDeadline f.cancellations deadline)
  | .child p timeout =>
    match f.context? p with
    | some parent => f.grow (.child p) (parent.child f.cancellations f.now timeout)
    | none => f
  | .clone o =>
    match f.context? o with
    | some original => f.grow (.clone o) (original, f.cancellations)
    | none => f
  | .cancel k =>
    match f.context? k with
    | some ctx =>
      { f with cancellations := ctx.cancel f.cancellations f.now, cancelled := f.cancelled ++ [k] }
    | none => f
  | .cancelToken k =>
    match f.context? k with
    | some ctx =>
      { f with
        cancellations := f.cancellations.cancel f.now ctx.token, cancelled := f.cancelled ++ [k] }
    | none => f
  | .wait d => { f with now := f.now + d }

def after (f : Forest) (acts : List Act) : Forest := acts.foldl perform f

/-- What a program has made that starts at an instant with no context at all. -/
def run (start : Instant) (acts : List Act) : Forest := after ⟨start, {}, [], []⟩ acts

/-- The forest at the end of the instant `t`, on the way through further acts. -/
def upTo (t : Instant) (f : Forest) : List Act → Forest
  | [] => { f with now := t }
  | .wait d :: acts => if t < f.now + d then { f with now := t }
      else upTo t (f.perform (.wait d)) acts
  | act :: acts => upTo t (f.perform act) acts

/-- The instant at which a wait for a context is over that begins now, if further acts follow. -/
def resolution (f : Forest) (k : Nat) (acts : List Act) : Option Instant :=
  ((f.context? k).bind (·.expiry (f.after acts).cancellations)).map (max f.now)

/-- Whether a cancel of `i` is to reach `k`, by how they came to be: it reaches `i` and its copies,
and whatever lies under these. -/
inductive Descends (f : Forest) : Nat → Nat → Prop
  | self (i : Nat) : Descends f i i
  | child {i p k : Nat} : f.origin? k = some (.child p) → Descends f i p → Descends f i k
  | copy {i o k : Nat} : f.origin? k = some (.clone o) → Descends f i o → Descends f i k
  | original {i o k : Nat} : f.origin? i = some (.clone o) → Descends f o k → Descends f i k

/-! ## What acts leave alone -/

variable {f : Forest}

/-- **What one act does to what is there.** Contexts stay, time goes on, and what is entered as
cancelled is entered for now. -/
theorem perform_grows (f : Forest) (act : Act) :
    f.now ≤ (f.perform act).now ∧ f.members <+: (f.perform act).members ∧
      ∃ later, (f.perform act).cancellations.entries = f.cancellations.entries ++ later ∧
        ∀ entry ∈ later, f.now ≤ entry.1 := by
  have hnone : ∃ later, f.cancellations.entries = f.cancellations.entries ++ later ∧
      ∀ entry ∈ later, f.now ≤ entry.1 := ⟨[], by simp⟩
  have hone : ∀ token : Token, ∃ later,
      f.cancellations.entries ++ [(f.now, token)] = f.cancellations.entries ++ later ∧
        ∀ entry ∈ later, f.now ≤ entry.1 := fun token => ⟨[(f.now, token)], by simp⟩
  cases act with
  | background | withTimeout | withDeadline => exact ⟨Nat.le_refl _, List.prefix_append _ _, hnone⟩
  | child p _ | clone p =>
    simp only [perform]
    split
    · exact ⟨Nat.le_refl _, List.prefix_append _ _, hnone⟩
    · exact ⟨Nat.le_refl _, List.prefix_rfl, hnone⟩
  | cancel k | cancelToken k =>
    simp only [perform]
    split
    · exact ⟨Nat.le_refl _, List.prefix_rfl, hone _⟩
    · exact ⟨Nat.le_refl _, List.prefix_rfl, hnone⟩
  | wait d => exact ⟨Nat.le_add_right _ _, List.prefix_rfl, hnone⟩

theorem after_grows (f : Forest) (acts : List Act) :
    f.now ≤ (f.after acts).now ∧ f.members <+: (f.after acts).members ∧
      ∃ later, (f.after acts).cancellations.entries = f.cancellations.entries ++ later ∧
        ∀ entry ∈ later, f.now ≤ entry.1 := by
  induction acts generalizing f with
  | nil => exact ⟨Nat.le_refl _, List.prefix_rfl, [], by simp [after]⟩
  | cons act acts ih =>
    obtain ⟨hnow, hmembers, later, hentries, hlater⟩ := f.perform_grows act
    obtain ⟨hnow', hmembers', later', hentries', hlater'⟩ := ih (f.perform act)
    refine ⟨hnow.trans hnow', hmembers.trans hmembers', later ++ later', ?_, ?_⟩
    · rw [after, List.foldl_cons, ← after, hentries', hentries, List.append_assoc]
    · intro entry hentry
      rcases List.mem_append.1 hentry with h | h
      · exact hlater entry h
      · exact hnow.trans (hlater' entry h)

theorem context?_mono {g : Forest} {k : Nat} {ctx : Context} (hmembers : f.members <+: g.members)
    (h : f.context? k = some ctx) : g.context? k = some ctx := by
  obtain ⟨more, hmore⟩ := hmembers
  simp only [context?, Option.map_eq_some_iff] at h ⊢
  obtain ⟨m, hm, hctx⟩ := h
  refine ⟨m, ?_, hctx⟩
  rw [← hmore, List.getElem?_append_left (List.getElem?_eq_some_iff.1 hm).1, hm]

theorem isDone_eq_true {k : Nat} :
    f.isDone k = true ↔ ∃ ctx, f.context? k = some ctx ∧
      ctx.isDone f.cancellations f.now = true := by
  rw [isDone, Option.any_eq_true]

/-- Being done is for good. -/
theorem isDone_after {k : Nat} (acts : List Act) (h : f.isDone k) : (f.after acts).isDone k := by
  obtain ⟨ctx, hctx, hdone⟩ := isDone_eq_true.1 h
  obtain ⟨hnow, hmembers, later, hentries, -⟩ := f.after_grows acts
  exact isDone_eq_true.2
    ⟨ctx, context?_mono hmembers hctx, ctx.isDone_mono hnow ⟨later, hentries.symm⟩ hdone⟩

/-! ## The instant at which a wait is over -/

/-- The forest at an instant lies between what is there and what all acts leave: they enter the rest
as cancelled for later instants. -/
theorem upTo_between {t : Instant} (ht : f.now ≤ t) (acts : List Act) :
    (f.upTo t acts).now = t ∧ f.members <+: (f.upTo t acts).members ∧
      ∃ later,
        (f.after acts).cancellations.entries = (f.upTo t acts).cancellations.entries ++ later ∧
        ∀ entry ∈ later, t < entry.1 := by
  induction acts generalizing f with
  | nil => exact ⟨rfl, List.prefix_rfl, [], by simp [after, upTo]⟩
  | cons act acts ih =>
    have hact : ∀ g : Forest, g = f.perform act → g.now ≤ t →
        (g.upTo t acts).now = t ∧ f.members <+: (g.upTo t acts).members ∧
          ∃ later, (f.after (act :: acts)).cancellations.entries =
            (g.upTo t acts).cancellations.entries ++ later ∧ ∀ entry ∈ later, t < entry.1 := by
      rintro g rfl hg
      obtain ⟨hnow, hmembers, hlater⟩ := ih hg
      exact ⟨hnow, (f.perform_grows act).2.1.trans hmembers, hlater⟩
    -- only a wait takes the clock on
    have hstill : (∀ d, act ≠ .wait d) → (f.perform act).now = f.now := by
      intro hne
      cases act with
      | background | withTimeout | withDeadline => rfl
      | child | clone | cancel | cancelToken => simp only [perform]; split <;> rfl
      | wait d => exact absurd rfl (hne d)
    cases act with
    | wait d =>
      rw [upTo]
      split
      · next hpast =>
        obtain ⟨-, -, later, hentries, hlater⟩ := (f.perform (.wait d)).after_grows acts
        exact ⟨rfl, List.prefix_rfl, later, hentries,
          fun entry hentry => hpast.trans_le (hlater entry hentry)⟩
      · next hyet => exact hact _ rfl (Nat.not_lt.1 hyet)
    | background | withTimeout | withDeadline | child | clone | cancel | cancelToken =>
      exact hact _ rfl ((hstill nofun).trans_le ht)

/-- At every instant, looking at a context says whether its expiry has come. -/
theorem isDone_upTo {k : Nat} {ctx : Context} (hctx : f.context? k = some ctx) {t : Instant}
    (ht : f.now ≤ t) (acts : List Act) :
    (f.upTo t acts).isDone k = (ctx.expiry (f.after acts).cancellations).any (· ≤ t) := by
  obtain ⟨hnow, hmembers, later, hentries, hlater⟩ := upTo_between ht acts
  rw [isDone, context?_mono hmembers hctx, Option.any_some, hnow, ctx.any_expiry,
    ctx.isDone_later hentries hlater]

/-- **A wait is over at the first instant at which the context is done.** -/
theorem resolution_eq_some_iff {k : Nat} {ctx : Context} (hctx : f.context? k = some ctx)
    (acts : List Act) (r : Instant) :
    f.resolution k acts = some r ↔ IsLeast {t | f.now ≤ t ∧ (f.upTo t acts).isDone k} r := by
  have hdone : ∀ t, f.now ≤ t → ((f.upTo t acts).isDone k = true ↔
      ∃ e, ctx.expiry (f.after acts).cancellations = some e ∧ e ≤ t) := by
    intro t ht
    simp [isDone_upTo hctx ht acts, Option.any_eq_true]
  rw [resolution, hctx, Option.bind_some]
  cases hexpiry : ctx.expiry (f.after acts).cancellations with
  | none =>
    simp only [Option.map_none, reduceCtorEq, false_iff]
    rintro ⟨⟨hr, hisDone⟩, -⟩
    simpa [hexpiry] using (hdone r hr).1 hisDone
  | some e =>
    have hleast : IsLeast {t | f.now ≤ t ∧ (f.upTo t acts).isDone k = true} (max f.now e) := by
      refine ⟨⟨Nat.le_max_left _ _, ?_⟩, ?_⟩
      · exact (hdone _ (Nat.le_max_left _ _)).2 ⟨e, hexpiry, Nat.le_max_right _ _⟩
      · rintro t ⟨ht, hisDone⟩
        obtain ⟨e', he', het⟩ := (hdone t ht).1 hisDone
        rw [hexpiry, Option.some_inj] at he'
        exact Nat.max_le.2 ⟨ht, he' ▸ het⟩
    rw [Option.map_some, Option.some_inj]
    constructor
    · rintro rfl
      exact hleast
    · exact fun h => hleast.unique h

/-! ## Tokens tell who descends from whom -/

/-- Whether a deadline comes no later than another. -/
def NoLater (a b : Option Instant) : Prop := ∀ d, b = some d → ∃ d', a = some d' ∧ d' ≤ d

theorem NoLater.refl (a : Option Instant) : NoLater a a := fun d h => ⟨d, h, Nat.le_refl _⟩

theorem NoLater.trans {a b c : Option Instant} (hab : NoLater a b)
    (hbc : NoLater b c) : NoLater a c := by
  intro d hd
  obtain ⟨d', hb, hle⟩ := hbc d hd
  obtain ⟨d'', ha, hle'⟩ := hab d' hb
  exact ⟨d'', ha, hle'.trans hle⟩

theorem noLater_earlier (a b : Option Instant) : NoLater (Instant.earlier a b) a := by
  rintro d rfl
  cases b with
  | none => exact ⟨d, rfl, Nat.le_refl _⟩
  | some b => exact ⟨min d b, rfl, Nat.min_le_left _ _⟩

/-- How the member of a number goes with what came before it: its token is the top number `n` that
was fresh when it was made on what lies above, or that of the context it copies. -/
def Rooted (f : Forest) (k : Nat) (m : Member) : Prop :=
  match m.origin with
  | .root => ∃ n < f.cancellations.next, m.context.token = [n]
  | .child p => p < k ∧ ∃ parent, f.context? p = some parent ∧
      NoLater m.context.deadline parent.deadline ∧
      ∃ n < f.cancellations.next, m.context.token = n :: parent.token
  | .clone o => o < k ∧ f.context? o = some m.context

/-- What is entered when the context of a number is cancelled: its token, for no later than now. -/
def Entered (f : Forest) (entry : Instant × Token) (k : Nat) : Prop :=
  entry.1 ≤ f.now ∧ (f.context? k).map (·.token) = some entry.2

/-- **The invariant.** Every member goes with those before it, two that are no copies have different
numbers on top of their tokens, and what is entered as cancelled is the tokens of those that were
cancelled. -/
structure Planted (f : Forest) : Prop where
  rooted : ∀ {k : Nat} {m : Member}, f.members[k]? = some m → f.Rooted k m
  distinct : ∀ {i k : Nat} {m m' : Member}, f.members[i]? = some m → f.members[k]? = some m' →
    (∀ o, m.origin ≠ .clone o) → (∀ o, m'.origin ≠ .clone o) →
    m.context.token.head? = m'.context.token.head? → i = k
  entered : List.Forall₂ f.Entered f.cancellations.entries f.cancelled

namespace Planted

theorem head_lt (h : f.Planted) {k : Nat} {m : Member} (hm : f.members[k]? = some m)
    (hfirst : ∀ o, m.origin ≠ .clone o) : ∃ n < f.cancellations.next,
      m.context.token.head? = some n := by
  have hrooted := h.rooted hm
  unfold Rooted at hrooted
  split at hrooted
  · obtain ⟨n, hn, htoken⟩ := hrooted
    exact ⟨n, hn, by rw [htoken]; rfl⟩
  · obtain ⟨-, parent, -, -, n, hn, htoken⟩ := hrooted
    exact ⟨n, hn, by rw [htoken]; rfl⟩
  · next o horigin => exact absurd horigin (hfirst o)

theorem token_ne_nil (h : f.Planted) {k : Nat} {ctx : Context} (hctx : f.context? k = some ctx) :
    ctx.token ≠ [] := by
  induction k using Nat.strong_induction_on generalizing ctx with
  | _ k ih =>
    obtain ⟨m, hm, rfl⟩ := Option.map_eq_some_iff.1 hctx
    have hrooted := h.rooted hm
    unfold Rooted at hrooted
    split at hrooted
    · obtain ⟨n, -, htoken⟩ := hrooted
      simp [htoken]
    · obtain ⟨-, parent, -, -, n, -, htoken⟩ := hrooted
      simp [htoken]
    · next o _ => exact ih o hrooted.1 hrooted.2

theorem getElem?_of_origin? {k : Nat} {ctx : Context} {origin : Origin}
    (hctx : f.context? k = some ctx) (horigin : f.origin? k = some origin) :
    f.members[k]? = some ⟨ctx, origin⟩ := by
  obtain ⟨m, hm, rfl⟩ := Option.map_eq_some_iff.1 hctx
  rw [origin?, hm, Option.map_some, Option.some_inj] at horigin
  rw [hm, ← horigin]

/-- What lies under a context has its token above its own, and a deadline that comes no later. -/
theorem above (h : f.Planted) {i k : Nat} (hdescends : f.Descends i k) {above ctx : Context}
    (hi : f.context? i = some above) (hk : f.context? k = some ctx) :
    above.token <:+ ctx.token ∧ NoLater ctx.deadline above.deadline := by
  induction hdescends generalizing above ctx with
  | self i =>
    rw [hi, Option.some_inj] at hk
    exact hk ▸ ⟨List.suffix_rfl, NoLater.refl _⟩
  | child horigin _ ih =>
    obtain ⟨-, parent, hparent, hlater, n, -, htoken⟩ := h.rooted (getElem?_of_origin? hk horigin)
    obtain ⟨hsuffix, hlater'⟩ := ih hi hparent
    refine ⟨?_, NoLater.trans hlater hlater'⟩
    rw [htoken]
    exact hsuffix.trans (List.suffix_cons _ _)
  | copy horigin _ ih => exact ih hi (h.rooted (getElem?_of_origin? hk horigin)).2
  | original horigin _ ih => exact ih (h.rooted (getElem?_of_origin? hi horigin)).2 hk

/-- A token is above another's only by descent. The induction is on both numbers: each step goes
from a copy to what it copies, or from a context to the one above it. -/
theorem descends_of_suffix (h : f.Planted) {i k : Nat} {above ctx : Context}
    (hi : f.context? i = some above) (hk : f.context? k = some ctx)
    (hsuffix : above.token <:+ ctx.token) :
    f.Descends i k := by
  induction hsum : i + k using Nat.strong_induction_on generalizing i k above ctx with
  | _ sum ih =>
  subst hsum
  obtain ⟨⟨above, origin⟩, hm, rfl⟩ := Option.map_eq_some_iff.1 hi
  obtain ⟨⟨ctx, origin'⟩, hm', rfl⟩ := Option.map_eq_some_iff.1 hk
  by_cases hcopy : ∃ o, origin = .clone o
  · obtain ⟨o, rfl⟩ := hcopy
    obtain ⟨ho, horiginal⟩ := h.rooted hm
    exact .original (by rw [origin?, hm]; rfl) (ih _ (by omega) horiginal hk hsuffix rfl)
  have hfirst : ∀ o, origin ≠ .clone o := fun o ho => hcopy ⟨o, ho⟩
  have hsame : (∀ o, origin' ≠ .clone o) → above.token = ctx.token → f.Descends i k := by
    intro hfirst' htoken
    rw [h.distinct hm hm' hfirst hfirst' (congrArg _ htoken)]
    exact .self k
  have hne : above.token ≠ [] := h.token_ne_nil hi
  cases origin' with
  | root =>
    obtain ⟨n, -, htoken⟩ := h.rooted hm'
    refine hsame nofun ?_
    rw [htoken] at hsuffix ⊢
    rcases List.suffix_cons_iff.1 hsuffix with heq | hnil
    · exact heq
    · exact absurd (List.suffix_nil.1 hnil) hne
  | child p =>
    obtain ⟨hp, parent, hparent, -, n, -, htoken⟩ := h.rooted hm'
    rw [htoken] at hsuffix
    rcases List.suffix_cons_iff.1 hsuffix with heq | hunder
    · exact hsame nofun (heq.trans htoken.symm)
    · exact .child (by rw [origin?, hm']; rfl) (ih _ (by omega) hi hparent hunder rfl)
  | clone o =>
    obtain ⟨ho, horiginal⟩ := h.rooted hm'
    exact .copy (by rw [origin?, hm']; rfl) (ih _ (by omega) hi horiginal hsuffix rfl)

/-- **The tokens tell who descends from whom.** -/
theorem descends_iff (h : f.Planted) {i k : Nat} {above ctx : Context}
    (hi : f.context? i = some above) (hk : f.context? k = some ctx) :
    f.Descends i k ↔ ctx.token.isUnder above.token = true := by
  rw [Token.isUnder, List.isSuffixOf_iff_suffix]
  exact ⟨fun hdescends => (h.above hdescends hi hk).1, h.descends_of_suffix hi hk⟩

end Planted

/-! ## Every act keeps the invariant -/

theorem Rooted.mono {g : Forest} {k : Nat} {m : Member} (hmembers : f.members <+: g.members)
    (hnext : f.cancellations.next ≤ g.cancellations.next) (h : f.Rooted k m) : g.Rooted k m := by
  obtain ⟨ctx, origin⟩ := m
  cases origin with
  | root =>
    obtain ⟨n, hn, htoken⟩ := h
    exact ⟨n, hn.trans_le hnext, htoken⟩
  | child p =>
    obtain ⟨hp, parent, hparent, hlater, n, hn, htoken⟩ := h
    exact ⟨hp, parent, context?_mono hmembers hparent, hlater, n, hn.trans_le hnext, htoken⟩
  | clone o => exact ⟨h.1, context?_mono hmembers h.2⟩

theorem Entered.mono {g : Forest} {entry : Instant × Token} {k : Nat} (h : f.Entered entry k)
    (hnow : f.now ≤ g.now) (hmembers : f.members <+: g.members) : g.Entered entry k := by
  obtain ⟨ctx, hctx, htoken⟩ := Option.map_eq_some_iff.1 h.2
  refine ⟨h.1.trans hnow, ?_⟩
  rw [context?_mono hmembers hctx, Option.map_some, htoken]

theorem context?_lt {k : Nat} {ctx : Context} (h : f.context? k = some ctx) :
    k < f.members.length := by
  obtain ⟨m, hm, -⟩ := Option.map_eq_some_iff.1 h
  exact (List.getElem?_eq_some_iff.1 hm).1

theorem context?_grow (origin : Origin) (made : Context × Cancellations) :
    (f.grow origin made).context? f.members.length = some made.1 := by
  simp [context?, grow]

theorem getElem?_grow {origin : Origin} {made : Context × Cancellations} {k : Nat} {m : Member}
    (h : (f.grow origin made).members[k]? = some m) :
    f.members[k]? = some m ∨ k = f.members.length ∧ m = ⟨made.1, origin⟩ := by
  rw [grow, List.getElem?_append] at h
  split at h
  · exact Or.inl h
  · next hk =>
    obtain ⟨hlt, heq⟩ := List.getElem?_eq_some_iff.1 h
    rw [List.length_singleton] at hlt
    refine Or.inr ⟨by omega, ?_⟩
    rw [← heq, List.getElem_singleton]

namespace Planted

/-- A context is made: what it goes with is there already, and if it is no copy then its number is
fresh. -/
theorem grow (h : f.Planted) {origin : Origin} {made : Context × Cancellations}
    (hentries : made.2.entries = f.cancellations.entries)
    (hnext : f.cancellations.next ≤ made.2.next)
    (hrooted : (f.grow origin made).Rooted f.members.length ⟨made.1, origin⟩)
    (hfresh : (∀ o, origin ≠ .clone o) → made.1.token.head? = some f.cancellations.next) :
    (f.grow origin made).Planted where
  rooted hm := by
    rcases getElem?_grow hm with hm | ⟨rfl, rfl⟩
    · exact (h.rooted hm).mono (List.prefix_append _ _) hnext
    · exact hrooted
  distinct hm hm' hfirst hfirst' hhead := by
    rcases getElem?_grow hm with hm | ⟨rfl, rfl⟩ <;> rcases getElem?_grow hm' with hm' | ⟨rfl, rfl⟩
    · exact h.distinct hm hm' hfirst hfirst' hhead
    · obtain ⟨n, hn, hn'⟩ := h.head_lt hm hfirst
      rw [hn', hfresh hfirst', Option.some_inj] at hhead
      omega
    · obtain ⟨n, hn, hn'⟩ := h.head_lt hm' hfirst'
      rw [hn', hfresh hfirst, Option.some_inj] at hhead
      omega
    · rfl
  entered := by
    change List.Forall₂ _ made.2.entries f.cancelled
    rw [hentries]
    refine h.entered.imp fun entry k hentry => ?_
    exact hentry.mono (Nat.le_refl _) (List.prefix_append _ _)

/-- A context is cancelled. -/
theorem cancel (h : f.Planted) {k : Nat} {ctx : Context} (hctx : f.context? k = some ctx) :
    ({ f with
        cancellations := f.cancellations.cancel f.now ctx.token,
        cancelled := f.cancelled ++ [k] } : Forest).Planted where
  rooted hm := (h.rooted hm).mono List.prefix_rfl (Nat.le_refl _)
  distinct := h.distinct
  entered := by
    refine List.rel_append h.entered (.cons ⟨Nat.le_refl _, ?_⟩ .nil)
    change (f.context? k).map (·.token) = _
    rw [hctx, Option.map_some]

theorem perform (h : f.Planted) (act : Act) : (f.perform act).Planted := by
  have hfresh : f.cancellations.next < f.cancellations.next + 1 := Nat.lt_succ_self _
  cases act with
  | background | withTimeout d | withDeadline d =>
    exact h.grow rfl (Nat.le_succ _) ⟨_, hfresh, rfl⟩ fun _ => rfl
  | child p d =>
    simp only [Forest.perform]
    split
    · next parent hparent =>
      refine h.grow rfl (Nat.le_succ _)
        ⟨context?_lt hparent, parent, ?_, noLater_earlier _ _, _, hfresh, rfl⟩
        fun _ => rfl
      exact context?_mono (List.prefix_append _ _) hparent
    · exact h
  | clone o =>
    simp only [Forest.perform]
    split
    · next original horiginal =>
      refine h.grow rfl (Nat.le_refl _) ⟨context?_lt horiginal, ?_⟩ fun hfirst =>
        absurd rfl (hfirst o)
      exact context?_mono (List.prefix_append _ _) horiginal
    · exact h
  | cancel k | cancelToken k =>
    simp only [Forest.perform]
    split
    · next hctx => exact h.cancel hctx
    · exact h
  | wait d =>
    refine ⟨fun hm => (h.rooted hm).mono List.prefix_rfl (Nat.le_refl _), h.distinct,
      h.entered.imp fun entry k hentry => ?_⟩
    exact hentry.mono (Nat.le_add_right _ _) List.prefix_rfl

theorem after (h : f.Planted) (acts : List Act) : (f.after acts).Planted := by
  induction acts generalizing f with
  | nil => exact h
  | cons act acts ih => exact ih (h.perform act)

theorem run (start : Instant) (acts : List Act) : (Forest.run start acts).Planted :=
  after ⟨by simp, by simp, .nil⟩ acts

/-! ## What holds of a planted forest -/

/-- A context counts as cancelled exactly where one was from which it descends. -/
theorem isCancelled_iff (h : f.Planted) {k : Nat} {ctx : Context} (hctx : f.context? k = some ctx) :
    f.cancellations.isCancelled f.now ctx.token = true ↔ ∃ i ∈ f.cancelled, f.Descends i k := by
  have hentered : ∀ {entries : List (Instant × Token)} {cancelled : List Nat},
      List.Forall₂ f.Entered entries cancelled →
      ((∃ entry ∈ entries, entry.1 ≤ f.now ∧ ctx.token.isUnder entry.2 = true) ↔
        ∃ i ∈ cancelled, f.Descends i k) := by
    intro entries cancelled hall
    induction hall with
    | nil => simp
    | @cons entry i entries cancelled hentry _ ih =>
      obtain ⟨above, habove, htoken⟩ := Option.map_eq_some_iff.1 hentry.2
      rw [List.exists_mem_cons_iff, List.exists_mem_cons_iff, ih, ← htoken,
        h.descends_iff habove hctx]
      simp [hentry.1]
  simp only [Cancellations.isCancelled, List.any_eq_true, Bool.and_eq_true, decide_eq_true_eq]
  exact hentered h.entered

theorem isDone_iff (h : f.Planted) {k : Nat} {ctx : Context} (hctx : f.context? k = some ctx) :
    f.isDone k = true ↔
      (∃ i ∈ f.cancelled, f.Descends i k) ∨ ∃ d, ctx.deadline = some d ∧ d ≤ f.now := by
  rw [isDone, hctx, Option.any_some, Context.isDone, Bool.or_eq_true, h.isCancelled_iff hctx,
    Option.any_eq_true]
  simp only [decide_eq_true_eq]

/-- What descends from a context has been made. -/
theorem made (h : f.Planted) {i k : Nat} {above : Context} (hi : f.context? i = some above)
    (hdescends : f.Descends i k) : ∃ ctx, f.context? k = some ctx := by
  have horigin : ∀ {k origin}, f.origin? k = some origin → ∃ ctx, f.context? k = some ctx := by
    intro k origin horigin
    obtain ⟨m, hm, -⟩ := Option.map_eq_some_iff.1 horigin
    exact ⟨m.context, by rw [context?, hm, Option.map_some]⟩
  induction hdescends generalizing above with
  | self => exact ⟨above, hi⟩
  | child hk _ _ | copy hk _ _ => exact horigin hk
  | original hk _ ih => exact ih (h.rooted (getElem?_of_origin? hi hk)).2

theorem deadline_noLater (h : f.Planted) {i k : Nat} (hdescends : f.Descends i k) :
    NoLater (f.deadline? k) (f.deadline? i) := by
  cases hi : f.context? i with
  | none =>
    intro d hd
    simp [deadline?, hi] at hd
  | some above =>
    obtain ⟨ctx, hk⟩ := h.made hi hdescends
    simpa [deadline?, hi, hk] using (h.above hdescends hi hk).2

/-- Done above, done below. -/
theorem inherited (h : f.Planted) {i k : Nat} (hdescends : f.Descends i k)
    (hdone : f.isDone i = true) :
    f.isDone k = true := by
  obtain ⟨above, hi, hdone⟩ := isDone_eq_true.1 hdone
  obtain ⟨ctx, hk⟩ := h.made hi hdescends
  obtain ⟨hsuffix, hlater⟩ := h.above hdescends hi hk
  refine isDone_eq_true.2 ⟨ctx, hk, ?_⟩
  simp only [Context.isDone, Bool.or_eq_true, Option.any_eq_true, decide_eq_true_eq] at hdone ⊢
  rcases hdone with hcancelled | ⟨d, hd, hnow⟩
  · exact Or.inl (Cancellations.isCancelled_of_suffix hsuffix hcancelled)
  · obtain ⟨d', hd', hle⟩ := hlater d hd
    exact Or.inr ⟨d', hd', hle.trans hnow⟩

/-- A cancel reaches nothing but what descends from the context that is cancelled. -/
theorem spared (h : f.Planted) {i k : Nat} (hapart : ¬ f.Descends i k) {act : Act}
    (hact : act = .cancel i ∨ act = .cancelToken i) : (f.perform act).isDone k = f.isDone k := by
  cases hi : f.context? i with
  | none => rcases hact with rfl | rfl <;> simp only [Forest.perform, hi]
  | some above =>
    have hperformed : f.perform act = { f with
        cancellations := f.cancellations.cancel f.now above.token, cancelled :=
          f.cancelled ++ [i] } := by
      rcases hact with rfl | rfl <;> simp only [Forest.perform, hi, Context.cancel]
    cases hk : f.context? k with
    | none =>
      have hk' : (f.perform act).context? k = none := by rw [hperformed]; exact hk
      rw [isDone, isDone, hk, hk', Option.any_none, Option.any_none]
    | some ctx =>
      have hk' : (f.perform act).context? k = some ctx := by rw [hperformed]; exact hk
      rw [isDone, isDone, hk, hk', Option.any_some, Option.any_some, hperformed]
      have hunder : ctx.token.isUnder above.token = false :=
        Bool.eq_false_iff.2 fun hunder => hapart ((h.descends_iff hi hk).2 hunder)
      simp [Context.isDone, Cancellations.isCancelled, Cancellations.cancel, hunder]

/-- What lies above a context does not descend from it. -/
theorem parent_apart (h : f.Planted) {k p : Nat} (horigin : f.origin? k = some (.child p)) :
    ¬ f.Descends k p := by
  intro hdescends
  obtain ⟨m, hm, hm'⟩ := Option.map_eq_some_iff.1 horigin
  obtain ⟨ctx, origin⟩ := m
  obtain rfl : origin = .child p := hm'
  obtain ⟨-, parent, hparent, -, n, -, htoken⟩ := h.rooted hm
  have hk : f.context? k = some ctx := by rw [context?, hm, Option.map_some]
  have hle := (h.above hdescends hk hparent).1.length_le
  rw [htoken, List.length_cons] at hle
  omega

/-- A context does not descend from its sibling, nor from one that was made lower down. -/
theorem sibling_apart (h : f.Planted) {k l p q : Nat} (hk : f.origin? k = some (.child p))
    (hl : f.origin? l = some (.child q)) (hqp : f.Descends q p) (hne : k ≠ l) :
    ¬ f.Descends k l := by
  intro hdescends
  obtain ⟨⟨ctx, origin⟩, hm, hm'⟩ := Option.map_eq_some_iff.1 hk
  obtain rfl : origin = .child p := hm'
  obtain ⟨⟨ctx', origin'⟩, hn, hn'⟩ := Option.map_eq_some_iff.1 hl
  obtain rfl : origin' = .child q := hn'
  obtain ⟨-, parent, hparent, -, n, -, htoken⟩ := h.rooted hm
  obtain ⟨-, parent', hparent', -, n', -, htoken'⟩ := h.rooted hn
  have hlength : ctx'.token.length ≤ ctx.token.length := by
    have := (h.above hqp hparent' hparent).1.length_le
    rw [htoken, htoken', List.length_cons, List.length_cons]
    omega
  have hsuffix : ctx.token <:+ ctx'.token :=
    (h.above hdescends (by rw [context?, hm, Option.map_some])
      (by rw [context?, hn, Option.map_some])).1
  refine hne (h.distinct hm hn nofun nofun ?_)
  rw [hsuffix.eq_of_length_le hlength]

end Planted

/-! ## What holds of every forest -/

/-- What a program can rely on. A sibling is made under the same context or under one that this one
descends from, which a copy does. -/
structure Lawful (f : Forest) : Prop where
  done_iff : ∀ k ctx, f.context? k = some ctx → (f.isDone k = true ↔
    (∃ i ∈ f.cancelled, f.Descends i k) ∨ ∃ d, ctx.deadline = some d ∧ d ≤ f.now)
  deadline : ∀ i k, f.Descends i k → NoLater (f.deadline? k) (f.deadline? i)
  remaining : ∀ i k, f.Descends i k → NoLater (f.remaining? k) (f.remaining? i)
  inherited : ∀ i k, f.Descends i k → f.isDone i = true → f.isDone k = true
  apart : ∀ i k act, act = .cancel i ∨ act = .cancelToken i → ¬ f.Descends i k →
    (f.perform act).isDone k = f.isDone k
  parent : ∀ i p act, act = .cancel i ∨ act = .cancelToken i → f.origin? i = some (.child p) →
    (f.perform act).isDone p = f.isDone p
  sibling : ∀ i k p q act, act = .cancel i ∨ act = .cancelToken i → f.origin? i = some (.child p) →
    f.origin? k = some (.child q) → f.Descends q p → i ≠ k → (f.perform act).isDone k = f.isDone k
  permanent : ∀ k acts, f.isDone k = true → (f.after acts).isDone k = true
  resolved : ∀ k ctx acts r, f.context? k = some ctx →
    (f.resolution k acts = some r ↔ IsLeast {t | f.now ≤ t ∧ (f.upTo t acts).isDone k} r)
  overflow : ∀ timeout, Instant.later? f.now timeout = none →
    (f.perform (.withTimeout timeout)).deadline? f.members.length = none ∧
      ∀ p parent, f.context? p = some parent →
        (f.perform (.child p timeout)).deadline? f.members.length = parent.deadline

theorem NoLater.remaining {a b : Option Instant} (h : NoLater a b) (now : Instant) :
    NoLater (a.map (· - now)) (b.map (· - now)) := by
  intro r hr
  obtain ⟨d, hd, rfl⟩ := Option.map_eq_some_iff.1 hr
  obtain ⟨d', rfl, hle⟩ := h d hd
  exact ⟨d' - now, rfl, Nat.sub_le_sub_right hle now⟩

theorem remaining?_eq (k : Nat) : f.remaining? k = (f.deadline? k).map (· - f.now) := by
  rw [remaining?, deadline?, Option.map_bind]
  rfl

/-- A timeout that the clock cannot show sets no deadline. -/
theorem deadline?_overflow {timeout : Duration} (hover : Instant.later? f.now timeout = none) :
    (f.perform (.withTimeout timeout)).deadline? f.members.length = none ∧
      ∀ p parent, f.context? p = some parent →
        (f.perform (.child p timeout)).deadline? f.members.length = parent.deadline := by
  constructor
  · rw [perform, deadline?, context?_grow, Option.bind_some, Context.withTimeout]
    exact hover
  · intro p parent hp
    simp only [perform, hp]
    rw [deadline?, context?_grow, Option.bind_some, Context.child]
    change Instant.earlier parent.deadline (Instant.later? f.now timeout) = parent.deadline
    rw [hover]
    cases parent.deadline <;> rfl

/-- **Contexts, whatever is done with them.** -/
theorem forest_lawful (start : Instant) (acts : List Act) : (run start acts).Lawful where
  done_iff _ _ hctx := (Planted.run start acts).isDone_iff hctx
  deadline _ _ hdescends := (Planted.run start acts).deadline_noLater hdescends
  remaining i k hdescends := by
    rw [remaining?_eq, remaining?_eq]
    exact ((Planted.run start acts).deadline_noLater hdescends).remaining _
  inherited _ _ hdescends hdone := (Planted.run start acts).inherited hdescends hdone
  apart _ _ _ hact hapart := (Planted.run start acts).spared hapart hact
  parent _ _ _ hact hi :=
    (Planted.run start acts).spared ((Planted.run start acts).parent_apart hi) hact
  sibling _ _ _ _ _ hact hi hk hqp hne :=
    (Planted.run start acts).spared ((Planted.run start acts).sibling_apart hi hk hqp hne) hact
  permanent _ acts' hdone := isDone_after acts' hdone
  resolved _ _ acts' r hctx := resolution_eq_some_iff hctx acts' r
  overflow _ hover := deadline?_overflow hover

-- a copy is cancelled: its original goes with it and what lies under either, the parent does not
example :
    [0, 1, 2, 3].map
      (run 0 [.background, .child 0 60, .clone 1, .child 2 90, .cancelToken 2]).isDone =
    [false, true, true, true] := by decide

end Forest

end Stairway
