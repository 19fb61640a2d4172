import Stairway.Postgres.Target
import Stairway.Proofs.Url.Query

/-!
# What an address says to the engine

An address is read in two steps. Its pairs are looked through one after the other, and each that is
for the engine must fit (`Fits`); what counts of them is the last value of each key
(`Options.after`). Then they are taken out, and the pairs for the driver are written again in their
order (`forDriver`, `withOnlyPairs`). `parse_eq_ok_iff` says both at once.

`engine_keys_stripped` looks at the text that the driver is given: its query decodes to the pairs
for the driver, and to nothing else.
-/

namespace Stairway.Postgres.Target

open Url

variable {text : String} {u : Url} {t : Target} {value : List Char} {o o' : Options}
  {pair : List Char × List Char} {pairs : List (List Char × List Char)}

/-! ## Names and flags -/

def IsLetter (c : Char) : Prop := 'A' ≤ c ∧ c ≤ 'Z' ∨ 'a' ≤ c ∧ c ≤ 'z'

/-- A letter or underscore, and behind it at most 62 letters, digits and underscores. -/
def IsName (value : List Char) : Prop :=
  ∃ first rest, value = first :: rest ∧ (IsLetter first ∨ first = '_') ∧
    (∀ c ∈ rest, IsLetter c ∨ '0' ≤ c ∧ c ≤ '9' ∨ c = '_') ∧ rest.length ≤ 62

def IsFlag (value : List Char) : Prop := value ∈ ["true", "1", "false", "0"].map String.toList

/-- What a flag says. -/
def isOn (value : List Char) : Bool := decide (value ∈ ["true", "1"].map String.toList)

theorem isAlpha_iff {c : Char} : c.isAlpha = true ↔ IsLetter c := by
  have hupper : c.isUpper = true ↔ 'A' ≤ c ∧ c ≤ 'Z' := decide_eq_true_iff
  have hlower : c.isLower = true ↔ 'a' ≤ c ∧ c ≤ 'z' :=
    Bool.and_eq_true_iff.trans (and_congr decide_eq_true_iff decide_eq_true_iff)
  exact (Bool.or_eq_true _ _).to_iff.trans (or_congr hupper hlower)

theorem isAlphanum_iff {c : Char} : c.isAlphanum = true ↔ IsLetter c ∨ '0' ≤ c ∧ c ≤ '9' :=
  (Bool.or_eq_true _ _).to_iff.trans (or_congr isAlpha_iff isDigit_iff)

theorem isIdentifier_iff : isIdentifier value = true ↔ IsName value := by
  cases value with
  | nil => simp [isIdentifier, IsName]
  | cons first rest =>
    simp only [isIdentifier, Bool.and_eq_true, Bool.or_eq_true, beq_iff_eq, List.all_eq_true,
      isAlpha_iff, isAlphanum_iff, decide_eq_true_eq, or_assoc]
    constructor
    · rintro ⟨⟨hfirst, hrest⟩, hlength⟩
      exact ⟨first, rest, rfl, hfirst, hrest, hlength⟩
    · rintro ⟨_, _, ⟨⟩, hfirst, hrest, hlength⟩
      exact ⟨⟨hfirst, hrest⟩, hlength⟩

instance : DecidablePred IsName := fun _ => decidable_of_iff _ isIdentifier_iff

instance : DecidablePred IsFlag := fun _ => inferInstanceAs (Decidable (_ ∈ _))

theorem flag?_eq_some_iff {on : Bool} : flag? value = some on ↔ IsFlag value ∧ on = isOn value := by
  have hwords : IsFlag value ↔
      value = "true".toList ∨ value = "1".toList ∨ value = "false".toList ∨ value = "0".toList := by
    simp [IsFlag]
  rw [hwords, eq_comm (a := on)]
  constructor
  · intro h
    unfold flag? at h
    simp only [Bool.or_eq_true, decide_eq_true_eq] at h
    split at h
    · next hon =>
      cases h
      exact ⟨hon.elim .inl (.inr ∘ .inl), decide_eq_true (by simpa using hon)⟩
    · next hon =>
      split at h
      · next hoff =>
        cases h
        exact ⟨.inr (.inr hoff), decide_eq_false (by simpa using hon)⟩
      · cases h
  · rintro ⟨rfl | rfl | rfl | rfl, rfl⟩ <;> decide

/-! ## What counts of the pairs -/

/-- A pair does not have a key of the engine with a value that this key cannot have. -/
structure Fits (pair : List Char × List Char) : Prop where
  table : pair.1 = tableKey → IsName pair.2
  flag : pair.1 = flagKey → IsFlag pair.2

/-- The values that are given for a key, in order. -/
def valuesOf (key : List Char) (pairs : List (List Char × List Char)) : List (List Char) :=
  (pairs.filter (·.1 = key)).map Prod.snd

@[simp]
theorem valuesOf_nil (key : List Char) : valuesOf key [] = [] := rfl

theorem valuesOf_cons_of_eq {key : List Char} (h : pair.1 = key) :
    valuesOf key (pair :: pairs) = pair.2 :: valuesOf key pairs := by simp [valuesOf, h]

theorem valuesOf_cons_of_ne {key : List Char} (h : pair.1 ≠ key) :
    valuesOf key (pair :: pairs) = valuesOf key pairs := by simp [valuesOf, h]

theorem mem_valuesOf {key : List Char} : value ∈ valuesOf key pairs ↔ (key, value) ∈ pairs := by
  simp [valuesOf]

/-- The options after some pairs: the last values that were given. -/
def Options.after (o : Options) (pairs : List (List Char × List Char)) : Options where
  table := (valuesOf tableKey pairs).getLast?.getD o.table
  multiStatement := ((valuesOf flagKey pairs).getLast?.map isOn).getD o.multiStatement

theorem tableKey_ne_flagKey : tableKey ≠ flagKey := by decide

theorem read_eq_ok_iff : o.read pair = .ok o' ↔ Fits pair ∧ o' = o.after [pair] := by
  unfold Options.read Options.after
  split
  -- the key of the table
  · next htable =>
    have hflag : pair.1 ≠ flagKey := fun h => tableKey_ne_flagKey (htable.symm.trans h)
    rw [valuesOf_cons_of_eq htable, valuesOf_cons_of_ne hflag]
    split
    · next hname =>
      have hfits : Fits pair := ⟨fun _ => isIdentifier_iff.1 hname, fun h => absurd h hflag⟩
      simp [hfits, eq_comm]
    · next hname =>
      exact ⟨nofun, fun ⟨hfits, _⟩ => absurd (isIdentifier_iff.2 (hfits.table htable)) hname⟩
  · next htable =>
    rw [valuesOf_cons_of_ne htable]
    split
    -- the key of the flag
    · next hflag =>
      rw [valuesOf_cons_of_eq hflag]
      split
      · next on hon =>
        obtain ⟨hvalue, rfl⟩ := flag?_eq_some_iff.1 hon
        have hfits : Fits pair := ⟨fun h => absurd h htable, fun _ => hvalue⟩
        simp [hfits, eq_comm]
      · next hnone =>
        refine ⟨nofun, fun ⟨hfits, _⟩ => ?_⟩
        have hsome : flag? pair.2 = some (isOn pair.2) :=
          flag?_eq_some_iff.2 ⟨hfits.flag hflag, rfl⟩
        rw [hnone] at hsome
        cases hsome
    -- another key
    · next hflag =>
      rw [valuesOf_cons_of_ne hflag]
      constructor
      · rintro ⟨⟩
        exact ⟨⟨fun h => absurd h htable, fun h => absurd h hflag⟩, rfl⟩
      · rintro ⟨-, rfl⟩
        rfl

theorem after_nil : o.after [] = o := rfl

theorem after_cons : o.after (pair :: pairs) = (o.after [pair]).after pairs := by
  unfold Options.after
  by_cases htable : pair.1 = tableKey
  · have hflag : pair.1 ≠ flagKey := fun h => tableKey_ne_flagKey (htable.symm.trans h)
    simp [valuesOf_cons_of_eq htable, valuesOf_cons_of_ne hflag, List.getLast?_cons]
  · by_cases hflag : pair.1 = flagKey
    · simp only [valuesOf_cons_of_ne htable, valuesOf_cons_of_eq hflag, List.getLast?_cons,
        valuesOf_nil]
      cases (valuesOf flagKey pairs).getLast? <;> simp
    · simp [valuesOf_cons_of_ne htable, valuesOf_cons_of_ne hflag]

/-- The table is the one that was said before, or said by a pair. -/
theorem table_after (o : Options) (pairs : List (List Char × List Char)) :
    (o.after pairs).table = o.table ∨ (tableKey, (o.after pairs).table) ∈ pairs := by
  rw [← mem_valuesOf]
  unfold Options.after
  cases hlast : (valuesOf tableKey pairs).getLast? with
  | none => exact .inl rfl
  | some table => exact .inr (List.mem_of_getLast? hlast)

/-- Of a flag that is said last nothing else counts. -/
theorem lastFlag_after (o : Options) (pairs : List (List Char × List Char)) :
    (o.after (pairs ++ [(flagKey, value)])).multiStatement = isOn value := by
  simp [Options.after, valuesOf]

/-- **What a list of pairs says**: every pair is looked at, and the last value of each
key counts. -/
theorem foldlM_read_eq_ok_iff :
    pairs.foldlM Options.read o = .ok o' ↔ (∀ pair ∈ pairs, Fits pair) ∧ o' = o.after pairs := by
  induction pairs generalizing o with
  | nil => simp [after_nil, pure, Except.pure, eq_comm]
  | cons pair pairs ih =>
    rw [List.foldlM_cons, List.forall_mem_cons, after_cons]
    cases hread : o.read pair with
    | error fault =>
      have hfits : ¬ Fits pair := fun h => by
        have hok : o.read pair = .ok (o.after [pair]) := read_eq_ok_iff.2 ⟨h, rfl⟩
        rw [hread] at hok
        cases hok
      exact ⟨nofun, fun ⟨⟨h, _⟩, _⟩ => absurd h hfits⟩
    | ok next =>
      obtain ⟨hfits, rfl⟩ := read_eq_ok_iff.1 hread
      exact ih.trans ⟨fun ⟨hrest, h⟩ => ⟨⟨hfits, hrest⟩, h⟩, fun ⟨⟨_, hrest⟩, h⟩ => ⟨hrest, h⟩⟩

/-! ## What is left -/

/-- The pairs whose keys do not begin with the engine's mark. -/
def forDriver (pairs : List (List Char × List Char)) : List (List Char × List Char) :=
  pairs.filter fun pair => !isForEngine pair

theorem valuesOf_forDriver {key : List Char} (hkey : engineMark <+: key) :
    valuesOf key (forDriver pairs) = [] := by
  rw [valuesOf, List.map_eq_nil_iff, List.filter_eq_nil_iff]
  intro pair hpair hmatch
  obtain ⟨-, hdriver⟩ := List.mem_filter.1 hpair
  rw [← of_decide_eq_true hmatch] at hkey
  simp [isForEngine, List.isPrefixOf_iff_prefix.2 hkey] at hdriver

theorem forDriver_forDriver : forDriver (forDriver pairs) = forDriver pairs := by simp [forDriver]

theorem query_withOnlyPairs :
    (withOnlyPairs u pairs).query = if pairs = [] then none else some (Form.encodePairs pairs) := by
  unfold withOnlyPairs
  cases pairs with
  | nil =>
    simp only [List.isEmpty_nil, if_true, withoutQuery]
    split <;> rfl
  | cons pair pairs => rfl

theorem pairs_withOnlyPairs : (withOnlyPairs u pairs).pairs = pairs := by
  rw [Url.pairs, query_withOnlyPairs]
  split
  · next hnone =>
    rw [hnone]
    rfl
  · exact Form.decodePairs_encodePairs pairs

theorem scheme_withOnlyPairs : (withOnlyPairs u pairs).scheme = u.scheme := by
  unfold withOnlyPairs withoutQuery
  dsimp only
  split
  · split <;> rfl
  · rfl

theorem withOnlyPairs_written (h : u.IsWritten) :
    (withOnlyPairs u pairs).IsWritten ∧ (withOnlyPairs u pairs).EndsPlainly := by
  unfold withOnlyPairs
  split
  · exact h.withoutQuery
  · refine ⟨⟨h.authority, h.path, ?_, h.fragment⟩, fun _ hquery => absurd hquery nofun⟩
    rintro _ ⟨⟩
    exact spared_of_mem_encodePairs pairs

/-! ## Addresses -/

/-- What is made of a URL whose pairs all fit. -/
def said (u : Url) : Target where
  url := withOnlyPairs u (forDriver u.pairs)
  database := u.path.dropWhile (· == '/')
  table := (Options.after {} u.pairs).table
  multiStatement := (Options.after {} u.pairs).multiStatement

theorem ofUrl_eq_ok_iff :
    ofUrl u = .ok t ↔ IsAddressScheme u.scheme ∧ u.path.dropWhile (· == '/') ≠ [] ∧
      (∀ pair ∈ u.pairs, Fits pair) ∧ t = said u := by
  have hschemes :
      (decide (u.scheme ≠ "postgres".toList) && decide (u.scheme ≠ "postgresql".toList)) = true ↔
      ¬ IsAddressScheme u.scheme := by
    rw [Bool.and_eq_true, decide_eq_true_eq, decide_eq_true_eq, IsAddressScheme, not_or]
  unfold ofUrl
  by_cases hscheme : IsAddressScheme u.scheme
  · rw [if_neg fun h => hschemes.1 h hscheme]
    by_cases hdatabase : u.path.dropWhile (· == '/') = []
    · rw [hdatabase]
      exact ⟨nofun, fun h => absurd rfl h.2.1⟩
    · have hsome : (u.path.dropWhile (· == '/')).isEmpty = false := by simpa using hdatabase
      simp only [hsome, Bool.false_eq_true, if_false, hscheme, ne_eq, hdatabase, not_false_eq_true,
        true_and]
      cases hfold : u.pairs.foldlM Options.read {} with
      | error fault =>
        refine ⟨nofun, fun ⟨hfits, _⟩ => ?_⟩
        rw [foldlM_read_eq_ok_iff.2 ⟨hfits, rfl⟩] at hfold
        cases hfold
      | ok o =>
        obtain ⟨hfits, rfl⟩ := foldlM_read_eq_ok_iff.1 hfold
        constructor
        · rintro ⟨⟩
          exact ⟨hfits, rfl⟩
        · rintro ⟨-, rfl⟩
          rfl
  · rw [if_pos (hschemes.2 hscheme)]
    exact ⟨nofun, fun h => absurd h.1 hscheme⟩

/-- **Which texts are addresses**, and what each of them says. -/
theorem parse_eq_ok_iff :
    parse text = .ok t ↔ ∃ u, Url.parse text = .ok u ∧ IsAddressScheme u.scheme ∧
      u.path.dropWhile (· == '/') ≠ [] ∧ (∀ pair ∈ u.pairs, Fits pair) ∧ t = said u := by
  unfold parse
  cases hread : Url.parse text with
  | error cause => exact ⟨nofun, nofun⟩
  | ok u =>
    rw [ofUrl_eq_ok_iff]
    constructor
    · exact fun h => ⟨u, rfl, h⟩
    · rintro ⟨_, ⟨⟩, h⟩
      exact h

theorem said_written (hread : Url.parse text = .ok u) (hscheme : IsAddressScheme u.scheme) :
    (said u).url.IsWritten ∧ (said u).url.EndsPlainly :=
  withOnlyPairs_written (isWritten_of_parse hread hscheme)

/-- The query that the driver gets. -/
theorem queryOf_said (hread : Url.parse text = .ok u) (hscheme : IsAddressScheme u.scheme) :
    (queryOf (said u).url.render.toList).map Form.decodePairs =
      if forDriver u.pairs = [] then none else some (forDriver u.pairs) := by
  obtain ⟨hwritten, -⟩ := said_written hread hscheme
  rw [hwritten.queryOf_render (by rwa [said, scheme_withOnlyPairs]), said, query_withOnlyPairs]
  split
  · rfl
  · rw [Option.map_some, Form.decodePairs_encodePairs]

theorem pairs_of_queryOf {q : List Char} (hread : Url.parse text = .ok u)
    (hscheme : IsAddressScheme u.scheme) (hq : queryOf (said u).url.render.toList = some q) :
    Form.decodePairs q = forDriver u.pairs := by
  have hpairs := queryOf_said hread hscheme
  rw [hq] at hpairs
  split at hpairs
  · cases hpairs
  · exact Option.some_inj.1 hpairs

/-- What was taken out stays out. -/
theorem said_again {again : Target} (hread : Url.parse text = .ok u)
    (hscheme : IsAddressScheme u.scheme) (hagain : parse (said u).url.render = .ok again) :
    again.url.query = (said u).url.query ∧ again.table = defaultTable ∧
      again.multiStatement = false := by
  obtain ⟨hwritten, hend⟩ := said_written hread hscheme
  obtain ⟨v, hv, -, -, -, rfl⟩ := parse_eq_ok_iff.1 hagain
  have hquery : v.query = (said u).url.query :=
    hwritten.query_of_parse (by rwa [said, scheme_withOnlyPairs]) hend hv
  have hpairs : v.pairs = forDriver u.pairs := by
    rw [Url.pairs, hquery, ← Url.pairs, said, pairs_withOnlyPairs]
  refine ⟨?_, ?_, ?_⟩
  · rw [said, said, query_withOnlyPairs, query_withOnlyPairs, hpairs, forDriver_forDriver]
  · simp only [said, Options.after, hpairs,
      valuesOf_forDriver (show engineMark <+: tableKey by decide)]
    rfl
  · simp only [said, Options.after, hpairs,
      valuesOf_forDriver (show engineMark <+: flagKey by decide)]
    rfl

theorem fits_iff : (∀ pair ∈ pairs, Fits pair) ↔
    (∀ value ∈ valuesOf tableKey pairs, IsName value) ∧
      ∀ value ∈ valuesOf flagKey pairs, IsFlag value := by
  constructor
  · intro h
    exact ⟨fun value hvalue => (h _ (mem_valuesOf.1 hvalue)).table rfl,
      fun value hvalue => (h _ (mem_valuesOf.1 hvalue)).flag rfl⟩
  · rintro ⟨htables, hflags⟩ ⟨key, value⟩ hpair
    constructor
    · rintro rfl
      exact htables value (mem_valuesOf.2 hpair)
    · rintro rfl
      exact hflags value (mem_valuesOf.2 hpair)

/-- **What is for the engine is taken out, and nothing else.** An address is refused exactly if a
value that is given for the table is no name, or one that is given for the flag is no flag. Of an
accepted one the last values count, and the text that the driver gets has the other pairs as its
query, in their order, or has no query if there are none. Reading that text again finds nothing more
to take out. -/
theorem engine_keys_stripped (hread : Url.parse text = .ok u) (hscheme : IsAddressScheme u.scheme)
    (hdatabase : u.path.dropWhile (· == '/') ≠ []) :
    ((∃ t, parse text = .ok t) ↔
      (∀ value ∈ valuesOf tableKey u.pairs, IsName value) ∧
      ∀ value ∈ valuesOf flagKey u.pairs, IsFlag value) ∧
    ∀ t, parse text = .ok t →
      t.table = (valuesOf tableKey u.pairs).getLast?.getD defaultTable ∧
      t.multiStatement = ((valuesOf flagKey u.pairs).getLast?.map isOn).getD false ∧
      (queryOf t.url.render.toList).map Form.decodePairs =
        (if forDriver u.pairs = [] then none else some (forDriver u.pairs)) ∧
      (∀ q, queryOf t.url.render.toList = some q →
        forDriver (Form.decodePairs q) = Form.decodePairs q) ∧
      ∀ again, parse t.url.render = .ok again →
        again.url.query = t.url.query ∧ again.table = defaultTable ∧
        again.multiStatement = false := by
  rw [← fits_iff]
  constructor
  · constructor
    · rintro ⟨t, ht⟩
      obtain ⟨u', hread', -, -, hfits, -⟩ := parse_eq_ok_iff.1 ht
      rw [hread] at hread'
      cases hread'
      exact hfits
    · exact fun hfits => ⟨said u, parse_eq_ok_iff.2 ⟨u, hread, hscheme, hdatabase, hfits, rfl⟩⟩
  · intro t ht
    obtain ⟨u', hread', -, -, -, rfl⟩ := parse_eq_ok_iff.1 ht
    rw [hread] at hread'
    cases hread'
    refine ⟨rfl, rfl, queryOf_said hread hscheme, fun q hq => ?_,
      fun again hagain => said_again hread hscheme hagain⟩
    rw [pairs_of_queryOf hread hscheme hq, forDriver_forDriver]

/-- Keys that are repeated, coded, empty or unknown, and a question mark in the fragment. -/
def crowded : String :=
  "postgresql://h/app?a=1&x-migrations-table=t1&&x-other=%26&a=2+b&x-multi-statement=1" ++
    "&x%2Dmigrations-table=t2&=&c#f?x-d"

/-- What `crowded` is read as. -/
def crowdedUrl : Url where
  scheme := "postgresql".toList
  authority := some ⟨[], none, .name ['h'], none⟩
  path := "/app".toList
  query :=
    some ("a=1&x-migrations-table=t1&&x-other=%26&a=2+b&x-multi-statement=1" ++
      "&x%2Dmigrations-table=t2&=&c").toList
  fragment := some "f?x-d".toList

theorem crowded_read : Url.parse crowded = .ok crowdedUrl := by decide +kernel

theorem crowded_pairs : crowdedUrl.pairs =
    [(['a'], ['1']), (tableKey, "t1".toList), ("x-other".toList, ['&']), (['a'], "2 b".toList),
      (flagKey, ['1']), (tableKey, "t2".toList), ([], []), (['c'], [])] := by decide +kernel

theorem engine_keys_stripped_crowded :
    IsAddressScheme crowdedUrl.scheme ∧ crowdedUrl.path.dropWhile (· == '/') ≠ [] ∧
      ∃ t, parse crowded = .ok t ∧ t.table = "t2".toList ∧ t.multiStatement = true ∧
      (queryOf t.url.render.toList).map Form.decodePairs =
        some [(['a'], ['1']), (['a'], "2 b".toList), ([], []), (['c'], [])] := by
  have hscheme : IsAddressScheme crowdedUrl.scheme := .inr rfl
  have hdatabase : crowdedUrl.path.dropWhile (· == '/') ≠ [] := by decide
  obtain ⟨haccepted, hsays⟩ := engine_keys_stripped crowded_read hscheme hdatabase
  rw [crowded_pairs] at haccepted hsays
  obtain ⟨t, ht⟩ := haccepted.2 (by decide)
  obtain ⟨htable, hflag, hquery, -⟩ := hsays t ht
  exact ⟨hscheme, hdatabase, t, ht, htable, hflag, hquery⟩

end Stairway.Postgres.Target
