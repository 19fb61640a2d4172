import Mathlib.Data.List.TakeWhile
import Mathlib.Data.Nat.Digits.Defs
import Stairway.Migrations.FileName
import Stairway.Proofs.Url.Form
import Stairway.Proofs.Url.Ipv6

/-!
# The grammar of names

Which texts are names of scripts, said without looking at how they are read: digits and an
underscore (`Opens`), and behind them a title and the last marker of the text (`LastMarker`). The
last marker is the one that begins furthest right; two of them may share a dot. A text has at most
one (`LastMarker.unique`), and reading finds it (`cutAtLastMarker_eq_some_iff`), so that a name that
is put together is read back as what it was put together of (`grammar`).

What stands behind the last marker is free, and nothing is said about it.
-/

namespace Stairway.Migrations.FileName

/-! ## The last marker -/

/-- The marker of a direction stands behind a title, and none begins further right. -/
structure LastMarker (s title : List Char) (d : Direction) : Prop where
  marked : title ++ d.marker <+: s
  last : ∀ (title' : List Char) (d' : Direction), title' ++ d'.marker <+: s →
    title'.length ≤ title.length

/-- Two markers do not begin at one place. -/
theorem marker_unique {s : List Char} {d d' : Direction} (h : d.marker <+: s)
    (h' : d'.marker <+: s) : d = d' := by
  obtain ⟨rest, rfl⟩ := h
  obtain ⟨rest', heq⟩ := h'
  cases d <;> cases d' <;> simp [Direction.marker] at heq ⊢

theorem markerAt_eq_some_iff {s : List Char} {d : Direction} :
    markerAt s = some d ↔ d.marker <+: s := by
  unfold markerAt
  constructor
  · intro h
    split at h
    · next hup =>
      cases h
      exact List.isPrefixOf_iff_prefix.1 hup
    · split at h
      · next hdown =>
        cases h
        exact List.isPrefixOf_iff_prefix.1 hdown
      · cases h
  · intro h
    cases d with
    | up => rw [if_pos (List.isPrefixOf_iff_prefix.2 h)]
    | down =>
      rw [if_neg fun hup => absurd (marker_unique h (List.isPrefixOf_iff_prefix.1 hup)) (by decide),
        if_pos (List.isPrefixOf_iff_prefix.2 h)]

theorem marker_ne_nil (d : Direction) : d.marker ≠ [] := by cases d <;> simp [Direction.marker]

/-- A marker begins with the text or further on. -/
theorem marked_cons_iff {title s : List Char} {c : Char} {d : Direction} :
    title ++ d.marker <+: c :: s ↔
      title = [] ∧ d.marker <+: c :: s ∨ ∃ title', title = c :: title' ∧
      title' ++ d.marker <+: s := by
  cases title with
  | nil => simp
  | cons c' title' =>
    rw [List.cons_append, List.cons_prefix_cons]
    constructor
    · rintro ⟨rfl, hmarked⟩
      exact .inr ⟨title', rfl, hmarked⟩
    · rintro (⟨hnil, -⟩ | ⟨_, heq, hmarked⟩)
      · cases hnil
      · obtain ⟨rfl, rfl⟩ := List.cons.inj heq
        exact ⟨rfl, hmarked⟩

theorem LastMarker.unique {s title title' : List Char} {d d' : Direction} (h : LastMarker s title d)
    (h' : LastMarker s title' d') : title = title' ∧ d = d' := by
  have hlength : title.length = title'.length :=
    Nat.le_antisymm (h'.last _ _ h.marked) (h.last _ _ h'.marked)
  obtain ⟨rest, hrest⟩ := h.marked
  obtain ⟨rest', hrest'⟩ := h'.marked
  rw [List.append_assoc] at hrest hrest'
  obtain ⟨rfl, heq⟩ := List.append_inj (hrest.trans hrest'.symm) hlength
  refine ⟨rfl, marker_unique (List.prefix_append d.marker rest) ?_⟩
  rw [heq]
  exact List.prefix_append d'.marker rest'

/-- What is found is the last marker, and where nothing is found there is none. -/
theorem cutAtLastMarker_spec (s : List Char) :
    match cutAtLastMarker s with
    | some (title, d) => LastMarker s title d
    | none => ∀ (title : List Char) (d : Direction), ¬ title ++ d.marker <+: s := by
  induction s with
  | nil =>
    intro title d hmarked
    exact marker_ne_nil d (List.append_eq_nil_iff.1 (List.prefix_nil.1 hmarked)).2
  | cons c s ih =>
    rw [cutAtLastMarker]
    cases hcut : cutAtLastMarker s with
    | some found =>
      obtain ⟨title, d⟩ := found
      rw [hcut] at ih
      refine ⟨marked_cons_iff.2 (.inr ⟨title, rfl, ih.marked⟩), fun title' d' hmarked => ?_⟩
      obtain ⟨rfl, -⟩ | ⟨title'', rfl, hfurther⟩ := marked_cons_iff.1 hmarked
      · exact Nat.zero_le _
      · exact Nat.succ_le_succ (ih.last title'' d' hfurther)
    | none =>
      rw [hcut] at ih
      -- no marker begins further right, so that only the place at hand is left
      have honly : ∀ (title : List Char) (d : Direction), title ++ d.marker <+: c :: s →
          title = [] ∧ d.marker <+: c :: s := by
        intro title d hmarked
        obtain hhere | ⟨title', -, hfurther⟩ := marked_cons_iff.1 hmarked
        · exact hhere
        · exact absurd hfurther (ih title' d)
      cases hmarker : markerAt (c :: s) with
      | some d =>
        refine ⟨markerAt_eq_some_iff.1 hmarker, fun title' d' hmarked => ?_⟩
        rw [(honly title' d' hmarked).1]
      | none =>
        intro title d hmarked
        rw [markerAt_eq_some_iff.2 (honly title d hmarked).2] at hmarker
        cases hmarker

/-- **Reading finds the last marker.** -/
theorem cutAtLastMarker_eq_some_iff {s title : List Char} {d : Direction} :
    cutAtLastMarker s = some (title, d) ↔ LastMarker s title d := by
  have hspec := cutAtLastMarker_spec s
  constructor
  · intro h
    rwa [h] at hspec
  · intro h
    cases hcut : cutAtLastMarker s with
    | none =>
      rw [hcut] at hspec
      exact absurd h.marked (hspec title d)
    | some found =>
      rw [hcut] at hspec
      obtain ⟨rfl, rfl⟩ := h.unique hspec
      rfl

/-- There is a last marker where there is any. -/
theorem exists_lastMarker_iff {s : List Char} :
    (∃ title d, LastMarker s title d) ↔ ∃ d : Direction, d.marker <:+: s := by
  constructor
  · rintro ⟨title, d, h⟩
    obtain ⟨rest, hrest⟩ := h.marked
    exact ⟨d, title, rest, hrest⟩
  · rintro ⟨d, title, rest, hrest⟩
    have hspec := cutAtLastMarker_spec s
    cases hcut : cutAtLastMarker s with
    | none =>
      rw [hcut] at hspec
      exact absurd ⟨rest, hrest⟩ (hspec title d)
    | some found =>
      rw [hcut] at hspec
      exact ⟨found.1, found.2, hspec⟩

/-! ## The version -/

/-- The number that decimal digits stand for. -/
def numberOf (digits : List Char) : Nat :=
  Nat.ofDigits 10 (digits.reverse.map fun c => c.toNat - '0'.toNat)

theorem valueOf_eq_numberOf (digits : List Char) : valueOf digits = numberOf digits := by
  induction digits using List.reverseRecOn with
  | nil => rfl
  | append_singleton front c ih =>
    have hvalue : valueOf (front ++ [c]) = valueOf front * 10 + (c.toNat - '0'.toNat) := by
      simp only [valueOf, List.foldl_append, List.foldl_cons, List.foldl_nil]
    rw [hvalue, ih]
    simp only [numberOf, List.reverse_append, List.reverse_cons, List.reverse_nil, List.nil_append,
      List.singleton_append, List.map_cons, Nat.ofDigits_cons]
    rw [Nat.mul_comm, Nat.add_comm]

/-- Zeros in front of digits add nothing. -/
theorem valueOf_zeros (zeros : Nat) (digits : List Char) :
    valueOf (List.replicate zeros '0' ++ digits) = valueOf digits := by
  induction zeros with
  | zero => rfl
  | succ zeros ih => exact ih

theorem valueOf_toDigits (version : Nat) : valueOf (Nat.toDigits 10 version) = version := by
  have hread := Nat.ofDigitChars_ten_toDigits (n := version)
  unfold Nat.ofDigitChars at hread
  simpa only [valueOf, Nat.mul_comm] using hread

/-! ## Names -/

/-- The largest number of 64 bits. -/
def largestVersion : Nat := 0xFFFFFFFFFFFFFFFF

/-- A text of one line that begins with the digits of a version and an underscore. -/
structure Opens (text digits rest : List Char) : Prop where
  text_eq : text = digits ++ '_' :: rest
  nonempty : digits ≠ []
  decimal : ∀ c ∈ digits, '0' ≤ c ∧ c ≤ '9'
  fits : numberOf digits ≤ largestVersion
  oneLine : '\n' ∉ text

theorem parseChars_eq_some_iff {s : List Char} {f : FileName} :
    parseChars s = some f ↔ ∃ digits rest, Opens s digits rest ∧ f.version = numberOf digits ∧
      LastMarker rest f.title.toList f.direction := by
  obtain ⟨version, title, direction⟩ := f
  constructor
  · intro h
    unfold parseChars at h
    split at h
    · next rest hdrop =>
      dsimp only at h
      split at h
      · cases h
      · next hgood =>
        simp only [Bool.or_eq_true, decide_eq_true_eq, not_or, Bool.not_eq_true,
          List.contains_eq_mem] at hgood
        obtain ⟨⟨hline, hsome⟩, hfits⟩ := hgood
        obtain ⟨⟨title', d⟩, hcut, hf⟩ := Option.map_eq_some_iff.1 h
        cases hf
        refine ⟨s.takeWhile Char.isDigit, rest, ⟨?_, by simpa using hsome, ?_, ?_, hline⟩,
          valueOf_eq_numberOf _, ?_⟩
        · rw [← hdrop, List.takeWhile_append_dropWhile]
        · exact fun c hc => Url.isDigit_iff.1 (List.mem_takeWhile_imp hc)
        · rw [← valueOf_eq_numberOf]
          exact Nat.le_of_lt_succ (Nat.not_le.1 hfits)
        · simpa using cutAtLastMarker_eq_some_iff.1 hcut
    · cases h
  · rintro ⟨digits, rest, ⟨rfl, hsome, hdecimal, hfits, hline⟩, rfl, hmarker⟩
    have hdigits : ∀ c ∈ digits, c.isDigit = true := fun c hc => Url.isDigit_iff.2 (hdecimal c hc)
    obtain ⟨htake, hdrop⟩ :=
      Url.Form.takeWhile_append_cons (t := rest) (c := '_') hdigits (by decide)
    have hbelow : ¬ versionLimit ≤ numberOf digits := Nat.not_le.2 (Nat.lt_succ_of_le hfits)
    have hempty : digits.isEmpty = false := by simpa using hsome
    have hcontains : (digits ++ '_' :: rest).contains '\n' = false := by simpa using hline
    unfold parseChars
    simp only [htake, hdrop, hempty, hcontains, valueOf_eq_numberOf, hbelow, decide_false,
      Bool.or_false, Bool.false_eq_true, if_false, cutAtLastMarker_eq_some_iff.2 hmarker,
        Option.map_some, String.ofList_toList]

/-- A name that is put together: zeros, a version, a title, a direction, and something behind it. -/
def compose (zeros version : Nat) (title : String) (d : Direction) (ending : String) : String :=
  String.ofList (List.replicate zeros '0') ++ toString version ++ "_" ++ title ++ "." ++
    d.name ++ "." ++ ending

theorem toList_compose (zeros version : Nat) (title : String) (d : Direction) (ending : String) :
    (compose zeros version title d ending).toList =
      (List.replicate zeros '0' ++ Nat.toDigits 10 version) ++ '_' ::
        (title.toList ++ d.marker ++ ending.toList) := by
  have hmarker : '.' :: (d.name.toList ++ ['.']) = d.marker := by cases d <;> decide
  have hmark : "_".toList = ['_'] := by decide
  have hdot : ".".toList = ['.'] := by decide
  rw [compose, Nat.toString_eq_ofList_toDigits, ← hmarker]
  simp [String.toList_append, hmark, hdot]

theorem opens_compose {zeros version : Nat} {title ending : String} {d : Direction}
    (hversion : version ≤ largestVersion) (htitle : '\n' ∉ title.toList)
    (hending : '\n' ∉ ending.toList) :
    Opens (compose zeros version title d ending).toList
      (List.replicate zeros '0' ++ Nat.toDigits 10 version)
      (title.toList ++ d.marker ++ ending.toList) := by
  have hdigits : ∀ c ∈ List.replicate zeros '0' ++ Nat.toDigits 10 version, c.isDigit = true := by
    intro c hc
    rcases List.mem_append.1 hc with hc | hc
    · rw [List.eq_of_mem_replicate hc]
      decide
    · exact Url.isDigit_of_mem_toDigits version c hc
  refine ⟨toList_compose .., ?_, fun c hc => Url.isDigit_iff.1 (hdigits c hc), ?_, ?_⟩
  · exact List.append_ne_nil_of_right_ne_nil _ Nat.toDigits_ne_nil
  · rwa [← valueOf_eq_numberOf, valueOf_zeros, valueOf_toDigits]
  · have hmarker : '\n' ∉ d.marker := by cases d <;> decide
    rw [toList_compose]
    simp only [List.mem_append, List.mem_cons, not_or]
    refine ⟨⟨fun hzero => ?_, fun hdigit => ?_⟩, by decide, ⟨htitle, hmarker⟩, hending⟩
    · exact absurd (List.eq_of_mem_replicate hzero) (by decide)
    · exact absurd (Url.isDigit_of_mem_toDigits version _ hdigit) (by decide)

/-- **The grammar of names.** A text is the name of a script exactly if it is one line that begins
with the digits of a 64-bit number and an underscore and holds a marker behind them. What it says
then is that number, the direction of the last marker, and the text between the underscore and that
marker. So a name that is put together says what it was put together of, unless its ending makes a
marker that begins further right. -/
theorem grammar :
    (∀ name : String, (parse? name).isSome = true ↔
      ∃ digits rest, Opens name.toList digits rest ∧ ∃ d : Direction, d.marker <:+: rest) ∧
    (∀ (name : String) (f : FileName), parse? name = some f ↔
      ∃ digits rest, Opens name.toList digits rest ∧ f.version = numberOf digits ∧
        LastMarker rest f.title.toList f.direction) ∧
    (∀ (zeros version : Nat) (title : String) (d : Direction) (ending : String),
      version ≤ largestVersion →
      '\n' ∉ title.toList → '\n' ∉ ending.toList →
      (∀ (title' : List Char) (d' : Direction), title' ++ d'.marker <+: title.toList ++
        d.marker ++ ending.toList →
        title'.length ≤ title.toList.length) →
      parse? (compose zeros version title d ending) = some ⟨version, title, d⟩) := by
  refine ⟨fun name => ?_, fun name f => parseChars_eq_some_iff, ?_⟩
  · constructor
    · intro h
      obtain ⟨f, hf⟩ := Option.isSome_iff_exists.1 h
      obtain ⟨digits, rest, hopens, -, hmarker⟩ := parseChars_eq_some_iff.1 hf
      exact ⟨digits, rest, hopens, exists_lastMarker_iff.1 ⟨_, _, hmarker⟩⟩
    · rintro ⟨digits, rest, hopens, hmarker⟩
      obtain ⟨title, d, hlast⟩ := exists_lastMarker_iff.2 hmarker
      have hread : parse? name = some ⟨numberOf digits, String.ofList title, d⟩ :=
        parseChars_eq_some_iff.2 ⟨digits, rest, hopens, rfl, by simpa using hlast⟩
      exact Option.isSome_of_eq_some hread
  · intro zeros version title d ending hversion htitle hending hlast
    refine parseChars_eq_some_iff.2
      ⟨_, _, opens_compose hversion htitle hending, ?_, List.prefix_append _ _, hlast⟩
    rw [← valueOf_eq_numberOf, valueOf_zeros, valueOf_toDigits]

/-- A name with two markers that share a dot. -/
theorem grammar_sharedDot : 7 ≤ largestVersion ∧ '\n' ∉ "a.up".toList ∧ '\n' ∉ "sql".toList ∧
    (∀ (title' : List Char) (d' : Direction),
      title' ++ d'.marker <+: "a.up".toList ++ Direction.down.marker ++ "sql".toList →
        title'.length ≤ "a.up".toList.length) ∧
    compose 2 7 "a.up" .down "sql" = "007_a.up.down.sql" ∧
    parse? (compose 2 7 "a.up" .down "sql") = some ⟨7, "a.up", .down⟩ := by
  have hversion : 7 ≤ largestVersion := by decide
  have hlast := (cutAtLastMarker_eq_some_iff.1 (show cutAtLastMarker ("a.up".toList ++
    Direction.down.marker ++ "sql".toList) = some ("a.up".toList, .down) by decide)).last
  exact ⟨hversion, by decide, by decide, hlast, by decide,
    grammar.2.2 2 7 "a.up" .down "sql" hversion (by decide) (by decide) hlast⟩

/-- The largest version has a name, and the number above it has none. -/
example : parse? "18446744073709551615_.up." = some ⟨largestVersion, "", .up⟩ ∧
    parse? "18446744073709551616_.up." = none := by decide

end Stairway.Migrations.FileName
