import Mathlib.Data.List.TakeWhile
import Stairway.Proofs.Url.Form
import Stairway.Proofs.Url.Paths
import Stairway.Url.Parser

/-!
# How a database's URL is read

What follows `postgresql://` is cut in three: the authority up to the first slash, the path, and the
tail from the first `?` or `#` on (`parseAfterScheme_postgresql`). Host and port are what stands
behind the last `@` of the authority. `place?` reads them, and it reads them the same whoever the
user is (`parseAuthority_place`).
-/

namespace Stairway.Url

open Percent

/-! ## Parts -/

/-- The scheme of a database. -/
def postgresql : List Char := ['p', 'o', 's', 't', 'g', 'r', 'e', 's', 'q', 'l']

/-- The schemes of addresses of databases. -/
def IsAddressScheme (scheme : List Char) : Prop :=
  scheme = "postgres".toList ∨ scheme = "postgresql".toList

theorem isAddressScheme_postgresql : IsAddressScheme postgresql := .inr (by decide)

/-- What a database's URL begins with. -/
def opening : List Char := ['p', 'o', 's', 't', 'g', 'r', 'e', 's', 'q', 'l', ':', '/', '/']

/-- What ends the part of a URL with the authority and the path. -/
def opensTail (c : Char) : Bool := c == '?' || c == '#'

/-- The parts of a text behind `//`: the authority, the path, and query and fragment. -/
def authorityText (s : List Char) : List Char :=
  (splitAtFirst (· == '/') (splitAtFirst opensTail s).1).1

def pathText (s : List Char) : List Char := (splitAtFirst (· == '/') (splitAtFirst opensTail s).1).2

def tailText (s : List Char) : List Char := (splitAtFirst opensTail s).2

/-- The path that is read of a database's URL. -/
def pathOf : List Char → List Char
  | [] => []
  | c :: more => if c == '/' then Path.ofText (· == '/') more
      else Path.ofText (· == '/') (c :: more)

/-- **How a database's URL is read**, part by part. -/
theorem parseAfterScheme_postgresql (s : List Char) :
    parseAfterScheme postgresql ('/' :: '/' :: s) =
      (parseAuthority .plain postgresql (authorityText s) (pathText s ++ tailText s).head?).map
        fun (a, more) =>
        ⟨postgresql, some a, pathOf (more ++ pathText s), (parseTail .plain (tailText s)).1,
          (parseTail .plain (tailText s)).2⟩ := by
  have hkind : SchemeKind.of postgresql = .plain := by decide
  have hsplit : splitAtFirst opensTail ('/' :: '/' :: s) =
      ('/' :: '/' :: (splitAtFirst opensTail s).1, (splitAtFirst opensTail s).2) := by
    simp [splitAtFirst, opensTail]
  unfold opensTail at hsplit
  unfold parseAfterScheme
  simp only [hkind, hsplit, ne_eq, not_true_eq_false, decide_false, Bool.false_and, Bool.or_false,
    if_true]
  have hread : ∀ (r : Except UrlError (Authority × List Char)) (path : List Char)
      (query fragment : Option (List Char)),
      (do
        let found ← r
        pure (⟨postgresql, some found.1, match found.2 ++ path with
          | [] => []
          | c :: more => if (c == '/') = true then Path.ofText (· == '/') more
            else Path.ofText (· == '/') (found.2 ++ path), query, fragment⟩ : Url)) =
      r.map fun found => ⟨postgresql, some found.1, pathOf (found.2 ++ path), query, fragment⟩ := by
    intro r path query fragment
    cases r with
    | error cause => rfl
    | ok found =>
      simp only [bind, Except.bind, pure, Except.pure, Except.map]
      cases found.2 ++ path <;> rfl
  exact hread _ _ _ _

section SplitAtFirst

variable {p : Char → Bool} {c : Char}

theorem mem_splitAtFirst (hc : p c = true) (s : List Char) : c ∈ (splitAtFirst p s).2 ↔ c ∈ s := by
  have hfront : c ∉ s.takeWhile (!p ·) :=
    fun hmem => by simpa [hc] using List.mem_takeWhile_imp hmem
  have hparts := List.takeWhile_append_dropWhile (p := (!p ·)) (l := s)
  constructor
  · exact fun hmem => hparts ▸ List.mem_append_right _ hmem
  · intro hmem
    rw [← hparts] at hmem
    exact (List.mem_append.1 hmem).resolve_left hfront

theorem splitAtFirst_cases (p : Char → Bool) (s : List Char) :
    (splitAtFirst p s).2 = [] ∨ ∃ c rest, (splitAtFirst p s).2 = c :: rest ∧ p c = true := by
  cases hback : s.dropWhile (!p ·) with
  | nil => exact .inl hback
  | cons c rest =>
    have hhead := List.head?_dropWhile_not (!p ·) s
    rw [hback] at hhead
    exact .inr ⟨c, rest, hback, by simpa using hhead⟩

theorem splitAtFirst_of_notMem {s : List Char} (h : ∀ c ∈ s, p c = false) :
    splitAtFirst p s = (s, []) := by
  have hkept : ∀ c ∈ s, (!p c) = true := fun c hc => by rw [h c hc]; rfl
  have hback : s.dropWhile (!p ·) = [] := List.dropWhile_eq_nil_iff.2 hkept
  rw [splitAtFirst, Form.takeWhile_eq_self hkept, hback]

theorem splitAtFirst_append {front back : List Char} (hfront : ∀ c ∈ front, p c = false)
    (hback : ∀ c ∈ back.head?, p c = true) : splitAtFirst p (front ++ back) = (front, back) := by
  have hkept : ∀ c ∈ front, (!p c) = true := fun c hc => by rw [hfront c hc]; rfl
  cases back with
  | nil => rw [List.append_nil, splitAtFirst_of_notMem hfront]
  | cons c back =>
    exact Prod.ext_iff.2 (Form.takeWhile_append_cons hkept (by simpa using hback c rfl))

end SplitAtFirst

/-- A text without blanks at its ends. -/
theorem trim_eq_self {p : Char → Bool} (first last : Char) (middle : List Char)
    (hfirst : p first = false) (hlast : p last = false) :
    (((first :: middle ++ [last]).dropWhile p).reverse.dropWhile p).reverse = first ::
      middle ++ [last] := by
  rw [List.cons_append, List.dropWhile_cons_of_neg (by simp [hfirst])]
  have hback : (first :: (middle ++ [last])).reverse = last :: (first :: middle).reverse := by simp
  rw [hback, List.dropWhile_cons_of_neg (by simp [hlast])]
  simp

namespace IsAddressScheme

variable {scheme s : List Char}

theorem splitScheme_eq (h : IsAddressScheme scheme) (s : List Char) :
    splitScheme (scheme ++ ':' :: s) = some (scheme, s) := by
  have hall : (scheme.all fun c => c.isAlphanum || c == '+' || c == '-' || c == '.') = true := by
    rcases h with rfl | rfl <;> decide
  obtain ⟨htake, hdrop⟩ :=
    Form.takeWhile_append_cons (t := s) (c := ':') (List.all_eq_true.1 hall) (by decide)
  have hlower : scheme.map Char.toLower = scheme := by
    rcases h with rfl | rfl <;> decide
  have hhead : (scheme ++ ':' :: s).head? = some 'p' := by
    rcases h with rfl | rfl <;> rfl
  unfold splitScheme
  simp only [htake, hdrop, hlower, hhead]
  rw [if_pos (by decide)]

/-- Trimming leaves a text alone that has no blank at its end. -/
theorem parse_eq (h : IsAddressScheme scheme) (hlast : ∀ c ∈ s.getLast?, 0x20 < c.toNat) :
    parse (String.ofList (scheme ++ ':' :: s)) = parseAfterScheme scheme
      (s.filter (!isDropped ·)) := by
  obtain ⟨middle, last, htext, hgraphic⟩ :
      ∃ middle last, scheme ++ ':' :: s = 'p' :: middle ++ [last] ∧ 0x20 < last.toNat := by
    obtain ⟨rest, hrest⟩ : ∃ rest, scheme = 'p' :: rest := by
      rcases h with rfl | rfl <;> exact ⟨_, rfl⟩
    obtain rfl | ⟨front, last, rfl⟩ := List.eq_nil_or_concat s
    · exact ⟨rest, ':', by rw [hrest], by decide⟩
    · exact ⟨rest ++ ':' :: front, last, by simp [hrest], hlast last (by simp)⟩
  have htrimmed := trim_eq_self (p := fun c => decide (c.toNat ≤ 0x20)) 'p' last middle (by decide)
    (by simpa using hgraphic)
  have hkept : scheme.filter (!isDropped ·) = scheme := by
    rcases h with rfl | rfl <;> decide
  have hfilter : (scheme ++ ':' :: s).filter (!isDropped ·) = scheme ++ ':' ::
      s.filter (!isDropped ·) := by
    rw [List.filter_append, hkept, List.filter_cons, if_pos (by decide)]
  unfold parse
  simp only [String.toList_ofList]
  rw [htext, htrimmed, ← htext, hfilter, h.splitScheme_eq]

end IsAddressScheme

theorem parse_opening (front : List Char) {last : Char} (hlast : 0x20 < last.toNat) :
    parse (String.ofList (opening ++ (front ++ [last]))) =
      parseAfterScheme postgresql ('/' :: '/' :: (front ++ [last]).filter (!isDropped ·)) := by
  have hend : ∀ c ∈ ('/' :: '/' :: (front ++ [last])).getLast?, 0x20 < c.toNat := by
    simpa [List.getLast?_cons] using hlast
  exact isAddressScheme_postgresql.parse_eq hend

/-! ## Authorities -/

/-- What stands behind the last `mark`. -/
def afterLast (mark : Char) (s : List Char) : List Char := (s.reverse.takeWhile (· ≠ mark)).reverse

theorem takeWhile_ne_reverse {mark : Char} {s : List Char} (h : mark ∉ s) :
    ∀ c ∈ s.reverse, decide (c ≠ mark) = true := by
  intro c hc
  rw [decide_eq_true_eq]
  rintro rfl
  exact h (List.mem_reverse.1 hc)

theorem afterLast_of_notMem {mark : Char} {s : List Char} (h : mark ∉ s) :
    afterLast mark s = s := by
  rw [afterLast, Form.takeWhile_eq_self (takeWhile_ne_reverse h), List.reverse_reverse]

theorem afterLast_append {mark : Char} (front : List Char) {s : List Char} (h : mark ∉ s) :
    afterLast mark (front ++ mark :: s) = s := by
  have hback : (front ++ mark :: s).reverse = s.reverse ++ mark :: front.reverse := by simp
  have hsplit :=
    Form.takeWhile_append_cons (t := front.reverse) (c := mark) (takeWhile_ne_reverse h) (by simp)
  rw [afterLast, hback, hsplit.1, List.reverse_reverse]

theorem afterLast_append_of_notMem {mark : Char} (front : List Char) {s : List Char}
    (h : mark ∉ s) :
    afterLast mark (front ++ s) = afterLast mark front ++ s := by
  rw [afterLast, List.reverse_append, List.takeWhile_append_of_pos (takeWhile_ne_reverse h),
    List.reverse_append, List.reverse_reverse, afterLast]

theorem splitUserinfo_eq (s : List Char) :
    splitUserinfo s = none ∧ afterLast '@' s = s ∨ ∃ info,
      splitUserinfo s = some (info, afterLast '@' s) := by
  unfold splitUserinfo
  by_cases h : s.contains '@' = true
  · exact .inr ⟨_, if_pos h⟩
  · exact .inl ⟨if_neg h, afterLast_of_notMem (by simpa using h)⟩

/-- What is read of a host and a port, and what is left behind a backslash. -/
def place? (s : List Char) : Except UrlError (Host × Option Nat × List Char) := do
  let (hostText, rest) := splitHost false s
  let host ← Host.parseOpaque hostText
  if host.isEmpty && !rest.isEmpty then throw .emptyHost
  let (portText, more) := splitAtFirst (· == '\\') (rest.drop 1)
  let port ← parsePort portText
  pure (host, port, more)

/-- What is read of an authority, cut in two. -/
def readAuthority (info s : List Char) : Except UrlError (Authority × List Char) :=
  let user := info.takeWhile (· ≠ ':')
  let password := (info.dropWhile (· ≠ ':')).drop 1
  (place? s).bind fun (host, port, more) =>
    if host.isEmpty && !(user.isEmpty && password.isEmpty) then .error .emptyHost
    else .ok (⟨encode sparedInUserinfo user,
      if password.isEmpty then none else some (encode sparedInUserinfo password), host, port⟩, more)

theorem parseAuthority_eq {scheme : List Char} (hport : defaultPort scheme = none) (s : List Char)
    (next : Option Char) :
    parseAuthority .plain scheme s next =
      match splitUserinfo s with
      | none => readAuthority [] s
      | some (info, rest) =>
        if info.isEmpty && rest.isEmpty && next.isSome then .error .emptyHost
          else readAuthority info rest := by
  have hif : ∀ p : Option Nat, (if p = none then none else p) = p := by
    intro p
    cases p <;> rfl
  have hkind : (decide (SchemeKind.plain = SchemeKind.web)) = false := rfl
  unfold parseAuthority
  simp only [hport, hif, hkind, Bool.false_and, Bool.false_eq_true, if_false, if_true]
  cases splitUserinfo s with
  | none =>
    simp only [readAuthority, place?, bind, Except.bind, pure, Except.pure]
    cases Host.parseOpaque (splitHost false s).1 with
    | error cause => rfl
    | ok host =>
      simp only []
      split
      · rfl
      · cases parsePort _ with
        | error cause => rfl
        | ok port =>
          simp only []
          split <;> rfl
  | some found =>
    obtain ⟨info, rest⟩ := found
    simp only [readAuthority, place?, bind, Except.bind, pure, Except.pure]
    by_cases hempty : (info.isEmpty && rest.isEmpty && next.isSome) = true
    · rw [if_pos hempty, if_pos hempty]
      rfl
    · rw [if_neg hempty, if_neg hempty]
      cases Host.parseOpaque (splitHost false rest).1 with
      | error cause => rfl
      | ok host =>
        simp only []
        split
        · rfl
        · cases parsePort _ with
          | error cause => rfl
          | ok port =>
            simp only []
            split <;> rfl

theorem readAuthority_ok {info s more : List Char} {a : Authority}
    (h : readAuthority info s = .ok (a, more)) :
    place? s = .ok (a.host, a.port, more) := by
  unfold readAuthority at h
  cases hplace : place? s with
  | error cause =>
    rw [hplace] at h
    exact absurd h nofun
  | ok found =>
    obtain ⟨host, port, more'⟩ := found
    simp only [hplace, Except.bind] at h
    split at h
    · exact absurd h nofun
    · simp only [Except.ok.injEq, Prod.mk.injEq] at h
      obtain ⟨rfl, rfl⟩ := h
      rfl

/-- Host and port are read of what stands behind the last `@`. -/
theorem parseAuthority_ok {scheme s more : List Char} {next : Option Char} {a : Authority}
    (hport : defaultPort scheme = none) (h : parseAuthority .plain scheme s next = .ok (a, more)) :
    ∃ info, readAuthority info (afterLast '@' s) = .ok (a, more) := by
  rw [parseAuthority_eq hport] at h
  obtain ⟨hnone, hhost⟩ | ⟨info, hsome⟩ := splitUserinfo_eq s
  · rw [hnone] at h
    rw [hhost]
    exact ⟨[], h⟩
  · simp only [hsome] at h
    split at h
    · exact absurd h nofun
    · exact ⟨info, h⟩

theorem splitHost_append (s : List Char) :
    ∀ inside, (splitHost inside s).1 ++ (splitHost inside s).2 = s := by
  induction s with
  | nil => exact fun inside => rfl
  | cons c s ih =>
    intro inside
    rw [splitHost]
    split
    · rfl
    · exact congrArg (c :: ·) (ih _)

theorem encode_eq_nil {keep : Char → Bool} {s : List Char} (h : encode keep s = []) : s = [] := by
  cases s with
  | nil => rfl
  | cons c s =>
    rw [encode_cons] at h
    split at h
    · exact absurd h (by simp)
    · cases hbytes : String.utf8EncodeChar c with
      | nil => exact absurd hbytes String.utf8EncodeChar_ne_nil
      | cons b bytes =>
        rw [hbytes] at h
        exact absurd h (by simp [encodeByte])

/-- What `place?` goes through when it succeeds. -/
theorem place?_ok {s more : List Char} {host : Host} {port : Option Nat}
    (h : place? s = .ok (host, port, more)) :
    ∃ hostText rest, splitHost false s = (hostText, rest) ∧ Host.parseOpaque hostText = .ok host ∧
      (host.isEmpty = true → rest = []) ∧
      parsePort (splitAtFirst (· == '\\') (rest.drop 1)).1 = .ok port ∧
      more = (splitAtFirst (· == '\\') (rest.drop 1)).2 := by
  unfold place? at h
  simp only [bind, Except.bind, pure, Except.pure] at h
  refine ⟨_, _, rfl, ?_⟩
  split at h
  · exact absurd h nofun
  · next host' hhost =>
    split at h
    · exact absurd h nofun
    · next hempty =>
      split at h
      · exact absurd h nofun
      · next port' hport =>
        simp only [Except.ok.injEq, Prod.mk.injEq] at h
        obtain ⟨rfl, rfl, rfl⟩ := h
        exact ⟨hhost, by simpa using hempty, hport, rfl⟩

theorem place?_host {s more : List Char} {host : Host} {port : Option Nat} (hs : s ≠ [])
    (h : place? s = .ok (host, port, more)) : host.isEmpty = false := by
  obtain ⟨hostText, rest, hsplit, hhost, hrest, -⟩ := place?_ok h
  have htext := splitHost_append s false
  rw [hsplit] at htext
  cases hempty : host.isEmpty with
  | false => rfl
  | true =>
    rw [hrest hempty, List.append_nil] at htext
    unfold Host.parseOpaque at hhost
    split at hhost
    · unfold Host.bracketed at hhost
      split at hhost
      · exact absurd hhost nofun
      · split at hhost
        · cases hhost
          exact absurd hempty nofun
        · exact absurd hhost nofun
    · split at hhost
      · exact absurd hhost nofun
      · cases hhost
        exact absurd (htext.symm.trans (encode_eq_nil (List.isEmpty_iff.1 hempty))) hs

/-- **Host and port are read the same, whoever the user is.** -/
theorem parseAuthority_place {s : List Char} (next : Option Char) (hs : afterLast '@' s ≠ []) :
    ∃ user password, parseAuthority .plain postgresql s next =
      (place? (afterLast '@' s)).map fun (host, port, more) =>
        (⟨user, password, host, port⟩, more) := by
  have hread : ∀ info, ∃ user password, readAuthority info (afterLast '@' s) =
      (place? (afterLast '@' s)).map fun (host, port, more) =>
        (⟨user, password, host, port⟩, more) := by
    intro info
    refine ⟨encode sparedInUserinfo (info.takeWhile (· ≠ ':')),
      if ((info.dropWhile (· ≠ ':')).drop 1).isEmpty then none
      else some (encode sparedInUserinfo ((info.dropWhile (· ≠ ':')).drop 1)), ?_⟩
    unfold readAuthority
    cases hplace : place? (afterLast '@' s) with
    | error cause => rfl
    | ok found =>
      obtain ⟨host, port, more⟩ := found
      simp only [Except.bind, place?_host hs hplace, Bool.false_and, Bool.false_eq_true, if_false]
      rfl
  rw [parseAuthority_eq (by decide)]
  obtain ⟨hnone, hhost⟩ | ⟨info, hsome⟩ := splitUserinfo_eq s
  · obtain ⟨user, password, hread⟩ := hread []
    rw [hhost] at hread
    rw [hnone, hhost]
    exact ⟨user, password, hread⟩
  · simp only [hsome]
    have hnonempty : (afterLast '@' s).isEmpty = false := by simpa using hs
    simp only [hnonempty, Bool.and_false, Bool.false_and, Bool.false_eq_true, if_false]
    exact hread info

end Stairway.Url
