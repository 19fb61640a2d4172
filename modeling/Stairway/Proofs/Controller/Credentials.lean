import Stairway.Proofs.Controller.Assembly

/-!
# Credentials in a connection URL

User, password and name of a database are coded into their places of the URL, whatever its host
(`connectionUrl_parts`), and most texts are read back from there as they were.

A text with a group of percent coding in it is not: `%` is not coded itself, and the group is read
as the byte that it stands for. A name loses its dot segments, tabs and line ends besides.
`credentials_return_iff` says that this is all; `credentials_lost` is a password to which it
happens.
-/

namespace Stairway

open Text Url.Percent

namespace DatabaseSettings

variable {d : DatabaseSettings} {url : Url}

/-- What stands in the parts of the URL. -/
theorem connectionUrl_parts (h : d.connectionUrl = .ok url) :
    ∃ a, url.authority = some a ∧ a.user = encode sparedInUserinfo d.user.toList ∧
      a.password.getD [] = encode sparedInUserinfo d.password.toList ∧
      url.path = Url.Path.ofText (· == '/') (d.name.toList.filter (!Url.isDropped ·)) := by
  obtain ⟨base, a, -, -, -, rfl⟩ := connectionUrl_eq_ok_iff.1 h
  refine ⟨d.entitled a, rfl, rfl, ?_, rfl⟩
  unfold entitled
  simp only
  split
  · next hempty => exact (List.isEmpty_iff.1 hempty).symm
  · rfl

theorem decode_encode_userinfo (text : List Char) :
    decode (encode sparedInUserinfo text) = decode text :=
  decode_encode (by decide) sparedInUserinfo_digit text

/-- **Which credentials come back from the URL.** User and password do where they hold no group of
percent coding, the name where nothing of it is read as one, dropped or left out. -/
theorem credentials_return_iff (h : d.connectionUrl = .ok url) :
    ∃ a path, url.authority = some a ∧ url.path = '/' :: path ∧
      (decode a.user = Utf8.encode d.user.toList ↔ ¬ HoldsGroup d.user.toList) ∧
      (decode (a.password.getD []) = Utf8.encode d.password.toList ↔
        ¬ HoldsGroup d.password.toList) ∧
      (decode path = Utf8.encode d.name.toList ↔ Url.Path.IsPlain d.name.toList) := by
  obtain ⟨a, ha, huser, hpassword, hpath⟩ := connectionUrl_parts h
  obtain ⟨path, hslash⟩ := Url.Path.ofText_eq_slash (d.name.toList.filter (!Url.isDropped ·))
  have hname := Url.Path.decode_ofText_iff d.name.toList
  rw [hslash, List.drop_succ_cons, List.drop_zero] at hname
  refine ⟨a, path, ha, hpath.trans hslash, ?_, ?_, hname⟩
  · rw [huser, decode_encode_userinfo]
    exact decode_eq_iff _
  · rw [hpassword, decode_encode_userinfo]
    exact decode_eq_iff _

/-- Marks, slashes and characters beyond ASCII come back. -/
theorem credentials_return_iff_marks :
    ∃ url,
      ({ user := "a:b@c", password := "50%/é?#", name := "x/y z" } :
        DatabaseSettings).connectionUrl =
      .ok url ∧ ∃ a path, url.authority = some a ∧ url.path = '/' :: path ∧
        (decode a.user = Utf8.encode "a:b@c".toList ↔ ¬ HoldsGroup "a:b@c".toList) ∧
        (decode (a.password.getD []) = Utf8.encode "50%/é?#".toList ↔
          ¬ HoldsGroup "50%/é?#".toList) ∧
        (decode path = Utf8.encode "x/y z".toList ↔ Url.Path.IsPlain "x/y z".toList) :=
  ⟨_, rfl, credentials_return_iff
    (d := { user := "a:b@c", password := "50%/é?#", name := "x/y z" }) rfl⟩

/-- A password that is read back as another. -/
theorem credentials_lost :
    ∃ url a, ({ password := "p%41" } : DatabaseSettings).connectionUrl = .ok url ∧
      url.authority = some a ∧ decode (a.password.getD []) = Utf8.encode "pA".toList ∧
      decode (a.password.getD []) ≠ Utf8.encode "p%41".toList :=
  ⟨_, _, rfl, rfl, by decide, by decide⟩

end DatabaseSettings

end Stairway
