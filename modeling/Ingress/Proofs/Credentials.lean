-- Users and the lines that name them. A line names a user in one way only, so a user that was read
-- can be written down again. Main statements: users that were read are read again from the lines
-- that they are written on, and every line that is not blank gives a user or a fault with the
-- number of the line.
import Ingress.Credentials
import Ingress.Proofs.Lines
import Mathlib.Data.List.Forall2

namespace Ingress

/-! ## Written users -/

/-- A name and a password on a line, with a second colon before a plain password. -/
def lineOf (name password : List Char) (encrypted : Bool) : List Char :=
  name ++ ':' :: (if encrypted then password else ':' :: password)

/-- The line that names a user. -/
def User.line (u : User) : List Char := lineOf u.name.toList u.passwd.toList u.encrypted

/-- A user that a line can name. -/
structure User.Legible (u : User) : Prop where
  named : u.name ≠ ""
  colonless : ':' ∉ u.name.toList
  secured : u.passwd ≠ ""
  marked : u.encrypted = true → u.passwd.toList.head? ≠ some ':'

/-! ## Parts of a line -/

/-- The name in a line is what stands before its first colon. -/
def nameIn (line : List Char) : List Char := line.takeWhile (· ≠ ':')

/-- A line lacks a password if it ends behind the name or behind the colons that separate. -/
def LacksPassword (line : List Char) : Prop :=
  line = nameIn line ∨ line = nameIn line ++ [':'] ∨ line = nameIn line ++ [':', ':']

section Parts

variable {name secret : List Char}

theorem nameIn_of_not_mem (h : ':' ∉ name) : nameIn name = name := by
  refine List.takeWhile_eq_self_iff.mpr fun c hc => decide_eq_true ?_
  rintro rfl
  exact h hc

theorem nameIn_append (h : ':' ∉ name) (secret : List Char) :
    nameIn (name ++ ':' :: secret) = name := by
  unfold nameIn
  rw [List.takeWhile_append_of_pos (List.takeWhile_eq_self_iff.mp (nameIn_of_not_mem h))]
  simp

theorem lacksPassword_lineOf_iff {password : List Char} {encrypted : Bool} (h : ':' ∉ name)
    (hmarked : encrypted = true → password.head? ≠ some ':') :
    LacksPassword (lineOf name password encrypted) ↔ password = [] := by
  unfold LacksPassword lineOf
  rw [nameIn_append h]
  cases encrypted with
  | false => simp
  | true =>
    have hcolon : password ≠ [':'] := fun heq => hmarked rfl (by rw [heq]; rfl)
    simp [hcolon]

variable {u : User}

theorem User.Legible.nameIn_line_ne_nil (h : u.Legible) : nameIn u.line ≠ [] := by
  have hname : nameIn u.line = u.name.toList := nameIn_append h.colonless _
  rw [hname]
  exact fun hnil => h.named (String.toList_eq_nil_iff.mp hnil)

theorem User.Legible.not_lacksPassword (h : u.Legible) : ¬LacksPassword u.line := by
  rw [User.line, lacksPassword_lineOf_iff h.colonless h.marked]
  exact fun hnil => h.secured (String.toList_eq_nil_iff.mp hnil)

end Parts

/-! ## One line -/

/-- What a line of a number gives. -/
inductive Gives (number : Nat) : List Char → Except LineFault User → Prop
  | user {u : User} : u.Legible → Gives number u.line (.ok u)
  | missingName {line : List Char} : nameIn line = [] →
      Gives number line (.error (.missingName number))
  | missingPassword {line : List Char} : nameIn line ≠ [] → LacksPassword line →
      Gives number line (.error (.missingPassword (String.ofList (nameIn line)) number))

/-- What the parts of a line give. -/
def userOf (number : Nat) (name password : List Char) (encrypted : Bool) :
    Except LineFault User :=
  if name = [] then .error (.missingName number)
  else if password = [] then .error (.missingPassword (String.ofList name) number)
  else .ok ⟨String.ofList name, String.ofList password, encrypted⟩

section Line

variable {name password line : List Char} {encrypted : Bool} {u : User} (number : Nat)

theorem readUser_of_not_mem (h : ':' ∉ line) :
    readUser number line = userOf number line [] true := by
  unfold readUser
  rw [Text.cut_eq_none_iff.mpr h]
  rfl

theorem readUser_lineOf (h : ':' ∉ name)
    (hmarked : encrypted = true → password.head? ≠ some ':') :
    readUser number (lineOf name password encrypted) = userOf number name password encrypted := by
  unfold readUser lineOf
  rw [Text.cut_append h]
  cases encrypted with
  | false => rfl
  | true =>
    cases password with
    | nil => rfl
    | cons c cs =>
      have hc : c ≠ ':' := fun heq => hmarked rfl (by rw [heq]; rfl)
      simp [userOf, hc]

theorem legible_of_parts (h : ':' ∉ name) (hnamed : name ≠ []) (hsecured : password ≠ [])
    (hmarked : encrypted = true → password.head? ≠ some ':') :
    (User.mk (String.ofList name) (String.ofList password) encrypted).Legible where
  named := fun hempty => hnamed (by simpa using congrArg String.toList hempty)
  colonless := by rwa [String.toList_ofList]
  secured := fun hempty => hsecured (by simpa using congrArg String.toList hempty)
  marked := by rwa [String.toList_ofList]

theorem gives_userOf_lineOf (h : ':' ∉ name)
    (hmarked : encrypted = true → password.head? ≠ some ':') :
    Gives number (lineOf name password encrypted) (userOf number name password encrypted) := by
  have hname : nameIn (lineOf name password encrypted) = name := nameIn_append h _
  unfold userOf
  split
  · next hnil => exact .missingName (hname.trans hnil)
  · next hnamed =>
    split
    · next hnil =>
      have hgives : Gives number (lineOf name password encrypted) _ :=
        .missingPassword (by rwa [hname]) ((lacksPassword_lineOf_iff h hmarked).mpr hnil)
      rwa [hname] at hgives
    · next hsecured =>
      have hgives : Gives number _ _ := .user (legible_of_parts h hnamed hsecured hmarked)
      rwa [User.line, String.toList_ofList, String.toList_ofList] at hgives

theorem readUser_line (h : u.Legible) : readUser number u.line = .ok u := by
  have hname : u.name.toList ≠ [] := fun hnil => h.named (String.toList_eq_nil_iff.mp hnil)
  have hsecured : u.passwd.toList ≠ [] := fun hnil => h.secured (String.toList_eq_nil_iff.mp hnil)
  rw [User.line, readUser_lineOf number h.colonless h.marked, userOf, if_neg hname,
    if_neg hsecured, String.ofList_toList, String.ofList_toList]

/-- What stands behind the first colon is an encrypted password, or a plain one with a colon. -/
theorem exists_eq_lineOf (name secret : List Char) : ∃ password encrypted,
    name ++ ':' :: secret = lineOf name password encrypted ∧
      (encrypted = true → password.head? ≠ some ':') := by
  by_cases hsecret : secret.head? = some ':'
  · obtain ⟨plain, rfl⟩ := List.head?_eq_some_iff.mp hsecret
    exact ⟨plain, false, rfl, fun h => absurd h Bool.false_ne_true⟩
  · exact ⟨secret, true, rfl, fun _ => hsecret⟩

theorem gives_readUser (line : List Char) : Gives number line (readUser number line) := by
  cases hcut : Text.cut ':' line with
  | none =>
    have hcolonless := Text.cut_eq_none_iff.mp hcut
    have hname := nameIn_of_not_mem hcolonless
    rw [readUser_of_not_mem number hcolonless, userOf]
    split
    · next hnil => exact .missingName (hname.trans hnil)
    · next hnamed =>
      have hgives : Gives number line _ := .missingPassword (by rwa [hname]) (.inl hname.symm)
      rwa [hname] at hgives
  | some parts =>
    obtain ⟨hsplit, hname⟩ := Text.eq_append_of_cut hcut
    obtain ⟨password, encrypted, hline, hmarked⟩ := exists_eq_lineOf parts.1 parts.2
    rw [hsplit, hline, readUser_lineOf number hname hmarked]
    exact gives_userOf_lineOf number hname hmarked

variable {number}

/-- A user is read from the line that names the user and from no other. -/
theorem readUser_eq_ok_iff : readUser number line = .ok u ↔ u.Legible ∧ u.line = line := by
  constructor
  · intro h
    have hgives := gives_readUser number line
    rw [h] at hgives
    cases hgives with
    | user hlegible => exact ⟨hlegible, rfl⟩
  · rintro ⟨hlegible, rfl⟩
    exact readUser_line number hlegible

end Line

/-! ## The lines of a text -/

/-- The lines of a text that are not blank, with their numbers. -/
def fullLines (content : List Char) : List (List Char × Nat) :=
  ((Text.lines content).zipIdx 1).filter fun line => Text.trim line.1 ≠ []

theorem readUserLines_eq (number : Nat) (ls : List (List Char)) : readUserLines number ls =
    ((ls.zipIdx number).filter fun line => Text.trim line.1 ≠ []).map fun line =>
      readUser line.2 (Text.trim line.1) := by
  induction ls generalizing number with
  | nil => rfl
  | cons line ls ih =>
    rw [readUserLines, List.zipIdx_cons, ih]
    by_cases hblank : Text.trim line = [] <;> simp [hblank]

/-- Each line that is not blank is read by itself. -/
theorem readUsers_eq (content : List Char) : readUsers content =
    (fullLines content).map fun line => readUser line.2 (Text.trim line.1) :=
  readUserLines_eq 1 (Text.lines content)

theorem mem_usersOf {entries : List (Except LineFault User)} {u : User} :
    u ∈ usersOf entries ↔ .ok u ∈ entries := by
  unfold usersOf
  rw [List.mem_filterMap]
  constructor
  · rintro ⟨entry, hentry, hu⟩
    cases entry with
    | ok v => rwa [← Option.some.inj hu]
    | error fault => cases hu
  · exact fun h => ⟨.ok u, h, rfl⟩

theorem usersOf_map_ok (users : List User) : usersOf (users.map .ok) = users := by
  induction users with
  | nil => rfl
  | cons u users ih => exact congrArg (u :: ·) ih

theorem faultsOf_map_ok (users : List User) : faultsOf (users.map .ok) = [] := by
  induction users with
  | nil => rfl
  | cons u users ih => exact ih

theorem mem_faultsOf {entries : List (Except LineFault User)} {fault : LineFault} :
    fault ∈ faultsOf entries ↔ .error fault ∈ entries := by
  fun_induction faultsOf entries with
  | case1 => simp
  | case2 u rest ih => simp [ih]
  | case3 other rest ih => simp [ih]

theorem length_usersOf_add_length_faultsOf (entries : List (Except LineFault User)) :
    (usersOf entries).length + (faultsOf entries).length = entries.length := by
  induction entries with
  | nil => rfl
  | cons entry entries ih =>
    cases entry with
    | ok u =>
      change (usersOf entries).length + 1 + (faultsOf entries).length = entries.length + 1
      omega
    | error fault =>
      change (usersOf entries).length + ((faultsOf entries).length + 1) = entries.length + 1
      omega

/-! ## Users written again -/

/-- The users that the lines of a text name. -/
def usersIn (content : List Char) : List User := usersOf (readUsers content)

/-- The faults of the lines of a text. -/
def faultsIn (content : List Char) : List LineFault := faultsOf (readUsers content)

/-- A text has the given users and no faults. -/
def ReadsAs (content : List Char) (users : List User) : Prop :=
  usersIn content = users ∧ faultsIn content = []

/-- A line of its own that names a user. -/
structure User.Writable (u : User) : Prop where
  legible : u.Legible
  isLine : Text.IsLine u.line
  trimmed : Text.trim u.line = u.line

theorem writable_of_mem_usersIn {content : List Char} {u : User} (h : u ∈ usersIn content) :
    u.Writable := by
  rw [usersIn, mem_usersOf, readUsers_eq] at h
  obtain ⟨⟨line, number⟩, hline, hread⟩ := List.mem_map.mp h
  obtain ⟨hlegible, hwritten⟩ := readUser_eq_ok_iff.mp hread
  have hmem : line ∈ Text.lines content :=
    List.fst_mem_of_mem_zipIdx (List.mem_filter.mp hline).1
  refine ⟨hlegible, ?_, ?_⟩
  · rw [hwritten]
    exact Text.isLine_trim hmem
  · rw [hwritten, Text.trim_trim]

theorem User.line_ne_nil (u : User) : u.line ≠ [] := by
  simp [User.line, lineOf]

theorem readUserLines_map_line {users : List User} (h : ∀ u ∈ users, u.Writable) (number : Nat) :
    readUserLines number (users.map User.line) = users.map .ok := by
  induction users generalizing number with
  | nil => rfl
  | cons u users ih =>
    obtain ⟨hu, husers⟩ := List.forall_mem_cons.mp h
    rw [List.map_cons, readUserLines, hu.trimmed, if_neg u.line_ne_nil,
      readUser_line number hu.legible, ih husers, List.map_cons]

theorem readsAs_of_lines {content : List Char} {users : List User}
    (h : ∀ u ∈ users, u.Writable) (hlines : Text.lines content = users.map User.line) :
    ReadsAs content users := by
  have hread : readUsers content = users.map .ok := by
    rw [readUsers, hlines, readUserLines_map_line h]
  exact ⟨by rw [usersIn, hread, usersOf_map_ok], by rw [faultsIn, hread, faultsOf_map_ok]⟩

/-- The users of a text are read again from the lines that name them, in the same order and without
a fault, whether or not a line feed ends the last line. A user has a name without a colon and a
password, and an encrypted password does not begin with a colon. -/
theorem users_are_read_as_they_are_written (content : List Char) :
    ReadsAs (Text.terminated ((usersIn content).map User.line)) (usersIn content) ∧
    ReadsAs (Text.join '\n' ((usersIn content).map User.line)) (usersIn content) ∧
    ∀ u ∈ usersIn content, u.Legible := by
  have hwritable : ∀ u ∈ usersIn content, u.Writable := fun u => writable_of_mem_usersIn
  have hlines : ∀ line ∈ (usersIn content).map User.line, Text.IsLine line :=
    List.forall_mem_map.mpr fun u hu => (hwritable u hu).isLine
  have hnonempty : ∀ line ∈ (usersIn content).map User.line, line ≠ [] :=
    List.forall_mem_map.mpr fun u _ => u.line_ne_nil
  refine ⟨?_, ?_, fun u hu => (hwritable u hu).legible⟩
  · exact readsAs_of_lines hwritable (Text.lines_terminated hlines)
  · exact readsAs_of_lines hwritable (Text.lines_join hlines hnonempty)

/-- A file with two users, a blank line and three faults. -/
def mixedFile : List Char := " ann:x:y\r\n\t\nbob::: z\n:pw\ncy::\ndee".toList

theorem two_users_are_written_again :
    let users : List User := [⟨"ann", "x:y", true⟩, ⟨"bob", ": z", false⟩]
    usersIn mixedFile = users ∧
    ReadsAs "ann:x:y\nbob::: z\n".toList users ∧ ReadsAs "ann:x:y\nbob::: z".toList users ∧
    ⟨"bob", ": z", false⟩ ∈ users ∧ (User.mk "bob" ": z" false).Legible := by
  intro users
  have hread : usersIn mixedFile = users := by decide +kernel
  have hbob : ⟨"bob", ": z", false⟩ ∈ users := by decide
  obtain ⟨hterminated, hjoined, hlegible⟩ := users_are_read_as_they_are_written mixedFile
  rw [hread] at hterminated hjoined hlegible
  exact ⟨hread, hterminated, hjoined, hbob, hlegible _ hbob⟩

/-! ## Every line accounted for -/

/-- The number of the line that is at fault. -/
def LineFault.line : LineFault → Nat
  | .missingName line => line
  | .missingPassword _ line => line

/-- A line gives a fault without a name, a fault with its name but without a password, and otherwise
the user that it names. -/
structure AccountedFor (number : Nat) (line : List Char) (entry : Except LineFault User) :
    Prop where
  nameless : entry = .error (.missingName number) ↔ nameIn line = []
  unsecured : entry = .error (.missingPassword (String.ofList (nameIn line)) number) ↔
    nameIn line ≠ [] ∧ LacksPassword line
  complete : (∃ u, entry = .ok u) ↔ nameIn line ≠ [] ∧ ¬LacksPassword line
  user : ∀ u, entry = .ok u → u.Legible ∧ u.line = line

theorem Gives.accountedFor {number : Nat} {line : List Char} {entry : Except LineFault User}
    (h : Gives number line entry) : AccountedFor number line entry := by
  cases h with
  | @user u hlegible =>
    have hnamed := hlegible.nameIn_line_ne_nil
    have hsecured := hlegible.not_lacksPassword
    refine ⟨by simp [hnamed], by simp [hsecured], by simp [hnamed, hsecured], ?_⟩
    rintro v heq
    obtain rfl := Except.ok.inj heq
    exact ⟨hlegible, rfl⟩
  | missingName hnil => exact ⟨by simp [hnil], by simp [hnil], by simp [hnil], nofun⟩
  | missingPassword hnamed hlacks =>
    exact ⟨by simp [hnamed], by simp [hnamed, hlacks], by simp [hlacks], nofun⟩

/-- The number in a fault is the one of the line that gives it. -/
theorem line_of_readUser_eq_error {number : Nat} {line : List Char} {fault : LineFault}
    (h : readUser number line = .error fault) : fault.line = number := by
  have hgives := gives_readUser number line
  rw [h] at hgives
  cases hgives <;> rfl

theorem numbers_fullLines_pairwise (content : List Char) :
    ((fullLines content).map (·.2)).Pairwise (· < ·) := by
  have hsub := (List.filter_sublist (l := (Text.lines content).zipIdx 1)
    (p := fun line => Text.trim line.1 ≠ [])).map Prod.snd
  rw [List.zipIdx_map_snd] at hsub
  exact List.Pairwise.sublist hsub List.pairwise_lt_range'

/-- The faults of some lines carry the numbers of lines among them. -/
theorem lines_faultsOf_sublist (ls : List (List Char × Nat)) :
    ((faultsOf (ls.map fun line => readUser line.2 (Text.trim line.1))).map (·.line)).Sublist
      (ls.map (·.2)) := by
  induction ls with
  | nil => exact .slnil
  | cons line ls ih =>
    rw [List.map_cons, List.map_cons]
    cases hread : readUser line.2 (Text.trim line.1) with
    | ok u => exact ih.cons _
    | error fault =>
      rw [faultsOf, List.map_cons, line_of_readUser_eq_error hread]
      exact ih.cons_cons _

theorem mem_fullLines {content line : List Char} {number : Nat} :
    (line, number) ∈ fullLines content ↔
      1 ≤ number ∧ (Text.lines content)[number - 1]? = some line ∧ Text.trim line ≠ [] := by
  unfold fullLines
  rw [List.mem_filter, List.mem_zipIdx_iff_le_and_getElem?_sub, and_assoc, decide_eq_true_iff]

/-- Each line that is not blank gives a user or a fault, in the order of the lines, and blank lines
give neither. A fault carries the number of its line, counted from 1 with the blank lines. -/
theorem every_line_is_accounted_for (content : List Char) :
    List.Forall₂ (fun line entry => AccountedFor line.2 (Text.trim line.1) entry)
      (fullLines content) (readUsers content) ∧
    (usersIn content).length + (faultsIn content).length = (fullLines content).length ∧
    ((faultsIn content).map (·.line)).Pairwise (· < ·) ∧
    ∀ fault ∈ faultsIn content, 1 ≤ fault.line ∧ ∃ line,
      (Text.lines content)[fault.line - 1]? = some line ∧ Text.trim line ≠ [] ∧
      AccountedFor fault.line (Text.trim line) (.error fault) := by
  have hread := readUsers_eq content
  refine ⟨?_, ?_, ?_, ?_⟩
  · rw [hread, List.forall₂_map_right_iff, List.forall₂_same]
    exact fun line _ => (gives_readUser line.2 (Text.trim line.1)).accountedFor
  · rw [usersIn, faultsIn, length_usersOf_add_length_faultsOf, hread, List.length_map]
  · rw [faultsIn, hread]
    exact (numbers_fullLines_pairwise content).sublist (lines_faultsOf_sublist _)
  · intro fault hfault
    rw [faultsIn, mem_faultsOf, hread] at hfault
    obtain ⟨⟨line, number⟩, hline, hfaulty⟩ := List.mem_map.mp hfault
    obtain rfl := line_of_readUser_eq_error hfaulty
    obtain ⟨hpos, hat, hfull⟩ := mem_fullLines.mp hline
    refine ⟨hpos, line, hat, hfull, ?_⟩
    rw [← hfaulty]
    exact (gives_readUser fault.line (Text.trim line)).accountedFor

theorem fifth_line_lacks_a_password :
    let fault := LineFault.missingPassword "cy" 5
    faultsIn mixedFile = [.missingName 4, fault, .missingPassword "dee" 6] ∧
    fault ∈ faultsIn mixedFile ∧
    (Text.lines mixedFile)[4]? = some "cy::".toList ∧ LacksPassword (Text.trim "cy::".toList) := by
  intro fault
  have hread : faultsIn mixedFile =
      [.missingName 4, fault, .missingPassword "dee" 6] := by decide +kernel
  have hfault : fault ∈ faultsIn mixedFile := by
    rw [hread]
    decide
  have hfifth : (Text.lines mixedFile)[4]? = some "cy::".toList := by decide +kernel
  obtain ⟨-, -, -, hfaults⟩ := every_line_is_accounted_for mixedFile
  obtain ⟨-, line, hat, -, haccounted⟩ := hfaults fault hfault
  obtain rfl := Option.some.inj (hfifth.symm.trans hat)
  exact ⟨hread, hfault, hfifth, (haccounted.unsecured.mp (by decide +kernel)).2⟩

end Ingress
