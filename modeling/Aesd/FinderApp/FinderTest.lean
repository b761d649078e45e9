import Aesd.FinderApp.Finder
import Aesd.FinderApp.Writer
import Mathlib.Data.List.Infix

/-!
# The test of both programs

`finder-test.sh` writes a number of files with `writer`, and looks in what `finder.sh`
prints for the message with this number in both places.  It looks for the message as a
part of the output.
-/

namespace Aesd.FinderApp

/-! ## The script -/

/-- The numeral of a number, as `seq` prints it and as the shell stores it. -/
def numeral (number : Nat) : Text :=
  (Nat.toDigits 10 number).map fun digit => UInt8.ofNat digit.toNat

/-- What the script is given: nothing, a number of files, or three arguments. -/
inductive TestArguments where
  | defaults
  | numfiles (numfiles : Nat)
  | all (numfiles : Nat) (writestr directory : Text)

/-- The variables of the script. -/
structure FinderTest where
  username : Text
  numfiles : Nat
  writestr : Text
  writedir : Text

/-- `AELD_IS_FUN` -/
def defaultString : Text :=
  [65, 69, 76, 68, 95, 73, 83, 95, 70, 85, 78]

/-- `/tmp/aeld-data` -/
def defaultDirectory : Text :=
  [47, 116, 109, 112, 47, 97, 101, 108, 100, 45, 100, 97, 116, 97]

def FinderTest.ofArguments (username : Text) : TestArguments → FinderTest
  | .defaults => ⟨username, 10, defaultString, defaultDirectory⟩
  | .numfiles numfiles => ⟨username, numfiles, defaultString, defaultDirectory⟩
  | .all numfiles writestr directory =>
      ⟨username, numfiles, writestr, defaultDirectory ++ slash :: directory⟩

/-- What the script waits for. -/
def matchStr (numfiles : Nat) : String :=
  "The number of files are " ++ toString numfiles ++ " and the number of matching lines are " ++
    toString numfiles

/-- `.txt` -/
def txtExtension : Text :=
  [46, 116, 120, 116]

/-- The file with a number: `$WRITEDIR/${username}$i.txt`. -/
def FinderTest.path (test : FinderTest) (i : Nat) : Text :=
  test.writedir ++ slash :: (test.username ++ numeral i ++ txtExtension)

/-- Outcomes of the commands of the script.  Under `set -e` one that fails ends it. -/
structure TestOutcome where
  /-- `cat` shows the name of the user. -/
  usernameRead : Bool
  /-- The directory of an earlier test is removed. -/
  removed : Bool
  /-- `cat` shows the assignment. -/
  assignmentRead : Bool
  /-- The directory is created, and is there. -/
  created : Bool
  /-- The calls of `writer` for the files. -/
  writer : Nat → WriterOutcome
  /-- The output is written to the file for the result. -/
  resultWritten : Bool
  /-- The directories of this test are removed. -/
  cleaned : Bool

/-- The commands before the loop succeed. -/
def TestOutcome.Prepares (outcome : TestOutcome) : Prop :=
  outcome.usernameRead = true ∧ outcome.removed = true ∧ outcome.assignmentRead = true ∧
    outcome.created = true

instance (outcome : TestOutcome) : Decidable outcome.Prepares :=
  inferInstanceAs (Decidable (_ ∧ _))

/-- The loop over the files, which a run of `writer` that fails ends, with the script. -/
def FinderTest.writeFiles (test : FinderTest) (outcome : TestOutcome) :
    List Nat → List File → Nat × List File
  | [], files => (0, files)
  | i :: rest, files =>
      let (status, files) :=
        FinderApp.writer (outcome.writer i) [[119, 114, 105, 116, 101, 114], test.path i,
          test.writestr] files
      if status ≠ 0 then (status, files) else test.writeFiles outcome rest files

/-- The script, which knows the files in its directory by what its host shows of them; the
result is the exit status. -/
def FinderTest.exitStatus (test : FinderTest) (outcome : TestOutcome)
    (host : List File → Host) : Nat :=
  if outcome.Prepares then
    let (status, files) := test.writeFiles outcome (List.range' 1 test.numfiles) []
    if status ≠ 0 then
      status
    else
      let output := (host files).finder [test.writedir, test.writestr]
      if output.exitStatus ≠ 0 then
        output.exitStatus
      else if outcome.resultWritten && outcome.cleaned then
        -- a text without special characters, which `grep` finds anywhere in its input
        if (matchStr test.numfiles).toList <:+: output.message.toList then 0 else 1
      else
        1
  else
    1

/-! ## The message in the output -/

theorem isDigit_of_mem_repr {number : Nat} {digit : Char}
    (member : digit ∈ (toString number).toList) : digit.isDigit = true := by
  rw [show toString number = number.repr from rfl, Nat.toList_repr] at member
  exact Nat.isDigit_of_mem_toDigits (by decide) (by decide) member

theorem toString_inj {number other : Nat}
    (same : (toString number).toList = (toString other).toList) : number = other := by
  rw [show toString number = number.repr from rfl, show toString other = other.repr from rfl,
    Nat.toList_repr, Nat.toList_repr] at same
  have value := congrArg (fun digits => Nat.ofDigitChars 10 digits 0) same
  simpa [Nat.ofDigitChars_toDigits] using value

theorem toNat_of_isDigit {digit : Char} (isDigit : digit.isDigit = true) :
    48 ≤ digit.toNat ∧ digit.toNat ≤ 57 := by
  simp only [Char.isDigit, ge_iff_le, Bool.and_eq_true, decide_eq_true_eq,
    UInt32.le_iff_toNat_le] at isDigit
  exact isDigit

/-- The bytes of a numeral are the codes of its digits. -/
theorem mem_numeral_iff {number : Nat} {byte : UInt8} :
    byte ∈ numeral number ↔
      ∃ digit ∈ Nat.toDigits 10 number, UInt8.ofNat digit.toNat = byte :=
  List.mem_map

theorem toNat_ofNat_of_isDigit {digit : Char} (isDigit : digit.isDigit = true) :
    (UInt8.ofNat digit.toNat).toNat = digit.toNat :=
  UInt8.toNat_ofNat_of_lt' (Nat.lt_of_le_of_lt (toNat_of_isDigit isDigit).2 (by decide))

theorem numeral_inj {number other : Nat} (same : numeral number = numeral other) :
    number = other := by
  have characters (number : Nat) :
      (numeral number).map (fun byte => Char.ofNat byte.toNat) = Nat.toDigits 10 number := by
    rw [numeral, List.map_map]
    refine (List.map_congr_left fun digit member => ?_).trans (List.map_id _)
    have isDigit := Nat.isDigit_of_mem_toDigits (by decide) (by decide) member
    simp only [Function.comp_apply, toNat_ofNat_of_isDigit isDigit, Char.ofNat_toNat, id_eq]
  have digits : Nat.toDigits 10 number = Nat.toDigits 10 other := by
    rw [← characters number, ← characters other, same]
  have value := congrArg (fun digits => Nat.ofDigitChars 10 digits 0) digits
  simpa [Nat.ofDigitChars_toDigits] using value

/-- Digits are neither separators nor pattern characters. -/
theorem plain_numeral (number : Nat) : Plain (numeral number) := by
  intro byte member
  rcases mem_numeral_iff.mp member with ⟨digit, inside, rfl⟩
  have isDigit := Nat.isDigit_of_mem_toDigits (by decide) (by decide) inside
  have range := toNat_of_isDigit isDigit
  have code := toNat_ofNat_of_isDigit isDigit
  simp only [isFieldSeparator, isPatternCharacter, newline, Bool.or_eq_false_iff,
    decide_eq_false_iff_not, ← UInt8.toNat_inj, code, UInt8.reduceToNat]
  omega

/-- A list that begins with an element which does not occur again contains another one of
its kind at its start only. -/
theorem isInfix_iff_isPrefix_of_not_mem {α : Type} {first : α} {rest needle : List α}
    (once : first ∉ rest) :
    first :: needle <:+: first :: rest ↔ first :: needle <+: first :: rest := by
  rw [List.infix_cons_iff, or_iff_left_iff_imp]
  intro later
  exact absurd (later.subset List.mem_cons_self) once

/-- Numerals before a character that is no digit are compared as a whole. -/
theorem append_isPrefix_iff {digits digits' rest rest' : List Char} {first : Char}
    (isDigits : ∀ digit ∈ digits, digit.isDigit = true)
    (isDigits' : ∀ digit ∈ digits', digit.isDigit = true) (noDigit : first.isDigit = false) :
    digits ++ first :: rest <+: digits' ++ first :: rest' ↔
      digits = digits' ∧ rest <+: rest' := by
  induction digits generalizing digits' with
  | nil =>
      cases digits' with
      | nil =>
          rw [List.nil_append, List.nil_append, List.cons_prefix_cons]
          simp only [true_and]
      | cons digit' digits' =>
          have different : first ≠ digit' := by
            rintro rfl
            rw [isDigits' first List.mem_cons_self] at noDigit
            cases noDigit
          apply iff_of_false
          · intro isPrefix
            exact different (List.cons_prefix_cons.mp isPrefix).1
          · rintro ⟨⟨⟩, _⟩
  | cons digit digits ih =>
      cases digits' with
      | nil =>
          have different : digit ≠ first := by
            rintro rfl
            rw [isDigits digit List.mem_cons_self] at noDigit
            cases noDigit
          apply iff_of_false
          · intro isPrefix
            exact different (List.cons_prefix_cons.mp isPrefix).1
          · rintro ⟨⟨⟩, _⟩
      | cons digit' digits' =>
          have tail : ∀ digit ∈ digits, digit.isDigit = true := fun digit member =>
            isDigits digit (List.mem_cons_of_mem _ member)
          have inner := @ih digits' tail fun digit member =>
            isDigits' digit (List.mem_cons_of_mem _ member)
          rw [List.cons_append, List.cons_append, List.cons_prefix_cons, inner, List.cons.injEq,
            and_assoc]

/-- A message whose first character occurs only once, with two numbers in it. -/
theorem isInfix_numbers_iff {first : Char} {front middle : List Char}
    (numfiles totalFiles linesMatching : Nat) (noDigit : first.isDigit = false)
    (noSpace : first ≠ ' ') (notFront : first ∉ front) (notMiddle : first ∉ middle) :
    first :: (front ++ ((toString numfiles).toList ++ ' ' ::
          (middle ++ (toString numfiles).toList))) <:+:
        first :: (front ++ ((toString totalFiles).toList ++ ' ' ::
          (middle ++ (toString linesMatching).toList))) ↔
      totalFiles = numfiles ∧ (toString numfiles).toList <+: (toString linesMatching).toList := by
  have notNumber (number : Nat) : first ∉ (toString number).toList := by
    intro inside
    rw [isDigit_of_mem_repr inside] at noDigit
    contradiction
  have once : first ∉ front ++ ((toString totalFiles).toList ++ ' ' ::
      (middle ++ (toString linesMatching).toList)) := by
    simp only [List.mem_append, List.mem_cons, not_or]
    exact ⟨notFront, notNumber _, noSpace, notMiddle, notNumber _⟩
  rw [isInfix_iff_isPrefix_of_not_mem once, List.cons_prefix_cons, List.prefix_append_right_inj,
    append_isPrefix_iff (fun _ member => isDigit_of_mem_repr member)
      (fun _ member => isDigit_of_mem_repr member) (by decide), List.prefix_append_right_inj]
  constructor
  · rintro ⟨_, same, isPrefix⟩
    exact ⟨(toString_inj same).symm, isPrefix⟩
  · rintro ⟨rfl, isPrefix⟩
    exact ⟨rfl, rfl, isPrefix⟩

/-- The characters of a message with two numbers. -/
theorem toList_message (first second : String) :
    ("The number of files are " ++ first ++ " and the number of matching lines are " ++
      second).toList = 'T' :: ("he number of files are ".toList ++
        (first.toList ++ ' ' :: ("and the number of matching lines are ".toList ++
          second.toList))) := by
  simp

/-- The output contains the message exactly if the number of files is the same, and the
number of lines begins with it. -/
theorem matchStr_isInfix_iff (numfiles totalFiles linesMatching : Nat) :
    (matchStr numfiles).toList <:+: (Report.counts totalFiles linesMatching).message.toList ↔
      totalFiles = numfiles ∧ (toString numfiles).toList <+: (toString linesMatching).toList := by
  have notFront : 'T' ∉ "he number of files are ".toList := by simp
  have notMiddle : 'T' ∉ "and the number of matching lines are ".toList := by simp
  have compared := isInfix_numbers_iff numfiles totalFiles linesMatching
    (show 'T'.isDigit = false by decide) (by decide) notFront notMiddle
  have needle : (matchStr numfiles).toList = _ := toList_message _ _
  have output : (Report.counts totalFiles linesMatching).message.toList = _ := toList_message _ _
  exact (iff_of_eq (congrArg₂ _ needle output)).trans compared

/-- The numeral of zero begins with no other one. -/
theorem toString_isPrefix_zero_iff (number : Nat) :
    (toString number).toList <+: (toString 0).toList ↔ number = 0 := by
  constructor
  · intro isPrefix
    have nonempty : (toString number).toList ≠ [] := by
      rw [show toString number = number.repr from rfl, Nat.toList_repr]
      exact Nat.toDigits_ne_nil
    apply toString_inj
    apply isPrefix.eq_of_length_le
    exact List.length_pos_of_ne_nil nonempty
  · rintro rfl
    exact List.prefix_rfl

/-! ## The files of the test -/

/-- The file is opened, and the whole string is written to it. -/
def WriterOutcome.Complete (outcome : WriterOutcome) (writestr : Text) : Prop :=
  outcome.opened = true ∧ ∃ wrStatus, outcome.written = some wrStatus ∧ writestr.length ≤ wrStatus

theorem writer_complete_iff {outcome : WriterOutcome} {name writerfile writestr : Text}
    {files : List File} :
    (writer outcome [name, writerfile, writestr] files).1 = 0 ↔ outcome.Complete writestr := by
  rw [writer_eq_zero_iff]
  constructor
  · rintro ⟨_, _, _, same, complete⟩
    cases same
    exact complete
  · intro complete
    exact ⟨name, writerfile, writestr, rfl, complete⟩

/-- A file with a new path is added. -/
theorem putFile_of_new {path contents : Text} {files : List File}
    (new : ∀ file ∈ files, file.path ≠ path) :
    putFile path contents files = files ++ [⟨path, contents⟩] := by
  induction files with
  | nil => rfl
  | cons file files ih =>
      rw [putFile, if_neg (new file List.mem_cons_self),
        ih fun other member => new other (List.mem_cons_of_mem _ member)]
      rfl

theorem contentsAt_of_new {path : Text} {files : List File}
    (new : ∀ file ∈ files, file.path ≠ path) : contentsAt files path = none := by
  rw [contentsAt, List.find?_eq_none.mpr fun file member => by simpa using new file member]
  rfl

/-- A file that does not exist is given just the string. -/
theorem writer_of_new {outcome : WriterOutcome} {name writerfile writestr : Text}
    {files : List File} (complete : outcome.Complete writestr)
    (new : ∀ file ∈ files, file.path ≠ writerfile) :
    (writer outcome [name, writerfile, writestr] files).2 = files ++ [⟨writerfile, writestr⟩] := by
  rcases complete with ⟨opened, wrStatus, written, whole⟩
  rw [writer, if_pos opened, written, contentsAt_of_new new]
  dsimp only
  rw [List.take_of_length_le whole, overlay, Option.getD_none, List.drop_nil, List.append_nil,
    putFile_of_new new]

namespace FinderTest

variable (test : FinderTest)

/-- The files that the test is about. -/
def written : List File :=
  (List.range' 1 test.numfiles).map fun i => ⟨test.path i, test.writestr⟩

theorem path_inj {i j : Nat} (same : test.path i = test.path j) : i = j := by
  rw [path, path, List.append_cancel_left_eq, List.cons.injEq, List.append_assoc, List.append_assoc,
    List.append_cancel_left_eq, List.append_cancel_right_eq] at same
  exact numeral_inj same.2

/-- The loop succeeds when every run of `writer` does. -/
theorem writeFiles_eq_zero_iff (outcome : TestOutcome) (numbers : List Nat) (files : List File) :
    (test.writeFiles outcome numbers files).1 = 0 ↔
      ∀ i ∈ numbers, (outcome.writer i).Complete test.writestr := by
  induction numbers generalizing files with
  | nil => simp [writeFiles]
  | cons i numbers ih =>
      rw [writeFiles, List.forall_mem_cons, ← @writer_complete_iff _ [119, 114, 105, 116, 101, 114]
        (test.path i) _ files]
      by_cases complete : (FinderApp.writer (outcome.writer i) [[119, 114, 105, 116, 101, 114],
          test.path i, test.writestr] files).1 = 0
      · simp [complete, ih]
      · simp [complete]

theorem writeFiles_of_complete {outcome : TestOutcome} {numbers : List Nat} {files : List File}
    (complete : ∀ i ∈ numbers, (outcome.writer i).Complete test.writestr) (once : numbers.Nodup)
    (new : ∀ i ∈ numbers, ∀ file ∈ files, file.path ≠ test.path i) :
    (test.writeFiles outcome numbers files).2 =
      files ++ numbers.map fun i => ⟨test.path i, test.writestr⟩ := by
  induction numbers generalizing files with
  | nil => simp [writeFiles]
  | cons i numbers ih =>
      have first := complete i List.mem_cons_self
      have here := new i List.mem_cons_self
      have status := (@writer_complete_iff _ [119, 114, 105, 116, 101, 114] (test.path i) _
        files).mpr first
      have files' := @writer_of_new _ [119, 114, 105, 116, 101, 114] _ _ _ first here
      rw [List.nodup_cons] at once
      rw [writeFiles]
      simp only [status, files', ne_eq, not_true_eq_false, if_false]
      rw [ih (fun j member => complete j (List.mem_cons_of_mem _ member)) once.2, List.map_cons,
        List.append_assoc, List.singleton_append]
      intro j member file found
      rcases List.mem_append.mp found with old | added
      · exact new j (List.mem_cons_of_mem _ member) file old
      · rw [List.mem_singleton.mp added]
        intro same
        exact once.1 (test.path_inj same ▸ member)

end FinderTest

/-! ## What the test finds -/

/-- Where the paths are kept and all files have the same contents, all files count as
matching, or none. -/
theorem Host.KeepsPaths.finder_of_same_contents {host : Host} {filesdir searchstr text : Text}
    {entries : Entries} (kept : host.KeepsPaths filesdir (entries.files filesdir))
    (leads : host.target filesdir = some (.directory entries))
    (itself : host.entry filesdir = some (.directory entries))
    (isPattern : isOption searchstr = false)
    (same : ∀ file ∈ entries.files filesdir, file.contents = text) :
    host.finder [filesdir, searchstr] = .counts (entries.files filesdir).length
      (if (linesOf text).any (host.selects searchstr) then (entries.files filesdir).length
        else 0) := by
  have found : host.find (host.words filesdir) = listing (entries.files filesdir) := by
    rw [host.find_words kept.directory kept.isPath, filesAt, itself]
    rfl
  have lines :
      lineCount (listing (entries.files filesdir)) = (entries.files filesdir).length := by
    rw [lineCount_listing, length_eq_sum_iff]
    exact kept.singleLines
  have counted := host.countMatching_of_kept isPattern kept.directory.ne_nil kept.isPath itself
    kept.singleWords
  have searched : (entries.files filesdir).countP (fun file =>
        (linesOf file.contents).any (host.selects searchstr)) =
      (entries.files filesdir).countP fun _ => (linesOf text).any (host.selects searchstr) := by
    apply List.countP_congr
    intro file member
    rw [same file member]
  simp only [Node.files] at counted
  simp only [finder, leads, found, lines, counted, searched]
  split
  · rename_i matched
    simp only [matched, List.countP_true]
  · rename_i unmatched
    rw [Bool.not_eq_true] at unmatched
    simp only [unmatched, List.countP_false]
    rfl

namespace FinderTest

/-- The directory shows the files that the test has written, with their contents. -/
def Shows (test : FinderTest) (host : Host) : Prop :=
  ∃ entries, host.target test.writedir = some (.directory entries) ∧
    host.entry test.writedir = some (.directory entries) ∧
    (entries.files test.writedir).Perm test.written

theorem plain_path {test : FinderTest} (plain : Plain test.writedir)
    (plainName : Plain test.username) (i : Nat) : Plain (test.path i) := by
  intro byte member
  simp only [path, List.mem_append, List.mem_cons] at member
  rcases member with inDirectory | rfl | (inName | inNumber) | inExtension
  · exact plain byte inDirectory
  · decide
  · exact plainName byte inName
  · exact plain_numeral i byte inNumber
  · simp only [txtExtension, List.mem_cons, List.not_mem_nil, or_false] at inExtension
    rcases inExtension with rfl | rfl | rfl | rfl <;> decide

end FinderTest

/-- A report of all files, of which all or none match, decides about the test. -/
theorem FinderTest.exitStatus_eq_zero_iff (test : FinderTest) (outcome : TestOutcome)
    (host : List File → Host)
    (report : (host test.written).finder [test.writedir, test.writestr] = .counts test.numfiles
      (if (linesOf test.writestr).any ((host test.written).selects test.writestr) then
        test.numfiles else 0)) :
    test.exitStatus outcome host = 0 ↔
      outcome.Prepares ∧ outcome.resultWritten = true ∧ outcome.cleaned = true ∧
        (∀ i, 1 ≤ i → i ≤ test.numfiles → (outcome.writer i).Complete test.writestr) ∧
        (test.numfiles = 0 ∨
          (linesOf test.writestr).any ((host test.written).selects test.writestr) = true) := by
  have numbers (i : Nat) : i ∈ List.range' 1 test.numfiles ↔ 1 ≤ i ∧ i ≤ test.numfiles := by
    rw [List.mem_range'_1]
    omega
  have completes : (∀ i, 1 ≤ i → i ≤ test.numfiles → (outcome.writer i).Complete test.writestr) ↔
      (test.writeFiles outcome (List.range' 1 test.numfiles) []).1 = 0 := by
    rw [test.writeFiles_eq_zero_iff]
    simp only [numbers, and_imp]
  have accepted : (matchStr test.numfiles).toList <:+: (Report.counts test.numfiles
        (if (linesOf test.writestr).any ((host test.written).selects test.writestr) then
          test.numfiles else 0)).message.toList ↔
      test.numfiles = 0 ∨
        (linesOf test.writestr).any ((host test.written).selects test.writestr) = true := by
    rw [matchStr_isInfix_iff]
    split
    · rename_i matched
      simp [matched]
    · rename_i unmatched
      rw [toString_isPrefix_zero_iff, or_iff_left unmatched]
      simp
  rw [completes, exitStatus]
  by_cases prepared : outcome.Prepares
  · by_cases complete : (test.writeFiles outcome (List.range' 1 test.numfiles) []).1 = 0
    · have files : (test.writeFiles outcome (List.range' 1 test.numfiles) []).2 = test.written :=
        test.writeFiles_of_complete ((test.writeFiles_eq_zero_iff ..).mp complete)
          List.nodup_range' (fun _ _ _ member => absurd member List.not_mem_nil)
      rw [← accepted]
      simp only [prepared, complete, files, report, Report.exitStatus, ne_eq, not_true_eq_false,
        if_true, if_false, true_and, Bool.and_eq_true]
      by_cases ends : outcome.resultWritten = true ∧ outcome.cleaned = true
      · simp only [ends, and_self, if_true, true_and]
        split <;> simp [*]
      · rw [if_neg ends]
        apply iff_of_false (by decide)
        exact fun all => ends ⟨all.1, all.2.1⟩
    · simp [prepared, complete]
  · simp [prepared]

/-- The directory of the test is below `/tmp`. -/
theorem FinderTest.writedir_ofArguments (username : Text) (arguments : TestArguments) :
    (ofArguments username arguments).writedir ≠ [] ∧
      startsExpression (ofArguments username arguments).writedir = false := by
  have extended : defaultDirectory <+: (ofArguments username arguments).writedir := by
    cases arguments with
    | defaults => exact List.prefix_rfl
    | numfiles numfiles => exact List.prefix_rfl
    | all numfiles writestr directory => exact List.prefix_append ..
  rcases extended with ⟨rest, same⟩
  rw [← same]
  exact ⟨List.cons_ne_nil _ _, by simp [startsExpression, defaultDirectory, hyphen]⟩

end Aesd.FinderApp
