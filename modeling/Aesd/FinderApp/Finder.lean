import Aesd.FinderApp.Host

/-!
# Counting files and matching lines

`finder.sh` counts the lines that `find` writes, and then the words of what `find`
writes for which `grep -q` succeeds.  It counts a file with a match once, and the words
of a path that the shell splits or expands in its place.
-/

namespace Aesd.FinderApp

/-! ## The script -/

/-- What the script prints. -/
inductive Report where
  | invalidNumberOfArguments
  | invalidDirectoryPath
  | counts (totalFiles linesMatching : Nat)
  deriving DecidableEq, Repr

def Report.message : Report → String
  | .invalidNumberOfArguments => "Error:1 The Invalid number of arguments "
  | .invalidDirectoryPath => "Error: 1 The provided directory path is not valid"
  | .counts totalFiles linesMatching =>
      "The number of files are " ++ toString totalFiles ++
        " and the number of matching lines are " ++ toString linesMatching

def Report.exitStatus : Report → Nat
  | .counts _ _ => 0
  | _ => 1

/-- The loop of the script. -/
def Host.countMatching (host : Host) (searchstr : Text) : Nat → List Text → Nat
  | linesMatching, [] => linesMatching
  | linesMatching, i :: rest =>
      if host.grepQuiet searchstr i then
        host.countMatching searchstr (linesMatching + 1) rest
      else
        host.countMatching searchstr linesMatching rest

/-- The script `finder.sh`; `$filesdir` is quoted for `[ -d ]` only. -/
def Host.finder (host : Host) : List Text → Report
  | [filesdir, searchstr] =>
      match host.target filesdir with
      | some (.directory _) =>
          .counts (lineCount (host.find (host.words filesdir)))
            (host.countMatching searchstr 0
              (host.words (substituted (host.find (host.words filesdir)))))
      | _ => .invalidDirectoryPath
  | _ => .invalidNumberOfArguments

/-! ## The numbers -/

/-- The lines of a file that match. -/
def Host.matchingLines (host : Host) (searchstr : Text) (file : File) : Nat :=
  (linesOf file.contents).countP (host.selects searchstr)

/-- The number of files, and the number of matching lines in all of them. -/
def Host.expected (host : Host) (searchstr : Text) (files : List File) : Report :=
  .counts files.length (files.map (host.matchingLines searchstr)).sum

/-- The paths go through the shell as they are: `$filesdir` reaches `find` as one word that
is taken as a path, and the path of each file is one word, and one line. -/
structure Host.KeepsPaths (host : Host) (filesdir : Text) (files : List File) : Prop where
  directory : host.Keeps filesdir
  isPath : startsExpression filesdir = false
  singleWords : ∀ file ∈ files, host.Keeps file.path
  singleLines : ∀ file ∈ files, newline ∉ file.path

/-- The condition for the right numbers: the paths are kept, the directory is not behind a
link unless there are no files in it, and no file has more than one matching line. -/
structure Host.CountsRight (host : Host) (filesdir searchstr : Text) (files : List File) :
    Prop extends host.KeepsPaths filesdir files where
  notLink : host.entry filesdir = some .other → files = []
  oneLine : ∀ file ∈ files, host.matchingLines searchstr file ≤ 1

theorem Host.countMatching_eq (host : Host) (searchstr : Text) (linesMatching : Nat)
    (words : List Text) :
    host.countMatching searchstr linesMatching words =
      linesMatching + words.countP (host.grepQuiet searchstr) := by
  induction words generalizing linesMatching with
  | nil => rfl
  | cons i rest ih =>
      by_cases succeeds : host.grepQuiet searchstr i = true
      · rw [countMatching, if_pos succeeds, ih, List.countP_cons_of_pos succeeds]
        omega
      · rw [countMatching, if_neg succeeds, ih, List.countP_cons_of_neg succeeds]

theorem length_eq_sum_iff (files : List File) :
    (files.map fun file => file.path.count newline + 1).sum = files.length ↔
      ∀ file ∈ files, newline ∉ file.path := by
  have split : (files.map fun file => file.path.count newline + 1).sum =
      (files.map fun file => file.path.count newline).sum + files.length := by
    simp [List.sum_map_add]
  rw [split, Nat.add_eq_right, List.sum_eq_zero_iff_forall_eq_nat]
  simp [List.count_eq_zero]

/-- The success of a search, as a number, and the further matches are all matches. -/
theorem any_add_countP_sub_one {α : Type} (selects : α → Bool) (words : List α) :
    (if words.any selects then 1 else 0) + (words.countP selects - 1) = words.countP selects := by
  by_cases found : words.any selects = true
  · have positive : 0 < words.countP selects :=
      List.countP_pos_iff.mpr (List.any_eq_true.mp found)
    rw [if_pos found]
    omega
  · have absent : words.countP selects = 0 := by
      simpa [List.countP_eq_zero] using found
    rw [if_neg found, absent]

/-- The words of a listing whose paths are kept are the paths. -/
theorem Host.words_listing_of_kept (host : Host) {files : List File}
    (kept : ∀ file ∈ files, host.Keeps file.path) :
    host.words (substituted (listing files)) = files.map File.path := by
  rw [words_listing, List.map_eq_flatMap]
  exact List.flatMap_congr kept

/-- The loop counts each file with a matching line once. -/
theorem Host.countMatching_of_kept (host : Host) {searchstr path : Text} {node : Node}
    (isPattern : isOption searchstr = false) (nonempty : path ≠ [])
    (isPath : startsExpression path = false) (found : host.entry path = some node)
    (kept : ∀ file ∈ node.files path, host.Keeps file.path) :
    host.countMatching searchstr 0 (host.words (substituted (listing (node.files path)))) =
      (node.files path).countP fun file =>
        (linesOf file.contents).any (host.selects searchstr) := by
  rw [countMatching_eq, Nat.zero_add, host.words_listing_of_kept kept, List.countP_map]
  apply List.countP_congr
  intro file member
  have isFile := isOption_of_extended (node.prefix_of_mem_files member) nonempty isPath
  rw [Function.comp_apply, host.grepQuiet_file isPattern isFile found member]

/-- What is counted once for each file are all matching lines exactly if no file has more
than one. -/
theorem Host.countP_eq_sum_iff (host : Host) (searchstr : Text) (files : List File) :
    files.countP (fun file => (linesOf file.contents).any (host.selects searchstr)) =
        (files.map (host.matchingLines searchstr)).sum ↔
      ∀ file ∈ files, host.matchingLines searchstr file ≤ 1 := by
  have counted : files.countP (fun file => (linesOf file.contents).any (host.selects searchstr)) +
        (files.map fun file => host.matchingLines searchstr file - 1).sum =
      (files.map (host.matchingLines searchstr)).sum := by
    induction files with
    | nil => rfl
    | cons file files ih =>
        have here := any_add_countP_sub_one (host.selects searchstr) (linesOf file.contents)
        rw [List.countP_cons, List.map_cons, List.sum_cons, List.map_cons, List.sum_cons, ← ih,
          matchingLines]
        omega
  have noLoss : (files.map fun file => host.matchingLines searchstr file - 1).sum = 0 ↔
      ∀ file ∈ files, host.matchingLines searchstr file ≤ 1 := by
    rw [List.sum_eq_zero_iff_forall_eq_nat, List.forall_mem_map]
    apply forall₂_congr
    intro file _
    rw [Nat.sub_eq_zero_iff_le]
  rw [← noLoss]
  omega

/-- Where the paths are kept, the numbers are right exactly under the condition. -/
theorem Host.KeepsPaths.finder_eq_expected_iff {host : Host} {filesdir searchstr : Text}
    {entries : Entries} (kept : host.KeepsPaths filesdir (entries.files filesdir))
    (leads : host.target filesdir = some (.directory entries))
    (isPattern : isOption searchstr = false) :
    host.finder [filesdir, searchstr] = host.expected searchstr (entries.files filesdir) ↔
      host.CountsRight filesdir searchstr (entries.files filesdir) := by
  have conditions : host.CountsRight filesdir searchstr (entries.files filesdir) ↔
      (host.entry filesdir = some .other → entries.files filesdir = []) ∧
        ∀ file ∈ entries.files filesdir, host.matchingLines searchstr file ≤ 1 :=
    ⟨fun right => ⟨right.notLink, right.oneLine⟩,
      fun both => { kept with notLink := both.1, oneLine := both.2 }⟩
  simp only [finder, leads, expected, Report.counts.injEq,
    host.find_words kept.directory kept.isPath, filesAt, conditions]
  rcases host.entry_of_target leads with itself | link
  · have lines : lineCount (listing (entries.files filesdir)) =
        (entries.files filesdir).length := by
      rw [lineCount_listing, length_eq_sum_iff]
      exact kept.singleLines
    have counted := host.countMatching_of_kept isPattern kept.directory.ne_nil kept.isPath itself
      kept.singleWords
    simp only [itself, Node.files] at counted ⊢
    rw [lines, counted, host.countP_eq_sum_iff]
    simp
  · -- a link is not followed by `find`
    have nothing : host.words (substituted (listing [])) = [] := host.words_listing []
    have empty : lineCount (listing []) = 0 := rfl
    simp only [link, Node.files, nothing, empty, countMatching, forall_const]
    constructor
    · rintro ⟨none, _⟩
      have empty := List.eq_nil_of_length_eq_zero none.symm
      simp [empty]
    · rintro ⟨empty, _⟩
      simp [empty]

/-- For every directory tree and every search string that is a pattern, `finder.sh` prints
the number of files and the number of matching lines under the condition; and where the
paths go through the shell as they are, only under it. -/
theorem finder_counts_right_iff (host : Host) {filesdir searchstr : Text} {entries : Entries}
    (leads : host.target filesdir = some (.directory entries))
    (isPattern : isOption searchstr = false) :
    (host.CountsRight filesdir searchstr (entries.files filesdir) →
      host.finder [filesdir, searchstr] = host.expected searchstr (entries.files filesdir)) ∧
    (host.KeepsPaths filesdir (entries.files filesdir) →
      host.finder [filesdir, searchstr] = host.expected searchstr (entries.files filesdir) →
      host.CountsRight filesdir searchstr (entries.files filesdir)) :=
  ⟨fun right => (right.toKeepsPaths.finder_eq_expected_iff leads isPattern).mpr right,
    fun kept => (kept.finder_eq_expected_iff leads isPattern).mp⟩

/-! ## Plain names -/

/-- No separator and no pattern character. -/
def Plain (path : Text) : Prop :=
  ∀ byte ∈ path, isFieldSeparator byte = false ∧ isPatternCharacter byte = false

theorem Plain.not_mem_newline {path : Text} (plain : Plain path) : newline ∉ path := by
  intro member
  exact absurd (plain newline member).1 (by decide)

/-- Plain paths are kept. -/
theorem Host.keepsPaths_of_plain (host : Host) {filesdir : Text} {entries : Entries}
    (nonempty : filesdir ≠ []) (isPath : startsExpression filesdir = false)
    (plain : Plain filesdir) (plainFiles : ∀ file ∈ entries.files filesdir, Plain file.path) :
    host.KeepsPaths filesdir (entries.files filesdir) where
  directory := host.keeps_of_plain nonempty plain
  isPath := isPath
  singleWords file member :=
    host.keeps_of_plain ((entries.prefix_of_mem_files member).ne_nil nonempty)
      (plainFiles file member)
  singleLines file member := (plainFiles file member).not_mem_newline

/-- The script succeeds with two arguments, the first of which leads to a directory. -/
theorem Host.exitStatus_finder (host : Host) (arguments : List Text) :
    (host.finder arguments).exitStatus = 0 ↔
      ∃ filesdir searchstr entries, arguments = [filesdir, searchstr] ∧
        host.target filesdir = some (.directory entries) := by
  constructor
  · intro succeeds
    unfold finder at succeeds
    split at succeeds
    case h_1 filesdir searchstr =>
      split at succeeds
      case h_1 entries leads => exact ⟨filesdir, searchstr, entries, rfl, leads⟩
      case h_2 => contradiction
    case h_2 => contradiction
  · rintro ⟨filesdir, searchstr, entries, rfl, leads⟩
    simp [finder, leads, Report.exitStatus]

/-! ## A directory with a single file -/

/-- The entries of a directory with a single file. -/
def oneFileTree (name contents : Text) : Entries :=
  .cons name (.file contents) .nil

/-- The entries of the file system: a directory, and its file. -/
def oneFileEntry (directory name contents path : Text) : Option Node :=
  if path = directory then
    some (.directory (oneFileTree name contents))
  else if path = entryPath directory name then
    some (.file contents)
  else
    none

theorem read_oneFile {directory name contents path : Text} {node : Node} {file : File}
    (found : oneFileEntry directory name contents path = some node)
    (member : file ∈ node.files path) :
    (if file.path = entryPath directory name then some contents else none) =
      some file.contents := by
  rw [oneFileEntry] at found
  split at found
  case isTrue same =>
    cases found
    have only : file = ⟨entryPath directory name, contents⟩ := by
      simpa [oneFileTree, Node.files, Entries.files, same] using member
    simp [only]
  case isFalse =>
    split at found
    case isTrue same =>
      cases found
      have only : file = ⟨entryPath directory name, contents⟩ := by
        simpa [Node.files, same] using member
      simp [only]
    case isFalse => contradiction

/-- The file system with a directory and its file.  A search string selects the lines that
it is a part of. -/
def oneFile (directory name contents : Text) : Host where
  entry := oneFileEntry directory name contents
  target := oneFileEntry directory name contents
  read path := if path = entryPath directory name then some contents else none
  expand field := [field]
  selects searchstr line := line.tails.any searchstr.isPrefixOf
  findOther _ := []
  grepOther _ _ := false
  entry_of_target leads := .inl leads
  read_file := read_oneFile
  expand_plain _ := rfl

/-- The file `d/a` with the lines `-` and `z`, and the search string `-`. -/
theorem finder_counts_right_iff_oneFile :
    (oneFile [100] [97] [45, 10, 122]).finder [[100], [45]] =
      (oneFile [100] [97] [45, 10, 122]).expected [45]
        ((oneFileTree [97] [45, 10, 122]).files [100]) := by
  apply (@finder_counts_right_iff (oneFile [100] [97] [45, 10, 122]) [100] [45]
    (oneFileTree [97] [45, 10, 122]) rfl (by decide)).1
  constructor
  · constructor <;> decide +kernel
  · rintro ⟨⟩
  · decide +kernel

/-- A file `d/a` with two matching lines counts as one line; and of the file `d/a b` with a
matching line the words `d/a` and `b` are searched, which do not exist. -/
theorem finder_miscounts :
    ((oneFile [100] [97] [120, 10, 120, 10]).target [100] =
        some (.directory (oneFileTree [97] [120, 10, 120, 10])) ∧
      (oneFile [100] [97] [120, 10, 120, 10]).finder [[100], [120]] ≠
        (oneFile [100] [97] [120, 10, 120, 10]).expected [120]
          ((oneFileTree [97] [120, 10, 120, 10]).files [100])) ∧
      (oneFile [100] [97, 32, 98] [120, 10]).target [100] =
        some (.directory (oneFileTree [97, 32, 98] [120, 10])) ∧
      (oneFile [100] [97, 32, 98] [120, 10]).finder [[100], [120]] ≠
        (oneFile [100] [97, 32, 98] [120, 10]).expected [120]
          ((oneFileTree [97, 32, 98] [120, 10]).files [100]) :=
  ⟨⟨rfl, by decide +kernel⟩, rfl, by decide +kernel⟩

end Aesd.FinderApp
