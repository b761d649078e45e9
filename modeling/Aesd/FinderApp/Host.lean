import Aesd.Word.Fields
import Aesd.Word.Lines
import Mathlib.Algebra.BigOperators.Group.List.Basic
import Mathlib.Algebra.Order.Ring.Int

/-!
# The directory tree and the utilities

A directory tree of any depth, the paths of its files as `find` lists them, and what
`wc`, `grep` and the expansions of the shell make of such paths.  A path is a string
of bytes; only `find` knows where one ends.
-/

namespace Aesd.FinderApp

open Aesd.Word

/-- A path, a word of a command line, or the contents of a file. -/
abbrev Text := List UInt8

def newline : UInt8 := 10

def hyphen : UInt8 := 45

def slash : UInt8 := 47

/-! ## Directory trees -/

mutual

/-- What a directory entry names; links, pipes and devices are `other`. -/
inductive Node where
  | file (contents : Text)
  | directory (entries : Entries)
  | other

/-- The entries of a directory. -/
inductive Entries where
  | nil
  | cons (name : Text) (node : Node) (rest : Entries)

end

/-- A regular file, with a path to it. -/
structure File where
  path : Text
  contents : Text
  deriving DecidableEq, Repr

/-- The path of a directory entry. -/
def entryPath (directory name : Text) : Text :=
  if directory.getLast? = some slash then directory ++ name else directory ++ slash :: name

mutual

/-- The regular files of a tree, with their paths, as `find path -type f` lists them. -/
def Node.files (path : Text) : Node → List File
  | .file contents => [⟨path, contents⟩]
  | .directory entries => entries.files path
  | .other => []

/-- The regular files below a directory. -/
def Entries.files (path : Text) : Entries → List File
  | .nil => []
  | .cons name node rest => node.files (entryPath path name) ++ rest.files path

end

theorem prefix_entryPath (directory name : Text) : directory <+: entryPath directory name := by
  unfold entryPath
  split
  · exact List.prefix_append ..
  · exact List.prefix_append ..

mutual

/-- The path of a file begins with the path of the tree. -/
theorem Node.prefix_of_mem_files {file : File} :
    ∀ (node : Node) {path : Text}, file ∈ node.files path → path <+: file.path
  | .file contents, path, member => by
      have only : file = ⟨path, contents⟩ := List.mem_singleton.mp member
      exact only ▸ List.prefix_rfl
  | .directory entries, path, member => entries.prefix_of_mem_files member
  | .other, path, member => absurd member List.not_mem_nil

theorem Entries.prefix_of_mem_files {file : File} :
    ∀ (entries : Entries) {path : Text}, file ∈ entries.files path → path <+: file.path
  | .nil, path, member => absurd member List.not_mem_nil
  | .cons name node rest, path, member => by
      rcases List.mem_append.mp member with inside | behind
      · exact (prefix_entryPath path name).trans (node.prefix_of_mem_files inside)
      · exact rest.prefix_of_mem_files behind

end

/-! ## The shell and the utilities -/

/-- The separators of fields: space, tab and newline. -/
def isFieldSeparator (byte : UInt8) : Bool :=
  byte = 32 || byte = 9 || byte = newline

/-- The characters `*`, `?`, `[` and backslash of a pattern for paths. -/
def isPatternCharacter (byte : UInt8) : Bool :=
  byte = 42 || byte = 63 || byte = 91 || byte = 92

/-- A word that `grep` takes as an option.  A single hyphen is a pattern, or the name of
standard input. -/
def isOption (word : Text) : Bool :=
  word.head? = some hyphen && word != [hyphen]

/-- A word with which the expression of `find` begins: one with a hyphen at its start, or
one of `!`, `(`, `)` and `,`. -/
def startsExpression (word : Text) : Bool :=
  word.head? = some hyphen || word ∈ [[33], [40], [41], [44]]

/-- The lines of a file, the last of which may have no newline. -/
def linesOf (contents : Text) : List Text :=
  (lines newline contents).map List.dropLast ++
    if remainder newline contents = [] then [] else [remainder newline contents]

/-- The file system, and the utilities where it decides what they do.  A path names an
entry, and leads to another one if the entry is a link. -/
structure Host where
  entry : Text → Option Node
  target : Text → Option Node
  /-- What `grep` reads for an operand; for a single hyphen this is standard input. -/
  read : Text → Option Text
  /-- The expansion of a field that may be a pattern for paths. -/
  expand : Text → List Text
  /-- The lines that a search string selects. -/
  selects : Text → Text → Bool
  /-- What `find` writes without a path, or with an expression of its own. -/
  findOther : List Text → Text
  /-- The success of `grep -q` when it takes a word as an option. -/
  grepOther : Text → Text → Bool
  /-- A path names what it leads to, or else a link. -/
  entry_of_target {path : Text} {node : Node} (leads : target path = some node) :
    entry path = some node ∨ entry path = some .other
  /-- The path of a file in a tree can be read, and is that file's. -/
  read_file {path : Text} {node : Node} {file : File} (found : entry path = some node)
    (member : file ∈ node.files path) : read file.path = some file.contents
  expand_plain {field : Text} (plain : ∀ byte ∈ field, isPatternCharacter byte = false) :
    expand field = [field]

/-- An unquoted expansion: its text is split into fields, and each field expanded. -/
def Host.words (host : Host) (text : Text) : List Text :=
  (fields isFieldSeparator text).flatMap host.expand

/-- The text that a command substitution leaves of an output. -/
def substituted (output : Text) : Text :=
  output.rdropWhile (· = newline)

/-- The output of `find` for the files it has found. -/
def listing (files : List File) : Text :=
  (files.map File.path).flatMap (· ++ [newline])

/-- The regular files of the tree at a path; a link is not followed. -/
def Host.filesAt (host : Host) (path : Text) : List File :=
  match host.entry path with
  | none => []
  | some node => node.files path

/-- The output of `find` with the given words and `-type f`. -/
def Host.find (host : Host) (operands : List Text) : Text :=
  if operands = [] || operands.any startsExpression then
    host.findOther operands
  else
    listing (operands.flatMap host.filesAt)

/-- The output of `wc -l`. -/
def lineCount (input : Text) : Nat :=
  input.count newline

/-- The success of `grep -q` with a search string and an operand. -/
def Host.grepQuiet (host : Host) (searchstr operand : Text) : Bool :=
  if isOption searchstr || isOption operand then
    host.grepOther searchstr operand
  else
    match host.read operand with
    | none => false
    | some contents => (linesOf contents).any (host.selects searchstr)

/-! ## What they make of paths -/

/-- Every path counts as a line for each newline in it, and one for its end. -/
theorem lineCount_listing (files : List File) :
    lineCount (listing files) =
      (files.map fun file => file.path.count newline + 1).sum := by
  induction files with
  | nil => rfl
  | cons file files ih =>
      rw [lineCount, listing] at ih ⊢
      rw [List.map_cons, List.flatMap_cons, List.count_append, ih, List.count_append,
        List.map_cons, List.sum_cons, List.count_singleton_self]

/-- The words of a listing are the words of its paths. -/
theorem Host.words_listing (host : Host) (files : List File) :
    host.words (substituted (listing files)) =
      files.flatMap fun file => host.words file.path := by
  have separators : ∀ byte, decide (byte = newline) = true → isFieldSeparator byte = true := by
    intro byte isNewline
    simp [isFieldSeparator, of_decide_eq_true isNewline]
  have terminator : isFieldSeparator newline = true := by decide
  rw [words, substituted, fields_rdropWhile separators, listing,
    fields_flatMap_concat _ terminator, List.flatMap_assoc, List.flatMap_map]
  rfl

/-- The shell keeps a path as a single word. -/
def Host.Keeps (host : Host) (path : Text) : Prop :=
  host.words path = [path]

instance (host : Host) (path : Text) : Decidable (host.Keeps path) :=
  inferInstanceAs (Decidable (_ = _))

theorem Host.words_nil (host : Host) : host.words [] = [] := by
  rw [words, fields_nil, List.flatMap_nil]

theorem Host.Keeps.ne_nil {host : Host} {path : Text} (kept : host.Keeps path) : path ≠ [] := by
  rintro rfl
  rw [Keeps, host.words_nil] at kept
  contradiction

/-- A path without separators and pattern characters is kept. -/
theorem Host.keeps_of_plain (host : Host) {path : Text} (nonempty : path ≠ [])
    (plain : ∀ byte ∈ path, isFieldSeparator byte = false ∧ isPatternCharacter byte = false) :
    host.Keeps path := by
  rw [Keeps, words, fields_eq_singleton nonempty fun byte member => (plain byte member).1,
    List.flatMap_singleton]
  exact host.expand_plain fun byte member => (plain byte member).2

/-- `find` lists the tree at a path that is kept and is taken as a path. -/
theorem Host.find_words (host : Host) {path : Text} (kept : host.Keeps path)
    (isPath : startsExpression path = false) :
    host.find (host.words path) = listing (host.filesAt path) := by
  have single : host.words path = [path] := kept
  simp [find, single, isPath]

/-- A file below a path that `find` takes as one is not taken as an option. -/
theorem isOption_of_extended {path longer : Text} (extended : path <+: longer)
    (nonempty : path ≠ []) (isPath : startsExpression path = false) : isOption longer = false := by
  rcases extended with ⟨rest, rfl⟩
  rw [startsExpression, Bool.or_eq_false_iff] at isPath
  rw [isOption, List.head?_append_of_ne_nil _ nonempty, isPath.1, Bool.false_and]

/-- `grep -q` succeeds for a file that has a matching line. -/
theorem Host.grepQuiet_file (host : Host) {searchstr path : Text} {node : Node} {file : File}
    (isPattern : isOption searchstr = false) (isPath : isOption file.path = false)
    (found : host.entry path = some node) (member : file ∈ node.files path) :
    host.grepQuiet searchstr file.path =
      (linesOf file.contents).any (host.selects searchstr) := by
  simp [grepQuiet, isPattern, isPath, host.read_file found member]

end Aesd.FinderApp
