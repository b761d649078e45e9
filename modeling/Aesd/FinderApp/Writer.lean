import Aesd.FinderApp.Host

/-!
# Writing a string to a file

`writer.c` opens its file without truncating it and writes at its start.  What a file
has held beyond the end of the new string stays, so the runs of the program lie on top
of each other like layers.
-/

namespace Aesd.FinderApp

/-! ## Layers of text -/

/-- A text written at the start of an old one. -/
def overlay (old text : Text) : Text :=
  text ++ old.drop text.length

theorem length_overlay (old text : Text) :
    (overlay old text).length = max old.length text.length := by
  rw [overlay, List.length_append, List.length_drop]
  omega

/-- A position shows the new text where it reaches it. -/
theorem overlay_getElem? (old text : Text) (position : Nat) :
    (overlay old text)[position]? =
      if position < text.length then text[position]? else old[position]? := by
  unfold overlay
  split
  · rename_i inside
    exact List.getElem?_append_left inside
  · rename_i behind
    rw [List.getElem?_append_right (Nat.le_of_not_lt behind), List.getElem?_drop]
    congr 1
    omega

theorem overlay_eq_self_iff {old text : Text} :
    overlay old text = text ↔ old.length ≤ text.length := by
  rw [overlay, List.append_right_eq_self, List.drop_eq_nil_iff]

/-- Texts written one after the other. -/
def layers (old : Text) (texts : List Text) : Text :=
  texts.foldl overlay old

theorem layers_concat (old : Text) (texts : List Text) (text : Text) :
    layers old (texts ++ [text]) = overlay (layers old texts) text :=
  List.foldl_concat ..

/-- The layers are as long as the longest of them. -/
theorem length_layers_le_iff {old : Text} {texts : List Text} {bound : Nat} :
    (layers old texts).length ≤ bound ↔
      old.length ≤ bound ∧ ∀ text ∈ texts, text.length ≤ bound := by
  induction texts using List.reverseRecOn with
  | nil => simp [layers]
  | append_singleton texts text ih =>
      rw [layers_concat, length_overlay, Nat.max_le, ih, and_assoc]
      simp [or_imp, forall_and]

/-- A position shows the last layer that reaches it. -/
theorem layers_getElem? (old : Text) (texts : List Text) (position : Nat) :
    (layers old texts)[position]? =
      ((texts.reverse.find? fun text => position < text.length).getD old)[position]? := by
  induction texts using List.reverseRecOn with
  | nil => rfl
  | append_singleton texts text ih =>
      rw [layers_concat, overlay_getElem?, List.reverse_append, List.reverse_singleton,
        List.singleton_append, List.find?_cons]
      split
      · rename_i inside
        rw [decide_eq_true inside]
        rfl
      · rename_i behind
        rw [decide_eq_false behind]
        exact ih

/-! ## The program -/

/-- The contents of the regular file at a path.  A file is known by one path: another path
to it, such as `./f` for `f` or a link, would be another file here. -/
def contentsAt (files : List File) (path : Text) : Option Text :=
  (files.find? fun file => file.path = path).map File.contents

/-- Give the file at a path other contents; a file that does not exist is created. -/
def putFile (path contents : Text) : List File → List File
  | [] => [⟨path, contents⟩]
  | file :: files =>
      if file.path = path then ⟨path, contents⟩ :: files else file :: putFile path contents files

/-- What the calls of the program return: whether the file is opened, and how much
`write` accepts, if it does not fail. -/
structure WriterOutcome where
  opened : Bool
  written : Option Nat

/-- The program `writer`; the first argument is its own name.  The result is the exit
status, and the files. -/
def writer (outcome : WriterOutcome) (argv : List Text) (files : List File) :
    Nat × List File :=
  match argv with
  | [_, writerfile, writestr] =>
      if outcome.opened then
        -- `O_CREAT` without `O_TRUNC`
        let old := (contentsAt files writerfile).getD []
        match outcome.written with
        | none => (1, putFile writerfile old files)
        | some wrStatus =>
            (if wrStatus < writestr.length then 1 else 0,
              putFile writerfile (overlay old (writestr.take wrStatus)) files)
      else
        (1, files)
  | _ => (1, files)

theorem contentsAt_cons (file : File) (files : List File) (path : Text) :
    contentsAt (file :: files) path =
      if file.path = path then some file.contents else contentsAt files path := by
  by_cases here : file.path = path <;> simp [contentsAt, here]

theorem contentsAt_putFile (path contents : Text) (files : List File) (other : Text) :
    contentsAt (putFile path contents files) other =
      if other = path then some contents else contentsAt files other := by
  induction files with
  | nil =>
      rw [putFile, contentsAt_cons]
      exact if_congr eq_comm rfl rfl
  | cons file files ih =>
      unfold putFile
      split
      · rename_i here
        rw [contentsAt_cons, contentsAt_cons, here]
        by_cases same : path = other
        · rw [if_pos same, if_pos same.symm]
        · rw [if_neg same, if_neg (Ne.symm same), if_neg same]
      · rename_i here
        rw [contentsAt_cons, contentsAt_cons, ih]
        by_cases same : file.path = other
        · rw [if_pos same, if_pos same, if_neg fun found => here (same.trans found)]
        · rw [if_neg same, if_neg same]

/-- The program succeeds when it is given two arguments and everything is written. -/
theorem writer_eq_zero_iff {outcome : WriterOutcome} {argv : List Text} {files : List File} :
    (writer outcome argv files).1 = 0 ↔ ∃ name writerfile writestr,
      argv = [name, writerfile, writestr] ∧ outcome.opened = true ∧
        ∃ wrStatus, outcome.written = some wrStatus ∧ writestr.length ≤ wrStatus := by
  rcases outcome with ⟨opened, written⟩
  unfold writer
  split
  · rename_i name writerfile writestr
    cases opened with
    | false => simp
    | true =>
        cases written with
        | none => simp
        | some wrStatus => simp
  · rename_i wrong
    simp only [Nat.succ_ne_self, false_iff]
    rintro ⟨name, writerfile, writestr, same, _⟩
    exact wrong name writerfile writestr same

/-! ## Runs of the program -/

/-- A run of the program, with its outcomes. -/
structure WriterRun where
  argv : List Text
  outcome : WriterOutcome

def WriterRun.apply (files : List File) (run : WriterRun) : List File :=
  (writer run.outcome run.argv files).2

/-- The file that a run opens, and what it lays on top. -/
def WriterRun.laid (run : WriterRun) : Option (Text × Text) :=
  match run.argv with
  | [_, writerfile, writestr] =>
      if run.outcome.opened then
        some (writerfile, writestr.take (run.outcome.written.getD 0))
      else
        none
  | _ => none

/-- What runs lay on a file, in order. -/
def laidOn (path : Text) (runs : List WriterRun) : List Text :=
  ((runs.filterMap WriterRun.laid).filter fun layer => layer.1 = path).map Prod.snd

theorem laidOn_concat (path : Text) (runs : List WriterRun) (run : WriterRun) :
    laidOn path (runs ++ [run]) = laidOn path runs ++ laidOn path [run] := by
  rw [laidOn, List.filterMap_append, List.filter_append, List.map_append]
  rfl

theorem WriterRun.apply_eq (files : List File) (run : WriterRun) :
    run.apply files = match run.laid with
      | none => files
      | some (path, text) =>
          putFile path (overlay ((contentsAt files path).getD []) text) files := by
  rcases run with ⟨argv, opened, written⟩
  unfold apply laid writer
  dsimp only
  split
  · cases opened with
    | false => rfl
    | true => cases written <;> rfl
  · rfl

/-- A file holds the layers of the runs that have opened it. -/
theorem contentsAt_runs (files : List File) (runs : List WriterRun) (path : Text) :
    contentsAt (runs.foldl WriterRun.apply files) path =
      if laidOn path runs = [] then contentsAt files path
      else some (layers ((contentsAt files path).getD []) (laidOn path runs)) := by
  induction runs using List.reverseRecOn with
  | nil => rfl
  | append_singleton runs run ih =>
      rw [List.foldl_concat, WriterRun.apply_eq, laidOn_concat]
      cases layer : run.laid with
      | none =>
          have nothing : laidOn path [run] = [] := by simp [laidOn, layer]
          rw [nothing, List.append_nil]
          exact ih
      | some written =>
          rcases written with ⟨writerfile, text⟩
          dsimp only
          rw [contentsAt_putFile]
          by_cases same : path = writerfile
          · have laid : laidOn path [run] = [text] := by simp [laidOn, layer, same]
            rw [if_pos same, laid, if_neg (List.concat_ne_nil _ _), layers_concat, ← same, ih]
            split
            · rename_i nothing
              rw [nothing]
              rfl
            · rfl
          · have nothing : laidOn path [run] = [] := by
              simp [laidOn, layer, Ne.symm same]
            rw [if_neg same, nothing, List.append_nil]
            exact ih

/-- After any sequence of runs of the program, with whatever failures, a byte of a file is
that of the last string of which so much has been written, and a last run that has written
its whole string leaves the file with just this string exactly if neither what the file
held at first nor what any run has written to it was longer. -/
theorem writer_runs_are_layers (files : List File) (runs : List WriterRun) (path : Text) :
    (∀ position, ((contentsAt (runs.foldl WriterRun.apply files) path).getD [])[position]? =
      (((laidOn path runs).reverse.find? fun text => position < text.length).getD
        ((contentsAt files path).getD []))[position]?) ∧
      ∀ (outcome : WriterOutcome) (name writestr : Text),
        (writer outcome [name, path, writestr] (runs.foldl WriterRun.apply files)).1 = 0 →
        (contentsAt (writer outcome [name, path, writestr]
            (runs.foldl WriterRun.apply files)).2 path = some writestr ↔
          ((contentsAt files path).getD []).length ≤ writestr.length ∧
            ∀ text ∈ laidOn path runs, text.length ≤ writestr.length) := by
  have held : (contentsAt (runs.foldl WriterRun.apply files) path).getD [] =
      layers ((contentsAt files path).getD []) (laidOn path runs) := by
    rw [contentsAt_runs]
    split
    · rename_i nothing
      rw [nothing]
      rfl
    · rfl
  constructor
  · intro position
    rw [held, layers_getElem?]
  · intro outcome name writestr succeeds
    rcases writer_eq_zero_iff.mp succeeds with ⟨_, _, _, ⟨⟩, opened, wrStatus, written, whole⟩
    have laid : WriterRun.laid ⟨[name, path, writestr], outcome⟩ = some (path, writestr) := by
      change (if outcome.opened then some (path, writestr.take (outcome.written.getD 0))
        else none) = _
      rw [if_pos opened, written, Option.getD_some, List.take_of_length_le whole]
    have effect := WriterRun.apply_eq (runs.foldl WriterRun.apply files)
      ⟨[name, path, writestr], outcome⟩
    rw [laid] at effect
    rw [show (writer outcome [name, path, writestr] _).2 = _ from effect]
    dsimp only
    rw [contentsAt_putFile, if_pos rfl, Option.some.injEq, overlay_eq_self_iff, held,
      length_layers_le_iff]

end Aesd.FinderApp
