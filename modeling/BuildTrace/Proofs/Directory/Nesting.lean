import BuildTrace.Directory.History
import BuildTrace.Proofs.Text.Occurrence

/-!
# Nested directories

A run of make in another run announces the directory it enters and the one it leaves. If the lines
in between enter and leave directories like matching brackets, and never change the directory
without remembering where to return, they can be followed without knowledge of the directories to
return to, and leave the history as it was.

## Main definitions

* `Move.entering` and `Move.leaving`: the announcements of make;
* `Nested`: lines that enter and leave directories like matching brackets;
* `depth?`: the number of directories that were entered and not left.

## Main results

* `Move.ofLine?_entering` and `Move.ofLine?_leaving`: announcements are recognized;
* `nested_iff`: lines are nested if and only if their depth says so.
-/

namespace BuildTrace.Directory

/-! ## Announcements -/

namespace Move

/-- What make prints when it enters a directory. -/
def entering (directory : String) : String := "make: Entering directory '" ++ directory ++ "'"

/-- What make prints when it leaves a directory. -/
def leaving (directory : String) : String := "make: Leaving directory '" ++ directory ++ "'"

theorem toList_announcement {lead : String} {rest : List Char} (directory : String)
    (h : lead.toList = 'm' :: rest) :
    (lead ++ directory ++ "'").toList = 'm' :: ((rest ++ directory.toList) ++ ['\'']) := by
  have happend : (lead ++ directory ++ "'").toList
      = lead.toList ++ directory.toList ++ "'".toList :=
    String.toList_append.trans (congrArg (· ++ _) String.toList_append)
  rw [happend, h]
  rfl

theorem beforeLastQuote?_concat {s : List Char} (h : '\n' ∉ s) :
    beforeLastQuote? (s ++ ['\'']) = some s := by
  induction s with
  | nil => rfl
  | cons c s ih =>
    obtain ⟨hc, hs⟩ := List.ne_and_not_mem_of_not_mem_cons h
    rw [List.cons_append, beforeLastQuote?, if_neg (Ne.symm hc), ih hs]

theorem entered?_append {lead s : List Char} (h : 'E' ∉ lead) :
    entered? (lead ++ s) = entered? s := by
  induction lead with
  | nil => rfl
  | cons c lead ih =>
    obtain ⟨hc, hlead⟩ := List.ne_and_not_mem_of_not_mem_cons h
    have hstrip : Text.strip? "Entering directory ".toList (c :: (lead ++ s)) = none := if_neg hc
    rw [List.cons_append, entered?, hstrip]
    exact ih hlead

/-- A line that begins and ends as the announcements do is none of the words of the shell. -/
theorem ofLine?_announcement {s : List Char} {line : String}
    (h : line.toList = 'm' :: (s ++ ['\''])) :
    ofLine? line =
      if Text.occurs "Leaving directory".toList ('m' :: (s ++ ['\''])) then some .leave
      else (entered? ('m' :: (s ++ ['\'']))).map fun directory =>
        .enter (String.ofList directory) := by
  have hback : 'm' :: (s ++ ['\'']) ≠ "cd -".toList := by
    intro h
    cases h
  have hpopd : 'm' :: (s ++ ['\'']) ≠ "popd".toList := by
    intro h
    cases h
  have hcd : operand? "cd".toList ('m' :: (s ++ ['\''])) = none := rfl
  have hpushd : operand? "pushd".toList ('m' :: (s ++ ['\''])) = none := rfl
  rw [ofLine?, h, Text.trim_eq_self rfl rfl]
  simp only [if_neg hback, decide_eq_false hpopd, Bool.false_or, hcd, hpushd]

/-- The directory that make enters stands between the quotes. -/
theorem entered?_quoted {directory : List Char} (h : '\n' ∉ directory) :
    entered? ("Entering directory '".toList ++ (directory ++ ['\''])) = some directory := by
  have hword : "Entering directory '".toList = 'E' :: "ntering directory '".toList := by decide
  have hstrip : Text.strip? "Entering directory ".toList
      ('E' :: ("ntering directory '".toList ++ (directory ++ ['\''])))
        = some ('\'' :: (directory ++ ['\''])) := by
    rw [Text.strip?_eq_some_iff]
    rfl
  have hquote : isQuote '\'' = true := by decide
  rw [hword]
  show entered? ('E' :: (_ ++ (directory ++ ['\'']))) = _
  rw [entered?, hstrip]
  simp only [hquote, if_true, beforeLastQuote?_concat h]

/-- The announcement that make enters a directory is recognized. -/
theorem ofLine?_entering {directory : String} (hline : '\n' ∉ directory.toList)
    (hleaving : Text.occurs "Leaving directory".toList directory.toList = false) :
    ofLine? (entering directory) = some (.enter directory) := by
  have hlead : "make: Entering directory '".toList
      = 'm' :: ("ake: ".toList ++ "Entering directory '".toList) := by decide
  have hchars := toList_announcement directory hlead
  -- Neither what stands before the directory nor the quote behind it can be a part of the words.
  have hstays : Text.occurs "Leaving directory".toList
      ('m' :: (("ake: ".toList ++ "Entering directory '".toList ++ directory.toList) ++ ['\'']))
        = false := by
    rw [← List.cons_append, Text.occurs_concat_of_not_mem (by decide) (by decide),
      ← List.cons_append, ← List.cons_append]
    exact (Text.occurs_append_of_not_mem (by decide)).trans hleaving
  have hentered : entered? ('m' ::
      (("ake: ".toList ++ "Entering directory '".toList ++ directory.toList) ++ ['\'']))
        = some directory.toList := by
    rw [List.append_assoc, List.append_assoc]
    have hbefore : 'E' ∉ 'm' :: "ake: ".toList := by decide
    exact (entered?_append hbefore).trans (entered?_quoted hline)
  refine (ofLine?_announcement hchars).trans ?_
  rw [if_neg (Bool.eq_false_iff.mp hstays), hentered]
  exact congrArg (fun text => some (enter text)) String.ofList_toList

/-- The announcement that make leaves a directory is recognized. -/
theorem ofLine?_leaving (directory : String) : ofLine? (leaving directory) = some .leave := by
  have hlead : "make: Leaving directory '".toList
      = 'm' :: ("ake: ".toList ++ ("Leaving directory".toList ++ " '".toList)) := by decide
  have hchars := toList_announcement directory hlead
  have hleaving : Text.occurs "Leaving directory".toList ('m' ::
      (("ake: ".toList ++ ("Leaving directory".toList ++ " '".toList) ++ directory.toList)
        ++ ['\''])) = true :=
    Text.occurs_iff.mpr ⟨'m' :: "ake: ".toList, " '".toList ++ directory.toList ++ ['\''], by
      simp only [List.cons_append, List.append_assoc]⟩
  exact (ofLine?_announcement hchars).trans (if_pos hleaving)

end Move

/-! ## Nested lines -/

/-- Lines that enter and leave directories like matching brackets, and move nowhere else. -/
inductive Nested : List String → Prop where
  /-- No line. -/
  | nil : Nested []
  /-- A line that does not move comes first. -/
  | still {line : String} {rest : List String} :
      Move.ofLine? line = none → Nested rest → Nested (line :: rest)
  /-- A directory is entered first, and left later. -/
  | inside {opening closing directory : String} {inner rest : List String} :
      Move.ofLine? opening = some (.enter directory) → Nested inner →
      Move.ofLine? closing = some .leave → Nested rest →
      Nested (opening :: (inner ++ closing :: rest))

theorem History.current_move_enter (history : History) (directory : String) :
    (history.move (.enter directory)).current = Path.resolve directory history.current := by
  rw [History.move]

/-- Who enters a directory and leaves it is where he was. -/
theorem History.move_enter_leave (history : History) (directory : String) :
    (history.move (.enter directory)).move .leave = history := rfl

/-- The number of directories that are still entered behind the lines, `depth` being their number in
front of them, if every directory that is left was entered and there is no other move. -/
def depth? (depth : Nat) : List String → Option Nat
  | [] => some depth
  | line :: rest =>
    match Move.ofLine? line with
    | none => depth? depth rest
    | some (.enter _) => depth? (depth + 1) rest
    | some .leave => if depth = 0 then none else depth? (depth - 1) rest
    | some _ => none

/-- Behind nested lines, the depth is what it was in front of them. -/
theorem depth?_append {lines : List String} (h : Nested lines) (depth : Nat) (rest : List String) :
    depth? depth (lines ++ rest) = depth? depth rest := by
  induction h generalizing depth rest with
  | nil => rfl
  | still hline _ ih =>
    rw [List.cons_append, depth?, hline]
    exact ih depth rest
  | inside hopening _ hclosing _ ihinner ihrest =>
    rw [List.cons_append, depth?, hopening]
    dsimp only
    rw [List.append_assoc, ihinner, List.cons_append, depth?, hclosing]
    exact ihrest depth rest

/-- If all directories are left at the end, nested lines come before the one that leaves the
innermost directory. -/
theorem exists_closing {depth : Nat} {lines : List String} (h : depth? (depth + 1) lines = some 0) :
    ∃ inner closing rest, lines = inner ++ closing :: rest ∧ Nested inner ∧
      Move.ofLine? closing = some .leave ∧ depth? depth rest = some 0 := by
  match lines with
  | [] => exact absurd h nofun
  | line :: lines =>
    rw [depth?] at h
    split at h
    next hline =>
      obtain ⟨inner, closing, rest, rfl, hinner, hclosing, hrest⟩ := exists_closing h
      exact ⟨line :: inner, closing, rest, rfl, .still hline hinner, hclosing, hrest⟩
    next hline =>
      -- The directory that is entered here is left first.
      obtain ⟨inner, closing, behind, rfl, hinner, hclosing, hbehind⟩ := exists_closing h
      obtain ⟨inner', closing', rest, rfl, hinner', hclosing', hrest⟩ := exists_closing hbehind
      refine ⟨line :: (inner ++ closing :: inner'), closing', rest, by simp, ?_, hclosing', hrest⟩
      exact .inside hline hinner hclosing hinner'
    next hline => exact ⟨[], line, lines, rfl, .nil, hline, h⟩
    next => exact absurd h nofun
termination_by lines.length

/-- Lines are nested if and only if every directory that is entered is left again. -/
theorem nested_iff {lines : List String} : Nested lines ↔ depth? 0 lines = some 0 := by
  constructor
  · intro h
    have hdepth := depth?_append h 0 []
    rwa [List.append_nil] at hdepth
  · intro h
    match lines with
    | [] => exact .nil
    | line :: lines =>
      rw [depth?] at h
      split at h
      next hline => exact .still hline (nested_iff.mpr h)
      next hline =>
        obtain ⟨inner, closing, rest, rfl, hinner, hclosing, hrest⟩ := exists_closing h
        exact .inside hline hinner hclosing (nested_iff.mpr hrest)
      next => exact absurd h nofun
      next => exact absurd h nofun
termination_by lines.length

instance (lines : List String) : Decidable (Nested lines) := decidable_of_iff' _ nested_iff

end BuildTrace.Directory
