import BuildTrace.CompileUnit.Extraction
import BuildTrace.Proofs.Directory.Nesting
import BuildTrace.Proofs.Scan.Chunk

/-!
# Compile units of nested runs

The units of a line depend on the current directory only, and nested lines never return to a
directory that was left in front of them. So they give the same units wherever they stand, and the
lines behind them are read as if they were not there.

## Main results

* `closed_of_nested`: nested lines are followed from their directory alone;
* `scanLines_recursive`: a run of make in another run is scanned on its own.
-/

namespace BuildTrace.CompileUnit.Extractor

open Directory

variable {ω : Type} (e : Extractor ω) {line : String}

/-- A line that moves gives no unit. -/
theorem scanLine_move {move : Move} (h : Move.ofLine? line = some move) (history : History)
    (w : ω) : e.scanner.scanLine line history w = ([], history.move move, w) := by
  simp only [scanner, History.follow?, h, Option.map_some]

/-- A line that does not move gives units that depend on the current directory. -/
theorem scanLine_still (h : Move.ofLine? line = none) (history : History) (w : ω) :
    e.scanner.scanLine line history w =
      ((e.extract line history.current w).1, history, (e.extract line history.current w).2) := by
  simp only [scanner, History.follow?, h, Option.map_none]

/-- Lines can be followed from the directory in which they begin, and end in the history they began
with, wherever that is. -/
def Closed (lines : List String) : Prop :=
  ∀ (history : History) (w : ω), e.scanner.scanLines lines history w =
    let alone := e.scanner.scanLines lines (.start history.current) w
    (alone.1, history, alone.2.2)

/-- A directory is entered, lines are followed from there, and it is left again. -/
theorem scanLines_bracket {opening closing directory : String} {inner : List String}
    (hopening : Move.ofLine? opening = some (.enter directory))
    (hclosing : Move.ofLine? closing = some .leave) (hinner : e.Closed inner) (history : History)
    (w : ω) :
    e.scanner.scanLines (opening :: (inner ++ [closing])) history w =
      let alone := e.scanner.scanLines inner (.start (Path.resolve directory history.current)) w
      (alone.1, history, alone.2.2) := by
  simp only [LineScanner.scanLines, LineScanner.scanLines_append, e.scanLine_move hopening,
    e.scanLine_move hclosing]
  rw [hinner (history.move (.enter directory)), History.move_enter_leave,
    History.current_move_enter]
  simp only [List.nil_append, List.append_nil]

/-- Nested lines can be followed from the directory in which they begin. -/
theorem closed_of_nested {lines : List String} (h : Nested lines) : e.Closed lines := by
  -- The induction is on the nesting: inside a bracket there is one more directory to return to.
  induction h with
  | nil => exact fun _ _ => rfl
  | still hline _ ih =>
    intro history w
    simp only [LineScanner.scanLines, e.scanLine_still hline]
    rw [ih history, ih (.start history.current)]
    rfl
  | @inside opening closing directory inner rest hopening _ hclosing _ ihinner ihrest =>
    intro history w
    have hbracket : opening :: (inner ++ closing :: rest)
        = opening :: (inner ++ [closing]) ++ rest := by simp
    rw [hbracket, LineScanner.scanLines_append, LineScanner.scanLines_append,
      e.scanLines_bracket hopening hclosing ihinner, e.scanLines_bracket hopening hclosing ihinner]
    -- What was entered is left again, and the lines behind go on from there.
    simp only [ihrest history]
    rfl

/-- A run of make in another run is scanned on its own: between the announcements, the units are
those of a scan that begins in the announced directory, and behind them it goes on as if the run had
not been there, in the history in which it was announced. -/
theorem scanLines_recursive (before behind : List String) {inside : List String} (h : Nested inside)
    {directory : String} (hline : '\n' ∉ directory.toList)
    (hleaving : Text.occurs "Leaving directory".toList directory.toList = false) (root : Path)
    (w : ω) :
    let bracket := Move.entering directory :: (inside ++ [Move.leaving directory])
    let first := e.scanner.scanLines before (.start root) w
    let second := e.scanner.scanLines inside
      (.start (Path.resolve directory first.2.1.current)) first.2.2
    let third := e.scanner.scanLines behind first.2.1 second.2.2
    e.scanner.scanLines (before ++ bracket ++ behind) (.start root) w
        = (first.1 ++ second.1 ++ third.1, third.2.1, third.2.2) ∧
      (e.scanner.scanLines (before ++ bracket) (.start root) w).2.1 = first.2.1 := by
  intro bracket first second third
  have hbracket : e.scanner.scanLines bracket first.2.1 first.2.2
      = (second.1, first.2.1, second.2.2) :=
    e.scanLines_bracket (Move.ofLine?_entering hline hleaving) (Move.ofLine?_leaving directory)
      (e.closed_of_nested h) first.2.1 first.2.2
  have hfront : e.scanner.scanLines (before ++ bracket) (.start root) w
      = (first.1 ++ second.1, first.2.1, second.2.2) := by
    rw [LineScanner.scanLines_append]
    dsimp only
    rw [hbracket]
  constructor
  · rw [LineScanner.scanLines_append, hfront]
  · rw [hfront]

/-- The sources of a run in `lib` are found there, and those behind it where the outer run is. -/
theorem scanLines_recursive_library :
    let e : Extractor Unit :=
      { compilers := .ofNames ["gcc"] true
        isFile := fun _ => false
        lookup := fun _ w => (none, w) }
    let bracket := Move.entering "lib" ::
      (["pushd core", "gcc -c b.c", "popd", "gcc -c c.c"] ++ [Move.leaving "lib"])
    let units := e.scanner.scanLines (["cd app", "gcc -c a.c"] ++ bracket ++ ["gcc -c d.c"])
      (.start ⟨"/w"⟩) ()
    units.1.map sources =
        [[⟨"/w/app/a.c"⟩], [⟨"/w/app/lib/core/b.c"⟩], [⟨"/w/app/lib/c.c"⟩], [⟨"/w/app/d.c"⟩]] ∧
      units.2.1.entries = [⟨"/w"⟩, ⟨"/w/app"⟩] := by
  intro e bracket units
  have hnested : Nested ["pushd core", "gcc -c b.c", "popd", "gcc -c c.c"] := by decide +kernel
  have hline : '\n' ∉ "lib".toList := by decide
  obtain ⟨hunits, -⟩ := e.scanLines_recursive ["cd app", "gcc -c a.c"] ["gcc -c d.c"] hnested
    hline (by decide +kernel) ⟨"/w"⟩ ()
  change units = _ at hunits
  rw [hunits]
  decide +kernel

end BuildTrace.CompileUnit.Extractor
