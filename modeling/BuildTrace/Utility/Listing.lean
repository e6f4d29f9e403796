import BuildTrace.Shell.Pattern
import BuildTrace.Utility.Change
import BuildTrace.Utility.Order

/-!
# Listings

The program that puts out the names in directories.
-/

namespace BuildTrace.Utility

open Shell
open Machine (Entry Fault)

/-- How names are listed. -/
structure Listing where
  /-- Names that begin with a point are listed. -/
  showsHidden : Bool
  /-- So are the directory itself and the one it is in. -/
  showsSelf : Bool
  /-- Directories are listed like files. -/
  isFlat : Bool
  /-- Directories in directories are listed, too. -/
  isDeep : Bool
  /-- The names are not put in order. -/
  isLoose : Bool
  /-- The order is turned around. -/
  isReversed : Bool
  /-- The greatest files come first. -/
  bySize : Bool
  /-- The order is that of versions. -/
  byVersion : Bool
  /-- What is put behind the names of directories. -/
  directoryMark : String
  /-- What is put behind the names of files that can be executed. -/
  programMark : String
  /-- Names stand between quotes. -/
  quotes : Bool
  /-- Names stand in one line. -/
  inLine : Bool

namespace Listing

/-- A name with its entry and its size. -/
abbrev Item := String × Option (Place × Entry) × Nat

/-- Put items in order. -/
def ordered (l : Listing) (items : List Item) : List Item :=
  if l.isLoose then items
  else
    let order := fun (a b : Item) =>
      let byName := compareText a.1.toList b.1.toList
      let order :=
        if l.bySize then (compareInt b.2.2 a.2.2).then byName
        else if l.byVersion then (compareVersion a.1.toList b.1.toList).then byName
        else byName
      if l.isReversed then order.swap else order
    items.mergeSort fun a b => order a b != .gt

/-- A name as it is listed. -/
def shown (l : Listing) (item : Item) : String :=
  let name :=
    if l.quotes then
      "\"" ++ String.join (item.1.toList.map fun c =>
        if c = '"' || c = '\\' then "\\" ++ c.toString else c.toString) ++ "\""
    else item.1
  match item.2.1 with
  | some (_, .directory) => name ++ l.directoryMark
  | some (_, .file _ true) | some (_, .program _) => name ++ l.programMark
  | _ => name

/-- The lines for items. -/
def text (l : Listing) (items : List Item) : String :=
  let names := items.map l.shown
  if l.inLine then if names.isEmpty then "" else ", ".intercalate names ++ "\n"
  else String.join (names.map (· ++ "\n"))

/-- The item at a path, which is listed by a name. -/
def itemAt (path name : String) : Shell Item := do
  let entry := (← entryOf path).toOption
  let size ← look fun m =>
    match entry with
    | some (place, .file _ _) => ((m.contentAt? place).map fun c => c.toBytes.length).getD 0
    | _ => 0
  return (name, entry, size)

/-- The items in a directory, in order. -/
def itemsIn (l : Listing) (ignored : List Pattern) (path : String) (place : Place) :
    Shell (List Item) := do
  let names ← sortedNames place
  let names := names.filter fun n => l.showsHidden || !n.startsWith "."
  let names := names.filter fun n => !ignored.any fun p => p.fits n.toList
  let names := if l.showsSelf then "." :: ".." :: names else names
  return l.ordered (← names.mapM fun n => itemAt (within path n) n)

/-- List directories, with titles if they are wanted. -/
def directories (l : Listing) (name : String) (ignored : List Pattern) (hasTitles : Bool) :
    Nat → (isFirst : Bool) → List String → Shell Unit
  | 0, _, _ => return
  | _, _, [] => return
  | fuel + 1, isFirst, path :: rest => do
    match ← entryOf path with
    | .ok (place, .directory) =>
      let items ← l.itemsIn ignored path place
      if hasTitles then say name ((if isFirst then "" else "\n") ++ path ++ ":\n")
      say name (l.text items)
      let inner :=
        if l.isDeep then
          let isInner := fun (i : Item) =>
            i.1 != "." && i.1 != ".." && i.2.1.any fun e => e.2.isDirectory
          (items.filter isInner).map fun i => within path i.1
        else []
      directories l name ignored hasTitles fuel false (inner ++ rest)
    | _ => directories l name ignored hasTitles fuel isFirst rest

end Listing

/-- The greatest number of directories that are listed. -/
def listingLimit : Nat := 1000000

/-- List the names in directories. -/
def ls : Utility :=
  (OptionForms.make "aABbcCdfFgGhHiI:klLmnNopqQrRsStT:uUvw:xXZ1"
    [("all", "a", .nothing), ("almost-all", "A", .nothing), ("ignore-backups", "B", .nothing),
      ("directory", "d", .nothing), ("classify", "F", .optional), ("color", "color", .optional),
      ("format", "format", .value), ("ignore", "I", .value), ("indicator-style", "style", .value),
      ("quote-name", "Q", .nothing), ("recursive", "R", .nothing), ("reverse", "r", .nothing),
      ("sort", "sort", .value)] 2).program fun name g => do
    let marks := g.last? ["F", "p"]
    let l : Listing :=
      { showsHidden := g.hasAny ["a", "A", "f"]
        showsSelf := g.last? ["a", "A", "f"] == some "a" || g.has "f"
        isFlat := g.has "d"
        isDeep := g.has "R"
        isLoose := g.hasAny ["U", "f"]
        isReversed := g.has "r"
        bySize := g.has "S" || g.value? "sort" == some "size"
        byVersion := g.has "v" || g.value? "sort" == some "version"
        directoryMark := if marks.isSome then "/" else ""
        programMark := if marks == some "F" then "*" else ""
        quotes := g.has "Q"
        inLine := g.last? ["m", "1", "C", "x", "l"] == some "m" }
    let ignored := (g.values "I").map fun p => Pattern.ofText p.toList
    let ignored := if g.has "B" then Pattern.ofText "*~".toList :: ignored else ignored
    let operands := if g.operands.isEmpty then ["."] else g.operands
    let mut items : List Listing.Item := []
    let mut status := 0
    for operand in operands do
      match ← entryOf operand with
      | .ok _ => items := items ++ [← Listing.itemAt operand operand]
      | .error fault =>
        complain name ("cannot access " ++ quote operand ++ ": " ++ fault.message)
        status := 2
    let isListed := fun (item : Listing.Item) => !l.isFlat && item.2.1.any fun e => e.2.isDirectory
    let sorted := l.ordered items
    let files := sorted.filter fun i => !isListed i
    let directories := (sorted.filter isListed).map Prod.fst
    say name (l.text files)
    let hasTitles := l.isDeep || 1 < operands.length
    l.directories name ignored hasTitles listingLimit files.isEmpty directories
    return status

end BuildTrace.Utility
