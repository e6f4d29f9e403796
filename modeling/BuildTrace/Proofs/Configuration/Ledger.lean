import BuildTrace.Proofs.Configuration.Lookup
import BuildTrace.Proofs.Store.Document
import Mathlib.Algebra.Group.Defs
import Mathlib.Data.Finset.Dedup
import Mathlib.Data.Finset.Insert

/-!
# Browse paths with a set beside them

Whether a directory is new to a browse path can be told from a set that is kept beside the entries,
without going through them. This module proves that the set never drifts from the entries, so that
both ways of keeping a browse path come to the same.

## Main definitions

* `BrowsePath.Ledger`: the entries of a browse path, with a set of all directories among them;
* `BrowsePath.Ledger.Keeps`: the ledger has the entries of the browse path, and its set is exactly
  that of its entries;
* `Provider`: a configuration with the ledger of its browse path.

## Main results

* `BrowsePath.Ledger.Keeps.update`: a ledger goes along with the updates of a configuration;
* `Provider.ext`: the ledger of a provider adds nothing to its configuration;
* `Provider.add_laws`: adding providers is associative, adding one again changes nothing, the empty
  one changes nothing, and the others are forgotten when one replaces them.
-/

namespace BuildTrace.BrowsePath

/-- A browse path with the set of its directories. What tells directories apart are their
components. -/
structure Ledger where
  /-- The directories in order. -/
  entries : BrowsePath := []
  /-- The components of the directories. -/
  seen : Finset (List Component) := ∅

namespace Ledger

/-- Add a directory at the end, unless it is in the set. -/
def insert (l : Ledger) (directory : Path) : Ledger :=
  if directory.components ∈ l.seen then l
  else
    { entries := l.entries ++ [directory]
      seen := Insert.insert directory.components l.seen }

/-- Add directories, one after the other. -/
def insertAll (l : Ledger) (directories : List Path) : Ledger := directories.foldl insert l

/-- Add directories, to nothing if they replace what was there. -/
def update (l : Ledger) (directories : List Path) : UpdateMode → Ledger
  | .replace => insertAll {} directories
  | .merge => l.insertAll directories

/-- The ledger keeps the browse path: it has its entries, and the set is exactly that of the
entries. -/
structure Keeps (l : Ledger) (browse : BrowsePath) : Prop where
  /-- The entries are those of the browse path. -/
  entries : l.entries = browse
  /-- The set has the components of the entries and no others. -/
  seen : l.seen = (browse.map Path.components).toFinset

namespace Keeps

variable {l : Ledger} {browse : BrowsePath}

theorem empty : Keeps {} [] := ⟨rfl, rfl⟩

/-- The set and the entries know the same directories. -/
theorem mem_seen_iff (h : l.Keeps browse) {directory : Path} :
    directory.components ∈ l.seen ↔ browse.any (·.same directory) = true := by
  rw [h.seen, List.mem_toFinset, List.mem_map, List.any_eq_true]
  simp only [Path.same_iff]

theorem insert (h : l.Keeps browse) (directory : Path) :
    (l.insert directory).Keeps (browse.insert directory) := by
  by_cases hseen : directory.components ∈ l.seen
  · rw [Ledger.insert, if_pos hseen, insert_of_any (h.mem_seen_iff.mp hseen)]
    exact h
  · have hnew := mt h.mem_seen_iff.mpr hseen
    rw [Ledger.insert, if_neg hseen, BrowsePath.insert, if_neg hnew]
    refine ⟨congrArg (· ++ [directory]) h.entries, ?_⟩
    ext components
    rw [h.seen, Finset.mem_insert, List.mem_toFinset, List.mem_toFinset, List.map_append,
      List.mem_append, List.map_singleton, List.mem_singleton, or_comm]

theorem insertAll (h : l.Keeps browse) (directories : List Path) :
    (l.insertAll directories).Keeps (browse.insertAll directories) := by
  induction directories generalizing l browse with
  | nil => exact h
  | cons directory directories ih => exact ih (h.insert directory)

/-- A ledger goes along with an update of a configuration. -/
theorem update {c : Configuration} (h : l.Keeps c.browse) (newer : Configuration)
    (mode : UpdateMode) : (l.update newer.browse mode).Keeps (c.update newer mode).browse := by
  cases mode with
  | replace => exact empty.insertAll newer.browse
  | merge => exact h.insertAll newer.browse

/-- A browse path has only one ledger. -/
theorem eq {other : Ledger} (h : l.Keeps browse) (hother : other.Keeps browse) : l = other := by
  cases l with
  | mk entries seen =>
    cases other with
    | mk otherEntries otherSeen =>
      have hentries : entries = otherEntries := h.entries.trans hother.entries.symm
      have hseen : seen = otherSeen := h.seen.trans hother.seen.symm
      rw [hentries, hseen]

/-- A ledger goes along when a browse path without repetitions takes the place of another one. -/
theorem replace (h : Distinct browse) : (Ledger.insertAll {} browse).Keeps browse := by
  have hself : BrowsePath.insertAll [] browse = browse := ofList_eq_self h
  have hkeeps := empty.insertAll browse
  rwa [hself] at hkeeps

end Keeps

end Ledger

end BuildTrace.BrowsePath

/-! ## Providers -/

namespace BuildTrace

open BrowsePath (Ledger)

/-- A configuration together with the ledger of its browse path. -/
structure Provider where
  /-- The configuration. -/
  configuration : Configuration
  /-- The ledger of its browse path. -/
  ledger : Ledger
  /-- The files are sorted, and no directory repeats. -/
  normal : configuration.Normal
  /-- The ledger has not drifted from the browse path. -/
  keeps : ledger.Keeps configuration.browse

namespace Provider

/-- Two providers with the same configuration have the same ledger, too. -/
@[ext]
theorem ext {p q : Provider} (h : p.configuration = q.configuration) : p = q := by
  cases p with
  | mk configuration ledger _ keeps =>
    cases q with
    | mk otherConfiguration otherLedger _ otherKeeps =>
      have hconfiguration : configuration = otherConfiguration := h
      subst hconfiguration
      rw [Provider.mk.injEq]
      exact ⟨rfl, keeps.eq otherKeeps⟩

/-- The provider of a normal configuration: its directories are entered one by one. -/
def ofNormal (c : Configuration) (h : c.Normal) : Provider where
  configuration := c
  ledger := Ledger.insertAll {} c.browse
  normal := h
  keeps := Ledger.Keeps.replace h.browse

/-- Combine with a newer provider: its files are set, and its entries are added to the ledger. -/
def update (p newer : Provider) (mode : UpdateMode) : Provider where
  configuration := p.configuration.update newer.configuration mode
  ledger := p.ledger.update newer.ledger.entries mode
  normal := Configuration.normal_update p.normal newer.configuration mode
  keeps := by
    rw [newer.keeps.entries]
    exact p.keeps.update newer.configuration mode

@[simp]
theorem configuration_update (p newer : Provider) (mode : UpdateMode) :
    (p.update newer mode).configuration = p.configuration.update newer.configuration mode := rfl

/-- The provider of nothing. -/
instance : Zero Provider := ⟨ofNormal .empty Configuration.normal_empty⟩

/-- The sum of two providers is the first one, combined with the second one. -/
instance : Add Provider := ⟨fun p newer => p.update newer .merge⟩

@[simp]
theorem configuration_zero : (0 : Provider).configuration = .empty := rfl

@[simp]
theorem configuration_add (p newer : Provider) :
    (p + newer).configuration = p.configuration.update newer.configuration .merge := rfl

instance : AddMonoid Provider where
  add_assoc a b c := by
    ext : 1
    simpa using (Configuration.update_merge_update b.normal c.configuration).symm
  zero_add a := by
    ext : 1
    -- An update of the empty configuration forgets nothing, whether it is replacing or not.
    have hreplace := Configuration.update_replace_of_normal (c := .empty) a.normal
    simpa [Configuration.update_replace] using hreplace
  add_zero a := by
    ext : 1
    rfl
  nsmul := nsmulRec

/-- What was added last can be added again. -/
theorem add_add_self (a b : Provider) : a + b + b = a + b := by
  ext : 1
  simpa using Configuration.update_merge_self b.normal

/-- A provider that replaces another one is what is left. -/
theorem update_replace (a b : Provider) : a.update b .replace = b := by
  ext : 1
  simpa using Configuration.update_replace_of_normal b.normal

/-- Adding providers is associative, adding one again changes nothing, the provider of nothing is
neutral, and a provider that replaces another one is what is left. All of this holds of the ledgers,
too, and for all configurations that can be read from a document, whether or not they come from
units. -/
theorem add_laws (a b c : Provider) :
    a + b + c = a + (b + c) ∧ a + b + b = a + b ∧ a + 0 = a ∧ 0 + a = a ∧
      a.update b .replace = b ∧
      ∀ value found, Configuration.ofJson? value = some found →
        ∃ p : Provider, p.configuration = found := by
  refine ⟨add_assoc a b c, add_add_self a b, add_zero a, zero_add a, update_replace a b, ?_⟩
  intro value found hread
  exact ⟨ofNormal found (Configuration.sound_of_ofJson? hread).normal, rfl⟩

/-- A directory that is there is not added in another spelling. -/
example :
    ((Configuration.ofParts [] [⟨"/w/inc"⟩, ⟨"/w/src"⟩]).update
      (.ofParts [] [⟨"/w//src/."⟩, ⟨"/w/gen"⟩]) .merge).browse
      = [⟨"/w/inc"⟩, ⟨"/w/src"⟩, ⟨"/w/gen"⟩] := by
  decide +kernel

end Provider

end BuildTrace
