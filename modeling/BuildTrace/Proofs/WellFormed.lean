import BuildTrace.Proofs.CompileUnit.Grouping
import BuildTrace.Proofs.LaunchTarget.Extraction

/-!
# Well-formed items

Whatever the text of a trace is, the items that are found in it are fit for those who read them:
their paths are absolute and normal, so they mean the same wherever they are looked at. Compile
units have sources and a language, and a standard of that language. All that this rests on is that
the scan begins in a directory that is given from the root. It may be written with a slash too many:
then the targets that are in this very directory show it, and nothing else does.

## Main definitions

* `Path.Reached`: the directories that a scan gets to;
* `CompileUnit.WellFormed`: units as their readers rely on them;
* `LaunchTarget.WellFormed`: targets with a settled binary in such a directory.

## Main results

* `CompileUnit.Extractor.wellFormed_of_mem_extract`: the units of a line;
* `wellFormed_of_scan`: all units and all targets of a trace.
-/

namespace BuildTrace

namespace Path

variable {root p : Path}

/-- A path that is given from the root has no step that stays where it is, and none that leads
up. -/
theorem Rooted.no_detour (h : p.Rooted) : .here ∉ p.components ∧ .up ∉ p.components := by
  refine ⟨fun hhere => ?_, h.up⟩
  obtain ⟨steps, hsteps, hcomponents⟩ := h.components
  rw [hcomponents, List.mem_cons] at hhere
  rcases hhere with hhere | hhere
  · cases hhere
  · obtain ⟨n, hn, -⟩ := hsteps _ hhere
    cases hn

/-- A scan from the root may get to the path. -/
structure Reached (root p : Path) : Prop where
  /-- It is given from the root of the file system, without steps up. -/
  rooted : p.Rooted
  /-- It is written in the plainest way, unless the scan begins there. -/
  plain : p.Settled ∨ p = root

theorem Rooted.reached (h : root.Rooted) : root.Reached root :=
  ⟨h, .inr rfl⟩

theorem Reached.absolute (h : root.Reached p) : p.isAbsolute = true :=
  h.rooted.absolute

/-- What is resolved against a directory of the scan is written in the plainest way. -/
theorem Reached.resolve (base : Path) (hbase : root.Reached base) (written : String) :
    root.Reached (resolve written base) :=
  have hsettled := settled_resolve hbase.absolute written
  ⟨hsettled.rooted, .inl hsettled⟩

end Path

/-! ## Compile units -/

namespace Standard

variable {token : Option String} {language : Language} {allowGnu : Bool}

/-- A standard is one of the language it was looked up for, and a dialect only where the dialects
are known. -/
theorem of_parse? {token : String} {standard : Standard}
    (h : parse? token (some language) allowGnu = some standard) :
    standard.language = language ∧ (standard.gnu = true → allowGnu = true) := by
  rw [parse?] at h
  split at h
  · cases h
  next meant _ =>
    split at h
    next hlanguage =>
      cases h
      exact ⟨(beq_iff_eq.mp hlanguage).symm, fun hgnu => (Bool.and_eq_true_iff.mp hgnu).2⟩
    next => cases h

/-- So is the standard that takes its place if there is none. -/
theorem of_resolve (token : Option String) (language : Language) (allowGnu : Bool) :
    (resolve token language allowGnu).language = language ∧
      ((resolve token language allowGnu).gnu = true → allowGnu = true) := by
  rw [resolve]
  cases hmeant : token.bind fun token => parse? token (some language) allowGnu with
  -- The standards that are used if none is given are no dialects.
  | none => exact ⟨rfl, fun hgnu => Bool.noConfusion hgnu⟩
  | some standard =>
    obtain ⟨token, -, hparse⟩ := Option.bind_eq_some_iff.mp hmeant
    exact of_parse? hparse

end Standard

namespace CompileUnit

/-- What the readers of a unit rely on, where `allowGnu` says whether they know the GNU dialects. -/
structure WellFormed (allowGnu : Bool) (u : CompileUnit) : Prop where
  /-- There are sources. -/
  sources : u.sources ≠ []
  /-- All paths are absolute and normal. -/
  settled : ∀ p ∈ u.sources ++ u.includePaths ++ u.forcedIncludes,
    p.Settled ∧ .here ∉ p.components ∧ .up ∉ p.components
  /-- The standard is one of the language, and no dialect that is not known. -/
  standard : ∃ language standard, u.language = some language ∧ u.standard = some standard ∧
    standard.language = language ∧ (allowGnu = false → standard.gnu = false)

/-- A group has files, and they are among those that were grouped. -/
theorem of_mem_groupByLanguage {forced : Option Language} {all files : List Path}
    {language : Language} (h : (language, files) ∈ groupByLanguage forced all) :
    files ≠ [] ∧ files ⊆ all := by
  rw [groupByLanguage_eq] at h
  obtain ⟨l, hl, heq⟩ := List.mem_map.mp h
  obtain ⟨rfl, rfl⟩ := Prod.mk.inj heq
  refine ⟨?_, List.filter_subset_self _⟩
  -- The language is that of some file, which is in the group.
  obtain ⟨file, hfile, hlanguage⟩ := List.mem_filterMap.mp (List.mem_eraseDups.mp hl)
  exact List.ne_nil_of_mem (List.mem_filter.mpr ⟨hfile, decide_eq_true hlanguage⟩)

/-- The paths that switches give are resolved. -/
theorem settled_of_mem_pathsOf {style : Switch.Style} {arguments : String} {names : List String}
    {base p : Path} (hbase : base.isAbsolute = true)
    (h : p ∈ pathsOf style arguments names base) : p.Settled := by
  obtain ⟨written, -, rfl⟩ := List.mem_map.mp h
  exact Path.settled_resolve hbase written

namespace Extractor

variable {ω : Type} {e : Extractor ω}

/-- The units of a line that is looked at from an absolute directory are well formed. -/
theorem wellFormed_of_mem_extract {line : String} {base : Path} {w : ω} {u : CompileUnit}
    (hbase : base.isAbsolute = true) (h : u ∈ (e.extract line base w).1) :
    u.WellFormed e.allowGnu := by
  obtain ⟨i, ⟨language, files⟩, -, hgroup, rfl⟩ := exists_of_mem_extract h
  obtain ⟨hne, hfiles⟩ := of_mem_groupByLanguage hgroup
  obtain ⟨hlanguage, hgnu⟩ := Standard.of_resolve
    (Switch.single? (.ofTool i.toolName) i.arguments ["std"]) language e.allowGnu
  refine ⟨hne, fun p hp => ?_, language, _, rfl, rfl, hlanguage, fun hnone => ?_⟩
  · have hsettled : p.Settled := by
      rcases List.mem_append.mp hp with hp | hp
      · rcases List.mem_append.mp hp with hp | hp
        · obtain ⟨written, -, rfl⟩ := List.mem_map.mp (hfiles hp)
          exact Path.settled_resolve hbase written
        · exact settled_of_mem_pathsOf hbase hp
      · exact settled_of_mem_pathsOf hbase hp
    exact ⟨hsettled, hsettled.rooted.no_detour⟩
  · exact Bool.eq_false_iff.mpr fun htrue => Bool.noConfusion (hnone ▸ hgnu htrue)

/-- The recognizer of units looks at what the lines compile. -/
theorem scanner_follows (e : Extractor ω) : e.scanner.Follows e.extract := by
  refine ⟨fun line history w => ?_, fun _ => rfl⟩
  cases hfollow : history.follow? line <;> simp only [scanner, hfollow]

end Extractor

end CompileUnit

/-! ## Launch targets -/

namespace LaunchTarget

/-- What the readers of a target rely on, where `root` is the directory in which the scan begins. -/
structure WellFormed (root : Path) (t : LaunchTarget) : Prop where
  /-- The binary is absolute and normal. -/
  binary : t.binary.Settled ∧ .here ∉ t.binary.components ∧ .up ∉ t.binary.components
  /-- So is the directory. -/
  directory : root.Reached t.directory ∧
    .here ∉ t.directory.components ∧ .up ∉ t.directory.components

variable {root : Path}

theorem wellFormed_of_reached {t : LaunchTarget} (hbinary : t.binary.Settled)
    (hdirectory : root.Reached t.directory) : t.WellFormed root :=
  ⟨⟨hbinary, hbinary.rooted.no_detour⟩, hdirectory, hdirectory.rooted.no_detour⟩

namespace Extractor

variable {x : Extractor} {line : String} {base : Path} {t : LaunchTarget}

/-- The target of a line that makes a program is well formed. -/
theorem wellFormed_of_binaryOf? (hroot : root.Reached x.root) (hbase : base.isAbsolute = true)
    (h : t ∈ ((x.binaryOf? line base).map (LaunchTarget.mk · x.root [])).toList) :
    t.WellFormed root := by
  obtain ⟨binary, hbinary, rfl⟩ := Option.map_eq_some_iff.mp (Option.mem_toList.mp h)
  exact wellFormed_of_reached (settled_of_binaryOf? hbase hbinary) hroot

/-- So is that of a line that runs one. -/
theorem wellFormed_of_invocation? {m : Tool.Matcher} (hbase : root.Reached base)
    (h : t ∈ ((m.invocation? x.isFile line base).map fun i =>
      LaunchTarget.mk i.fullPath base (runArguments i.arguments)).toList) :
    t.WellFormed root := by
  obtain ⟨i, hi, rfl⟩ := Option.map_eq_some_iff.mp (Option.mem_toList.mp h)
  exact wellFormed_of_reached (Tool.Matcher.settled_of_invocation? hbase.absolute hi) hbase

end Extractor

end LaunchTarget

/-! ## Traces -/

variable {ω : Type}

/-- Everything that is found in a trace from a directory that is given from the root is well
formed. -/
theorem wellFormed_of_scan {root : Path} (hroot : root.Rooted) (trace : String)
    (isCancelled : ω → Bool) (chunkSize : Nat) (w : ω) :
    (∀ (e : CompileUnit.Extractor ω) (receive : CompileUnit → ω → ω),
        ∀ u ∈ (Scan.items e.scanner isCancelled chunkSize receive
          (.start trace (.start root)) w).1, u.WellFormed e.allowGnu) ∧
      ∀ x : LaunchTarget.Extractor, x.root = root →
        (∀ receive, ∀ t ∈ (Scan.items x.binaryScanner isCancelled chunkSize receive
            (.start trace (.start root)) w).1, t.WellFormed root) ∧
          (∀ binaries receive, ∀ t ∈ (Scan.items (x.invocationScanner binaries) isCancelled
            chunkSize receive (.start trace (.start root)) w).1, t.WellFormed root) ∧
          ∀ found, (x.extract? isCancelled chunkSize trace w).1 = some found →
            ∀ t ∈ found, t.WellFormed root := by
  refine ⟨fun e receive => ?_, fun x hx => ?_⟩
  · exact e.scanner_follows.forall_mem_items Path.Reached.resolve hroot.reached
      (fun line base w hbase u => e.wellFormed_of_mem_extract hbase.absolute) trace w
  · subst hx
    have hbinary := x.binaryScanner_follows (ω := ω)
    have hinvocation := x.invocationScanner_follows (ω := ω)
    have hmakes : ∀ line (base : Path) (_ : ω), x.root.Reached base →
        ∀ t ∈ ((x.binaryOf? line base).map (LaunchTarget.mk · x.root [])).toList,
          t.WellFormed x.root :=
      fun _ _ _ hbase _ => x.wellFormed_of_binaryOf? hroot.reached hbase.absolute
    have hruns : ∀ binaries line (base : Path) (_ : ω), x.root.Reached base →
        ∀ t ∈ (((x.runMatcher binaries).invocation? x.isFile line base).map fun i =>
          LaunchTarget.mk i.fullPath base (LaunchTarget.Extractor.runArguments i.arguments)).toList,
            t.WellFormed x.root :=
      fun _ _ _ _ hbase _ => x.wellFormed_of_invocation? hbase
    refine ⟨fun receive => ?_, fun binaries receive => ?_, fun found hfound => ?_⟩
    · exact hbinary.forall_mem_items Path.Reached.resolve hroot.reached hmakes trace w
    · exact (hinvocation binaries).forall_mem_items Path.Reached.resolve hroot.reached
        (hruns binaries) trace w
    · refine LaunchTarget.Extractor.forall_mem_extract? (fun w found => ?_)
        (fun binaries w found => ?_) hfound
      · exact hbinary.forall_mem_complete? Path.Reached.resolve hroot.reached hmakes
      · exact (hinvocation binaries).forall_mem_complete? Path.Reached.resolve hroot.reached
          (hruns binaries)

/-- The extraction of targets from `/w/`, where `g++` is the only tool. -/
def LaunchTarget.Extractor.plain : Extractor :=
  .ofTools ⟨["g++"], []⟩ (fun _ => false) ⟨"/w/"⟩

/-- A trace that moves up, and names what it compiles, makes and runs by detours. The directory in
which the scan begins is written with a slash too many, which is found at the target made there. -/
theorem wellFormed_of_scan_detours :
    (⟨"/w/"⟩ : Path).Rooted ∧
      ((Scan.items CompileUnit.Extractor.plain.scanner (fun _ => false) 2 (fun _ w => w)
          (.start "cd ../v/./\ng++ -I.. ./a.cc -o ../b\n../b 1" (.start ⟨"/w/"⟩)) ()).1.map
            (fun u => (u.sources, u.includePaths)) = [([⟨"/v/a.cc"⟩], [⟨"/"⟩])] ∧
        ∀ u ∈ (Scan.items CompileUnit.Extractor.plain.scanner (fun _ => false) 2 (fun _ w => w)
          (.start "cd ../v/./\ng++ -I.. ./a.cc -o ../b\n../b 1" (.start ⟨"/w/"⟩)) ()).1,
            u.WellFormed true) ∧
      ∃ found, (LaunchTarget.Extractor.plain.extract? (fun _ => false) 2
          "cd ../v/./\ng++ -I.. ./a.cc -o ../b\n../b 1" ()).1 = some found ∧
        found = [⟨⟨"/b"⟩, ⟨"/w/"⟩, []⟩, ⟨⟨"/b"⟩, ⟨"/v"⟩, ["1"]⟩] ∧
        ∀ t ∈ found, t.WellFormed ⟨"/w/"⟩ := by
  have hroot : (⟨"/w/"⟩ : Path).Rooted := Path.rooted_iff.mpr (by decide)
  obtain ⟨hunits, htargets⟩ := wellFormed_of_scan hroot
    "cd ../v/./\ng++ -I.. ./a.cc -o ../b\n../b 1" (fun _ => false) 2 ()
  have hfound : (LaunchTarget.Extractor.plain.extract? (fun _ => false) 2
      "cd ../v/./\ng++ -I.. ./a.cc -o ../b\n../b 1" ()).1 =
        some [⟨⟨"/b"⟩, ⟨"/w/"⟩, []⟩, ⟨⟨"/b"⟩, ⟨"/v"⟩, ["1"]⟩] := by decide
  exact ⟨hroot, ⟨by decide, hunits CompileUnit.Extractor.plain _⟩, _, hfound, rfl,
    (htargets .plain rfl).2.2 _ hfound⟩

end BuildTrace
