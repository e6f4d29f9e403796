import BuildTrace.Proofs.LaunchTarget.Extraction
import BuildTrace.Proofs.Path.Extension
import BuildTrace.Proofs.Tool.Directory

/-!
# Lines that run binaries

A binary is run under its file name, and there are many ways to write the directory in front of it.
The lines that lead to a binary of the trace run it, whether there is a file or not: no binary gets
lost between the passes, and the matcher reads the command up to its end. Only another binary with
white space in its name can get in the way, since the command is read beyond its first word then,
and leads elsewhere.

## Main results

* `LaunchTarget.Extractor.mem_dedup_of_mem`: all binaries of a trace are looked for;
* `LaunchTarget.Extractor.fileName?_resolve_ne`: a command that is read beyond its first word leads
  elsewhere;
* `LaunchTarget.Extractor.scanLine_invocationScanner_iff`: when a line runs the binary it leads to.
-/

namespace BuildTrace.LaunchTarget

/-! ## The binaries of a trace -/

/-- Targets with settled binaries in one directory, with the same arguments, have different
canonical forms. -/
theorem eq_of_canonical_eq {s t : LaunchTarget} (hroot : t.directory.Rooted)
    (hs : s.binary.Settled) (ht : t.binary.Settled) (hdirectory : s.directory = t.directory)
    (harguments : s.arguments = t.arguments) (h : s.canonical = t.canonical) : s = t := by
  have hwritten : s.writtenBinary = t.writtenBinary := by
    -- All other parts of the two forms are the same.
    rw [canonical, canonical, hdirectory, harguments] at h
    have htext : s.writtenBinary.text = t.writtenBinary.text := by
      simpa [← String.toList_inj] using h
    exact congrArg Path.mk htext
  have hbinary : s.binary = t.binary := by
    calc s.binary = s.binary.normalize := hs.normal.symm
      _ = (s.directory.join s.writtenBinary).normalize :=
          (normalize_join_writtenBinary (hdirectory ▸ hroot) hs.rooted).2.symm
      _ = (t.directory.join t.writtenBinary).normalize := by rw [hdirectory, hwritten]
      _ = t.binary.normalize := (normalize_join_writtenBinary hroot ht.rooted).2
      _ = t.binary := ht.normal
  obtain ⟨binary, directory, arguments⟩ := s
  obtain ⟨rfl, rfl, rfl⟩ : _ ∧ _ ∧ _ := ⟨hbinary, hdirectory, harguments⟩
  rfl

namespace Extractor

variable {ω : Type} {x : Extractor} {isCancelled : ω → Bool} {chunkSize : Nat} {trace : String}
  {found : List LaunchTarget} {w : ω} {t : LaunchTarget}

/-- The binaries of a trace are run in the root, without arguments. -/
theorem of_mem_binaries (hroot : x.root.Rooted) (h : (Scan.complete? x.binaryScanner isCancelled
    chunkSize trace (.start x.root) w).1 = some found) (ht : t ∈ found) :
    t.directory = x.root ∧ t.arguments = [] ∧ t.binary.Settled := by
  refine (binaryScanner_follows x).forall_mem_complete?
    (Q := fun t => t.directory = x.root ∧ t.arguments = [] ∧ t.binary.Settled)
    Path.rooted_resolve hroot ?_ h t ht
  intro line base w hbase t ht
  obtain ⟨binary, hbinary, rfl⟩ := Option.map_eq_some_iff.mp (Option.mem_toList.mp ht)
  exact ⟨rfl, rfl, settled_of_binaryOf? hbase.absolute hbinary⟩

/-- None of them gets lost. -/
theorem mem_dedup_of_mem (hroot : x.root.Rooted) (h : (Scan.complete? x.binaryScanner isCancelled
    chunkSize trace (.start x.root) w).1 = some found) (ht : t ∈ found) : t ∈ dedup found := by
  -- What is left in place of the binary has its canonical form, so it is the binary itself.
  obtain ⟨first, hfirst, hform⟩ := exists_mem_dedup ht
  obtain ⟨hdirectory, harguments, hsettled⟩ := of_mem_binaries hroot h ht
  obtain ⟨hdirectory', harguments', hsettled'⟩ := of_mem_binaries hroot h (mem_of_mem_dedup hfirst)
  have hsame : first = t := eq_of_canonical_eq (hdirectory ▸ hroot) hsettled' hsettled
    (hdirectory'.trans hdirectory.symm) (harguments'.trans harguments.symm) hform
  exact hsame ▸ hfirst

/-! ## The names of binaries -/

/-- The matcher of the lines that run binaries is given the file names of the binaries. -/
theorem mem_names_runMatcher (hextension : x.extension = "") {binaries : List LaunchTarget}
    {name : List Char} : name ∈ (x.runMatcher binaries).names ↔
      name ≠ [] ∧ ∃ t ∈ binaries, ∃ n, t.binary.fileName? = some n ∧ Text.trim n.toList = name := by
  have hname : ∀ t : LaunchTarget, x.runName? t = t.binary.fileName? := by
    simp [runName?, hextension]
  simp only [runMatcher, Tool.Matcher.mem_names_ofNames, List.mem_filterMap, hname]
  grind

/-- No name begins a new part, and none ends with white space. -/
theorem of_mem_names_runMatcher (hextension : x.extension = "") {binaries : List LaunchTarget}
    {name : List Char} (h : name ∈ (x.runMatcher binaries).names) :
    '/' ∉ name ∧ Text.trimEnd name = name := by
  obtain ⟨-, t, -, n, hn, rfl⟩ := (mem_names_runMatcher hextension).mp h
  have hslash : '/' ∉ n.toList := (Path.isName_of_fileName? hn).slash
  exact ⟨fun h => hslash ((Text.infix_trim _).subset h),
    Text.trimEnd_eq_self_iff.mpr fun c hc => Text.isBlank_of_mem_getLast?_trimEnd hc⟩

/-- A name that goes on behind a word leads elsewhere than the word. -/
theorem fileName?_resolve_ne (hextension : x.extension = "") {binaries : List LaunchTarget}
    {directory tail more front : List Char} {n : String} (hn : '/' ∉ n.toList)
    (hword : ∀ c ∈ front ++ '/' :: n.toList, Tool.isGap c = false)
    (heq : directory ++ tail = front ++ '/' :: n.toList)
    (hname : tail ++ ' ' :: more ∈ (x.runMatcher binaries).names) (base : Path) :
    (Path.resolve (String.ofList (directory ++ (tail ++ ' ' :: more))) base).fileName?
      ≠ some n := by
  obtain ⟨hslash, hend⟩ := of_mem_names_runMatcher hextension hname
  have hblank : ∀ c ∈ front ++ '/' :: n.toList, Text.isBlank c = false :=
    fun c hc => Tool.isBlank_eq_false_of_isGap (hword c hc)
  have hread : directory ++ (tail ++ ' ' :: more) = front ++ '/' :: (n.toList ++ ' ' :: more) := by
    rw [← List.append_assoc, heq]
    simp
  have hslash : '/' ∉ n.toList ++ ' ' :: more := by
    simpa [hn] using fun h => hslash (by simp [h])
  have hend : Text.trimEnd (n.toList ++ ' ' :: more) = n.toList ++ ' ' :: more := by
    rw [Text.trimEnd_eq_self_iff] at hend ⊢
    simpa using hend
  -- The white space behind the word stays in the file name.
  have hspace : ' ' ∈ Path.unquote (n.toList ++ ' ' :: more) := by simp [Path.unquote]
  have hisName : Path.IsName (String.ofList (Path.unquote (n.toList ++ ' ' :: more))) :=
    Path.isName_of_exists (fun h => hslash (List.mem_filter.mp h).1) ⟨' ', hspace, by decide⟩
  rw [hread, Path.fileName?_resolve_append (fun c hc => hblank c (by simp [hc])) hend hisName]
  intro h
  have hn : ' ' ∈ n.toList := by rwa [← Option.some.inj h, String.toList_ofList]
  exact absurd (hblank ' ' (by simp [hn])) (by decide)

/-! ## Lines -/

/-- The arguments of a program are the words up to the first redirection. -/
theorem runArguments_dropWhile_isGap {a : List Char} (h : (Text.trimStart a).head? ≠ some '"') :
    runArguments (String.ofList (Text.trim (a.dropWhile Tool.isGap))) =
      ((Text.words a).takeWhile (!isRedirection ·)).map String.ofList := by
  rw [runArguments, String.toList_ofList, Tool.trim_dropWhile_isGap_iff.mpr h, Text.words_trim]

section Command

variable (hextension : x.extension = "") {binaries : List LaunchTarget} {line : String}
  {h : Directory.History} (hfollow : h.follow? line = none) {c : Tool.Command}
  (hcommand : (x.runMatcher binaries).command? line.toList = some c) (hdirectory : c.directory ≠ [])
  {path : Path} (hpath : Path.resolve (String.ofList (c.directory ++ c.name)) h.current = path)

include hextension hfollow hcommand hdirectory hpath

/-- A command with a directory runs what it leads to if there is a file, or one of the binaries. -/
theorem scanLine_of_command? (w : ω) :
    (x.invocationScanner binaries).scanLine line h w =
      (if x.isFile path = true ∨ ∃ t ∈ binaries, t.binary.same path = true then
        [⟨path, h.current, runArguments (String.ofList (Text.trim c.arguments))⟩]
      else [], h, w) := by
  have hempty : (x.runMatcher binaries).extension = [] := by
    simp [runMatcher, Tool.Matcher.ofNames, hextension]
  have hknown : (x.runMatcher binaries).knownPaths = binaries.map LaunchTarget.binary := rfl
  rw [(invocationScanner_follows x binaries).scanLine, hfollow]
  -- Without an extension the file name is the name that was read.
  simp only [Tool.Matcher.invocation?, hcommand, Option.bind_some, Tool.Matcher.fileName, hempty,
    hknown]
  split <;> split <;> simp_all

/-- It runs nothing else. -/
theorem eq_binary_of_scanLine
    (heq : (x.invocationScanner binaries).scanLine line h w = ([t], h, w)) : path = t.binary := by
  rw [scanLine_of_command? hextension hfollow hcommand hdirectory hpath] at heq
  have hruns := (Prod.mk.inj heq).1
  split at hruns
  · rw [← List.singleton_injective hruns]
  · cases hruns

end Command

section Binary

variable (hextension : x.extension = "") {binaries : List LaunchTarget} (ht : t ∈ binaries)
  {n : String} (hn : t.binary.fileName? = some n) {front a : List Char}
  (hword : ∀ c ∈ front ++ '/' :: n.toList, Tool.isGap c = false)

include hextension ht hn hword

/-- The file name of a binary without white space and quotes is looked for. -/
theorem mem_names_of_mem : n.toList ∈ (x.runMatcher binaries).names := by
  have hblank : ∀ c ∈ n.toList, Text.isBlank c = false :=
    fun c hc => Tool.isBlank_eq_false_of_isGap (hword c (by simp [hc]))
  exact (mem_names_runMatcher hextension).mpr
    ⟨(Path.isName_of_fileName? hn).ne_nil, t, ht, n, hn, Text.trim_eq_self_of_forall hblank⟩

/-- No name goes on behind the word if there is no white space in the names. -/
theorem endsAt_of_forall (hnames : ∀ other ∈ binaries, ∀ name, other.binary.fileName? = some name →
    ∀ c ∈ name.toList, Text.isBlank c = false) :
    Tool.EndsAt (x.runMatcher binaries).names (front ++ '/' :: n.toList) a := by
  refine ⟨n.toList, mem_names_of_mem hextension ht hn hword, ⟨front, '/', rfl, by decide⟩, ?_⟩
  rintro other - - ⟨more, gap, rest, hlonger, -⟩
  obtain ⟨-, t', ht', name, hname, htrim⟩ := (mem_names_runMatcher hextension).mp hlonger
  have hspace : ' ' ∈ name.toList := (Text.infix_trim _).subset (by simp [htrim])
  exact absurd (hnames t' ht' name hname ' ' hspace) (by decide)

/-- A line that leads to one of the binaries runs it exactly if the command is read up to the end of
its first word. -/
theorem scanLine_eq_iff_endsAt (ha : '\n' ∉ a) (hquote : (Text.trimStart a).head? ≠ some '"')
    {h : Directory.History}
    (hfollow : h.follow? (String.ofList (front ++ '/' :: n.toList ++ ' ' :: a)) = none)
    (hresolve : Path.resolve (String.ofList (front ++ '/' :: n.toList)) h.current = t.binary)
    (w : ω) :
    (x.invocationScanner binaries).scanLine
        (String.ofList (front ++ '/' :: n.toList ++ ' ' :: a)) h w
      = ([⟨t.binary, h.current, ((Text.words a).takeWhile (!isRedirection ·)).map String.ofList⟩],
        h, w) ↔ Tool.EndsAt (x.runMatcher binaries).names (front ++ '/' :: n.toList) a := by
  have hname := mem_names_of_mem hextension ht hn hword
  obtain ⟨c, hcommand, hdirectory, hc, hcases⟩ := Tool.Matcher.command?_of_isTail
    (m := x.runMatcher binaries) rfl (String.toList_eq_nil_iff.mpr hextension)
    (Tool.Matcher.pairwise_names_ofNames (binaries.filterMap x.runName?) false x.extension)
    hword ha ⟨_, hname, front, '/', rfl, by decide⟩
  rw [← String.toList_ofList (l := front ++ '/' :: n.toList ++ ' ' :: a)] at hcommand
  rcases hcases with ⟨hends, hread, harguments⟩ | ⟨hends, tail, more, hread, hmore⟩
  · have hknown : ∃ t' ∈ binaries, t'.binary.same t.binary = true :=
      ⟨t, ht, by simp [Path.same]⟩
    refine iff_of_true ?_ hends
    rw [scanLine_of_command? hextension hfollow hcommand hdirectory (hread ▸ hresolve),
      if_pos (.inr hknown), harguments, runArguments_dropWhile_isGap hquote]
  -- The file name of what is run has white space in it.
  · refine iff_of_false (fun heq => ?_) hends
    have hother := fileName?_resolve_ne hextension (Path.isName_of_fileName? hn).slash hword hread
      (hmore ▸ hc) h.current
    rw [← hmore, eq_binary_of_scanLine hextension hfollow hcommand hdirectory rfl heq] at hother
    exact hother hn

end Binary

/-- A line that leads to a binary of the trace, whatever the way is written like, runs it exactly if
the command is read up to the end of its first word. It is if there is no white space in the names
of the binaries. -/
theorem scanLine_invocationScanner_iff (hroot : x.root.Rooted) (hextension : x.extension = "")
    (hfound : (Scan.complete? x.binaryScanner isCancelled chunkSize trace (.start x.root) w).1
      = some found) (ht : t ∈ found) {n : String} (hn : t.binary.fileName? = some n)
    {front a : List Char} (hword : ∀ c ∈ front ++ '/' :: n.toList, Tool.isGap c = false)
    (ha : '\n' ∉ a) (hquote : (Text.trimStart a).head? ≠ some '"') {h : Directory.History}
    (hfollow : h.follow? (String.ofList (front ++ '/' :: n.toList ++ ' ' :: a)) = none)
    (hresolve : Path.resolve (String.ofList (front ++ '/' :: n.toList)) h.current = t.binary)
    (w' : ω) :
    let word := front ++ '/' :: n.toList
    let scanner := x.invocationScanner (dedup found)
    let scanned := scanner.scanLine (String.ofList (word ++ ' ' :: a)) h w'
    let target : LaunchTarget :=
      ⟨t.binary, h.current, ((Text.words a).takeWhile (!isRedirection ·)).map String.ofList⟩
    (scanned = ([target], h, w') ↔ Tool.EndsAt (x.runMatcher (dedup found)).names word a) ∧
      ((∀ other ∈ found, ∀ name, other.binary.fileName? = some name →
        ∀ c ∈ name.toList, Text.isBlank c = false) → scanned = ([target], h, w')) := by
  intro word scanner scanned target
  have hmem := mem_dedup_of_mem hroot hfound ht
  have hiff : scanned = ([target], h, w') ↔
      Tool.EndsAt (x.runMatcher (dedup found)).names word a :=
    scanLine_eq_iff_endsAt hextension hmem hn hword ha hquote hfollow hresolve w'
  refine ⟨hiff, fun hnames => hiff.mpr ?_⟩
  exact endsAt_of_forall hextension hmem hn hword
    fun other hother => hnames other (mem_of_mem_dedup hother)

/-- Steps up and down on the way make no difference, nor does a binary with a longer name. -/
theorem scanLine_invocationScanner_detour :
    let x := ofTools .standard (fun _ => false) ⟨"/w"⟩
    let trace := "gcc -o out/app a.c\ngcc -o out/my-app b.c\n"
    let found : List LaunchTarget :=
      [⟨⟨"/w/out/app"⟩, ⟨"/w"⟩, []⟩, ⟨⟨"/w/out/my-app"⟩, ⟨"/w"⟩, []⟩]
    let h : Directory.History := ⟨[⟨"/w"⟩], ⟨"/w/src"⟩⟩
    let line := "../out/./app --flag x >log y"
    (Scan.complete? x.binaryScanner (fun _ => false) 100 trace (.start x.root) ()).1 = some found ∧
      (Path.mk "/w/out/app").fileName? = some "app" ∧ h.follow? line = none ∧
      Path.resolve "../out/./app" ⟨"/w/src"⟩ = ⟨"/w/out/app"⟩ ∧
      (x.invocationScanner (dedup found)).scanLine line h () =
        ([⟨⟨"/w/out/app"⟩, ⟨"/w/src"⟩, ["--flag", "x"]⟩], h, ()) := by
  intro x trace found h line
  have hroot : x.root.Rooted := Path.rooted_iff.mpr (by decide +kernel)
  have hfound : (Scan.complete? x.binaryScanner (fun _ => false) 100 trace (.start x.root) ()).1
      = some found := by decide +kernel
  have hname : (Path.mk "/w/out/app").fileName? = some "app" := by decide +kernel
  have hfollow : h.follow? line = none := by decide +kernel
  have hresolve : Path.resolve "../out/./app" ⟨"/w/src"⟩ = ⟨"/w/out/app"⟩ := by decide +kernel
  have hgaps : ("../out/.".toList ++ '/' :: "app".toList).all (!Tool.isGap ·) = true := by decide
  have hword : ∀ c ∈ "../out/.".toList ++ '/' :: "app".toList, Tool.isGap c = false :=
    fun c hc => by simpa using List.all_eq_true.mp hgaps c hc
  have hall : ∀ other ∈ found, ∀ name ∈ other.binary.fileName?,
      name.toList.all (!Text.isBlank ·) = true := by decide +kernel
  have hnames : ∀ other ∈ found, ∀ name, other.binary.fileName? = some name →
      ∀ c ∈ name.toList, Text.isBlank c = false :=
    fun other hother name hname c hc => by
      simpa using List.all_eq_true.mp (hall other hother name hname) c hc
  have harguments : ((Text.words "--flag x >log y".toList).takeWhile (!isRedirection ·)).map
      String.ofList = ["--flag", "x"] := by decide +kernel
  have hline : String.ofList ("../out/.".toList ++ '/' :: "app".toList ++
      ' ' :: "--flag x >log y".toList) = line := by decide +kernel
  have hruns := (scanLine_invocationScanner_iff (x := x) (t := ⟨⟨"/w/out/app"⟩, ⟨"/w"⟩, []⟩)
    (a := "--flag x >log y".toList) (h := h) hroot rfl hfound List.mem_cons_self hname hword
    (by decide) (by decide) hfollow hresolve ()).2 hnames
  rw [harguments, hline] at hruns
  exact ⟨hfound, hname, hfollow, hresolve, hruns⟩

/-- Another binary with white space in its name takes the first argument as part of the command. -/
theorem scanLine_invocationScanner_whiteSpace :
    let x := ofTools .standard (fun _ => false) ⟨"/w"⟩
    let trace := "gcc -o foo a.c\ngcc -o \"foo bar\" b.c\n./foo bar baz\n"
    let found : List LaunchTarget := [⟨⟨"/w/foo"⟩, ⟨"/w"⟩, []⟩, ⟨⟨"/w/foo bar"⟩, ⟨"/w"⟩, []⟩]
    let h := Directory.History.start x.root
    (Scan.complete? x.binaryScanner (fun _ => false) 100 trace h ()).1 = some found ∧
      (Path.mk "/w/foo").fileName? = some "foo" ∧ h.follow? "./foo bar baz" = none ∧
      Path.resolve "./foo" h.current = ⟨"/w/foo"⟩ ∧
      (x.invocationScanner (dedup found)).scanLine "./foo bar baz" h () =
        ([⟨⟨"/w/foo bar"⟩, ⟨"/w"⟩, ["baz"]⟩], h, ()) := by
  decide +kernel

end Extractor

end BuildTrace.LaunchTarget
