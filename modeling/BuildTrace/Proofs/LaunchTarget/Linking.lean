import BuildTrace.LaunchTarget.Extraction
import BuildTrace.Proofs.CompileUnit.Grouping

/-!
# Lines that link programs

A line produces a binary if a compiler or a linker that it invokes makes a program. Each of the two
has switches of its own that say otherwise. Most compilers link, too, and are looked for among the
linkers as well: then the linker is asked only if the compiler makes no program.

This module says for each of them when it makes none, and compares them. Of the switches by which
nothing is linked to a program, those for all stages before the linker and for a shared library are
known to both, but the one for an object that can be linked again is known to the linkers alone.

## Main definitions

* `Tool.Invocation.Has`: one of some switches is there;
* `LaunchTarget.Barren`: nothing in the arguments makes or names a program.

## Main results

* `LaunchTarget.isSome_stemOf?_of_mem_files`: a source always names a program;
* `LaunchTarget.Extractor.compilerOutput?_eq_none_iff` and
  `LaunchTarget.Extractor.linkerOutput?_eq_none_iff`: when a tool makes no program;
* `LaunchTarget.Extractor.binaryOf?_eq_none_iff`: when a line produces no binary;
* `LaunchTarget.Extractor.binaryOf?_unlinked`: when it does in spite of such a switch.
-/

namespace BuildTrace

/-- One of the names is a whole switch among the arguments. -/
def Tool.Invocation.Has (i : Tool.Invocation) (names : List String) : Prop :=
  ∃ name ∈ names, Switch.Present (Switch.Style.ofTool i.toolName) i.arguments name

instance (i : Tool.Invocation) (names : List String) : Decidable (i.Has names) :=
  inferInstanceAs (Decidable (∃ name ∈ names, _))

theorem Tool.Invocation.Has.mono {i : Tool.Invocation} {names others : List String}
    (h : i.Has names) (hnames : names ⊆ others) : i.Has others := by
  obtain ⟨name, hname, hpresent⟩ := h
  exact ⟨name, hnames hname, hpresent⟩

namespace LaunchTarget

/-- The arguments of a compiler name neither sources nor objects, or the program would have to be
named after a source and there are only objects. -/
def Barren (i : Tool.Invocation) : Prop :=
  let style := Switch.Style.ofTool i.toolName
  Switch.files style i.arguments Language.sourceExtensions = [] ∧
    (Switch.files style i.arguments Language.objectExtensions = [] ∨
      style = .msvc ∧ Switch.single? style i.arguments ["Fe"] = none ∧
        (Switch.repeatable style i.arguments "Fo").head?.bind stemOf? = none)

/-- A program can be named after any source. -/
theorem isSome_stemOf?_of_mem_files {style : Switch.Style} {arguments file : String}
    (h : file ∈ Switch.files style arguments Language.sourceExtensions) :
    (stemOf? file).isSome = true := by
  obtain ⟨front, tail, hfile, htail⟩ := Switch.exists_extension_of_mem_files h
  have hextension := (Language.isExtension_of_mem_sourceExtensions htail).1
  rw [String.toList_ofList] at hextension
  obtain ⟨front, stem, rfl, hfront, hstem⟩ := Path.exists_atPart_append front
  have hname := Path.fileName?_append (hextension.of_map_toLower.isName hstem) hfront
  rw [String.toList_ofList, ← List.append_assoc, ← hfile, String.ofList_toList] at hname
  rw [stemOf?, Path.fileStem?, hname]
  rfl

namespace Extractor

variable (e : Extractor) {i : Tool.Invocation} {line : String} {base : Path}

/-- A compiler makes no program if a switch says so, or if there is nothing to make one of. -/
theorem compilerOutput?_eq_none_iff :
    e.compilerOutput? i = none ↔ i.Has ["c", "E", "S", "shared", "LD", "LDd"] ∨ Barren i := by
  rw [Tool.Invocation.Has, ← Switch.isPresent_iff (by decide), Barren, compilerOutput?]
  dsimp only
  split
  next hpresent => exact iff_of_true rfl (.inl hpresent)
  next hpresent =>
  -- No switch is in the way. What is left is decided by the sources, then by the objects.
  rw [or_iff_right hpresent]
  cases hsources : Switch.files (Switch.Style.ofTool i.toolName) i.arguments
      Language.sourceExtensions with
  | nil =>
    split
    next hobjects => exact iff_of_true rfl ⟨rfl, .inl (by simpa using hobjects)⟩
    next hobjects =>
      have hobjects : Switch.files (Switch.Style.ofTool i.toolName) i.arguments
          Language.objectExtensions ≠ [] := by simpa using hobjects
      rw [and_iff_right rfl, or_iff_right hobjects]
      split
      next hstyle => simp [hstyle]
      next hstyle => simp [hstyle]
  | cons source sources =>
    obtain ⟨stem, hstem⟩ := Option.isSome_iff_exists.mp
      (isSome_stemOf?_of_mem_files (hsources ▸ List.mem_cons_self : source ∈ _))
    split
    next hempty => cases hempty
    next =>
      split
      next hstyle => simp [hstem]
      next hstyle => simp

/-- A linker makes no program if a switch says so. -/
theorem linkerOutput?_eq_none_iff : e.linkerOutput? i = none ↔
    i.Has ["c", "E", "S", "r", "shared", "dll", "DLL", "lib", "LIB"] := by
  rw [Tool.Invocation.Has, ← Switch.isPresent_iff (by decide), linkerOutput?]
  dsimp only
  split
  next hpresent => exact iff_of_true rfl hpresent
  next hpresent => exact iff_of_false nofun hpresent

/-- A line produces no binary if neither the compiler nor the linker that it invokes makes a
program. -/
theorem binaryOf?_eq_none_iff : e.binaryOf? line base = none ↔
    (∀ i, e.compilers.invocation? e.isFile line base = some i →
      i.Has ["c", "E", "S", "shared", "LD", "LDd"] ∨ Barren i) ∧
    ∀ i, e.linkers.invocation? e.isFile line base = some i →
      i.Has ["c", "E", "S", "r", "shared", "dll", "DLL", "lib", "LIB"] := by
  simp only [binaryOf?, Option.map_eq_none_iff, Option.or_eq_none_iff, Option.bind_eq_none_iff,
    compilerOutput?_eq_none_iff, linkerOutput?_eq_none_iff]

/-- Each tool that the line invokes has a switch by which nothing is linked to a program. Then the
line produces no binary, unless it invokes a compiler for which the switch is none of its own, and
which has something to make a program of. -/
theorem binaryOf?_unlinked
    (h : ∀ i, e.compilers.invocation? e.isFile line base = some i ∨
      e.linkers.invocation? e.isFile line base = some i → i.Has ["c", "E", "S", "r", "shared"]) :
    e.binaryOf? line base = none ↔
      ∀ i, e.compilers.invocation? e.isFile line base = some i →
        i.Has ["c", "E", "S", "shared", "LD", "LDd"] ∨ Barren i := by
  rw [binaryOf?_eq_none_iff]
  exact and_iff_left fun i hi => (h i (.inr hi)).mono (by decide)

/-- A shared library is no program for the compiler either. -/
theorem binaryOf?_unlinked_shared :
    let e := ofTools .standard (fun _ => false) ⟨"/w"⟩
    let line := "gcc -r -shared -o all.so a.o"
    (∀ i, e.compilers.invocation? e.isFile line ⟨"/w"⟩ = some i ∨
      e.linkers.invocation? e.isFile line ⟨"/w"⟩ = some i →
        i.Has ["c", "E", "S", "r", "shared"]) ∧ e.binaryOf? line ⟨"/w"⟩ = none := by
  intro e line
  have hinvocation : ∀ matcher ∈ [e.compilers, e.linkers],
      matcher.invocation? e.isFile line ⟨"/w"⟩
        = some ⟨"", "gcc", ⟨"/w/gcc"⟩, false, "-r -shared -o all.so a.o"⟩ := by
    decide +kernel
  have hshared : Tool.Invocation.Has
      ⟨"", "gcc", ⟨"/w/gcc"⟩, false, "-r -shared -o all.so a.o"⟩ ["shared"] := by
    decide +kernel
  have hhas : ∀ i, e.compilers.invocation? e.isFile line ⟨"/w"⟩ = some i ∨
      e.linkers.invocation? e.isFile line ⟨"/w"⟩ = some i → i.Has ["shared"] := by
    rintro i (hi | hi)
    · rw [hinvocation _ List.mem_cons_self] at hi
      exact Option.some.inj hi ▸ hshared
    · rw [hinvocation _ (List.mem_cons_of_mem _ List.mem_cons_self)] at hi
      exact Option.some.inj hi ▸ hshared
  have hunlinked := fun i hi => (hhas i hi).mono (by decide : _ ⊆ ["c", "E", "S", "r", "shared"])
  exact ⟨hunlinked, (e.binaryOf?_unlinked hunlinked).mpr fun i hi =>
    .inl ((hhas i (.inl hi)).mono (by decide))⟩

/-- An object that can be linked again is no program for the linker, but it is one for the
compiler. -/
theorem binaryOf?_relocatable :
    let e := ofTools .standard (fun _ => false) ⟨"/w"⟩
    (∃ i, e.compilers.invocation? e.isFile "gcc -r -o all.o a.o" ⟨"/w"⟩ = some i ∧
        e.linkers.invocation? e.isFile "gcc -r -o all.o a.o" ⟨"/w"⟩ = some i ∧ i.Has ["r"]) ∧
      e.binaryOf? "gcc -r -o all.o a.o" ⟨"/w"⟩ = some ⟨"/w/all.o"⟩ ∧
      e.binaryOf? "ld -r -o all.o a.o" ⟨"/w"⟩ = none := by
  refine ⟨⟨⟨"", "gcc", ⟨"/w/gcc"⟩, false, "-r -o all.o a.o"⟩, ?_, ?_, ?_⟩, ?_, ?_⟩ <;>
    decide +kernel

end Extractor

end LaunchTarget

end BuildTrace
