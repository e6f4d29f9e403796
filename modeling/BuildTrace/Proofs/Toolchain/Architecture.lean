import BuildTrace.Proofs.CompileUnit.Standard
import BuildTrace.Proofs.Switch.Concatenation
import BuildTrace.Proofs.Switch.Token
import BuildTrace.Proofs.Switch.Written
import BuildTrace.Proofs.Text.Case
import BuildTrace.Proofs.Text.Split
import Mathlib.Data.Bool.AllAny

/-!
# The architecture of refined targets

The part of a target in front of its first dash names the architecture, and what is behind the dash
may say more of it. There is one name of an architecture that has a dash itself, `x86-64`. It is
taken as a whole, and nothing is said here of what comes behind it.

## Main definitions

* `Architecture.LeadsWithX64`: values that are `x86-64`, or begin with it and a dash;
* `CompileUnit.architectureSwitches`: the switches that may name the architecture.

## Main results

* `Architecture.parse?_append_dash`: when the first part decides;
* `CompileUnit.Extractor.architecture_refined`: a compiler line with a refined target has the
  architecture of the target.
-/

namespace BuildTrace

/-! ## Targets -/

namespace Architecture

variable {v s : List Char}

/-- What is read up to a dash does not depend on what is behind it. -/
theorem takeWhile_append_dash (s t : List Char) :
    (s ++ '-' :: t).takeWhile (· != '-') = s.takeWhile (· != '-') := by
  rw [List.takeWhile_append]
  split
  next hall => simp [(List.takeWhile_prefix _).eq_of_length hall]
  next => rfl

/-- The part in front of a dash decides, unless it is `x86-64`, or the whole is. -/
theorem parse?_append_dash (hblank : ∀ c ∈ v, Text.isBlank c = false)
    (hv : Text.lower v ≠ "x86-64".toList)
    (hvs : Text.lower v ++ '-' :: Text.lower (Text.trimEnd s) ≠ "x86-64".toList) :
    parse? (String.ofList (v ++ '-' :: s)) = parse? (String.ofList v) := by
  have htrim : Text.trim (v ++ '-' :: s) = v ++ '-' :: Text.trimEnd s :=
    Text.trim_append_cons hblank (by decide) s
  simp only [parse?, String.toList_ofList, htrim, Text.trim_eq_self_of_forall hblank,
    Text.lower_append_dash, if_neg hv, if_neg hvs]
  -- What is cut off in front leaves a text that goes on with the dash.
  rw [Text.strip?_append_cons (by decide)]
  cases Text.strip? "host".toList (Text.lower v) with
  | none => simp only [Option.map_none, Option.getD_none, takeWhile_append_dash]
  | some rest => simp only [Option.map_some, Option.getD_some, takeWhile_append_dash]

/-- The value is `x86-64`, in any case, or it begins with that and a dash. -/
def LeadsWithX64 (value : List Char) : Prop :=
  "x86-64-".toList <+: Text.lower (Text.trim value) ++ ['-']

instance (value : List Char) : Decidable (LeadsWithX64 value) :=
  inferInstanceAs (Decidable ("x86-64-".toList <+: Text.lower (Text.trim value) ++ ['-']))

/-- A refined target has the architecture of the target. -/
theorem parse?_refined (hblank : ∀ c ∈ v, Text.isBlank c = false)
    (hvs : ¬LeadsWithX64 (v ++ '-' :: s)) :
    parse? (String.ofList (v ++ '-' :: s)) = parse? (String.ofList v) := by
  rw [LeadsWithX64, Text.trim_append_cons hblank (by decide), Text.lower_append_dash] at hvs
  refine parse?_append_dash hblank (fun hv => hvs ?_) (fun hv => hvs ?_)
  · rw [hv, List.append_assoc]
    exact ⟨Text.lower (Text.trimEnd s) ++ ['-'], by simp⟩
  · rw [hv]
    exact List.prefix_refl _

/-- As a whole, `x86-64` is a name of its own. -/
theorem parse?_of_lower_eq {value : String}
    (h : Text.lower (Text.trim value.toList) = "x86-64".toList) : parse? value = some .x64 :=
  if_pos h

end Architecture

/-! ## Switches -/

namespace CompileUnit

open Switch (IsBare closesQuotes pending? recognize?)

/-- The names of the switches whose value may name the architecture. -/
def targetNames : List String := ["target", "march", "arch"]

/-- The switches that may name the architecture, in order. -/
def architectureSwitches (style : Switch.Style) (arguments : String) : List Switch :=
  Switch.ordered style arguments ["m32", "m64"] targetNames

variable {style : Switch.Style}

/-- Only the architecture that a value names matters. -/
theorem architecture?_congr {arguments others name v v' : String} {before after : List Switch}
    (harguments : architectureSwitches style arguments = before ++ ⟨name, some v⟩ :: after)
    (hothers : architectureSwitches style others = before ++ ⟨name, some v'⟩ :: after)
    (hparse : Architecture.parse? v' = Architecture.parse? v) :
    architecture? style others = architecture? style arguments := by
  rw [architectureSwitches, targetNames] at harguments hothers
  rw [architecture?, architecture?, harguments, hothers]
  simp only [List.foldl_append, List.foldl_cons, Option.bind_some, hparse]

/-- White space at the ends of the arguments does not matter. -/
theorem architecture?_trim (style : Switch.Style) (arguments : String) :
    architecture? style (String.ofList (Text.trim arguments.toList))
      = architecture? style arguments := by
  simp only [architecture?, Switch.ordered, String.toList_ofList, Switch.tokens_trim]

theorem names_architecture : Switch.names ["m32", "m64"] targetNames =
    [⟨"target".toList, true⟩, ⟨"march".toList, true⟩, ⟨"arch".toList, true⟩,
      ⟨"m32".toList, false⟩, ⟨"m64".toList, false⟩] := by
  rfl

/-- Leads and names are told from each other, and none of their characters cuts a token. -/
theorem isBare_lead {lead : List Char} (h : lead ∈ style.leads) : IsBare lead := by
  have hall : ∀ style : Switch.Style, ∀ lead ∈ style.leads, IsBare lead := by
    intro style
    cases style <;> decide
  exact hall style lead h

theorem of_mem_targetNames {name : String} (h : name ∈ targetNames) :
    name.toList ≠ [] ∧ name.toList.head? ≠ some '-' ∧ IsBare name.toList := by
  simp only [targetNames, List.mem_cons, List.not_mem_nil, or_false] at h
  rcases h with rfl | rfl | rfl <;> exact ⟨by decide, by decide, by decide⟩

theorem recognize?_equals {lead value : List Char} {name : String} (hlead : lead ∈ style.leads)
    (hname : name ∈ targetNames) (hvalue : IsBare value) :
    recognize? style (Switch.names ["m32", "m64"] targetNames)
      (lead ++ (name.toList ++ '=' :: value)) = some (⟨name.toList, true⟩, .glued value) := by
  obtain ⟨hne, hdash, hbare⟩ := of_mem_targetNames hname
  have htoken : IsBare (lead ++ (name.toList ++ '=' :: value)) :=
    (isBare_lead hlead).append (hbare.append (List.forall_mem_cons.mpr ⟨by decide, hvalue⟩))
  rw [recognize?, Switch.unwrapQuotes_of_isBare htoken,
    Switch.spelled?_append hlead (by simp [hne]) (by rwa [List.head?_append_of_ne_nil _ hne]),
    names_architecture]
  generalize (lead == Switch.longLead) = long
  simp only [targetNames, List.mem_cons, List.not_mem_nil, or_false] at hname
  rcases hname with rfl | rfl | rfl <;> cases long <;> rfl

theorem recognize?_separate {lead : List Char} {name : String} (hlead : lead ∈ style.leads)
    (hname : name ∈ targetNames) :
    recognize? style (Switch.names ["m32", "m64"] targetNames) (lead ++ name.toList)
      = some (⟨name.toList, true⟩, .separate) := by
  obtain ⟨hne, hdash, hbare⟩ := of_mem_targetNames hname
  rw [recognize?, Switch.unwrapQuotes_of_isBare ((isBare_lead hlead).append hbare),
    Switch.spelled?_append hlead hne hdash, names_architecture]
  generalize (lead == Switch.longLead) = long
  simp only [targetNames, List.mem_cons, List.not_mem_nil, or_false] at hname
  rcases hname with rfl | rfl | rfl <;> cases long <;> rfl

/-- Bare values are read as they are written. -/
theorem ofValue_of_isBare {name : String} {value : List Char} (h : IsBare value) (valued : Bool) :
    Switch.ofValue ⟨name.toList, valued⟩ value = ⟨name, some (String.ofList value)⟩ := by
  have hvalue : Path.unquote value = value := by
    rw [Path.unquote, List.filter_eq_self]
    intro c hc
    simpa [Switch.isQuote] using (h c hc).2
  rw [Switch.ofValue, hvalue, String.ofList_toList]

/-- A target as it is written among other arguments. -/
structure WrittenTarget where
  /-- What is in front of the switch. -/
  front : String
  /-- The lead of the switch. -/
  lead : List Char
  /-- Its name. -/
  name : String
  /-- What stands between the name and the value. -/
  join : String
  /-- What is behind the value. -/
  behind : String

namespace WrittenTarget

/-- The arguments with the target. -/
def arguments (t : WrittenTarget) (value : String) : String :=
  t.front ++ " " ++ (String.ofList t.lead ++ t.name ++ t.join ++ value) ++ " " ++ t.behind

/-- The target is read: what is in front of it neither quotes it nor takes it for a value, and it is
written in one of the usual ways. -/
structure IsRead (style : Switch.Style) (t : WrittenTarget) : Prop where
  /-- No quote is open. -/
  closed : closesQuotes none t.front.toList = true
  /-- No switch lacks its value. -/
  free : pending? style (Switch.names ["m32", "m64"] targetNames) (Switch.tokens t.front.toList)
    = none
  /-- The lead is one of the style. -/
  lead : t.lead ∈ style.leads
  /-- The name is that of a target. -/
  name : t.name ∈ targetNames
  /-- The value is behind an equals sign or a blank. -/
  join : t.join = "=" ∨ t.join = " "

variable {t : WrittenTarget} {value : String}

/-- The switch is read before all that is behind it. -/
theorem IsRead.ofTokens (h : t.IsRead style) (hne : value ≠ "") (hvalue : IsBare value.toList) :
    closesQuotes none (t.lead ++ t.name.toList ++ t.join.toList ++ value.toList) = true ∧
      ∀ others, Switch.ofTokens style (Switch.names ["m32", "m64"] targetNames)
        (Switch.tokens (t.lead ++ t.name.toList ++ t.join.toList ++ value.toList) ++ others) =
          ⟨t.name, some value⟩ ::
            Switch.ofTokens style (Switch.names ["m32", "m64"] targetNames) others := by
  obtain ⟨hnameNe, -, hnameBare⟩ := of_mem_targetNames h.name
  have hfront : IsBare (t.lead ++ t.name.toList) := (isBare_lead h.lead).append hnameBare
  have hfrontNe : t.lead ++ t.name.toList ≠ [] := by simp [hnameNe]
  have hvalueNe : value.toList ≠ [] := by simpa using hne
  rcases h.join with hjoin | hjoin
  -- The switch is one token.
  · have hbare : IsBare (t.lead ++ t.name.toList ++ t.join.toList ++ value.toList) :=
      (hfront.append (hjoin ▸ by decide)).append hvalue
    have htoken : t.lead ++ t.name.toList ++ t.join.toList ++ value.toList =
        t.lead ++ (t.name.toList ++ '=' :: value.toList) := by simp [hjoin]
    refine ⟨hbare.unbroken.closesQuotes_eq, fun others => ?_⟩
    rw [Switch.tokens_of_unbroken hbare.unbroken (by simp [hnameNe]), htoken,
      List.singleton_append, Switch.ofTokens, recognize?_equals h.lead h.name hvalue]
    dsimp only
    rw [ofValue_of_isBare hvalue, String.ofList_toList]
  -- The name and the value are two tokens.
  · have htext : t.lead ++ t.name.toList ++ t.join.toList ++ value.toList =
        t.lead ++ t.name.toList ++ ' ' :: value.toList := by simp [hjoin]
    rw [htext, Switch.tokens_append_blank hfront.unbroken.closesQuotes_eq,
      Switch.tokens_of_unbroken hfront.unbroken hfrontNe,
      Switch.tokens_of_unbroken hvalue.unbroken hvalueNe]
    refine ⟨?_, fun others => ?_⟩
    · rw [hfront.unbroken.closesQuotes_append]
      exact hvalue.unbroken.closesQuotes_eq
    · rw [List.singleton_append, List.cons_append, List.singleton_append, Switch.ofTokens,
        recognize?_separate h.lead h.name]
      dsimp only
      rw [ofValue_of_isBare hvalue, String.ofList_toList]

/-- The switch comes behind those in front of it. -/
theorem IsRead.architectureSwitches_eq (h : t.IsRead style) (hne : value ≠ "")
    (hvalue : IsBare value.toList) :
    architectureSwitches style (t.arguments value) =
      architectureSwitches style t.front ++ ⟨t.name, some value⟩ ::
        architectureSwitches style t.behind := by
  obtain ⟨hitem, hread⟩ := h.ofTokens hne hvalue
  have htext : (t.arguments value).toList = t.front.toList ++ ' ' ::
      (t.lead ++ t.name.toList ++ t.join.toList ++ value.toList ++ ' ' :: t.behind.toList) := by
    simp [arguments]
  rw [architectureSwitches, Switch.ordered, htext, Switch.tokens_append_blank h.closed,
    Switch.tokens_append_blank hitem, Switch.ofTokens_append, h.free]
  exact congrArg (_ ++ ·) (hread _)

end WrittenTarget

/-! ## Lines -/

namespace Extractor

variable {ω : Type}

/-- The units of a line have the mode of its compiler and its switches. -/
theorem mode_of_mem_extract {e : Extractor ω} {base : Path} {w : ω} {line : String}
    {i : Tool.Invocation} {u : CompileUnit}
    (hi : e.compilers.invocation? e.isFile line base = some i)
    (h : u ∈ (e.extract line base w).1) :
    u.mode =
      Toolchain.modeOf (e.compiler i w).1 (architecture? (.ofTool i.toolName) i.arguments) := by
  rw [fst_extract hi] at h
  obtain ⟨group, -, rfl⟩ := List.mem_map.mp h
  rfl

/-- The invocation with other arguments. -/
def withArguments (i : Tool.Invocation) (arguments : String) : Tool.Invocation :=
  { i with arguments := String.ofList (Text.trim arguments.toList) }

/-- The units of two lines that invoke a compiler with arguments that name the same architecture
have the same mode. -/
theorem mode_eq_of_architecture?_eq {e : Extractor ω} {base : Path} {w : ω}
    {line line' arguments others : String} {i : Tool.Invocation} {u u' : CompileUnit}
    (hline : e.compilers.invocation? e.isFile line base = some (withArguments i arguments))
    (hline' : e.compilers.invocation? e.isFile line' base = some (withArguments i others))
    (harchitecture : architecture? (.ofTool i.toolName) others
      = architecture? (.ofTool i.toolName) arguments)
    (hu : u ∈ (e.extract line base w).1) (hu' : u' ∈ (e.extract line' base w).1) :
    u'.mode = u.mode := by
  rw [mode_of_mem_extract hline hu, mode_of_mem_extract hline' hu']
  simp only [withArguments, architecture?_trim, harchitecture]
  rfl

end Extractor

end CompileUnit

end BuildTrace
